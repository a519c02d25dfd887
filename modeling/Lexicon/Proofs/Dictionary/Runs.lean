import Lexicon.Dictionary.Run
import Lexicon.Proofs.Source.LineReading

/-!
# Runs

A run is made of single reads, and a read of physical lines is made of steps of `advance`. A step
neither looks at what is remembered about comments nor changes it; the end of the source, once met,
is met again.

## Key results

- `run_of_line`, `run_of_undecodable`, `run_of_unreadable`, `run_of_end`: a run, read by read
- `advance_cases`: what one step can do
- `advance_holding`: a step leaves alone what is remembered about comments
- `advance_again`: behind the end there is the end
- `read_of_advance`, `read_of_advance_end`, `advance_of_next`, `read_withoutComments`: a read as a step
- `read_keeps`: what every step keeps, every read keeps
-/

namespace Lexicon.Dictionary

/-! ## Items of a run -/

private theorem runAfter_append (mode : ReadMode) (done more : List (Except Failure Line))
    (d : Dictionary) : runAfter mode (done ++ more) d = more.reverse ++ runAfter mode done d := by
  fun_induction runAfter mode done d with
  | case1 done d line d' hr ih =>
    rw [runAfter, hr]
    exact ih
  | case2 done d d' hr =>
    rw [runAfter, hr]
    exact List.reverse_append
  | case3 done d n e d' hr ih =>
    rw [runAfter, hr]
    exact ih
  | case4 done d failure d' hfailure hr =>
    -- A failure ends the run, unless it is a line that cannot be decoded
    have hlast : runAfter mode (done ++ more) d = (.error failure :: (done ++ more)).reverse := by
      rw [runAfter, hr]
      split
      · rename_i heq; cases heq
      · rename_i heq; cases heq
      · rename_i heq; cases heq; exact absurd rfl (hfailure _ _)
      · rename_i heq; cases heq; rfl
    rw [hlast, ← List.cons_append, List.reverse_append]

private theorem runAfter_singleton (mode : ReadMode) (item : Except Failure Line) (d : Dictionary) :
    runAfter mode [item] d = item :: d.run mode :=
  runAfter_append mode [] [item] d

variable {mode : ReadMode} {d d' : Dictionary}

theorem run_of_line {line : Line} (h : d.read mode = (.ok (some line), d')) :
    d.run mode = .ok line :: d'.run mode := by
  rw [run, runAfter, h]
  exact runAfter_singleton mode _ d'

theorem run_of_undecodable {n : Nat} {e : Encoding}
    (h : d.read mode = (.error (.undecodable n e), d')) :
    d.run mode = .error (.undecodable n e) :: d'.run mode := by
  rw [run, runAfter, h]
  exact runAfter_singleton mode _ d'

theorem run_of_unreadable {fault : ReadFault} (h : d.read mode = (.error (.unreadable fault), d')) :
    d.run mode = [.error (.unreadable fault)] := by
  rw [run, runAfter, h]
  rfl

theorem run_of_end (h : d.read mode = (.ok none, d')) : d.run mode = [] := by
  rw [run, runAfter, h]
  rfl

/-- A read that uses a line up leaves fewer lines to give out. -/
theorem remaining_lt_of_read {r : LineResult} (h : d.read mode = (r, d'))
    (hused : usedLine r = true) : d'.remaining < d.remaining := by
  have hlt : usedLine (d.read mode).1 = true → _ := read_remaining_lt
  rw [h] at hlt
  exact hlt hused

/-- A run is determined by its first read. -/
theorem run_congr (h : d.read mode = d'.read mode) : d.run mode = d'.run mode := by
  rw [run, runAfter, h, run, runAfter.eq_1 mode [] d']

/-! ## Steps -/

variable {headwordsOnly : Bool}

theorem decodeLine_cases (headwordsOnly : Bool) (d : Dictionary) (raw : PhysicalLine) :
    (∃ line, d.decodeLine headwordsOnly raw = .ok (some line)) ∨
      ∃ n e, d.decodeLine headwordsOnly raw = .error (.undecodable n e) := by
  unfold decodeLine
  extract_lets bytes
  split
  · exact .inl ⟨_, rfl⟩
  · exact .inr ⟨_, _, rfl⟩

private theorem decodeLine_ne_end (headwordsOnly : Bool) (d : Dictionary) (raw : PhysicalLine) :
    d.decodeLine headwordsOnly raw ≠ .ok none := by
  intro h
  rcases decodeLine_cases headwordsOnly d raw with ⟨line, hline⟩ | ⟨n, e, hline⟩
  · rw [h] at hline
    cases hline
  · rw [h] at hline
    cases hline

theorem advance_of_firstLine {raw : PhysicalLine} (h : d.firstLine = some raw) :
    d.advance headwordsOnly = (d.decodeLine headwordsOnly raw, { d with firstLine := none }) := by
  unfold advance
  split
  · rename_i hfirst
    rw [h] at hfirst
    cases hfirst
    rfl
  · rename_i hfirst
    rw [h] at hfirst
    cases hfirst

theorem advance_of_readLine (h : d.firstLine = none) :
    d.advance headwordsOnly =
      match d.stream.readLine d.encoding with
      | (.error fault, s) => (.error (.unreadable fault), { d with stream := s })
      | (.ok none, s) => (.ok none, { d with stream := s })
      | (.ok (some raw), s) =>
        (decodeLine headwordsOnly { d with stream := s } raw, { d with stream := s }) := by
  unfold advance
  split
  · rename_i hfirst
    rw [h] at hfirst
    cases hfirst
  · rfl

/-- What one step can do: give a line, fail to decode one, fail to read, or meet the end. -/
theorem advance_cases (headwordsOnly : Bool) (d : Dictionary) :
    ∃ d', (∃ line, d.advance headwordsOnly = (.ok (some line), d')) ∨
      (∃ n e, d.advance headwordsOnly = (.error (.undecodable n e), d')) ∨
      (∃ fault, d.advance headwordsOnly = (.error (.unreadable fault), d')) ∨
      d.advance headwordsOnly = (.ok none, d') := by
  cases hfirst : d.firstLine with
  | some raw =>
    rw [advance_of_firstLine hfirst]
    rcases decodeLine_cases headwordsOnly d raw with ⟨line, hline⟩ | ⟨n, e, hline⟩
    · exact ⟨_, .inl ⟨line, by rw [hline]⟩⟩
    · exact ⟨_, .inr (.inl ⟨n, e, by rw [hline]⟩)⟩
  | none =>
    rw [advance_of_readLine hfirst]
    split
    · exact ⟨_, .inr (.inr (.inl ⟨_, rfl⟩))⟩
    · exact ⟨_, .inr (.inr (.inr rfl))⟩
    · rename_i raw s _
      rcases decodeLine_cases headwordsOnly { d with stream := s } raw with
        ⟨line, hline⟩ | ⟨n, e, hline⟩
      · exact ⟨_, .inl ⟨line, by rw [hline]⟩⟩
      · exact ⟨_, .inr (.inl ⟨n, e, by rw [hline]⟩)⟩

theorem ended_of_advance {r : LineResult} (h : d.advance headwordsOnly = (r, d')) :
    d'.ended = d.ended := by
  unfold advance at h
  split at h
  · cases h; rfl
  · split at h
    · cases h; rfl
    · cases h; rfl
    · cases h; rfl

/-- A step that uses a line up leaves less to read. -/
theorem size_lt_of_advance {r : LineResult} (h : d.advance headwordsOnly = (r, d'))
    (hused : usedLine r = true) : d'.size < d.size := by
  have hlt : usedLine (d.advance headwordsOnly).1 = true → _ := advance_size_lt
  rw [h] at hlt
  exact hlt hused

/-- The same dictionary, with something else remembered about comments. -/
def holding (d : Dictionary) (commentOpen : Bool) (joined : Option Line) : Dictionary :=
  { d with commentOpen, joined }

/-- A step leaves alone what is remembered about comments. -/
theorem advance_holding {r : LineResult} (h : d.advance headwordsOnly = (r, d'))
    (commentOpen : Bool) (joined : Option Line) :
    (d.holding commentOpen joined).advance headwordsOnly = (r, d'.holding commentOpen joined) := by
  cases hfirst : d.firstLine with
  | some raw =>
    have hfirst' : (d.holding commentOpen joined).firstLine = some raw := hfirst
    rw [advance_of_firstLine hfirst] at h
    rw [advance_of_firstLine hfirst']
    cases h
    rfl
  | none =>
    have hfirst' : (d.holding commentOpen joined).firstLine = none := hfirst
    have hsame : (d.holding commentOpen joined).stream.readLine
        (d.holding commentOpen joined).encoding = d.stream.readLine d.encoding := rfl
    rw [advance_of_readLine hfirst] at h
    rw [advance_of_readLine hfirst', hsame]
    -- The stream is the same, so the same comes out of it
    rcases hread : d.stream.readLine d.encoding with ⟨_ | _ | raw, s⟩
    all_goals
      rw [hread] at h
      cases h
      rfl

/-- Behind the end there is the end, whatever the stream and however it is read. -/
theorem advance_again (h : d.advance headwordsOnly = (.ok none, d')) (headwordsOnly' : Bool) :
    ∃ d'', d'.advance headwordsOnly' = (.ok none, d'') := by
  cases hfirst : d.firstLine with
  | some raw =>
    rw [advance_of_firstLine hfirst] at h
    exact absurd (congrArg Prod.fst h) (decodeLine_ne_end _ d raw)
  | none =>
    rw [advance_of_readLine hfirst] at h
    split at h
    · cases h
    · rename_i s hread
      cases h
      obtain ⟨s', hread', -⟩ := (LineStream.before_of_readLine_none hread).readLine_nil
      refine ⟨{ d with stream := s' }, ?_⟩
      rw [advance_of_readLine (show Dictionary.firstLine { d with stream := s } = none from hfirst)]
      rw [hread']
    · exact absurd (congrArg Prod.fst h) (decodeLine_ne_end _ _ _)

/-! ## Steps of logical lines -/

theorem advanceJoined_of_line {line : Line}
    (h : d.advance headwordsOnly = (.ok (some line), d')) :
    d.advanceJoined headwordsOnly =
      if (Comment.strip d'.commentOpen line.text).2 then
        (d'.holding true (some (d'.join line))).advanceJoined headwordsOnly
      else (.ok (some (d'.join line)), d'.holding false none) := by
  rw [advanceJoined, h]
  rfl

theorem advanceJoined_of_end (h : d.advance headwordsOnly = (.ok none, d')) :
    d.advanceJoined headwordsOnly =
      (.ok d'.joined, { d'.holding false none with ended := d'.joined.isNone }) := by
  rw [advanceJoined, h]
  rfl

theorem advanceJoined_of_error {failure : Failure}
    (h : d.advance headwordsOnly = (.error failure, d')) :
    d.advanceJoined headwordsOnly = (.error failure, d') := by
  rw [advanceJoined, h]

/-! ## Reads

Before the end has been reported a read is a step; the one that meets the end reports it. -/

theorem read_of_advance {r : LineResult} (hended : d.ended = false)
    (h : d.advance headwordsOnly = (r, d')) (hr : r ≠ .ok none) :
    d.read ⟨headwordsOnly, false⟩ = (r, d') := by
  simp only [read, next, hended, h, Bool.false_eq_true, if_false]
  split
  · rename_i heq
    cases heq
    exact absurd rfl hr
  · rfl

theorem read_of_advance_end (hended : d.ended = false)
    (h : d.advance headwordsOnly = (.ok none, d')) :
    d.read ⟨headwordsOnly, false⟩ = (.ok none, { d' with ended := true }) := by
  simp only [read, next, hended, h, Bool.false_eq_true, if_false]

/-- A read of a physical line that neither comes too late nor meets the end is a step. -/
theorem advance_of_next {r : LineResult} (h : d.next headwordsOnly = (r, d')) (hend : r ≠ .ok none)
    (hlate : r ≠ .error .pastEnd) : d.advance headwordsOnly = (r, d') := by
  unfold next at h
  split at h
  · cases h
    exact absurd rfl hlate
  · split at h
    · cases h
      exact absurd rfl hend
    · exact h

theorem read_withoutComments (hended : d.ended = false) :
    d.read ⟨headwordsOnly, true⟩ = d.advanceJoined headwordsOnly := by
  simp [read, nextJoined, hended]

/-! ## What reads keep -/

section Keeps

variable {P : Dictionary → Prop}
  (remembering : ∀ {d : Dictionary} (commentOpen : Bool) (joined : Option Line) (ended : Bool),
    P d → P { d with commentOpen, joined, ended })
  (step : ∀ {headwordsOnly : Bool} {d d' : Dictionary} {r : LineResult},
    P d → d.advance headwordsOnly = (r, d') → P d')
include remembering step

private theorem advanceJoined_keeps {r : LineResult} (hd : P d)
    (h : d.advanceJoined headwordsOnly = (r, d')) : P d' := by
  fun_induction advanceJoined headwordsOnly d with
  | case1 d failure t hadvance =>
    cases h
    exact step hd hadvance
  | case2 d t hadvance =>
    cases h
    exact remembering _ _ _ (step hd hadvance)
  | case3 d line t hadvance joined hopen ih => exact ih (remembering _ _ _ (step hd hadvance)) h
  | case4 d line t hadvance joined hclosed =>
    cases h
    exact remembering _ _ _ (step hd hadvance)

/-- What every step keeps, whatever is remembered about comments and the end, every read keeps. -/
theorem read_keeps {r : LineResult} (hd : P d) (h : d.read mode = (r, d')) : P d' := by
  unfold read at h
  split at h
  · unfold nextJoined at h
    split at h
    · cases h
      exact hd
    · exact advanceJoined_keeps remembering step hd h
  · unfold next at h
    split at h
    · cases h
      exact hd
    · split at h
      · rename_i t hadvance
        cases h
        exact remembering _ _ _ (step hd hadvance)
      · exact step hd h

end Keeps

/-! ## Runs of physical lines -/

section Physical

variable (hended : d.ended = false)
include hended

theorem run_of_advance_line {line : Line} (h : d.advance headwordsOnly = (.ok (some line), d')) :
    d.run ⟨headwordsOnly, false⟩ = .ok line :: d'.run ⟨headwordsOnly, false⟩ :=
  run_of_line (read_of_advance hended h nofun)

theorem run_of_advance_undecodable {n : Nat} {e : Encoding}
    (h : d.advance headwordsOnly = (.error (.undecodable n e), d')) :
    d.run ⟨headwordsOnly, false⟩ =
      .error (.undecodable n e) :: d'.run ⟨headwordsOnly, false⟩ :=
  run_of_undecodable (read_of_advance hended h nofun)

theorem run_of_advance_unreadable {fault : ReadFault}
    (h : d.advance headwordsOnly = (.error (.unreadable fault), d')) :
    d.run ⟨headwordsOnly, false⟩ = [.error (.unreadable fault)] :=
  run_of_unreadable (read_of_advance hended h nofun)

theorem run_of_advance_end (h : d.advance headwordsOnly = (.ok none, d')) :
    d.run ⟨headwordsOnly, false⟩ = [] :=
  run_of_end (read_of_advance_end hended h)

end Physical

end Lexicon.Dictionary
