import Lexicon.Proofs.Dictionary.PhysicalLines
import Lexicon.Proofs.Source.FaultyLines

/-!
# Repeating reads that have failed

Faults that an uncompressed source has after a dictionary has been opened over it go by without a
trace: if each read of a line that fails is repeated, the lines, errors, line counts and line endings
are those of the source without the faults. That holds of logical lines as well, in the middle of
which a read may fail: the lines joined so far are kept.

## Key results

- `Dictionary.resumes_next`, `Dictionary.resumes_nextJoined`: reading a line
- `Dictionary.withoutFaults_ofSource`: a dictionary that could be opened can be opened without the
  faults
- `Dictionary.readsThrough_ofSource`: what is seen in any sequence of reads
-/

namespace Lexicon

/-! ## Opening -/

/-- The first read of the source, which decides, does not start like a compressed member. -/
def Source.Uncompressed (s : Source) : Prop :=
  ∀ chunk rest, s = .bytes chunk :: rest → ¬ Gzip.MemberHeader.magic <+: chunk

namespace Stream

variable {s s' : Stream}

theorem withoutFaults_ofSource {source : Source} (hplain : source.Uncompressed)
    (h : ofSource source = .ok s) :
    ofSource source.withoutFaults = .ok s.withoutFaults ∧ s.IsPlain := by
  unfold ofSource at h
  split at h
  · cases h
    exact ⟨rfl, ⟨[], []⟩, rfl⟩
  · cases h
  · cases h
  · rename_i chunk rest
    have hmagic : ¬ Gzip.MemberHeader.magic.isPrefixOf chunk = true := by
      rw [List.isPrefixOf_iff_prefix]
      exact hplain chunk rest rfl
    rw [if_neg hmagic] at h
    cases h
    -- The first read is no fault, so it is there in both sources
    have hok : readFailed (Buffered.fill ⟨[], .bytes chunk :: rest⟩).1 = false := by
      rw [Buffered.readFailed_fill rfl]
      exact Source.readFailed_read_bytes _ _ _
    obtain ⟨hsame, -⟩ := (Buffered.resumes_fill ⟨[], .bytes chunk :: rest⟩).pass rfl hok
    have hcalm : (Buffered.fill ⟨[], .bytes chunk :: Source.withoutFaults rest⟩).2 =
        (Buffered.fill ⟨[], .bytes chunk :: rest⟩).2.withoutFaults := congrArg Prod.snd hsame
    refine ⟨?_, _, rfl⟩
    show ofSource (.bytes chunk :: Source.withoutFaults rest) = _
    rw [ofSource, if_neg hmagic, hcalm]
    rfl

theorem fill_of_lt {n : Nat} {buffered : List UInt8} (h : ¬ n ≤ buffered.length) :
    s.fill n buffered =
      match s.read buffered.length with
      | (.error fault, _) => .error fault
      | (.ok [], _) => .ok (buffered, exhausted)
      | (.ok (b :: chunk), s') => s'.fill n (buffered ++ b :: chunk) := by
  rw [fill, if_neg h]
  split
  · rename_i hread
    rw [hread]
  · rename_i hread
    rw [hread]
  · rename_i hread
    rw [hread]

/-- The first bytes are the same without faults, if they can be read with them. -/
theorem withoutFaults_fill {n : Nat} {buffered b : List UInt8} (hplain : s.IsPlain)
    (hroom : buffered.length ≤ s.capacity) (hn : n ≤ bufferStep)
    (h : s.fill n buffered = .ok (b, s')) :
    s.withoutFaults.fill n buffered = .ok (b, s'.withoutFaults) ∧ s'.IsPlain ∧
      b.length ≤ s'.capacity := by
  fun_induction Stream.fill n buffered s with
  | case1 buffered s hle =>
    cases h
    rw [fill, if_pos hle]
    exact ⟨rfl, hplain, hroom⟩
  | case2 => cases h
  | case3 buffered s hlt rest hr =>
    cases h
    obtain ⟨hsame, -⟩ := (resumes_read hplain hroom).pass hr rfl
    have hle : b.length ≤ bufferStep := by omega
    rw [fill_of_lt hlt, hsame]
    exact ⟨rfl, ⟨⟨[], []⟩, rfl⟩, hle⟩
  | case4 buffered s hlt byte chunk rest hr =>
    rename_i ih
    obtain ⟨hsame, -⟩ := (resumes_read hplain hroom).pass hr rfl
    obtain ⟨hplain', hroom'⟩ := room_of_read hplain hroom hr
    have hrest := ih hplain' (by rw [List.length_append]; exact hroom') h
    rw [fill_of_lt hlt, hsame]
    exact hrest

end Stream

/-- The same line is read without faults, if one can be read with them. -/
theorem LineStream.withoutFaults_readLine {e : Encoding} {s s' : LineStream}
    {line : Option PhysicalLine} (hplain : s.IsPlain) (h : s.readLine e = (.ok line, s')) :
    s.withoutFaults.readLine e = (.ok line, s'.withoutFaults) ∧ s'.IsPlain := by
  have hplain' := isPlain_readLine e hplain
  rw [h] at hplain'
  exact ⟨((resumes_readLine e hplain).pass h rfl).1, hplain'⟩

/-- The same header is read without faults, if one can be read with them. -/
theorem Opening.withoutFaults_read {e : Encoding} {done : List PhysicalLine} {s : LineStream}
    {o : Opening} (hplain : s.IsPlain) (h : Opening.read e done s = .ok o) :
    Opening.read e done s.withoutFaults = .ok { o with stream := o.stream.withoutFaults } ∧
      o.stream.IsPlain := by
  fun_induction Opening.read e done s with
  | case1 => cases h
  | case2 => cases h
  | case3 done s line s' hr hheader =>
    rename_i ih
    obtain ⟨hsame, hplain'⟩ := LineStream.withoutFaults_readLine hplain hr
    rw [Opening.read, hsame]
    simp only
    rw [if_pos hheader]
    exact ih hplain' h
  | case4 done s line s' hr hheader =>
    cases h
    obtain ⟨hsame, hplain'⟩ := LineStream.withoutFaults_readLine hplain hr
    rw [Opening.read, hsame]
    simp only
    rw [if_neg hheader]
    exact ⟨rfl, hplain'⟩

namespace Dictionary

/-- The same dictionary, without the faults that an uncompressed source still has. -/
def withoutFaults (d : Dictionary) : Dictionary :=
  { d with stream := d.stream.withoutFaults }

def faults (d : Dictionary) : Nat :=
  d.stream.faults

/-- A dictionary that could be opened can be opened without the faults. -/
theorem withoutFaults_ofSource {label : Option Text} {source : Source} {d : Dictionary}
    (hplain : source.Uncompressed) (h : ofSource label source = .ok d) :
    ofSource label source.withoutFaults = .ok d.withoutFaults ∧ d.stream.IsPlain := by
  obtain ⟨stream, hstream, h⟩ := bind_eq_ok h
  obtain ⟨⟨buffered, stream'⟩, hfill, h⟩ := bind_eq_ok h
  obtain ⟨found, hfound, h⟩ := bind_eq_ok h
  obtain ⟨opening, hopening, h⟩ := bind_eq_ok h
  obtain ⟨encoding, hsettle, h⟩ := bind_eq_ok h
  obtain ⟨lines, hlines, h⟩ := bind_eq_ok h
  cases h
  obtain ⟨hstream', hplain'⟩ := Stream.withoutFaults_ofSource hplain (mapError_eq_ok hstream)
  obtain ⟨hfill', hplain₂, hroom⟩ :=
    Stream.withoutFaults_fill hplain' (Nat.zero_le _) (by decide) (mapError_eq_ok hfill)
  have hstart : LineStream.IsPlain
      ⟨buffered.drop found.markLength, stream', found.markLength, 0, 0, none⟩ := by
    refine ⟨hplain₂, ?_⟩
    rw [List.length_drop]
    exact Nat.le_trans (Nat.sub_le _ _) hroom
  obtain ⟨hopening', hplain₃⟩ := Opening.withoutFaults_read hstart hopening
  refine ⟨?_, hplain₃⟩
  -- Every part of opening comes out the same
  rw [ofSource_of_mark hstream' hfill' (mapError_eq_ok hfound)]
  have hheader : Opening.read (found.override label).encoding []
      ⟨buffered.drop found.markLength, stream'.withoutFaults, found.markLength, 0, 0, none⟩ =
      .ok { opening with stream := opening.stream.withoutFaults } := hopening'
  have hsettle' : (found.override label).settle
      (Opening.codePageName? (found.override label).encoding
        { opening with stream := opening.stream.withoutFaults }) = .ok encoding := hsettle
  rw [hheader]
  show (found.override label).settle _ >>= _ = _
  rw [hsettle']
  show Opening.decodeLines encoding [] 1 opening.header >>= _ = _
  rw [hlines]
  rfl

/-! ## Reading lines -/

/-- Whether the source has failed in a read of a line. -/
def unreadable : LineResult → Bool
  | .error (.unreadable _) => true
  | _ => false

private theorem unreadable_decodeLine (headwordsOnly : Bool) (d : Dictionary) (raw : PhysicalLine) :
    unreadable (d.decodeLine headwordsOnly raw) = false := by
  rcases decodeLine_cases headwordsOnly d raw with ⟨line, hline⟩ | ⟨n, e, hline⟩
  · rw [hline]
    rfl
  · rw [hline]
    rfl

private theorem decodeLine_ne_unreadable (headwordsOnly : Bool) (d : Dictionary) (raw : PhysicalLine)
    (fault : ReadFault) : d.decodeLine headwordsOnly raw ≠ .error (.unreadable fault) := by
  intro h
  have hreadable := unreadable_decodeLine headwordsOnly d raw
  rw [h] at hreadable
  cases hreadable

section Steps

variable {headwordsOnly : Bool} {d d' : Dictionary}

theorem isPlain_advance {r : LineResult} (hplain : d.stream.IsPlain)
    (h : d.advance headwordsOnly = (r, d')) : d'.stream.IsPlain := by
  cases hfirst : d.firstLine with
  | some raw =>
    rw [advance_of_firstLine hfirst] at h
    cases h
    exact hplain
  | none =>
    have hplain' := LineStream.isPlain_readLine d.encoding hplain
    rw [advance_of_readLine hfirst] at h
    rcases hread : d.stream.readLine d.encoding with ⟨_ | _ | raw, s⟩
    all_goals
      rw [hread] at h hplain'
      cases h
      exact hplain'

theorem resumes_advance (hplain : d.stream.IsPlain) :
    Resumes unreadable withoutFaults faults (advance headwordsOnly) d := by
  cases hfirst : d.firstLine with
  | some raw =>
    have hfirst' : d.withoutFaults.firstLine = some raw := hfirst
    exact .of_pass (advance_of_firstLine hfirst) (unreadable_decodeLine _ d raw)
      (advance_of_firstLine hfirst') (Nat.le_refl _)
  | none =>
    have hfirst' : d.withoutFaults.firstLine = none := hfirst
    have hline := LineStream.resumes_readLine d.encoding hplain
    have hcalm : d.withoutFaults.stream.readLine d.withoutFaults.encoding =
        d.stream.withoutFaults.readLine d.encoding := rfl
    rcases hread : d.stream.readLine d.encoding with ⟨fault | _ | raw, s⟩
    · obtain ⟨hsame, hlt⟩ := hline.again hread rfl
      have hfirst'' : Dictionary.firstLine (withoutFaults { d with stream := s }) = none := hfirst
      have hfail : d.advance headwordsOnly =
          (.error (.unreadable fault), { d with stream := s }) := by
        rw [advance_of_readLine hfirst, hread]
      refine .of_again hfail rfl ?_ hlt
      rw [advance_of_readLine hfirst', advance_of_readLine hfirst'', hcalm, hsame]
      rfl
    · obtain ⟨hsame, hle⟩ := hline.pass hread rfl
      have hend : d.advance headwordsOnly = (.ok none, { d with stream := s }) := by
        rw [advance_of_readLine hfirst, hread]
      refine .of_pass hend rfl ?_ hle
      rw [advance_of_readLine hfirst', hcalm, hsame]
      rfl
    · obtain ⟨hsame, hle⟩ := hline.pass hread rfl
      have hdecoded : d.advance headwordsOnly =
          (decodeLine headwordsOnly { d with stream := s } raw, { d with stream := s }) := by
        rw [advance_of_readLine hfirst, hread]
      refine .of_pass hdecoded (unreadable_decodeLine _ _ raw) ?_ hle
      rw [advance_of_readLine hfirst', hcalm, hsame]
      rfl

/-- Reading is refused when the end has been reported, and a failed read does not report it. -/
private theorem resumes_unlessEnded {read : Dictionary → LineResult × Dictionary}
    (hread : Resumes unreadable withoutFaults faults read d)
    (hkeeps : ∀ {failure d'}, read d = (.error failure, d') → d'.ended = d.ended) :
    Resumes unreadable withoutFaults faults
      (fun d => if d.ended then (.error .pastEnd, d) else read d) d := by
  cases hended : d.ended with
  | true =>
    have hended' : d.withoutFaults.ended = true := hended
    exact .of_pass (if_pos hended) rfl (if_pos hended') (Nat.le_refl _)
  | false =>
    have hopen : ∀ t : Dictionary, t.ended = false →
        (if t.ended then (.error .pastEnd, t) else read t) = read t := by
      intro t ht
      rw [ht]
      rfl
    constructor
    · intro r d' h hr
      obtain ⟨hsame, hle⟩ := hread.pass ((hopen d hended).symm.trans h) hr
      exact ⟨(hopen d.withoutFaults hended).trans hsame, hle⟩
    · intro r d' h hr
      have h' := (hopen d hended).symm.trans h
      obtain ⟨hsame, hlt⟩ := hread.again h' hr
      have hended' : d'.withoutFaults.ended = false := by
        cases r with
        | ok line => cases hr
        | error failure => exact (hkeeps h').trans hended
      refine ⟨?_, hlt⟩
      rw [hopen d.withoutFaults hended, hopen d'.withoutFaults hended', hsame]

/-- A step that reports the end. -/
private def report (r : LineResult × Dictionary) : LineResult × Dictionary :=
  match r with
  | (.ok none, d) => (.ok none, { d with ended := true })
  | r => r

private theorem resumes_report (hplain : d.stream.IsPlain) :
    Resumes unreadable withoutFaults faults (fun d => report (d.advance headwordsOnly)) d := by
  have hstep := @resumes_advance headwordsOnly d hplain
  constructor
  · intro r d' h hr
    rcases hadvance : d.advance headwordsOnly with ⟨failure | _ | line, t⟩
    all_goals
      simp only [hadvance, report] at h
      cases h
      obtain ⟨hsame, hle⟩ := hstep.pass hadvance hr
      refine ⟨?_, hle⟩
      simp only [hsame]
      rfl
  · intro r d' h hr
    rcases hadvance : d.advance headwordsOnly with ⟨failure | _ | line, t⟩
    · simp only [hadvance, report] at h
      cases h
      obtain ⟨hsame, hlt⟩ := hstep.again hadvance hr
      refine ⟨?_, hlt⟩
      simp only [hsame]
    -- The end and a line are no failures
    all_goals
      simp only [hadvance, report] at h
      cases h
      cases hr

theorem resumes_next (hplain : d.stream.IsPlain) :
    Resumes unreadable withoutFaults faults (next headwordsOnly) d := by
  refine resumes_unlessEnded (resumes_report hplain) ?_
  intro failure d' h
  rcases hadvance : d.advance headwordsOnly with ⟨failure' | _ | line, t⟩
  · rw [hadvance] at h
    cases h
    exact ended_of_advance hadvance
  all_goals
    rw [hadvance] at h
    cases h

/-! ## Logical lines -/

/-- Joining lines looks at nothing but what a step gives. -/
private theorem advanceJoined_congr (h : d.advance headwordsOnly = d'.advance headwordsOnly) :
    d.advanceJoined headwordsOnly = d'.advanceJoined headwordsOnly := by
  rcases hstep : d'.advance headwordsOnly with ⟨failure | _ | line, t⟩
  · rw [advanceJoined_of_error hstep, advanceJoined_of_error (h.trans hstep)]
  · rw [advanceJoined_of_end hstep, advanceJoined_of_end (h.trans hstep)]
  · rw [advanceJoined_of_line hstep, advanceJoined_of_line (h.trans hstep)]

theorem resumes_advanceJoined (hplain : d.stream.IsPlain) :
    Resumes unreadable withoutFaults faults (advanceJoined headwordsOnly) d := by
  -- The lines that a comment joins are read one after the other; the last step decides
  fun_induction advanceJoined headwordsOnly d with
  | case1 d failure d' hstep =>
    have hstep' := advanceJoined_of_error hstep
    cases hfailed : unreadable (.error failure) with
    | true =>
      obtain ⟨hsame, hlt⟩ := (resumes_advance hplain).again hstep hfailed
      exact .of_again hstep' hfailed (advanceJoined_congr hsame) hlt
    | false =>
      obtain ⟨hsame, hle⟩ := (resumes_advance hplain).pass hstep hfailed
      exact .of_pass hstep' hfailed (advanceJoined_of_error hsame) hle
  | case2 d d' hstep =>
    obtain ⟨hsame, hle⟩ := (resumes_advance hplain).pass hstep rfl
    exact .of_pass (advanceJoined_of_end hstep) rfl (advanceJoined_of_end hsame) hle
  | case3 d line d' hstep joined hopen ih =>
    obtain ⟨hsame, hle⟩ := (resumes_advance hplain).pass hstep rfl
    have hplain' : d'.stream.IsPlain := isPlain_advance hplain hstep
    refine (ih hplain').of_eq ?_ ?_ hle
    · rw [advanceJoined_of_line hstep, if_pos hopen]
      rfl
    · have hopen' : (Comment.strip d'.withoutFaults.commentOpen line.text).2 = true := hopen
      rw [advanceJoined_of_line hsame, if_pos hopen']
      rfl
  | case4 d line d' hstep joined hclosed =>
    obtain ⟨hsame, hle⟩ := (resumes_advance hplain).pass hstep rfl
    have hline := advanceJoined_of_line hstep
    have hline' := advanceJoined_of_line hsame
    have hclosed' : ¬ (Comment.strip d'.withoutFaults.commentOpen line.text).2 = true := hclosed
    rw [if_neg hclosed] at hline
    rw [if_neg hclosed'] at hline'
    exact .of_pass hline rfl hline' hle

theorem ended_of_advanceJoined {failure : Failure}
    (h : d.advanceJoined headwordsOnly = (.error failure, d')) : d'.ended = d.ended := by
  fun_induction advanceJoined headwordsOnly d with
  | case1 d failure' t hstep =>
    cases h
    exact ended_of_advance hstep
  | case2 => cases h
  | case3 d line t hstep joined hopen ih =>
    have hended : t.ended = d.ended := ended_of_advance hstep
    exact (ih h).trans hended
  | case4 => cases h

theorem resumes_nextJoined (hplain : d.stream.IsPlain) :
    Resumes unreadable withoutFaults faults (nextJoined headwordsOnly) d :=
  resumes_unlessEnded (resumes_advanceJoined hplain) ended_of_advanceJoined

/-! ## Reads in any mode -/

theorem resumes_read (mode : ReadMode) (hplain : d.stream.IsPlain) :
    Resumes unreadable withoutFaults faults (read mode) d := by
  obtain ⟨headwordsOnly, withoutComments⟩ := mode
  cases withoutComments with
  | false => exact resumes_next hplain
  | true => exact resumes_nextJoined hplain

theorem isPlain_read {mode : ReadMode} {r : LineResult} (hplain : d.stream.IsPlain)
    (h : d.read mode = (r, d')) : d'.stream.IsPlain :=
  read_keeps (fun _ _ _ hplain => hplain) isPlain_advance hplain h

end Steps

/-! ## Sequences of reads -/

/-- What is seen of a dictionary in a sequence of reads, each in a mode of its own. -/
def observeEach : List ReadMode → Dictionary → List Observation
  | [], _ => []
  | mode :: modes, d =>
    let (result, d) := d.read mode
    ⟨result, d.lineCount, d.lineEnding⟩ :: observeEach modes d

/-- In a sequence of reads, of which each is repeated until the source does not fail in it, `seen` is
what is seen apart from the failures of the source. -/
inductive ReadsThrough : Dictionary → List ReadMode → List Observation → Prop
  | done {d : Dictionary} : ReadsThrough d [] []
  | line {d d' : Dictionary} {mode : ReadMode} {modes : List ReadMode} {result : LineResult}
      {seen : List Observation} (read : d.read mode = (result, d'))
      (readable : unreadable result = false) (rest : ReadsThrough d' modes seen) :
      ReadsThrough d (mode :: modes) (⟨result, d'.lineCount, d'.lineEnding⟩ :: seen)
  | again {d d' : Dictionary} {mode : ReadMode} {modes : List ReadMode} {result : LineResult}
      {seen : List Observation} (read : d.read mode = (result, d'))
      (failed : unreadable result = true) (rest : ReadsThrough d' (mode :: modes) seen) :
      ReadsThrough d (mode :: modes) seen

variable {d d' : Dictionary}

theorem observeEach_of_read {mode : ReadMode} {result : LineResult}
    (h : d.read mode = (result, d')) (modes : List ReadMode) :
    d.observeEach (mode :: modes) =
      ⟨result, d'.lineCount, d'.lineEnding⟩ :: d'.observeEach modes := by
  rw [observeEach, h]

theorem ReadsThrough.eq_observeEach {modes : List ReadMode} {seen : List Observation}
    (hplain : d.stream.IsPlain) (h : d.ReadsThrough modes seen) :
    seen = d.withoutFaults.observeEach modes := by
  induction h with
  | done => rfl
  | line hread hpass _ ih =>
    obtain ⟨hsame, -⟩ := (resumes_read _ hplain).pass hread hpass
    rw [observeEach_of_read hsame, ← ih (isPlain_read hplain hread)]
    rfl
  | again hread hfailed _ ih =>
    -- The repeated read does without the faults what the failed one would have done
    obtain ⟨hsame, -⟩ := (resumes_read _ hplain).again hread hfailed
    rw [ih (isPlain_read hplain hread), observeEach, observeEach, hsame]

/-- Reads need not be repeated for ever: every failure uses up a fault. -/
theorem readsThrough_observeEach (modes : List ReadMode) (hplain : d.stream.IsPlain) :
    d.ReadsThrough modes (d.withoutFaults.observeEach modes) := by
  -- On the reads to come, and then on the faults to come
  induction modes generalizing d with
  | nil => exact .done
  | cons mode modes ih =>
    induction hn : d.faults using Nat.strongRecOn generalizing d with
    | _ n ihFaults =>
      subst hn
      rcases hread : d.read mode with ⟨result, d'⟩
      have hplain' := isPlain_read hplain hread
      cases hfailed : unreadable result with
      | false =>
        obtain ⟨hsame, -⟩ := (resumes_read mode hplain).pass hread hfailed
        have hline : d.ReadsThrough (mode :: modes)
            (⟨result, d'.lineCount, d'.lineEnding⟩ :: d'.withoutFaults.observeEach modes) :=
          .line hread hfailed (ih hplain')
        rw [observeEach_of_read hsame]
        exact hline
      | true =>
        obtain ⟨hsame, hlt⟩ := (resumes_read mode hplain).again hread hfailed
        have hrest := ihFaults d'.faults hlt hplain' rfl
        rw [observeEach, ← hsame] at hrest
        exact .again hread hfailed hrest

/-- A physical line that could not be read is not counted. -/
theorem of_next_unreadable {headwordsOnly : Bool} {fault : ReadFault}
    (h : d.next headwordsOnly = (.error (.unreadable fault), d')) :
    d'.lineCount = d.lineCount ∧ d'.lineEnding = d.lineEnding := by
  have hadvance := advance_of_next h nofun nofun
  cases hfirst : d.firstLine with
  | some raw =>
    rw [advance_of_firstLine hfirst] at hadvance
    exact absurd (congrArg Prod.fst hadvance) (decodeLine_ne_unreadable _ _ raw fault)
  | none =>
    rw [advance_of_readLine hfirst] at hadvance
    rcases hread : d.stream.readLine d.encoding with ⟨fault' | _ | raw, s⟩
    · rw [hread] at hadvance
      cases hadvance
      obtain ⟨-, hcount, hending⟩ := LineStream.of_readLine_error hread
      exact ⟨hcount, congrArg (·.getD .lf) hending⟩
    · rw [hread] at hadvance
      cases hadvance
    · rw [hread] at hadvance
      exact absurd (congrArg Prod.fst hadvance) (decodeLine_ne_unreadable _ _ raw fault)

/-- Faults that an uncompressed source has behind the point where the dictionary was opened go by
without a trace: the source without them gives the same dictionary, and if each read that fails is
repeated, the same is seen in any sequence of reads. A physical line that could not be read is not
counted. -/
theorem readsThrough_ofSource {label : Option Text} {source : Source} (hplain : source.Uncompressed)
    (h : ofSource label source = .ok d) :
    (∃ calm, ofSource label source.withoutFaults = .ok calm ∧
      (calm.encoding = d.encoding ∧ calm.header = d.header ∧ calm.lineCount = d.lineCount ∧
        calm.lineEnding = d.lineEnding) ∧
      ∀ modes seen, d.ReadsThrough modes seen ↔ seen = calm.observeEach modes) ∧
    ∀ (t t' : Dictionary) (headwordsOnly : Bool) (fault : ReadFault),
      t.next headwordsOnly = (.error (.unreadable fault), t') →
        t'.lineCount = t.lineCount ∧ t'.lineEnding = t.lineEnding := by
  obtain ⟨hcalm, hstream⟩ := withoutFaults_ofSource hplain h
  refine ⟨⟨d.withoutFaults, hcalm, ⟨rfl, rfl, rfl, rfl⟩, ?_⟩,
    fun _ _ _ _ => of_next_unreadable⟩
  intro modes seen
  constructor
  · exact ReadsThrough.eq_observeEach hstream
  · rintro rfl
    exact readsThrough_observeEach modes hstream

/-- UTF-16 that fails behind its header: inside a unit, before a line feed, and inside a comment that
spans two lines. -/
private def faulty : Source :=
  [.bytes [0xFF, 0xFE, 0x23, 0, 0x0A, 0, 0x61, 0, 0x0A, 0, 0x62], .failed .source,
    .bytes [0, 0x7B, 0, 0x7B, 0, 0x63, 0], .failed .source, .failed .source,
    .bytes [0x0A, 0], .failed .source, .bytes [0x7D, 0, 0x7D, 0, 0x64, 0]]

theorem readsThrough_faulty :
    faulty.Uncompressed ∧ ∃ d, ofSource none faulty = .ok d ∧
      d.ReadsThrough [⟨false, false⟩, ⟨false, true⟩, ⟨true, true⟩]
        [⟨.ok (some ⟨['a'], 6⟩), 2, .lf⟩, ⟨.ok (some ⟨['b', 'd'], 10⟩), 4, .lf⟩,
          ⟨.ok none, 4, .lf⟩] := by
  have hplain : faulty.Uncompressed := by
    rintro chunk rest ⟨⟩
    decide
  have hopens : (ofSource none faulty).isOk = true := by decide +kernel
  refine ⟨hplain, ?_⟩
  cases hd : ofSource none faulty with
  | error failure => rw [hd] at hopens; cases hopens
  | ok d =>
    obtain ⟨⟨calm, hcalm, -, hreads⟩, -⟩ := readsThrough_ofSource hplain hd
    refine ⟨d, rfl, (hreads _ _).mpr ?_⟩
    have hseen : (ofSource none faulty.withoutFaults).toOption.map
        (·.observeEach [⟨false, false⟩, ⟨false, true⟩, ⟨true, true⟩]) =
        some [⟨.ok (some ⟨['a'], 6⟩), 2, .lf⟩, ⟨.ok (some ⟨['b', 'd'], 10⟩), 4, .lf⟩,
          ⟨.ok none, 4, .lf⟩] := by decide +kernel
    rw [hcalm] at hseen
    exact (Option.some.inj hseen).symm

end Dictionary

end Lexicon
