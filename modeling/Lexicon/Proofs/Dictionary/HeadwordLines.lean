import Lexicon.Proofs.Dictionary.Runs
import Lexicon.Proofs.Encoding.HeadwordPart
import Mathlib.Data.List.Forall2

/-!
# Reading headwords only

A reader of headwords sees the same physical lines as one of whole lines, and may change over to
whole lines and back at any time: only the text of lines that start with a blank is shorter. A line
of an article body that cannot be decoded may be decodable up to the end of its first token; every
other line fails for both readers.

## Key results

- `Dictionary.decodeLine_shortens`: the text of one line
- `Dictionary.next_shortens`: one read
- `Dictionary.readings_shorten`: any sequence of reads
-/

namespace Lexicon

/-- The line with only the part of its text that tells headword lines from others. -/
def Line.headwordPart (l : Line) : Line :=
  { l with text := l.text.headwordPart }

/-- What a read gives that took the line `taken` from the source, where a read of the whole line would
have given `full`. -/
def LineResult.ShortensTo (headwordsOnly : Bool) (taken : Option PhysicalLine)
    (full short : LineResult) : Prop :=
  match full with
  | .ok (some line) => short = .ok (some (if headwordsOnly then line.headwordPart else line))
  | .error (.undecodable _ e) =>
    short = full ∨
      headwordsOnly = true ∧ ∃ raw text, taken = some raw ∧
        Encoding.isBlankUnit (e.firstUnit? raw.bytes) = true ∧
        short = .ok (some ⟨text, raw.offset⟩)
  | _ => short = full

theorem LineResult.shortens_refl (taken : Option PhysicalLine) (result : LineResult) :
    ShortensTo false taken result result := by
  unfold ShortensTo
  split
  · rfl
  · exact .inl rfl
  · rfl

namespace Dictionary

variable {d : Dictionary}

private theorem decodeLine_eq_elim (headwordsOnly : Bool) (d : Dictionary) (raw : PhysicalLine) :
    d.decodeLine headwordsOnly raw =
      Option.elim (d.encoding.decode? (if headwordsOnly then
          raw.bytes.take (d.encoding.headwordLength raw.bytes) else raw.bytes))
        (.error (.undecodable d.lineCount d.encoding))
        fun text => .ok (some ⟨text, raw.offset⟩) := by
  unfold decodeLine
  extract_lets bytes
  cases d.encoding.decode? bytes with
  | some text => rfl
  | none => rfl

/-- Of a line that starts with a blank only the start is decoded. -/
theorem decodeLine_shortens (headwordsOnly : Bool) (d : Dictionary) (raw : PhysicalLine) :
    LineResult.ShortensTo headwordsOnly (some raw) (d.decodeLine false raw)
      (d.decodeLine headwordsOnly raw) := by
  cases headwordsOnly with
  | false => exact LineResult.shortens_refl _ _
  | true =>
    rw [decodeLine_eq_elim, decodeLine_eq_elim, if_neg Bool.false_ne_true, if_pos rfl]
    cases hdecode : d.encoding.decode? raw.bytes with
    | some text =>
      rw [Encoding.decode?_take_headwordLength hdecode]
      exact rfl
    | none =>
      by_cases hblank : Encoding.isBlankUnit (d.encoding.firstUnit? raw.bytes) = true
      · cases d.encoding.decode? (raw.bytes.take (d.encoding.headwordLength raw.bytes)) with
        | some text => exact .inr ⟨rfl, raw, text, rfl, hblank, rfl⟩
        | none => exact .inl rfl
      · -- The line is not cut, so it fails again
        rw [Encoding.headwordLength, if_neg hblank, List.take_length, hdecode]
        exact .inl rfl

private theorem next_of_decodeLine {headwordsOnly : Bool} {d d' t : Dictionary} {raw : PhysicalLine}
    (hended : ¬ d.ended = true)
    (h : d.advance headwordsOnly = (t.decodeLine headwordsOnly raw, d')) :
    d.next headwordsOnly = (t.decodeLine headwordsOnly raw, d') := by
  rw [next, if_neg hended, h]
  rcases decodeLine_cases headwordsOnly t raw with ⟨line, hline⟩ | ⟨n, e, hline⟩
  · rw [hline]
  · rw [hline]

/-- The line that the next read takes from the source, if there is one. -/
def nextLine? (d : Dictionary) : Option PhysicalLine :=
  if d.ended then none
  else d.firstLine.or (d.stream.readLine d.encoding).1.toOption.join

/-- A read takes the same line and leaves the same dictionary behind, whether or not only headwords
are wanted. -/
theorem next_shortens (headwordsOnly : Bool) (d : Dictionary) :
    (d.next headwordsOnly).2 = (d.next false).2 ∧
      LineResult.ShortensTo headwordsOnly d.nextLine? (d.next false).1 (d.next headwordsOnly).1 := by
  by_cases hended : d.ended = true
  · have hnext : ∀ h, d.next h = (.error .pastEnd, d) := fun h => if_pos hended
    rw [hnext, hnext]
    exact ⟨rfl, rfl⟩
  rw [nextLine?, if_neg hended]
  cases hfirst : d.firstLine with
  | some raw =>
    rw [next_of_decodeLine hended (advance_of_firstLine hfirst),
      next_of_decodeLine hended (advance_of_firstLine hfirst)]
    exact ⟨rfl, decodeLine_shortens headwordsOnly d raw⟩
  | none =>
    -- Whether only headwords are wanted makes no difference before there is a line
    rcases hread : d.stream.readLine d.encoding with ⟨fault | _ | raw, s⟩
    · have hnext : ∀ h, d.next h = (.error (.unreadable fault), { d with stream := s }) := by
        intro h
        rw [next, if_neg hended, advance_of_readLine hfirst, hread]
      rw [hnext, hnext]
      exact ⟨rfl, rfl⟩
    · have hnext : ∀ h, d.next h = (.ok none, { d with stream := s, ended := true }) := by
        intro h
        rw [next, if_neg hended, advance_of_readLine hfirst, hread]
      rw [hnext, hnext]
      exact ⟨rfl, rfl⟩
    · have hadvance : ∀ h, d.advance h =
          (decodeLine h { d with stream := s } raw, { d with stream := s }) := by
        intro h
        rw [advance_of_readLine hfirst, hread]
      rw [next_of_decodeLine hended (hadvance _), next_of_decodeLine hended (hadvance _)]
      exact ⟨rfl, decodeLine_shortens headwordsOnly { d with stream := s } raw⟩

/-! ## Sequences of reads -/

/-- One read of a physical line. -/
structure Reading where
  /-- The line that was taken from the source, decodable or not. -/
  taken : Option PhysicalLine
  result : LineResult
  /-- The dictionary behind the line. -/
  behind : Dictionary

/-- Reads of physical lines, one for each entry of a list that says whether only headwords are
wanted. -/
def readings : List Bool → Dictionary → List Reading
  | [], _ => []
  | headwordsOnly :: rest, d =>
    let (result, behind) := d.read ⟨headwordsOnly, false⟩
    ⟨d.nextLine?, result, behind⟩ :: readings rest behind

/-- A read that may have been one for headwords only does what a read of the whole line does: it takes
the same line and leaves the same dictionary behind, with its place in the source, its line count,
its line ending and its end. Only the text of the line may be shorter. -/
structure Reading.ShortensTo (headwordsOnly : Bool) (full short : Reading) : Prop where
  taken : short.taken = full.taken
  behind : short.behind = full.behind
  result : LineResult.ShortensTo headwordsOnly full.taken full.result short.result

/-- Reads for headwords only, in between reads of whole lines or not, walk through the same lines. -/
theorem readings_shorten (headwordsOnly : List Bool) (d : Dictionary) :
    List.Forall₂ (fun full short => full.ShortensTo short.1 short.2)
      (d.readings (headwordsOnly.map fun _ => false))
      (headwordsOnly.zip (d.readings headwordsOnly)) := by
  induction headwordsOnly generalizing d with
  | nil => exact .nil
  | cons wanted rest ih =>
    obtain ⟨hbehind, hresult⟩ := next_shortens wanted d
    have hfull : d.readings ((wanted :: rest).map fun _ => false) =
        ⟨d.nextLine?, (d.next false).1, (d.next false).2⟩ ::
          (d.next false).2.readings (rest.map fun _ => false) := rfl
    have hshort : d.readings (wanted :: rest) =
        ⟨d.nextLine?, (d.next wanted).1, (d.next wanted).2⟩ ::
          (d.next wanted).2.readings rest := rfl
    rw [hfull, hshort, List.zip_cons_cons]
    refine .cons ⟨rfl, hbehind, hresult⟩ ?_
    rw [hbehind]
    exact ih (d.next false).2

end Dictionary

end Lexicon
