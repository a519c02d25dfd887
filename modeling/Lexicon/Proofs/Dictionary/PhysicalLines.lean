import Lexicon.Proofs.Dictionary.Outcome
import Lexicon.Proofs.Dictionary.Runs
import Mathlib.Data.List.Basic

/-!
# Reading physical lines

Reading an uncompressed dictionary line by line shows the lines of its bytes, and nothing of how the
bytes were delivered. After each line, whether or not it could be decoded, the dictionary knows how
many lines it has read and how they end.

## Key results

- `Dictionary.Behind.next_cons`, `Dictionary.Behind.next_nil`: one read behind a line
- `Dictionary.observe_ofSource`: what is seen of an uncompressed dictionary until its end
- `Dictionary.ofSource_eq_outcome`: what opening makes of the bytes that a stream carries, and what is
  seen of the dictionary then
-/

namespace Lexicon

/-- What is seen of a dictionary when a line has been read. -/
structure Observation where
  result : LineResult
  lineCount : Nat
  lineEnding : LineEnding
  deriving DecidableEq, Repr

namespace PlacedStretch

def result (e : Encoding) (l : PlacedStretch) : LineResult :=
  match e.decode? (l.content e) with
  | some text => .ok (some ⟨text, l.offset⟩)
  | none => .error (.undecodable l.number e)

theorem result_eq (e : Encoding) (l : PlacedStretch) :
    l.result e = (l.text e).map fun t => some ⟨t, l.offset⟩ := by
  unfold result text
  cases e.decode? (l.content e) with
  | none => rfl
  | some t => rfl

def observation (e : Encoding) (ending : LineEnding) (l : PlacedStretch) : Observation :=
  ⟨l.result e, l.number, ending⟩

end PlacedStretch

namespace Dictionary

/-- What is seen in `n` reads, one after the other. -/
def observe (mode : ReadMode) : Nat → Dictionary → List Observation
  | 0, _ => []
  | n + 1, d =>
    let (result, d) := d.read mode
    ⟨result, d.lineCount, d.lineEnding⟩ :: observe mode n d

theorem observe_succ {d d' : Dictionary} {result : LineResult} (h : d.next false = (result, d'))
    (n : Nat) : d.observe ⟨false, false⟩ (n + 1) =
      ⟨result, d'.lineCount, d'.lineEnding⟩ :: d'.observe ⟨false, false⟩ n := by
  have hread : d.read ⟨false, false⟩ = (result, d') := h
  rw [observe, hread]

/-- The line read last is `l`, and those in `rest` are still to come. -/
structure Behind (e : Encoding) (l : PlacedStretch) (rest : List PlacedStretch) (total : Nat)
    (ending : Option LineEnding) (d : Dictionary) : Prop where
  encoding : d.encoding = e
  ended : d.ended = false
  firstLine : d.firstLine = none
  gave : d.stream.Gave e l rest total ending

variable {e : Encoding} {l : PlacedStretch} {rest : List PlacedStretch} {total : Nat}
  {ending : Option LineEnding} {d : Dictionary}

private theorem decodeLine_eq (hencoding : d.encoding = e) (hcount : d.lineCount = l.number) :
    d.decodeLine false (l.physical e) = l.result e := by
  subst hencoding
  unfold decodeLine PlacedStretch.result PlacedStretch.physical
  simp only [Bool.false_eq_true, if_false]
  cases d.encoding.decode? (l.content d.encoding) with
  | some text => rfl
  | none =>
    show (Except.error (.undecodable d.lineCount d.encoding) : LineResult) = _
    rw [hcount]

private theorem next_of_advance {d' : Dictionary} (hended : d.ended = false)
    (h : d.advance false = (l.result e, d')) : d.next false = (l.result e, d') := by
  have hline : l.result e ≠ .ok none := by
    unfold PlacedStretch.result
    split
    · exact nofun
    · exact nofun
  exact read_of_advance hended h hline

/-- The first line after the header has been read when the dictionary was opened. -/
theorem next_first (hended : d.ended = false) (hfirst : d.firstLine = some (l.physical d.encoding))
    (hgave : d.stream.Gave d.encoding l rest total ending) :
    ∃ d', d.next false = (l.result d.encoding, d') ∧ d'.Behind d.encoding l rest total ending := by
  refine ⟨{ d with firstLine := none }, next_of_advance hended ?_, rfl, hended, rfl, hgave⟩
  rw [advance_of_firstLine hfirst, decodeLine_eq rfl hgave.lineCount]

/-- Behind a line the next one is read, decodable or not. -/
theorem Behind.next_cons {l' : PlacedStretch} (h : d.Behind e l (l' :: rest) total ending) :
    ∃ d', d.next false = (l'.result e, d') ∧ d'.Behind e l' rest total ending := by
  obtain ⟨rfl, hended, hfirst, hgave⟩ := h
  obtain ⟨s, hread, hgave'⟩ := hgave.stands.readLine_cons
  refine ⟨{ d with stream := s }, next_of_advance hended ?_, rfl, hended, hfirst, hgave'⟩
  have hline : decodeLine false { d with stream := s } (l'.physical d.encoding) =
      l'.result d.encoding := decodeLine_eq rfl hgave'.lineCount
  rw [advance_of_readLine hfirst, hread, ← hline]

/-- Behind the last line there is the end. -/
theorem Behind.next_nil (h : d.Behind e l [] total ending) :
    ∃ d', d.next false = (.ok none, d') ∧ d'.lineCount = total ∧
      d'.lineEnding = ending.getD .lf := by
  obtain ⟨rfl, hended, hfirst, hgave⟩ := h
  obtain ⟨s, hread, hcount, hending⟩ := hgave.stands.readLine_nil
  refine ⟨{ d with stream := s, ended := true }, ?_, hcount, ?_⟩
  · rw [next, hended, advance_of_readLine hfirst, hread]
    rfl
  · show s.lineEnding.getD .lf = _
    rw [hending]

theorem Behind.observation_eq (h : d.Behind e l rest total ending) :
    (⟨l.result e, d.lineCount, d.lineEnding⟩ : Observation) =
      l.observation e (ending.getD .lf) := by
  rw [lineCount, lineEnding, h.gave.lineCount, h.gave.lineEnding]
  rfl

/-- Behind a line, the lines to come and then the end are seen. -/
theorem Behind.observe_eq (h : d.Behind e l rest total ending) :
    d.observe ⟨false, false⟩ (rest.length + 1) =
      rest.map (·.observation e (ending.getD .lf)) ++ [⟨.ok none, total, ending.getD .lf⟩] := by
  -- Each read shows one line and leaves the dictionary behind that line
  induction rest generalizing d l with
  | nil =>
    obtain ⟨d', hnext, hcount, hending⟩ := h.next_nil
    rw [List.length_nil, observe_succ hnext, hcount, hending]
    rfl
  | cons l' rest ih =>
    obtain ⟨d', hnext, hbehind⟩ := h.next_cons
    rw [List.length_cons, observe_succ hnext, ih hbehind, hbehind.observation_eq]
    rfl

/-- When it has been opened, a dictionary shows the lines behind its header and then the end. -/
theorem Opened.observe_eq {bytes : List UInt8} (h : d.Opened bytes) :
    d.observe ⟨false, false⟩ ((articleLines d.encoding bytes).length + 1) =
      (articleLines d.encoding bytes).map
          (·.observation d.encoding ((firstEnding? d.encoding bytes).getD .lf)) ++
        [⟨.ok none, (linesOf d.encoding bytes).length,
          (firstEnding? d.encoding bytes).getD .lf⟩] := by
  obtain ⟨hended, l, rest, hlines, hfirst, hgave⟩ := h
  -- The first line is not read but taken from where opening has put it
  obtain ⟨d', hnext, hbehind⟩ := next_first hended hfirst hgave
  rw [hlines, List.length_cons, observe_succ hnext, hbehind.observe_eq, hbehind.observation_eq]
  rfl

theorem Opened.lineCount_eq {bytes : List UInt8} (h : d.Opened bytes) :
    d.lineCount = (headerLines d.encoding bytes).length + 1 := by
  obtain ⟨-, l, rest, hlines, -, hgave⟩ := h
  have hnumber : l.number = 1 + (headerLines d.encoding bytes).length :=
    number_of_dropWhile_place hlines
  rw [lineCount, hgave.lineCount, hnumber, Nat.add_comm]

theorem Opened.lineEnding_eq {bytes : List UInt8} (h : d.Opened bytes) :
    d.lineEnding = (firstEnding? d.encoding bytes).getD .lf := by
  obtain ⟨-, l, rest, -, -, hgave⟩ := h
  rw [lineEnding, hgave.lineEnding]

/-- The bytes that a stream carries settle what opening makes of it, and what is then read until the
end: the lines from the first one on that is no header line. -/
theorem ofSource_eq_outcome {label : Option Text} {source : Source} {stream : Stream}
    {bytes : List UInt8} (hstream : Stream.ofSource source = .ok stream)
    (hcarries : stream.Carries bytes) :
    (∀ failure, outcome label bytes = .error failure → ofSource label source = .error failure) ∧
      ∀ e texts, outcome label bytes = .ok (e, texts) →
        ∃ d, ofSource label source = .ok d ∧ d.encoding = e ∧ d.header = Header.ofLines texts ∧
          d.lineCount = (headerLines e bytes).length + 1 ∧
          d.lineEnding = (firstEnding? e bytes).getD .lf ∧
          d.observe ⟨false, false⟩ ((articleLines e bytes).length + 1) =
            (articleLines e bytes).map (·.observation e ((firstEnding? e bytes).getD .lf)) ++
              [⟨.ok none, (linesOf e bytes).length, (firstEnding? e bytes).getD .lf⟩] := by
  have hfollows := @follows_ofSource label _ _ _ hstream hcarries
  constructor
  · intro failure h
    rw [h] at hfollows
    exact hfollows
  · intro e texts h
    rw [h] at hfollows
    obtain ⟨d, hd, rfl, hheader, hopened⟩ := hfollows
    exact ⟨d, hd, rfl, hheader, hopened.lineCount_eq, hopened.lineEnding_eq, hopened.observe_eq⟩

private def ascii (s : String) : List UInt8 :=
  s.toList.map fun c => c.toNat.toUInt8

/-- The second header line names the code page in which the first one is written. -/
private def latePage : Source :=
  [.bytes (ascii "#NAME \""), .bytes [0xC0], .interrupted, .bytes (ascii "\"\r\n#SOURCE_CODE_P"),
    .bytes (ascii "AGE \"Cyrillic\"\n"), .bytes [0xE0, 0x0A, 0x23]]

theorem outcome_latePage :
    ∃ stream, Stream.ofSource latePage = .ok stream ∧ stream.Carries latePage.bytes ∧
      ofSource (some "utf-8".toList) latePage = .error (.undecodable 1 .utf8) ∧
      ∃ d, ofSource none latePage = .ok d ∧ d.encoding = .singleByte .cyrillic ∧
        d.header = { Header.empty with name := ['А'] } ∧ d.lineCount = 3 ∧ d.lineEnding = .crlf ∧
        d.observe ⟨false, false⟩ 3 =
          [⟨.ok (some ⟨['а'], 40⟩), 3, .crlf⟩, ⟨.ok (some ⟨['#'], 42⟩), 4, .crlf⟩,
            ⟨.ok none, 4, .crlf⟩] := by
  have hcalm : latePage.Calm := by decide +kernel
  have hplain : ¬ Gzip.MemberHeader.magic <+: latePage.bytes := by decide +kernel
  have hstart : latePage.head? ≠ some .interrupted := by decide +kernel
  obtain ⟨stream, hstream, hcarries⟩ := Stream.exists_carries hcalm hplain hstart
  refine ⟨stream, hstream, hcarries, ?_, ?_⟩
  · have hfailure : outcome (some "utf-8".toList) latePage.bytes =
        .error (.undecodable 1 .utf8) := by decide +kernel
    exact (ofSource_eq_outcome hstream hcarries).1 _ hfailure
  · have houtcome : outcome none latePage.bytes =
        .ok (.singleByte .cyrillic, ["#NAME \"А\"".toList, "#SOURCE_CODE_PAGE \"Cyrillic\"".toList]) := by
      decide +kernel
    obtain ⟨d, hd, hencoding, hheader, hcount, hending, hobserve⟩ :=
      (ofSource_eq_outcome hstream hcarries).2 _ _ houtcome
    have hlength : (articleLines (.singleByte .cyrillic) latePage.bytes).length = 2 := by
      decide +kernel
    refine ⟨d, hd, hencoding, ?_, ?_, ?_, ?_⟩
    · rw [hheader]
      decide +kernel
    · rw [hcount]
      decide +kernel
    · rw [hending]
      decide +kernel
    · rw [hlength] at hobserve
      rw [hobserve]
      decide +kernel

end Dictionary

end Lexicon
