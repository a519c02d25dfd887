import Lexicon.Proofs.Source.Faults
import Lexicon.Proofs.Source.LineReading

/-!
# Lines of a source that fails

A line that is asked for again after a fault is the line that would have been given without the
fault. The search for its line feed does not go on from the same point: it starts anew, with all
bytes that it had read. That makes no difference, for a search resumed behind whole units without a
line feed finds what a search from their start finds.

## Key results

- `fetch_restart`: a search may start anew with the bytes it has read
- `Fetch.Retries`: what a search does with and without faults
- `LineStream.resumes_readLine`: reading a line
-/

namespace Lexicon

variable {e : Encoding} {refilled : Bool} {searched : Nat} {seen fresh : List UInt8} {stream : Stream}

/-! ## Single steps of a search -/

theorem fetch_of_found {i : Nat} (h : e.indexOfUnit? Encoding.lineFeedUnit fresh = some i) :
    fetch e refilled searched seen fresh stream =
      ⟨.terminated (seen.reverseAux (fresh.take i)), refilled, fresh.drop (i + e.unitWidth),
        stream⟩ := by
  rw [fetch, h]

theorem fetch_of_not_found (h : e.indexOfUnit? Encoding.lineFeedUnit fresh = none) :
    fetch e refilled searched seen fresh stream =
      match stream.read (searched + fresh.length) with
      | (.error fault, stream) => ⟨.failed fault, true, seen.reverseAux fresh, stream⟩
      | (.ok [], _) => .atEnd (seen.reverseAux fresh)
      | (.ok (b :: chunk), rest) =>
        fetch e true (searched + e.wholeLength fresh)
          ((fresh.take (e.wholeLength fresh)).reverseAux seen)
          (fresh.drop (e.wholeLength fresh) ++ b :: chunk) rest := by
  rw [fetch, h]
  simp only
  split
  · rename_i hread
    rw [hread]
  · rename_i hread
    rw [hread]
  · rename_i hread
    rw [hread]
    rfl

/-- A search may start anew with the bytes it has read. -/
theorem fetch_restart (hseen : Searched e seen) :
    fetch e refilled seen.length seen fresh stream =
      fetch e refilled 0 [] (seen.reverse ++ fresh) stream := by
  have hall := hseen.indexOfUnit?_append fresh
  cases hfresh : e.indexOfUnit? Encoding.lineFeedUnit fresh with
  | some i =>
    rw [hfresh, Option.map_some, Nat.add_comm] at hall
    have hlength : seen.length = seen.reverse.length := List.length_reverse.symm
    rw [fetch_of_found hfresh, fetch_of_found hall, hlength, List.take_length_add_append,
      Nat.add_assoc, List.drop_length_add_append, List.reverseAux_eq]
    rfl
  | none =>
    rw [hfresh, Option.map_none] at hall
    have hlength : 0 + (seen.reverse ++ fresh).length = seen.length + fresh.length := by
      rw [Nat.zero_add, List.length_append, List.length_reverse]
    -- The whole units are those searched and those of `fresh`
    have hwhole : e.wholeLength (seen.reverse ++ fresh) =
        seen.reverse.length + e.wholeLength fresh := by
      have hmod : (seen.length + fresh.length) % e.unitWidth = fresh.length % e.unitWidth := by
        rw [Nat.add_mod, hseen.whole, Nat.zero_add, Nat.mod_mod]
      have hle : fresh.length % e.unitWidth ≤ fresh.length := Nat.mod_le _ _
      simp only [Encoding.wholeLength, List.length_append, List.length_reverse, hmod]
      omega
    rw [fetch_of_not_found hfresh, fetch_of_not_found hall, hlength, hwhole,
      List.take_length_add_append, List.drop_length_add_append, Nat.zero_add, List.length_reverse]
    simp only [List.reverseAux_eq, List.reverse_append, List.reverse_reverse, List.reverse_nil,
      List.nil_append, List.append_nil]

/-- A search that has not found a line feed in what it has reads the stream. -/
theorem fetch_refilled (h : e.indexOfUnit? Encoding.lineFeedUnit fresh = none) :
    fetch e refilled searched seen fresh stream = fetch e true searched seen fresh stream := by
  rw [fetch_of_not_found h, fetch_of_not_found h]

/-- A search that has read the stream knows it. -/
theorem refilled_fetch (h : refilled = true) :
    (fetch e refilled searched seen fresh stream).refilled = true := by
  fun_induction fetch e refilled searched seen fresh stream with
  | case1 => exact h
  | case2 => rfl
  | case3 => rfl
  | case4 =>
    rename_i ih
    exact ih rfl

/-! ## Searches with faults -/

/-- What a search does with faults in the stream, compared with the search without them: the same,
or, if it fails, it leaves what it has read, and a new search from there does the same. -/
structure Fetch.Retries (e : Encoding) (faults : Nat) (f calm : Fetch) : Prop where
  plain : f.stream.IsPlain
  room : f.buffered.length ≤ f.stream.capacity
  pass : (∀ fault, f.found ≠ .failed fault) →
    calm = { f with stream := f.stream.withoutFaults } ∧ f.stream.faults ≤ faults
  again : ∀ fault, f.found = .failed fault →
    calm = fetch e true 0 [] f.buffered f.stream.withoutFaults ∧
      e.indexOfUnit? Encoding.lineFeedUnit f.buffered = none ∧ f.stream.faults < faults

/-- The faults left over are no more when they are counted from an earlier point on. -/
theorem Fetch.Retries.mono {faults faults' : Nat} {f calm : Fetch} (h : Retries e faults f calm)
    (hle : faults ≤ faults') : Retries e faults' f calm := by
  refine ⟨h.plain, h.room, ?_, ?_⟩
  · intro hpass
    obtain ⟨hcalm, hfaults⟩ := h.pass hpass
    exact ⟨hcalm, Nat.le_trans hfaults hle⟩
  · intro fault hfailed
    obtain ⟨hcalm, hnone, hfaults⟩ := h.again fault hfailed
    exact ⟨hcalm, hnone, Nat.lt_of_lt_of_le hfaults hle⟩

/-- A search that fails leaves all it has read, and a new search there does what the old one would
have gone on to do. -/
private theorem retries_failed {rest : Stream} {fault : ReadFault} (hplain : stream.IsPlain)
    (hroom : seen.length + fresh.length ≤ stream.capacity) (hseen : Searched e seen)
    (hnone : e.indexOfUnit? Encoding.lineFeedUnit fresh = none)
    (hr : stream.read (seen.length + fresh.length) = (.error fault, rest)) :
    Fetch.Retries e stream.faults ⟨.failed fault, true, seen.reverseAux fresh, rest⟩
      (fetch e refilled seen.length seen fresh stream.withoutFaults) := by
  obtain ⟨hsame, hlt⟩ := (Stream.resumes_read hplain hroom).again hr rfl
  obtain ⟨hplain', hroom'⟩ := Stream.room_of_read hplain hroom hr
  rw [List.reverseAux_eq]
  have hall : e.indexOfUnit? Encoding.lineFeedUnit (seen.reverse ++ fresh) = none := by
    rw [hseen.indexOfUnit?_append, hnone]
    rfl
  have hnext : fetch e refilled seen.length seen fresh stream.withoutFaults =
      fetch e refilled seen.length seen fresh rest.withoutFaults := by
    rw [fetch_of_not_found hnone, fetch_of_not_found hnone, hsame]
  refine ⟨hplain', ?_, fun h => absurd rfl (h fault), fun _ _ => ⟨?_, hall, hlt⟩⟩
  · rw [List.length_append, List.length_reverse]
    exact hroom'
  · rw [hnext, fetch_refilled hnone, fetch_restart hseen]

theorem fetch_retries (hplain : stream.IsPlain) (hroom : searched + fresh.length ≤ stream.capacity)
    (hsearched : searched = seen.length) (hseen : Searched e seen) :
    Fetch.Retries e stream.faults (fetch e refilled searched seen fresh stream)
      (fetch e refilled searched seen fresh stream.withoutFaults) := by
  -- Read by read: each gives more bytes, or ends the search
  fun_induction fetch e refilled searched seen fresh stream with
  | case1 refilled searched seen fresh stream i hi =>
    refine ⟨hplain, ?_, fun _ => ⟨fetch_of_found hi, Nat.le_refl _⟩, ?_⟩
    · simp only [List.length_drop]
      omega
    · rintro fault ⟨⟩
  | case2 refilled searched seen fresh stream hnone fault rest hr =>
    subst hsearched
    exact retries_failed hplain hroom hseen hnone hr
  | case3 refilled searched seen fresh stream hnone rest hr =>
    obtain ⟨hsame, -⟩ := (Stream.resumes_read hplain hroom).pass hr rfl
    refine ⟨⟨⟨[], []⟩, rfl⟩, Nat.zero_le _, fun _ => ⟨?_, Nat.zero_le _⟩, ?_⟩
    · rw [fetch_of_not_found hnone, hsame]
      rfl
    · -- The end is no failure
      intro fault hfound
      unfold Fetch.atEnd at hfound
      simp only at hfound
      split at hfound
      · cases hfound
      · cases hfound
  | case4 refilled searched seen fresh stream hnone b chunk rest hr whole =>
    rename_i ih
    obtain ⟨hsame, hle⟩ := (Stream.resumes_read hplain hroom).pass hr rfl
    obtain ⟨hplain', hroom'⟩ := Stream.room_of_read hplain hroom hr
    have hroom'' : searched + whole + (fresh.drop whole ++ b :: chunk).length ≤ rest.capacity :=
      Nat.le_trans (Nat.le_of_eq (Searched.held_grow e searched fresh (b :: chunk))) hroom'
    have hlength : searched + whole = ((fresh.take whole).reverseAux seen).length := by
      rw [hsearched]
      exact (Searched.length_grow e seen fresh).symm
    have hrest := ih hplain' hroom'' hlength (hseen.grow hnone)
    have hcalm : fetch e refilled searched seen fresh stream.withoutFaults =
        fetch e true (searched + whole) ((fresh.take whole).reverseAux seen)
          (fresh.drop whole ++ b :: chunk) rest.withoutFaults := by
      rw [fetch_of_not_found hnone, hsame]
      rfl
    rw [hcalm]
    exact hrest.mono hle

/-! ## Lines -/

namespace LineStream

/-- The source is uncompressed, and what has been read from it fits into the buffer. -/
structure IsPlain (s : LineStream) : Prop where
  stream : s.stream.IsPlain
  room : s.buffered.length ≤ s.stream.capacity

/-- The same line stream, without the faults of an uncompressed source. -/
def withoutFaults (s : LineStream) : LineStream :=
  { s with stream := s.stream.withoutFaults }

def faults (s : LineStream) : Nat :=
  s.stream.faults

variable {s : LineStream}

theorem fetch_retries (h : s.IsPlain) :
    Fetch.Retries e s.stream.faults (fetch e false 0 [] s.buffered s.stream)
      (fetch e false 0 [] s.buffered s.stream.withoutFaults) :=
  Lexicon.fetch_retries h.stream (by rw [Nat.zero_add]; exact h.room) rfl (Searched.nil e)

@[simp]
theorem stream_receive (e : Encoding) (s : LineStream) (f : Fetch) :
    (s.receive e f).2.stream = f.stream := by
  unfold receive
  split <;> rfl

@[simp]
theorem buffered_receive (e : Encoding) (s : LineStream) (f : Fetch) :
    (s.receive e f).2.buffered = f.buffered := by
  unfold receive
  split <;> rfl

theorem isPlain_readLine (e : Encoding) (h : s.IsPlain) : (s.readLine e).2.IsPlain := by
  have hfetch := fetch_retries (e := e) h
  constructor
  · rw [readLine, stream_receive]
    exact hfetch.plain
  · rw [readLine, stream_receive, buffered_receive]
    exact hfetch.room

/-- Where the stream has been read, the parts of the buffer that have been used are forgotten. -/
private theorem receive_congr {t : LineStream} {f : Fetch} (hrefilled : f.refilled = true)
    (hoffset : s.offset = t.offset) (hcount : s.lineCount = t.lineCount)
    (hending : s.lineEnding = t.lineEnding) : s.receive e f = t.receive e f := by
  have hconsume : ∀ n, s.consume f n = t.consume f n := by
    intro n
    unfold offset at hoffset
    simp only [consume, hrefilled, if_true, compact, hoffset, hcount, hending]
  simp only [receive, hconsume, hoffset, hcount, hending]

/-- A line that could not be read leaves the stream where it is. -/
theorem of_readLine_error {fault : ReadFault} {s' : LineStream}
    (h : s.readLine e = (.error fault, s')) :
    s'.offset = s.offset ∧ s'.lineCount = s.lineCount ∧ s'.lineEnding = s.lineEnding := by
  unfold readLine receive at h
  split at h
  · cases h
  · cases h
  · cases h
  · cases h
    exact ⟨offset_consume _ _ _, lineCount_consume _ _ _, lineEnding_consume _ _ _⟩

private theorem receive_withoutFaults (e : Encoding) (s : LineStream) (f : Fetch) :
    s.withoutFaults.receive e { f with stream := f.stream.withoutFaults } =
      ((s.receive e f).1, (s.receive e f).2.withoutFaults) := by
  obtain ⟨found, refilled, buffered, stream⟩ := f
  cases found <;> cases refilled <;> rfl

private theorem readFailed_receive {f : Fetch} (h : ∀ fault, f.found ≠ .failed fault) :
    readFailed (s.receive e f).1 = false := by
  unfold receive
  split
  · rfl
  · rfl
  · rfl
  · rename_i fault hfound
    exact absurd hfound (h fault)

theorem resumes_readLine (e : Encoding) (h : s.IsPlain) :
    Resumes readFailed withoutFaults faults (readLine e) s := by
  have hfetch := fetch_retries (e := e) h
  by_cases hfailed : ∃ fault, (fetch e false 0 [] s.buffered s.stream).found = .failed fault
  · obtain ⟨fault, hfound⟩ := hfailed
    obtain ⟨hcalm, hnone, hlt⟩ := hfetch.again fault hfound
    have hread : s.readLine e =
        (.error fault, s.consume (fetch e false 0 [] s.buffered s.stream) 0) := by
      rw [readLine, receive, hfound]
    refine .of_again hread rfl ?_ hlt
    -- The new search finds the same, and the line starts at the same place
    show receive e s.withoutFaults (fetch e false 0 [] s.buffered s.stream.withoutFaults) =
      receive e (withoutFaults (s.consume _ 0)) (fetch e false 0 []
        (fetch e false 0 [] s.buffered s.stream).buffered
        (fetch e false 0 [] s.buffered s.stream).stream.withoutFaults)
    rw [hcalm, @fetch_refilled e false 0 [] _ _ hnone]
    exact receive_congr (refilled_fetch rfl) (offset_consume s _ 0).symm
      (lineCount_consume s _ 0).symm (lineEnding_consume s _ 0).symm
  · have hpass := fun fault hfound => hfailed ⟨fault, hfound⟩
    obtain ⟨hcalm, hle⟩ := hfetch.pass hpass
    have hread : s.readLine e = ((s.readLine e).1, (s.readLine e).2) := rfl
    refine .of_pass hread (readFailed_receive hpass) ?_ ?_
    · show receive e s.withoutFaults (fetch e false 0 [] s.buffered s.stream.withoutFaults) = _
      rw [hcalm]
      exact receive_withoutFaults e s _
    · rw [faults, readLine, stream_receive]
      exact hle

end LineStream

end Lexicon
