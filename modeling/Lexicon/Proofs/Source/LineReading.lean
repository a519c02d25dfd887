import Lexicon.Proofs.Source.Delivery
import Lexicon.Proofs.Source.Stretch

/-!
# Reading lines from a stream

A line stream gives the lines that its bytes have when they are all there at once, however they
arrive: a search for a line feed, resumed behind the whole units already searched, finds the line
feed that a search of all bytes finds.

The invariant is `LineStream.Before`: the bytes in the buffer and those that the stream still carries
are cut into the lines to come.

## Key results

- `fetch_eq`: a search in bytes that arrive in pieces finds what a search in all of them finds
- `LineStream.Before.readLine_nil`, `LineStream.Before.readLine_cons`: what reading one line does
-/

namespace Lexicon

/-! ## Searching -/

/-- The bytes in `seen`, last first, are whole units without a line feed. -/
structure Searched (e : Encoding) (seen : List UInt8) : Prop where
  whole : seen.length % e.unitWidth = 0
  none : e.indexOfUnit? Encoding.lineFeedUnit seen.reverse = none

/-- The number of bytes in the whole units of some bytes. -/
def Encoding.wholeLength (e : Encoding) (bytes : List UInt8) : Nat :=
  bytes.length - bytes.length % e.unitWidth

theorem Encoding.length_take_wholeLength (e : Encoding) (bytes : List UInt8) :
    (bytes.take (e.wholeLength bytes)).length = e.wholeLength bytes := by
  rw [List.length_take, wholeLength]
  omega

namespace Searched

variable {e : Encoding} {seen fresh : List UInt8}

theorem nil (e : Encoding) : Searched e [] :=
  ⟨Nat.zero_mod _, Encoding.indexOfUnit?_nil e _⟩

/-- A search of what stands behind searched bytes is a search of both. -/
theorem indexOfUnit?_append (h : Searched e seen) (fresh : List UInt8) :
    e.indexOfUnit? Encoding.lineFeedUnit (seen.reverse ++ fresh) =
      (e.indexOfUnit? Encoding.lineFeedUnit fresh).map (· + seen.length) := by
  have hwhole : seen.reverse.length % e.unitWidth = 0 := by rw [List.length_reverse, h.whole]
  rw [Encoding.indexOfUnit?_append hwhole, h.none, Option.none_or, List.length_reverse]

theorem length_grow (e : Encoding) (seen fresh : List UInt8) :
    ((fresh.take (e.wholeLength fresh)).reverseAux seen).length =
      seen.length + e.wholeLength fresh := by
  rw [List.reverseAux_eq, List.length_append, List.length_reverse,
    Encoding.length_take_wholeLength, Nat.add_comm]

/-- As many bytes are held when whole units have moved from those not searched to those searched. -/
theorem held_grow (e : Encoding) (searched : Nat) (fresh chunk : List UInt8) :
    searched + e.wholeLength fresh + (fresh.drop (e.wholeLength fresh) ++ chunk).length =
      searched + fresh.length + chunk.length := by
  have hle : e.wholeLength fresh ≤ fresh.length := Nat.sub_le _ _
  rw [List.length_append, List.length_drop]
  omega

/-- Where there is no line feed, the whole units have been searched. -/
theorem grow (h : Searched e seen) (hnone : e.indexOfUnit? Encoding.lineFeedUnit fresh = Option.none) :
    Searched e ((fresh.take (e.wholeLength fresh)).reverseAux seen) := by
  constructor
  · have hfresh : e.wholeLength fresh % e.unitWidth = 0 :=
      Nat.sub_mod_eq_zero_of_mod_eq (Nat.mod_mod _ _).symm
    rw [length_grow, Nat.add_mod, h.whole, hfresh]
    exact Nat.zero_mod _
  · rw [List.reverseAux_eq, List.reverse_append, List.reverse_reverse, h.indexOfUnit?_append,
      Encoding.indexOfUnit?_take_eq_none hnone]
    rfl

end Searched

/-- What stands before the next line feed in some bytes, and the bytes behind it. -/
def Found.within (e : Encoding) (bytes : List UInt8) : Found × List UInt8 :=
  match e.indexOfUnit? Encoding.lineFeedUnit bytes with
  | some i => (.terminated (bytes.take i), bytes.drop (i + e.unitWidth))
  | none => (if bytes = [] then .nothing else .unterminated bytes, [])

/-- A search has found what is to be found in the bytes `all`, and has left what stands behind it, in
a buffer that has room for it. -/
structure Fetch.Finds (e : Encoding) (all : List UInt8) (f : Fetch) : Prop where
  found : f.found = (Found.within e all).1
  rest : ∃ left, f.stream.Carries left ∧ f.buffered ++ left = (Found.within e all).2
  room : f.buffered.length ≤ f.stream.capacity

private theorem finds_terminated {e : Encoding} {seen fresh left : List UInt8} {stream : Stream}
    {refilled : Bool} {i : Nat} (hleft : stream.Carries left)
    (hroom : fresh.length ≤ stream.capacity) (hseen : Searched e seen)
    (hi : e.indexOfUnit? Encoding.lineFeedUnit fresh = some i) :
    Fetch.Finds e (seen.reverse ++ fresh ++ left)
      ⟨.terminated (seen.reverse ++ fresh.take i), refilled, fresh.drop (i + e.unitWidth),
        stream⟩ := by
  have hle : i + e.unitWidth ≤ fresh.length := Encoding.indexOfUnit_le hi
  have hall : e.indexOfUnit? Encoding.lineFeedUnit (seen.reverse ++ (fresh ++ left)) =
      some (seen.reverse.length + i) := by
    rw [hseen.indexOfUnit?_append, Encoding.indexOfUnit?_append_of_some hi, Option.map_some,
      List.length_reverse, Nat.add_comm]
  have hwithin : Found.within e (seen.reverse ++ fresh ++ left) =
      (.terminated (seen.reverse ++ fresh.take i), fresh.drop (i + e.unitWidth) ++ left) := by
    rw [Found.within, List.append_assoc, hall]
    simp only
    rw [List.take_length_add_append, List.take_append_of_le_length (by omega), Nat.add_assoc,
      List.drop_length_add_append, List.drop_append_of_le_length hle]
  refine ⟨?_, ⟨left, hleft, ?_⟩, ?_⟩
  · rw [hwithin]
  · rw [hwithin]
  · simp only [List.length_drop]
    omega

private theorem finds_atEnd {e : Encoding} {all : List UInt8}
    (h : e.indexOfUnit? Encoding.lineFeedUnit all = none) : (Fetch.atEnd all).Finds e all := by
  refine ⟨?_, ⟨[], Stream.carries_exhausted, ?_⟩, Nat.zero_le _⟩
  · rw [Found.within, h]
    rfl
  · rw [Found.within, h]
    rfl

/-- A search in bytes that arrive in pieces finds what a search in all of them finds. -/
theorem fetch_eq {e : Encoding} {stream : Stream} {left : List UInt8} (refilled : Bool)
    (searched : Nat) (seen fresh : List UInt8) (hleft : stream.Carries left)
    (hroom : searched + fresh.length ≤ stream.capacity) (hsearched : searched = seen.length)
    (hseen : Searched e seen) :
    (fetch e refilled searched seen fresh stream).Finds e (seen.reverse ++ fresh ++ left) := by
  -- `seen` grows by the whole units of `fresh`
  fun_induction fetch e refilled searched seen fresh stream generalizing left with
  | case1 refilled searched seen fresh stream i hi =>
    rw [List.reverseAux_eq]
    exact finds_terminated hleft (by omega) hseen hi
  | case2 refilled searched seen fresh stream _ fault rest hr =>
    -- The stream does not fail
    obtain ⟨chunk, s', left', hread, -⟩ := hleft.read hroom
    rw [hread] at hr
    cases hr
  | case3 refilled searched seen fresh stream hnone rest hr =>
    obtain ⟨chunk, s', left', hread, -, -, -, hnil⟩ := hleft.read hroom
    rw [hread] at hr
    cases hr
    -- Nothing is left, and there is no line feed in what has been read
    have hall : e.indexOfUnit? Encoding.lineFeedUnit (seen.reverse ++ fresh) = none := by
      rw [hseen.indexOfUnit?_append, hnone]
      rfl
    rw [hnil rfl, List.append_nil, List.reverseAux_eq]
    exact finds_atEnd hall
  | case4 refilled searched seen fresh stream hnone b chunk rest hr whole =>
    rename_i ih
    obtain ⟨chunk', s', left', hread, hleft', hsplit, hroom', -⟩ := hleft.read hroom
    rw [hread] at hr
    cases hr
    -- The bytes are the same; whole units have moved from those not searched to those searched
    have hall : seen.reverse ++ fresh ++ left =
        ((fresh.take whole).reverseAux seen).reverse ++ (fresh.drop whole ++ b :: chunk) ++
          left' := by
      rw [List.reverseAux_eq, List.reverse_append, List.reverse_reverse, hsplit]
      conv => lhs; rw [← List.take_append_drop whole fresh]
      simp only [List.append_assoc]
    rw [hall]
    apply ih hleft'
    · exact Nat.le_trans (Nat.le_of_eq (Searched.held_grow e searched fresh (b :: chunk))) hroom'
    · rw [hsearched]
      exact (Searched.length_grow e seen fresh).symm
    · exact hseen.grow hnone

/-! ## Lines -/

namespace LineStream

private theorem endsWithReturn_eq (e : Encoding) (bytes : List UInt8) :
    endsWithReturn e bytes = (e.asciiUnit 0x0D).isSuffixOf bytes := by
  rw [Bool.eq_iff_iff, List.isSuffixOf_iff_suffix, endsWithReturn, Bool.and_eq_true,
    decide_eq_true_eq, beq_iff_eq, Encoding.unitFrom?]
  show _ ∧ e.firstUnit? _ = some (0x0D : UInt8).toNat ↔ _
  rw [Encoding.firstUnit?_eq_some_iff]
  -- The last unit starts where as many bytes are left as it has
  constructor
  · rintro ⟨hle, hstart⟩
    have hlen : (e.asciiUnit 0x0D).length = (bytes.drop (bytes.length - e.unitWidth)).length := by
      rw [Encoding.length_asciiUnit, List.length_drop]
      omega
    rw [hstart.eq_of_length hlen]
    exact List.drop_suffix _ _
  · intro hsuffix
    have hle := hsuffix.length_le
    rw [Encoding.length_asciiUnit] at hle
    have hdrop := List.suffix_iff_eq_drop.mp hsuffix
    rw [Encoding.length_asciiUnit] at hdrop
    exact ⟨hle, hdrop ▸ List.prefix_refl _⟩

theorem content_eq (e : Encoding) (l : Stretch) : content e l.bytes = l.content e := by
  rw [content, endsWithReturn_eq]
  rfl

theorem terminatorOf_eq (e : Encoding) (bytes : List UInt8) :
    some (terminatorOf e bytes) = (Stretch.mk bytes true).ending? e := by
  rw [terminatorOf, endsWithReturn_eq]
  rfl

/-- What has been read into the buffer and what the stream still carries are cut into `lines`. -/
def Before (e : Encoding) (lines : List Stretch) (s : LineStream) : Prop :=
  ∃ left, s.stream.Carries left ∧ s.buffered.length ≤ s.stream.capacity ∧
    stretches e (s.buffered ++ left) = lines

@[simp]
theorem offset_consume (s : LineStream) (f : Fetch) (taken : Nat) :
    (s.consume f taken).offset = s.offset + taken := by
  unfold consume
  split <;> simp only [offset, compact] <;> omega

@[simp]
theorem lineCount_consume (s : LineStream) (f : Fetch) (taken : Nat) :
    (s.consume f taken).lineCount = s.lineCount := by
  unfold consume
  split <;> rfl

@[simp]
theorem lineEnding_consume (s : LineStream) (f : Fetch) (taken : Nat) :
    (s.consume f taken).lineEnding = s.lineEnding := by
  unfold consume
  split <;> rfl

private theorem finds_of_before {e : Encoding} {lines : List Stretch} {s : LineStream}
    (h : s.Before e lines) :
    ∃ all, stretches e all = lines ∧ (fetch e false 0 [] s.buffered s.stream).Finds e all := by
  obtain ⟨left, hleft, hroom, hlines⟩ := h
  have hfinds := fetch_eq false 0 [] s.buffered hleft (by omega) rfl (Searched.nil e)
  exact ⟨s.buffered ++ left, hlines, hfinds⟩

theorem Before.readLine_nil {e : Encoding} {s : LineStream} (h : s.Before e []) :
    ∃ s', s.readLine e = (.ok none, s') ∧ s'.Before e [] ∧ s'.lineCount = s.lineCount ∧
      s'.lineEnding = s.lineEnding := by
  obtain ⟨all, hlines, hfound, ⟨left, hleft, hrest⟩, hroom⟩ := finds_of_before h
  rw [stretches_eq] at hlines
  unfold Found.within at hfound hrest
  split at hlines
  · cases hlines
  · rename_i hnone
    split at hlines
    · rename_i hnil
      rw [hnone, if_pos hnil] at hfound
      rw [hnone] at hrest
      refine ⟨s.consume (fetch e false 0 [] s.buffered s.stream) 0, ?_, ⟨left, hleft, hroom, ?_⟩,
        lineCount_consume _ _ _, lineEnding_consume _ _ _⟩
      · rw [readLine, receive, hfound]
      · rw [← stretches_nil e]
        exact congrArg (stretches e) hrest
    · cases hlines

/-- Where there are lines left, reading one line gives the first of them. -/
theorem Before.readLine_cons {e : Encoding} {s : LineStream} {l : Stretch} {rest : List Stretch}
    (h : s.Before e (l :: rest)) :
    ∃ s', s.readLine e = (.ok (some ⟨l.content e, s.offset⟩), s') ∧ s'.Before e rest ∧
      s'.offset = s.offset + l.span e ∧ s'.lineCount = s.lineCount + 1 ∧
      s'.lineEnding = s.lineEnding.or (l.ending? e) := by
  obtain ⟨all, hlines, hfound, ⟨left, hleft, hrest⟩, hroom⟩ := finds_of_before h
  rw [stretches_eq] at hlines
  unfold Found.within at hfound hrest
  split at hlines
  · -- A line feed ends the line
    rename_i i hi
    rw [hi] at hfound hrest
    injection hlines with hl hlines
    have hread : s.readLine e = (.ok (some ⟨content e (all.take i), s.offset⟩),
        { s.consume (fetch e false 0 [] s.buffered s.stream)
            ((all.take i).length + e.unitWidth) with
          lineCount := s.lineCount + 1
          lineEnding := s.lineEnding.or (some (terminatorOf e (all.take i))) }) := by
      rw [readLine, receive, hfound]
    rw [hread, ← hl, ← content_eq, ← terminatorOf_eq]
    refine ⟨_, rfl, ⟨left, hleft, hroom, ?_⟩, offset_consume _ _ _, rfl, rfl⟩
    rw [← hlines]
    exact congrArg (stretches e) hrest
  · -- The bytes end without one
    rename_i hnone
    rw [hnone] at hfound hrest
    split at hlines
    · cases hlines
    · rename_i hne
      rw [if_neg hne] at hfound
      injection hlines with hl hlines
      have hread : s.readLine e = (.ok (some ⟨content e all, s.offset⟩),
          { s.consume (fetch e false 0 [] s.buffered s.stream) all.length with
            lineCount := s.lineCount + 1 }) := by
        rw [readLine, receive, hfound]
      rw [hread, ← hl, ← content_eq]
      refine ⟨_, rfl, ⟨left, hleft, hroom, ?_⟩, offset_consume _ _ _, rfl, ?_⟩
      · rw [← hlines, ← stretches_nil e]
        exact congrArg (stretches e) hrest
      · simp only [lineEnding_consume, Stretch.ending?, Bool.false_eq_true, if_false,
          Option.or_none]

private theorem fetch_nothing {e : Encoding} {refilled : Bool} {searched : Nat}
    {seen fresh : List UInt8} {stream : Stream}
    (h : (fetch e refilled searched seen fresh stream).found = .nothing) :
    (fetch e refilled searched seen fresh stream).buffered = [] ∧
      (fetch e refilled searched seen fresh stream).stream = .exhausted := by
  fun_induction fetch e refilled searched seen fresh stream with
  | case1 => cases h
  | case2 => cases h
  | case3 => exact ⟨rfl, rfl⟩
  | case4 =>
    rename_i ih
    exact ih h

/-- The stream has ended, and all bytes have been used. -/
structure Ended (s : LineStream) : Prop where
  buffered : s.buffered = []
  stream : s.stream = .exhausted

theorem ended_of_readLine_none {e : Encoding} {s s' : LineStream}
    (h : s.readLine e = (.ok none, s')) : s'.Ended := by
  unfold readLine receive at h
  split at h
  · cases h
  · cases h
  · rename_i hfound
    cases h
    obtain ⟨hbuffered, hstream⟩ := fetch_nothing hfound
    exact ⟨hbuffered, hstream⟩
  · cases h

theorem Ended.before {s : LineStream} (h : s.Ended) (e : Encoding) : s.Before e [] := by
  refine ⟨[], ?_, ?_, ?_⟩
  · rw [h.stream]
    exact Stream.carries_exhausted
  · rw [h.buffered]
    exact Nat.zero_le _
  · rw [h.buffered]
    exact stretches_nil e

/-- Whatever the stream: behind its end there are no lines. -/
theorem before_of_readLine_none {e : Encoding} {s s' : LineStream}
    (h : s.readLine e = (.ok none, s')) : s'.Before e [] :=
  (ended_of_readLine_none h).before e

/-! ## Places -/

/-- The lines to come are those in `lines`, which are the last ones of `total` lines, and the first
terminator of all lines is `ending`. -/
def Stands (e : Encoding) (lines : List PlacedStretch) (total : Nat) (ending : Option LineEnding)
    (s : LineStream) : Prop :=
  ∃ stretches, s.Before e stretches ∧ lines = place e s.offset (s.lineCount + 1) stretches ∧
    total = s.lineCount + stretches.length ∧
    ending = s.lineEnding.or (stretches.findSome? (·.ending? e))

/-- The line given last is `l`. From the first line on the first terminator is known, if there is
one. -/
structure Gave (e : Encoding) (l : PlacedStretch) (rest : List PlacedStretch) (total : Nat)
    (ending : Option LineEnding) (s : LineStream) : Prop where
  stands : s.Stands e rest total ending
  lineCount : s.lineCount = l.number
  lineEnding : s.lineEnding = ending

variable {e : Encoding} {total : Nat} {ending : Option LineEnding} {s : LineStream}

theorem Stands.readLine_nil (h : s.Stands e [] total ending) :
    ∃ s', s.readLine e = (.ok none, s') ∧ s'.lineCount = total ∧ s'.lineEnding = ending := by
  obtain ⟨stretches, hbefore, hlines, rfl, rfl⟩ := h
  cases stretches with
  | cons l rest => cases hlines
  | nil =>
    obtain ⟨s', hread, -, hcount, hending⟩ := hbefore.readLine_nil
    refine ⟨s', hread, hcount, ?_⟩
    rw [hending]
    exact Option.or_none.symm

theorem Stands.readLine_cons {l : PlacedStretch} {rest : List PlacedStretch}
    (h : s.Stands e (l :: rest) total ending) :
    ∃ s', s.readLine e = (.ok (some (l.physical e)), s') ∧ s'.Gave e l rest total ending := by
  obtain ⟨stretches, hbefore, hlines, rfl, rfl⟩ := h
  cases stretches with
  | nil => cases hlines
  | cons first stretches =>
    injection hlines with hl hrest
    obtain ⟨s', hread, hbefore', hoffset, hcount, hending⟩ := hbefore.readLine_cons
    -- The first terminator of all lines stays the same while lines are read
    have hall : s'.lineEnding.or (stretches.findSome? (·.ending? e)) =
        s.lineEnding.or ((first :: stretches).findSome? (·.ending? e)) := by
      rw [hending, Option.or_assoc, List.findSome?_cons]
      cases first.ending? e <;> rfl
    refine ⟨s', ?_, ⟨stretches, hbefore', ?_, ?_, hall.symm⟩, ?_, ?_⟩
    · rw [hread, hl]
      rfl
    · rw [hrest, hoffset, hcount]
    · rw [hcount, List.length_cons]
      omega
    · rw [hcount, hl]
    · -- Behind a line without a terminator there is no other line
      rw [← hall]
      cases hterminated : first.terminated with
      | true => rw [hending]; simp [Stretch.ending?, hterminated]
      | false =>
        obtain ⟨left, -, -, hcut⟩ := hbefore
        rw [eq_nil_of_stretches_eq_cons hcut hterminated]
        exact Option.or_none.symm

end LineStream

end Lexicon
