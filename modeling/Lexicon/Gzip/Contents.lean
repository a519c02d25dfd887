import Lexicon.Gzip.Inflate

/-!
# The contents of a member

The contents of a member are read in portions: the reader offers input and room, and gets bytes and
the input not used. Contents are inflated window by window, so there may be more bytes than room. Such
bytes wait: they are given out before any more input is used.

No input means that there is no more. Where that is too early, or where the bits make no sense, the
portion fails and its bytes are lost. Input that follows the end of the input fails as well.

`size_read` says that the bytes given out come out of the input.
-/

namespace Lexicon.Gzip

namespace Inflater

/-- The number of bytes that are inflated at once, and the longest distance of a repetition. -/
def windowSize : Nat := 32768

/-- The end of the window that is written next. -/
def windowEnd (s : Inflater) : Nat :=
  (s.out.size / windowSize + 1) * windowSize

/-- Drops what lies too far back to be repeated, in whole windows. -/
def forget (s : Inflater) : Inflater :=
  let n := (s.out.size / windowSize - 1) * windowSize
  if n = 0 then s else { s with out := s.out.extract n s.out.size }

/-- Adds the bits of input. -/
def offer (input : List UInt8) (s : Inflater) : Inflater :=
  { s with bits := s.bits ++ bitsOf input }

/-- Takes back input of which no bit is used. Gives it with the other bits left. -/
def giveBack (input : List UInt8) (s : Inflater) : List UInt8 × Inflater :=
  let n := min (s.bits.length / 8) input.length
  (input.drop (input.length - n), { s with bits := s.bits.take (s.bits.length - 8 * n) })

/-- What inflating for a reader gives. -/
structure Poured where
  stop : Stop
  chunk : List UInt8
  /-- The bytes for which there was no room. -/
  waiting : List UInt8
  inflater : Inflater

/-- Inflates window after window, with the bytes in `done` before, until there is no more room or the
bits do not fill a window. Unless the input is the last, less than a byte left stops it, too. -/
def pour (last : Bool) (done : List UInt8) (room : Nat) (s : Inflater) : Poured :=
  let before := s.out.size
  let (stop, s) := s.run s.windowEnd
  let fresh := (s.out.extract before s.out.size).toList
  match stop with
  | .full =>
    if _h : fresh ≠ [] ∧ fresh.length < room ∧ (last ∨ 8 ≤ s.bits.length) then
      pour last (done ++ fresh) (room - fresh.length) s
    else ⟨.full, done ++ fresh.take room, fresh.drop room, s⟩
  | stop => ⟨stop, done ++ fresh.take room, fresh.drop room, s⟩
termination_by room
decreasing_by
  exact Nat.sub_lt (Nat.lt_of_le_of_lt (Nat.zero_le _) _h.2.1) (List.length_pos_iff.mpr _h.1)

end Inflater

/-- The contents of a member, as far as they have not been given out. -/
inductive Contents where
  /-- Bytes that wait to be given out, and what inflates those after them. After an end of the input
  no more input may come. -/
  | flowing (inflater : Inflater) (waiting : List UInt8) (sawEnd : Bool)
  /-- The input has ended too early, which has been reported. Nothing comes any more. -/
  | stuck
  /-- The bits make no sense. -/
  | spoiled

/-- What reading contents comes to. -/
inductive Portion where
  /-- Bytes of the contents and the input not used. No bytes are the end of the contents. -/
  | bytes (chunk unread : List UInt8)
  /-- The input is used up without giving any bytes. -/
  | wanting
  | failed

namespace Contents

/-- Contents of which nothing has been read. -/
def start : Contents := .flowing .start [] false

/-- The contents after inflating, and what their reader gets. -/
def settle (input : List UInt8) (sawEnd : Bool) (p : Inflater.Poured) : Portion × Contents :=
  match p.stop with
  | .corrupt => (.failed, .spoiled)
  | .starved =>
    if input.isEmpty then (.failed, .stuck)
    else
      (if p.chunk.isEmpty then .wanting else .bytes p.chunk [],
        .flowing p.inflater p.waiting sawEnd)
  | _ =>
    let (unread, s) := p.inflater.giveBack input
    (.bytes p.chunk unread, .flowing s p.waiting sawEnd)

/-- Reads at most `room` bytes. -/
def read (room : Nat) (input : List UInt8) : Contents → Portion × Contents
  | spoiled => (.failed, .spoiled)
  | stuck => (if input.isEmpty then .bytes [] [] else .failed, .stuck)
  | flowing s waiting sawEnd =>
    if sawEnd && !input.isEmpty then (.failed, .flowing s waiting sawEnd)
    else
      let sawEnd := sawEnd || input.isEmpty
      if waiting.isEmpty then
        settle input sawEnd ((s.forget.offer input).pour input.isEmpty [] room)
      else (.bytes (waiting.take room) input, .flowing s (waiting.drop room) sawEnd)

/-! ## Progress -/

/-- The most bytes that can still be given out without more input. -/
def size : Contents → Nat
  | flowing s waiting _ => s.size + waiting.length
  | _ => 0

/-- The most bytes that a byte of input can give. -/
def perByte : Nat := 8 * Stretch.maxLength

end Contents

namespace Portion

/-- The bytes given out, and the most bytes that the input not used can give. -/
def size (input : List UInt8) : Portion → Nat
  | bytes chunk unread => chunk.length + Contents.perByte * unread.length
  | wanting => 0
  | failed => Contents.perByte * input.length

end Portion

namespace Inflater

private theorem size_forget (s : Inflater) : s.forget.size = s.size := by
  unfold forget
  extract_lets n
  split <;> rfl

private theorem size_offer (input : List UInt8) (s : Inflater) :
    (s.offer input).size = s.size + Contents.perByte * input.length := by
  simp only [offer, size, Contents.perByte, Stretch.maxLength, List.length_append, length_bitsOf]
  omega

private theorem size_giveBack (input : List UInt8) (s : Inflater) :
    (s.giveBack input).2.size + Contents.perByte * (s.giveBack input).1.length ≤ s.size := by
  simp only [giveBack, size, Contents.perByte, Stretch.maxLength, List.length_drop, List.length_take]
  omega

private theorem size_fresh {limit : Nat} {s s' : Inflater} {stop : Stop}
    (h : s.run limit = (stop, s')) :
    s'.size + (s'.out.extract s.out.size s'.out.size).toList.length ≤ s.size := by
  have hrun := s.size_run limit
  simp only [h] at hrun
  simp only [Array.length_toList, Array.size_extract]
  omega

/-- What is poured comes out of the bits. -/
theorem size_pour (last : Bool) (done : List UInt8) (room : Nat) (s : Inflater) :
    (s.pour last done room).inflater.size + (s.pour last done room).waiting.length +
        (s.pour last done room).chunk.length ≤ s.size + done.length := by
  fun_induction pour last done room s with
  | case1 done room s before s' fresh hroom h ih =>
    have : s'.size + fresh.length ≤ s.size := size_fresh h
    rw [List.length_append] at ih
    omega
  | case2 done room s before s' fresh hroom h =>
    have : s'.size + fresh.length ≤ s.size := size_fresh h
    simp only [List.length_append, List.length_take, List.length_drop]
    omega
  | case3 done room s before s' fresh stop hstop h =>
    have : s'.size + fresh.length ≤ s.size := size_fresh h
    simp only [List.length_append, List.length_take, List.length_drop]
    omega

end Inflater

namespace Contents

private theorem size_settle (input : List UInt8) (sawEnd : Bool) (p : Inflater.Poured) :
    (settle input sawEnd p).2.size + (settle input sawEnd p).1.size input ≤
      max (p.inflater.size + p.waiting.length + p.chunk.length) (perByte * input.length) := by
  unfold settle
  split
  · simp only [size, Portion.size]
    omega
  · split
    · simp only [size, Portion.size]
      omega
    · split <;> simp only [size, Portion.size, List.length_nil] <;> omega
  · have := p.inflater.size_giveBack input
    simp only [size, Portion.size]
    omega

/-- The bytes given out come out of the input. -/
theorem size_read (room : Nat) (input : List UInt8) (c : Contents) :
    (c.read room input).2.size + (c.read room input).1.size input ≤
      c.size + perByte * input.length := by
  fun_cases read room input c with
  | case1 => simp [size, Portion.size]
  | case2 =>
    simp only [size]
    split <;> simp_all [Portion.size]
  | case3 s waiting sawEnd h => simp [size, Portion.size]
  | case4 s waiting sawEnd h sawEnd' hwaiting =>
    have hpour := Inflater.size_pour input.isEmpty [] room (s.forget.offer input)
    rw [Inflater.size_offer, Inflater.size_forget] at hpour
    refine Nat.le_trans (size_settle _ _ _) ?_
    simp only [size, List.length_nil] at hpour ⊢
    omega
  | case5 s waiting sawEnd h sawEnd' hwaiting =>
    simp only [size, Portion.size, List.length_take, List.length_drop]
    omega

/-- Input that is used up without giving any bytes was there. -/
theorem ne_nil_of_wanting {room : Nat} {input : List UInt8} {c : Contents}
    (h : (c.read room input).1 = .wanting) : input ≠ [] := by
  rintro rfl
  unfold read at h
  split at h
  · cases h
  · cases h
  · simp at h
    split at h
    · unfold settle at h
      split at h <;> simp at h
    · cases h

/-- The input not used is part of the input. -/
theorem length_unread_le {room : Nat} {input chunk unread : List UInt8} {c : Contents}
    (h : (c.read room input).1 = .bytes chunk unread) : unread.length ≤ input.length := by
  unfold read at h
  split at h
  · cases h
  · split at h <;> simp_all
  · split at h
    · cases h
    · simp only at h
      split at h
      · unfold settle at h
        split at h
        · cases h
        · split at h
          · cases h
          · split at h <;> simp_all
        · simp only [Inflater.giveBack, Portion.bytes.injEq] at h
          simp [← h.2]
      · simp_all

end Contents

end Lexicon.Gzip
