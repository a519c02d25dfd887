import Lexicon.Gzip.Contents
import Lexicon.Gzip.Header

/-!
# Unpacking compressed sources

A compressed source is a sequence of members: each has a header, contents, and a trailer with the
checksum and the length of the contents. An unpacker reads the contents of one member after the other.

A fault stays in its place, so reading goes on where it stands: after a failed read of the source
nothing is lost, a source that ends inside a member fails again and again, and so do a refused header
and contents that make no sense. A trailer that does not fit is one fault, and the end.

`size_read` says that the bytes given out come out of the source, so reading cannot go on for ever.
-/

namespace Lexicon.Gzip

/-- Where in a sequence of members an unpacker is. -/
inductive Phase where
  | header (h : MemberHeader)
  /-- Inside contents, of which those given out have this tally. -/
  | body (contents : Contents) (tally : Tally)
  /-- Inside a trailer, of which these bytes have been read, behind contents with this tally. -/
  | trailer (tally : Tally) (bytes : List UInt8)
  /-- Behind a member, where the source may end. -/
  | between
  | ended

namespace Phase

/-- How many phases may follow without taking anything from the input. -/
def rank : Phase → Nat
  | between => 3
  | header _ => 2
  | body .. => 1
  | _ => 0

/-- The most bytes that a phase can still give out without more input. -/
def size : Phase → Nat
  | body contents _ => contents.size
  | _ => 0

end Phase

/-- A compressed source that is being unpacked. -/
structure Unpacker where
  input : Buffered
  phase : Phase

namespace Unpacker

/-- The length of a trailer. -/
def trailerLength : Nat := 8

/-- Whether a trailer fits the contents in front of it. -/
def trailerFits (tally : Tally) (trailer : List UInt8) : Bool :=
  littleEndian (trailer.take 4) == tally.checksum &&
    littleEndian (trailer.drop 4) == tally.count % 0x100000000

/-- The place after a header. -/
def bodyStart : Phase := .body .start .empty

/-- Opens a compressed source. A first header that is not complete yet is read on later. -/
def ofSource (source : Source) : Except ReadFault Unpacker :=
  match MemberHeader.start.read ⟨[], source⟩ with
  | (.ok (), _, input) => .ok ⟨input, bodyStart⟩
  | (.error .unexpectedEnd, h, input) => .ok ⟨input, .header h⟩
  | (.error fault, _, _) => .error fault

/-- Reads at most `room` bytes of the contents. -/
def read (room : Nat) (u : Unpacker) : Delivery × Unpacker :=
  match _hp : u.phase with
  | .header h =>
    match _h : h.read u.input with
    | (.ok (), _, input) => read room ⟨input, bodyStart⟩
    | (.error fault, h, input) => (.error fault, ⟨input, .header h⟩)
  | .body contents tally =>
    match _h : u.input.fill with
    | (.error fault, input) => (.error fault, ⟨input, .body contents tally⟩)
    | (.ok bytes, input) =>
      -- The reader of contents learns from an empty buffer that the source has ended
      match _hc : contents.read room bytes with
      | (.failed, contents) => (.error .deflate, ⟨input, .body contents tally⟩)
      | (.wanting, contents) => read room ⟨{ input with buffer := [] }, .body contents tally⟩
      | (.bytes [] unread, _) => read room ⟨{ input with buffer := unread }, .trailer tally []⟩
      | (.bytes (b :: chunk) unread, contents) =>
        (.ok (b :: chunk),
          ⟨{ input with buffer := unread }, .body contents (tally.addAll (b :: chunk))⟩)
  | .trailer tally bytes =>
    match _h : u.input.take (trailerLength - bytes.length) with
    | (.error fault, input) => (.error fault, ⟨input, .trailer tally bytes⟩)
    | (.ok [], input) => (.error .unexpectedEnd, ⟨input, .trailer tally bytes⟩)
    | (.ok (b :: more), input) =>
      let bytes := bytes ++ b :: more
      if bytes.length < trailerLength then read room ⟨input, .trailer tally bytes⟩
      else if trailerFits tally bytes then read room ⟨input, .between⟩
      else (.error .gzipChecksum, ⟨input, .ended⟩)
  | .between =>
    match _h : u.input.fill with
    | (.error fault, input) => (.error fault, ⟨input, .between⟩)
    | (.ok [], input) => (.ok [], ⟨input, .ended⟩)
    | (.ok (_ :: _), input) => read room ⟨input, .header .start⟩
  | .ended => (.ok [], u)
termination_by 4 * u.input.size + u.phase.rank
decreasing_by
  · have hread := h.size_read u.input
    rw [_h] at hread
    simp only [_hp, Phase.rank, bodyStart] at hread ⊢
    omega
  · obtain ⟨hbuffer, hfill⟩ := Buffered.buffer_of_fill _h
    have hbytes := List.length_pos_iff.mpr (Contents.ne_nil_of_wanting (congrArg Prod.fst _hc))
    simp only [Buffered.size, hbuffer, List.length_nil, _hp, Phase.rank] at hfill ⊢
    omega
  · obtain ⟨hbuffer, hfill⟩ := Buffered.buffer_of_fill _h
    have hunread := Contents.length_unread_le (congrArg Prod.fst _hc)
    simp only [Buffered.size, hbuffer, _hp, Phase.rank] at hfill ⊢
    omega
  · have htake := Buffered.size_of_take _h
    simp only [Delivery.length, List.length_cons, _hp, Phase.rank] at htake ⊢
    omega
  · have htake := Buffered.size_of_take _h
    simp only [Delivery.length, List.length_cons, _hp, Phase.rank] at htake ⊢
    omega
  · obtain ⟨_, hfill⟩ := Buffered.buffer_of_fill _h
    simp only [_hp, Phase.rank]
    omega

/-! ## Progress -/

/-- The most bytes that can still be given out. -/
def size (u : Unpacker) : Nat :=
  Contents.perByte * u.input.size + u.phase.size

private theorem size_le {u : Unpacker} {input : Buffered} {phase : Phase}
    (hinput : input.size ≤ u.input.size) (hphase : phase.size ≤ u.phase.size) :
    size ⟨input, phase⟩ ≤ u.size :=
  Nat.add_le_add (Nat.mul_le_mul_left _ hinput) hphase

private theorem size_portion {room : Nat} {contents : Contents} {input : Buffered}
    {bytes chunk unread : List UInt8} {contents' : Contents} (hbuffer : input.buffer = bytes)
    (h : contents.read room bytes = (.bytes chunk unread, contents')) :
    Contents.perByte * Buffered.size { input with buffer := unread } + contents'.size +
        chunk.length ≤ Contents.perByte * input.size + contents.size := by
  have hread := contents.size_read room bytes
  simp only [h, Portion.size] at hread
  simp only [Buffered.size, Nat.mul_add, hbuffer]
  omega

/-- The bytes given out come out of the source. -/
theorem size_read (room : Nat) (u : Unpacker) :
    (u.read room).2.size + (u.read room).1.length ≤ u.size := by
  fun_induction read room u with
  | case1 u h hp h' input hr ih =>
    have hread := h.size_read u.input
    rw [hr] at hread
    exact Nat.le_trans ih (size_le hread (Nat.zero_le _))
  | case2 u h hp fault h' input hr =>
    have hread := h.size_read u.input
    rw [hr] at hread
    exact size_le hread (Nat.zero_le _)
  | case3 u contents tally hp fault input hf =>
    have hfill := u.input.size_fill
    rw [hf] at hfill
    exact size_le hfill (Nat.le_of_eq (congrArg Phase.size hp.symm))
  | case4 u contents tally hp bytes input hf contents' hc =>
    have hread := contents.size_read room bytes
    simp only [hc, Portion.size] at hread
    refine size_le (Buffered.buffer_of_fill hf).2 ?_
    simp only [Phase.size, hp]
    omega
  | case5 u contents tally hp bytes input hf contents' hc ih =>
    -- All of the input has been used up
    obtain ⟨hbuffer, hfill⟩ := Buffered.buffer_of_fill hf
    have hread := contents.size_read room bytes
    simp only [hc, Portion.size] at hread
    refine Nat.le_trans ih ?_
    have := Nat.mul_le_mul_left Contents.perByte hfill
    simp only [size, Phase.size, hp, Buffered.size, hbuffer, Nat.mul_add, List.length_nil] at this ⊢
    omega
  | case6 u contents tally hp bytes input hf unread contents' hc ih =>
    obtain ⟨hbuffer, hfill⟩ := Buffered.buffer_of_fill hf
    have hportion := size_portion hbuffer hc
    have := Nat.mul_le_mul_left Contents.perByte hfill
    refine Nat.le_trans ih ?_
    simp only [size, Phase.size, hp]
    omega
  | case7 u contents tally hp bytes input hf b chunk unread contents' hc =>
    obtain ⟨hbuffer, hfill⟩ := Buffered.buffer_of_fill hf
    have hportion := size_portion hbuffer hc
    have := Nat.mul_le_mul_left Contents.perByte hfill
    simp only [size, Phase.size, hp, Delivery.length]
    omega
  | case8 u tally bytes hp fault input ht =>
    exact size_le (Nat.le_of_add_right_le (Buffered.size_of_take ht)) (Nat.zero_le _)
  | case9 u tally bytes hp input ht =>
    exact size_le (Nat.le_of_add_right_le (Buffered.size_of_take ht)) (Nat.zero_le _)
  | case10 u tally bytes hp b more input ht bytes' _ ih =>
    refine Nat.le_trans ih (size_le ?_ (Nat.zero_le _))
    exact Nat.le_of_add_right_le (Buffered.size_of_take ht)
  | case11 u tally bytes hp b more input ht bytes' _ _ ih =>
    refine Nat.le_trans ih (size_le ?_ (Nat.zero_le _))
    exact Nat.le_of_add_right_le (Buffered.size_of_take ht)
  | case12 u tally bytes hp b more input ht =>
    exact size_le (Nat.le_of_add_right_le (Buffered.size_of_take ht)) (Nat.zero_le _)
  | case13 u hp fault input hf =>
    have hfill := u.input.size_fill
    rw [hf] at hfill
    exact size_le hfill (Nat.zero_le _)
  | case14 u hp input hf => exact size_le (Buffered.buffer_of_fill hf).2 (Nat.zero_le _)
  | case15 u hp b more input hf ih =>
    exact Nat.le_trans ih (size_le (Buffered.buffer_of_fill hf).2 (Nat.zero_le _))
  | case16 u hp => exact Nat.le_refl _

end Unpacker

end Lexicon.Gzip
