import Lexicon.Gzip.Tally
import Lexicon.Source.Buffered

/-!
# Headers of members

A member of a compressed file has a header with optional fields: an extra field with its length in
front, a name and a comment that each end with a zero byte, and a checksum of the header.

A header is read as far as the bytes reach, and reading goes on from there. A header that is refused
stays refused. A name or comment that is too long is not: each byte too many is a fault of its own and
is dropped.
-/

namespace Lexicon.Gzip

/-- What comes next in a header. -/
inductive HeaderPart where
  /-- The fixed part, of which these bytes have been read. -/
  | fixed (bytes : List UInt8)
  /-- The length of the extra field, of which these bytes have been read. -/
  | extraLength (bytes : List UInt8)
  /-- So many bytes of the extra field, never none. -/
  | extra (left : Nat)
  /-- The name, of which so many bytes have been read. -/
  | name (length : Nat)
  /-- The comment, of which so many bytes have been read. -/
  | comment (length : Nat)
  /-- The checksum, of which these bytes have been read. -/
  | checksum (bytes : List UInt8)
  | complete
  | refused (fault : ReadFault)

/-- A header being read. -/
structure MemberHeader where
  part : HeaderPart
  /-- The flags, once the fixed part has been read. -/
  flags : UInt8
  tally : Tally

namespace MemberHeader

/-- A header of which nothing has been read. -/
def start : MemberHeader := ⟨.fixed [], 0, .empty⟩

/-- The two bytes at the start of a member. -/
def magic : List UInt8 := [0x1F, 0x8B]

/-- The length of the fixed part. -/
def fixedLength : Nat := 10

/-- The longest name or comment. -/
def maxField : Nat := 65535

/-! ## The order of the fields -/

/-- Whether a flag is set. -/
def hasFlag (flags : UInt8) (bit : Nat) : Bool :=
  flags.toNat.testBit bit

/-- What comes after the comment. -/
def afterComment (flags : UInt8) : HeaderPart :=
  if hasFlag flags 1 then .checksum [] else .complete

/-- What comes after the name. -/
def afterName (flags : UInt8) : HeaderPart :=
  if hasFlag flags 4 then .comment 0 else afterComment flags

/-- What comes after the extra field. -/
def afterExtra (flags : UInt8) : HeaderPart :=
  if hasFlag flags 3 then .name 0 else afterName flags

/-- What comes after the fixed part. Its third byte names the only method of compression there is, and
the highest flags are reserved. -/
def afterFixed (bytes : List UInt8) (flags : UInt8) : HeaderPart :=
  if bytes.take 2 ≠ magic ∨ bytes.getD 2 0 ≠ 8 ∨ 32 ≤ flags.toNat then .refused .gzipHeader
  else if hasFlag flags 2 then .extraLength []
  else afterExtra flags

/-! ## Reading -/

/-- Takes a byte of a field that ends with a zero byte. -/
def acceptText (h : MemberHeader) (length : Nat) (b : UInt8) (after : HeaderPart)
    (part : Nat → HeaderPart) : Option ReadFault × MemberHeader :=
  if b = 0 then (none, { h with part := after, tally := h.tally.add b })
  else if length = maxField then (some .gzipField, h)
  else (none, { h with part := part (length + 1), tally := h.tally.add b })

/-- Takes a byte. -/
def accept (h : MemberHeader) (b : UInt8) : Option ReadFault × MemberHeader :=
  match h.part with
  | .fixed bytes =>
    let bytes := bytes ++ [b]
    let tally := h.tally.add b
    if bytes.length < fixedLength then (none, { h with part := .fixed bytes, tally })
    else
      let flags := bytes.getD 3 0
      (none, ⟨afterFixed bytes flags, flags, tally⟩)
  | .extraLength bytes =>
    let bytes := bytes ++ [b]
    let part : HeaderPart :=
      if bytes.length < 2 then .extraLength bytes
      else if littleEndian bytes = 0 then afterExtra h.flags
      else .extra (littleEndian bytes)
    (none, { h with part, tally := h.tally.add b })
  | .extra left =>
    let part : HeaderPart := if left ≤ 1 then afterExtra h.flags else .extra (left - 1)
    (none, { h with part, tally := h.tally.add b })
  | .name length => h.acceptText length b (afterName h.flags) .name
  | .comment length => h.acceptText length b (afterComment h.flags) .comment
  | .checksum bytes =>
    let bytes := bytes ++ [b]
    let part : HeaderPart :=
      if bytes.length < 2 then .checksum bytes
      else if littleEndian bytes = h.tally.checksum % 65536 then .complete
      else .refused .gzipChecksum
    (none, { h with part })
  | _ => (none, h)

/-- Takes bytes up to a fault. -/
def acceptAll (h : MemberHeader) : List UInt8 → Option ReadFault × MemberHeader
  | [] => (none, h)
  | b :: rest =>
    match h.accept b with
    | (none, h) => h.acceptAll rest
    | (some fault, h) => (some fault, h)

/-- The number of bytes to ask for: a whole extra field, and single bytes elsewhere. -/
def wanted (h : MemberHeader) : Nat :=
  match h.part with
  | .extra left => left
  | _ => 1

/-- Reads a header to its end, or as far as the bytes reach. -/
def read (h : MemberHeader) (input : Buffered) : Except ReadFault Unit × MemberHeader × Buffered :=
  match h.part with
  | .complete => (.ok (), h, input)
  | .refused fault => (.error fault, h, input)
  | _ =>
    match _h : input.take h.wanted with
    | (.error fault, input) => (.error fault, h, input)
    | (.ok [], input) => (.error .unexpectedEnd, h, input)
    | (.ok (b :: bytes), rest) =>
      match h.acceptAll (b :: bytes) with
      | (none, h) => h.read rest
      | (some fault, h) => (.error fault, h, rest)
termination_by input.size
decreasing_by
  have := Buffered.size_of_take _h
  simp only [Delivery.length, List.length_cons] at this
  omega

/-- Reading a header takes bytes from the input. -/
theorem size_read (h : MemberHeader) (input : Buffered) : (h.read input).2.2.size ≤ input.size := by
  fun_induction read h input with
  | case1 => exact Nat.le_refl _
  | case2 => exact Nat.le_refl _
  | case3 h input fault rest ht => exact Nat.le_of_add_right_le (Buffered.size_of_take ht)
  | case4 h input rest ht => exact Nat.le_of_add_right_le (Buffered.size_of_take ht)
  | case5 h input b bytes rest ht h' _ _ _ ih =>
    exact Nat.le_trans ih (Nat.le_of_add_right_le (Buffered.size_of_take ht))
  | case6 h input b bytes rest ht => exact Nat.le_of_add_right_le (Buffered.size_of_take ht)

end MemberHeader

end Lexicon.Gzip
