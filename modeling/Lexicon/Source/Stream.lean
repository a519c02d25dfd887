import Lexicon.Gzip.Unpack

/-!
# Streams

A stream delivers the bytes of a source with its compression taken away. The first read of the source
tells whether there is any: it must hold both bytes that members start with.

A stream is read into a buffer that grows when it is full. A read asks for as many bytes as there is
room for in the buffer, and may get fewer. Of a compressed source the room bounds how much is unpacked
at once, which shows where the source is damaged: whatever has not been unpacked before the damage is
met is lost.

`size_read` says that the bytes delivered come out of the source.
-/

namespace Lexicon

/-- Where the bytes of a stream come from. -/
inductive Origin where
  | plain (source : Buffered)
  | packed (unpacker : Gzip.Unpacker)

/-- Uncompressed bytes that are being read. -/
structure Stream where
  origin : Origin
  /-- The size of the buffer that the bytes are read into. -/
  capacity : Nat

namespace Stream

/-- The size of a buffer at first, and how much it grows by. -/
def bufferStep : Nat := 65536

/-- A stream at its end. -/
def exhausted : Stream := ⟨.plain ⟨[], []⟩, bufferStep⟩

/-- The stream of a source. Unlike later reads, the first one is not repeated when interrupted. -/
def ofSource (source : Source) : Except ReadFault Stream :=
  match source with
  | [] => .ok exhausted
  | .interrupted :: _ => .error .source
  | .failed fault :: _ => .error fault
  | .bytes chunk :: _ => do
    if Gzip.MemberHeader.magic.isPrefixOf chunk then
      return ⟨.packed (← Gzip.Unpacker.ofSource source), bufferStep⟩
    else return ⟨.plain (Buffered.fill ⟨[], source⟩).2, bufferStep⟩

/-- Reads into a buffer that holds `held` bytes. -/
def read (held : Nat) (s : Stream) : Delivery × Stream :=
  let capacity := if s.capacity ≤ held then s.capacity + bufferStep else s.capacity
  match s.origin with
  | .plain source =>
    let (delivery, source) := source.take (capacity - held)
    (delivery, ⟨.plain source, capacity⟩)
  | .packed unpacker =>
    let (delivery, unpacker) := unpacker.read (capacity - held)
    (delivery, ⟨.packed unpacker, capacity⟩)

/-! ## Progress -/

/-- The most bytes that can still be read, and the reads of a plain source. -/
def size (s : Stream) : Nat :=
  match s.origin with
  | .plain source => source.size
  | .packed unpacker => unpacker.size

/-- The bytes delivered come out of those that were left. -/
theorem size_read (held : Nat) (s : Stream) :
    (s.read held).2.size + (s.read held).1.length ≤ s.size := by
  unfold read
  extract_lets capacity
  split
  · rename_i source hs
    have := source.size_take (capacity - held)
    simp only [size, hs]
    exact this
  · rename_i unpacker hs
    have := unpacker.size_read (capacity - held)
    simp only [size, hs]
    exact this

@[simp]
theorem size_exhausted : exhausted.size = 0 := rfl

/-- Bytes that have been read are gone. -/
theorem size_of_read {held : Nat} {s s' : Stream} {delivery : Delivery}
    (h : s.read held = (delivery, s')) : s'.size + delivery.length ≤ s.size := by
  have := s.size_read held
  rwa [h] at this

end Stream

end Lexicon
