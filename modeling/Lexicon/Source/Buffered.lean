import Lexicon.Source.Basic

/-!
# Buffered sources

Bytes that a source has delivered wait in a buffer until they are taken. The source is read only when
the buffer is empty, so a failed read comes up when the bytes before it are used up. Whoever wants as
many bytes as the buffer holds, or more, gets them past it.

`size_fill` and `size_take` say that what has been taken comes out of what was left.
-/

namespace Lexicon

/-- A source with the bytes that it has delivered and that have not been taken yet. -/
structure Buffered where
  buffer : List UInt8
  source : Source

namespace Buffered

/-- The most bytes that are read into the buffer at once. -/
def capacity : Nat := 8192

/-- How much there is left to take: bytes and reads. -/
def size (b : Buffered) : Nat :=
  b.buffer.length + b.source.size

/-- Reads into the buffer if it is empty, and gives what is in it. If that is nothing, the source is
at its end for the moment. -/
def fill (b : Buffered) : Delivery × Buffered :=
  if b.buffer.isEmpty then
    match b.source.read capacity with
    | (.ok chunk, source) => (.ok chunk, ⟨chunk, source⟩)
    | (.error fault, source) => (.error fault, ⟨[], source⟩)
  else (.ok b.buffer, b)

/-- Takes at most `n` bytes. -/
def take (n : Nat) (b : Buffered) : Delivery × Buffered :=
  if b.buffer.isEmpty && capacity ≤ n then
    let (delivery, source) := b.source.read n
    (delivery, ⟨[], source⟩)
  else
    match b.fill with
    | (.ok buffer, b) => (.ok (buffer.take n), { b with buffer := buffer.drop n })
    | (.error fault, b) => (.error fault, b)

/-! ## Progress -/

/-- Filling the buffer moves bytes into it. -/
theorem size_fill (b : Buffered) : b.fill.2.size ≤ b.size := by
  unfold fill
  split
  · have hread := b.source.size_read capacity
    split <;> simp_all [size, Delivery.length]
    omega
  · exact Nat.le_refl _

/-- What `fill` gives is in the buffer, and was there to be read. -/
theorem buffer_of_fill {b b' : Buffered} {bytes : List UInt8} (h : b.fill = (.ok bytes, b')) :
    b'.buffer = bytes ∧ b'.size ≤ b.size := by
  have hsize := b.size_fill
  rw [h] at hsize
  refine ⟨?_, hsize⟩
  unfold fill at h
  split at h
  · split at h <;> simp_all
    grind
  · grind

/-- The bytes taken come out of those that were left. -/
theorem size_take (n : Nat) (b : Buffered) : (b.take n).2.size + (b.take n).1.length ≤ b.size := by
  unfold take
  split
  · rename_i hempty
    have hread := b.source.size_read n
    simp_all [size]
  · split
    · rename_i buffer b' hb
      obtain ⟨hbuffer, hfill⟩ := buffer_of_fill hb
      simp only [size, hbuffer] at hfill
      simp only [size, Delivery.length, List.length_take, List.length_drop]
      omega
    · rename_i fault b' hb
      have hfill := b.size_fill
      rw [hb] at hfill
      exact hfill

/-- Bytes that have been taken are gone. -/
theorem size_of_take {n : Nat} {b b' : Buffered} {delivery : Delivery}
    (h : b.take n = (delivery, b')) : b'.size + delivery.length ≤ b.size := by
  have := b.size_take n
  rwa [h] at this

end Buffered

end Lexicon
