/-!
# Tallies

A tally of bytes is their number and their checksum, which is CRC-32.
-/

namespace Lexicon.Gzip

/-- The checksum register after one of eight shifts. -/
def shiftChecksum (c : UInt32) : UInt32 :=
  if c &&& 1 = 1 then (c >>> 1) ^^^ 0xEDB88320 else c >>> 1

/-- The checksum register after a byte. -/
def updateChecksum (c : UInt32) (b : UInt8) : UInt32 :=
  Nat.repeat shiftChecksum 8 (c ^^^ b.toUInt32)

/-- What is kept of bytes that have been counted. -/
structure Tally where
  count : Nat
  register : UInt32

namespace Tally

/-- The tally of no bytes. -/
def empty : Tally := ⟨0, 0xFFFFFFFF⟩

/-- Counts a byte. -/
def add (t : Tally) (b : UInt8) : Tally :=
  ⟨t.count + 1, updateChecksum t.register b⟩

/-- Counts bytes. -/
def addAll (t : Tally) (bytes : List UInt8) : Tally :=
  bytes.foldl add t

/-- The checksum of the bytes counted. -/
def checksum (t : Tally) : Nat :=
  (t.register ^^^ 0xFFFFFFFF).toNat

end Tally

/-- The number that bytes spell, the lowest one first. -/
def littleEndian (bytes : List UInt8) : Nat :=
  bytes.foldr (fun b n => b.toNat + 256 * n) 0

end Lexicon.Gzip
