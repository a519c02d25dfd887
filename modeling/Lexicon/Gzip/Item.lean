import Lexicon.Gzip.Codes

/-!
# Items of compressed contents

The contents of a compressed member are blocks: stored bytes, or symbols in prefix codes. `readItem`
reads what comes next: the start of a block, a stretch of the contents, or the end of a block.

`uses_readItem` says that an item uses up a bit and stands for a bounded number of bytes, so bits can
never give more contents than their number allows.
-/

namespace Lexicon.Gzip

/-! ## Blocks -/

/-- Where in its blocks a member is. -/
inductive Block where
  /-- Before the next block. -/
  | start
  /-- Inside stored bytes, with so many still to come, which is never none. -/
  | stored (left : Nat)
  | coded (codes : BlockCodes)
  /-- Behind the last block. -/
  | ended

namespace Block

/-- What follows a block. -/
def following (final : Bool) : Block :=
  if final then ended else start

/-- The place before so many stored bytes. -/
def storedBytes (final : Bool) (left : Nat) : Block :=
  if left = 0 then following final else stored left

end Block

/-- Bytes that the contents go on with. -/
inductive Stretch where
  | byte (b : UInt8)
  /-- Earlier contents are repeated. -/
  | copy (length distance : Nat)

namespace Stretch

/-- The number of bytes of a stretch. -/
def length : Stretch → Nat
  | byte _ => 1
  | copy length _ => length

/-- No stretch that is read is longer. -/
def maxLength : Nat := 300

end Stretch

/-- What the bits of a member say next. -/
inductive Item where
  /-- A block starts; it may be the last one. -/
  | opened (final : Bool) (block : Block)
  | stretch (s : Stretch)
  /-- A coded block ends. -/
  | blockEnd

namespace Item

/-- The number of bytes that an item stands for. -/
def length : Item → Nat
  | stretch s => s.length
  | _ => 0

end Item

/-- Reads the start of a block. -/
def readBlock : BitReader Item := do
  let final := (← BitReader.number 1) == 1
  match ← BitReader.number 2 with
  | 0 =>
    BitReader.toByte
    let n ← BitReader.number 16
    let complement ← BitReader.number 16
    BitReader.require (n + complement == 0xFFFF)
    return .opened final (.storedBytes final n)
  | 1 => return .opened final (.coded fixedCodes)
  | 2 => return .opened final (.coded (← readCodes))
  | _ => BitReader.corrupt

/-- Reads a symbol and what belongs to it. -/
def readSymbol (codes : BlockCodes) : BitReader Item := do
  let s ← codes.literals.read
  if s < 256 then return .stretch (.byte (UInt8.ofNat s))
  else if s = 256 then return .blockEnd
  else
    let length ← readExtra lengthSymbols (s - 257)
    let distance ← readExtra distanceSymbols (← codes.distances.read)
    return .stretch (.copy length distance)

/-- Reads what comes next in a block. -/
def readItem : Block → BitReader Item
  | .start => readBlock
  | .stored _ => do return .stretch (.byte (UInt8.ofNat (← BitReader.number 8)))
  | .coded codes => readSymbol codes
  | .ended => BitReader.corrupt

/-! ## Progress -/

/-- Reading a symbol uses up a bit, and the symbol stands for a bounded number of bytes. -/
theorem uses_readSymbol (codes : BlockCodes) :
    BitReader.Uses 1 (·.length ≤ Stretch.maxLength) (readSymbol codes) := by
  refine BitReader.uses_bind codes.literals.uses_read fun s _ => ?_
  split
  · exact BitReader.uses_pure (show 1 ≤ Stretch.maxLength by decide)
  · split
    · exact BitReader.uses_pure (Nat.zero_le _)
    · refine BitReader.uses_bind (uses_readExtra Stretch.maxLength (by decide) _)
        fun length hlength => ?_
      refine BitReader.uses_bind codes.distances.uses_read.none fun d _ => ?_
      -- Distances are bounded, too, but by what does not matter here
      refine BitReader.uses_bind (uses_readExtra 40000 (by decide) _) fun distance _ => ?_
      exact BitReader.uses_pure (Nat.le_of_lt hlength)

/-- Reading the start of a block uses up a bit. -/
theorem uses_readBlock : BitReader.Uses 1 (·.length ≤ Stretch.maxLength) readBlock := by
  refine BitReader.uses_bind (BitReader.uses_number 1) fun final _ => ?_
  refine BitReader.uses_bind (BitReader.uses_number 2).none fun kind _ => ?_
  split
  · refine BitReader.uses_bind BitReader.uses_toByte fun _ _ => ?_
    refine BitReader.uses_bind (BitReader.uses_number 16).none fun n _ => ?_
    refine BitReader.uses_bind (BitReader.uses_number 16).none fun complement _ => ?_
    refine BitReader.uses_bind (BitReader.uses_require _) fun _ _ => ?_
    exact BitReader.uses_pure (Nat.zero_le _)
  · exact BitReader.uses_pure (Nat.zero_le _)
  · exact BitReader.uses_bind uses_readCodes fun _ _ => BitReader.uses_pure (Nat.zero_le _)
  · exact BitReader.uses_corrupt _ _

/-- Whatever comes next in a block uses up a bit, and stands for a bounded number of bytes. -/
theorem uses_readItem (block : Block) :
    BitReader.Uses 1 (·.length ≤ Stretch.maxLength) (readItem block) := by
  cases block with
  | start => exact uses_readBlock
  | stored left =>
    refine BitReader.uses_bind (n := 1) (P := fun _ => True) ?_ fun b _ =>
      BitReader.uses_pure (show 1 ≤ Stretch.maxLength by decide)
    intro bits a rest h
    obtain ⟨hlength, _⟩ := BitReader.uses_number 8 _ _ _ h
    exact ⟨by omega, trivial⟩
  | coded codes => exact uses_readSymbol codes
  | ended => exact BitReader.uses_corrupt _ _

end Lexicon.Gzip
