import Lexicon.Gzip.Item

/-!
# Inflating

An inflater turns the bits of a member into its contents. It writes up to a limit. There it goes on
reading until it has something to write, which waits for a higher limit; so the end of a block is found
as early as possible, and so are bits that make no sense. An inflater also stops when it runs out of
bits, and goes on when there are more.

`size_run` says that what is written comes out of the bits.
-/

namespace Lexicon.Gzip

namespace Stretch

/-- Appends `n` bytes, each a copy of the byte `distance` before it. What would lie before the start
of the contents reads as zeros. -/
def copyBack (distance : Nat) : Nat → Array UInt8 → Array UInt8
  | 0, out => out
  | n + 1, out =>
    copyBack distance n (out.push (if distance ≤ out.size then out.getD (out.size - distance) 0 else 0))

/-- Appends as much of a stretch as fits below `limit`. Gives what does not fit. -/
def write (limit : Nat) (s : Stretch) (out : Array UInt8) : Option Stretch × Array UInt8 :=
  match s with
  | byte b => if out.size < limit then (none, out.push b) else (some (byte b), out)
  | copy length distance =>
    let n := min length (limit - out.size)
    (if n = length then none else some (copy (length - n) distance), copyBack distance n out)

end Stretch

namespace Block

/-- The place after a stretch that was read here. -/
def afterStretch (final : Bool) : Block → Block
  | stored left => storedBytes final (left - 1)
  | block => block

end Block

/-- A member being inflated. -/
structure Inflater where
  /-- The bits that have not been used yet. -/
  bits : List Bool
  block : Block
  /-- Whether the block is the last one. -/
  final : Bool
  /-- What has been read but not written yet. -/
  pending : Option Stretch
  /-- The contents so far, except for what lies too far back to be repeated. -/
  out : Array UInt8

/-- Why an inflater stops. -/
inductive Stop where
  /-- The next byte is above the limit. -/
  | full
  /-- There are too few bits. -/
  | starved
  | finished
  | corrupt

namespace Inflater

/-- A member at its start. -/
def start : Inflater := ⟨[], .start, false, none, #[]⟩

/-- The reason to stop before anything is read, if there is one. A stored byte is not even read if it
cannot be written. -/
def stopsAt? (limit : Nat) (block : Block) (out : Array UInt8) : Option Stop :=
  match block with
  | .ended => some .finished
  | .stored _ => if out.size < limit then none else some .full
  | _ => none

/-- Inflates up to `limit`, with nothing read that waits to be written. -/
def runFrom (limit : Nat) (block : Block) (final : Bool) (out : Array UInt8) (bits : List Bool) :
    Stop × Inflater :=
  match stopsAt? limit block out with
  | some stop => (stop, ⟨bits, block, final, none, out⟩)
  | none =>
    match _h : readItem block bits with
    | .starved => (.starved, ⟨bits, block, final, none, out⟩)
    | .corrupt => (.corrupt, ⟨bits, block, final, none, out⟩)
    | .done (.opened final block) rest => runFrom limit block final out rest
    | .done .blockEnd rest => runFrom limit (.following final) final out rest
    | .done (.stretch s) rest =>
      match s.write limit out with
      | (none, out) => runFrom limit (block.afterStretch final) final out rest
      | (some left, out) => (.full, ⟨rest, block.afterStretch final, final, some left, out⟩)
termination_by bits.length
decreasing_by all_goals exact (uses_readItem _ _ _ _ _h).1

/-- Inflates up to `limit`. -/
def run (limit : Nat) : Inflater → Stop × Inflater
  | ⟨bits, block, final, none, out⟩ => runFrom limit block final out bits
  | ⟨bits, block, final, some s, out⟩ =>
    match s.write limit out with
    | (none, out) => runFrom limit block final out bits
    | (some left, out) => (.full, ⟨bits, block, final, some left, out⟩)

/-! ## Progress -/

/-- The most bytes that can still be written without more bits. -/
def size (s : Inflater) : Nat :=
  Stretch.maxLength * s.bits.length + (s.pending.elim 0 Stretch.length)

theorem size_copyBack (distance n : Nat) (out : Array UInt8) :
    (Stretch.copyBack distance n out).size = out.size + n := by
  fun_induction Stretch.copyBack distance n out with
  | case1 => rfl
  | case2 out n ih => rw [ih, Array.size_push]; omega

/-- A stretch is written or left. -/
theorem size_write (limit : Nat) (s : Stretch) (out : Array UInt8) :
    out.size ≤ (s.write limit out).2.size ∧
      (s.write limit out).2.size + (s.write limit out).1.elim 0 Stretch.length =
        out.size + s.length := by
  cases s with
  | byte b => simp only [Stretch.write]; split <;> simp [Stretch.length]
  | copy length distance =>
    simp only [Stretch.write, size_copyBack, Stretch.length]
    split
    · simp only [Option.elim_none]; omega
    · simp only [Option.elim_some, Stretch.length]; omega

private theorem size_runFrom (limit : Nat) (block : Block) (final : Bool) (out : Array UInt8)
    (bits : List Bool) :
    out.size ≤ (runFrom limit block final out bits).2.out.size ∧
      (runFrom limit block final out bits).2.size + (runFrom limit block final out bits).2.out.size ≤
        Stretch.maxLength * bits.length + out.size := by
  have hmax : 0 < Stretch.maxLength := by decide
  fun_induction runFrom limit block final out bits with
  | case1 => simp [size]
  | case2 => simp [size]
  | case3 => simp [size]
  | case4 block final out bits _ final' block' rest h ih =>
    have := Nat.mul_le_mul_left Stretch.maxLength (uses_readItem _ _ _ _ h).1
    simp only [Nat.mul_add] at this
    omega
  | case5 block final out bits _ rest h ih =>
    have := Nat.mul_le_mul_left Stretch.maxLength (uses_readItem _ _ _ _ h).1
    simp only [Nat.mul_add] at this
    omega
  | case6 block final out bits _ s rest h out' hw ih =>
    -- The bit that the item used up pays for the stretch
    obtain ⟨hbits, hlength⟩ := uses_readItem _ _ _ _ h
    have := Nat.mul_le_mul_left Stretch.maxLength hbits
    have hwrite := size_write limit s out
    simp only [hw, Option.elim_none] at hwrite
    simp only [Item.length, Nat.mul_add] at this hlength
    omega
  | case7 block final out bits _ s rest h left out' hw =>
    obtain ⟨hbits, hlength⟩ := uses_readItem _ _ _ _ h
    have := Nat.mul_le_mul_left Stretch.maxLength hbits
    have hwrite := size_write limit s out
    simp only [hw, Option.elim_some] at hwrite
    simp only [Item.length, Nat.mul_add] at this hlength
    simp only [size, Option.elim_some]
    omega

/-- What is written comes out of the bits. -/
theorem size_run (limit : Nat) (s : Inflater) :
    s.out.size ≤ (s.run limit).2.out.size ∧
      (s.run limit).2.size + (s.run limit).2.out.size ≤ s.size + s.out.size := by
  fun_cases run limit s with
  | case1 bits block final out =>
    simpa [size] using size_runFrom limit block final out bits
  | case2 bits block final s out out' hw =>
    have hrun := size_runFrom limit block final out' bits
    have hwrite := size_write limit s out
    simp only [hw, Option.elim_none] at hwrite
    simp only [size, Option.elim_some] at hrun ⊢
    omega
  | case3 bits block final s out left out' hw =>
    have hwrite := size_write limit s out
    simp only [hw, Option.elim_some] at hwrite
    simp only [size, Option.elim_some]
    omega

end Inflater

end Lexicon.Gzip
