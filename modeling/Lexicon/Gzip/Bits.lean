/-!
# Reading bits

Compressed data arrive in parts, so what reads them must be able to stop for want of bits and start
again when there are more. A reader of bits either gives a value and the bits after it, or runs out
of bits, or finds them corrupt; in the last case more bits would not help.

`Uses` states how many bits a reader uses up at least. Every loop over bits ends because of it.
-/

namespace Lexicon.Gzip

/-- The outcome of reading bits. -/
inductive Reading (α : Type) where
  | done (value : α) (rest : List Bool)
  /-- There were too few bits. -/
  | starved
  | corrupt

/-- Something that reads bits. -/
def BitReader (α : Type) : Type :=
  List Bool → Reading α

namespace BitReader

variable {α β : Type}

instance : Monad BitReader where
  pure a := fun bits => .done a bits
  bind read next := fun bits =>
    match read bits with
    | .done a rest => next a rest
    | .starved => .starved
    | .corrupt => .corrupt

/-- Refuses the bits. -/
def corrupt : BitReader α :=
  fun _ => .corrupt

/-- Refuses the bits unless a condition holds. -/
def require (condition : Bool) : BitReader Unit :=
  if condition then pure () else corrupt

/-- Reads a number of `n` bits, the lowest one first. -/
def number : Nat → BitReader Nat
  | 0 => pure 0
  | n + 1 => fun bits =>
    match bits with
    | [] => .starved
    | b :: rest =>
      match number n rest with
      | .done high rest => .done (b.toNat + 2 * high) rest
      | .starved => .starved
      | .corrupt => .corrupt

/-- Skips the bits up to the next byte. Bits always come in whole bytes. -/
def toByte : BitReader Unit :=
  fun bits => .done () (bits.drop (bits.length % 8))

end BitReader

/-- The bits of a byte, the lowest one first. -/
def byteBits (b : UInt8) : List Bool :=
  (List.range 8).map fun i => b.toNat.testBit i

/-- The bits of bytes, those of the first byte first. -/
def bitsOf (bytes : List UInt8) : List Bool :=
  bytes.flatMap byteBits

@[simp]
theorem length_bitsOf (bytes : List UInt8) : (bitsOf bytes).length = 8 * bytes.length := by
  induction bytes with
  | nil => rfl
  | cons b rest ih =>
    simp only [bitsOf, List.flatMap_cons, List.length_append, List.length_cons] at ih ⊢
    simp only [ih, byteBits, List.length_map, List.length_range]
    omega

namespace BitReader

variable {α β : Type}

/-! ## Progress -/

/-- Whenever a reader gives a value it has used up at least `n` bits, and the value satisfies `P`. -/
def Uses (n : Nat) (P : α → Prop) (read : BitReader α) : Prop :=
  ∀ bits a rest, read bits = .done a rest → rest.length + n ≤ bits.length ∧ P a

theorem uses_pure {P : α → Prop} {a : α} (h : P a) : Uses 0 P (pure a : BitReader α) := by
  intro bits b rest hr
  cases hr
  exact ⟨Nat.le_refl _, h⟩

theorem uses_corrupt (n : Nat) (P : α → Prop) : Uses n P corrupt := by
  intro bits a rest hr
  cases hr

/-- A reader goes on to use up what it has used up first. -/
theorem uses_bind {n : Nat} {P : α → Prop} {Q : β → Prop} {read : BitReader α}
    {next : α → BitReader β} (hread : Uses n P read) (hnext : ∀ a, P a → Uses 0 Q (next a)) :
    Uses n Q (read >>= next) := by
  intro bits b rest hr
  change (match read bits with
    | .done a rest => next a rest
    | .starved => .starved
    | .corrupt => .corrupt) = _ at hr
  split at hr
  · rename_i a middle ha
    obtain ⟨hfirst, hPa⟩ := hread _ _ _ ha
    obtain ⟨hsecond, hQb⟩ := hnext a hPa _ _ _ hr
    exact ⟨by omega, hQb⟩
  · cases hr
  · cases hr

/-- Using up some bits is using up none. -/
theorem Uses.none {n : Nat} {P : α → Prop} {read : BitReader α} (h : Uses n P read) :
    Uses 0 P read := by
  intro bits a rest hr
  obtain ⟨hlength, hP⟩ := h _ _ _ hr
  exact ⟨by omega, hP⟩

theorem uses_require (condition : Bool) : Uses 0 (fun _ => True) (require condition) := by
  unfold require
  split
  · exact uses_pure trivial
  · exact uses_corrupt _ _

/-- A number of `n` bits is below the one with `n` zeros. -/
theorem uses_number (n : Nat) : Uses n (· < 1 <<< n) (number n) := by
  induction n with
  | zero => exact uses_pure (by decide)
  | succ n ih =>
    intro bits a rest hr
    unfold number at hr
    split at hr
    · cases hr
    · rename_i b bits
      split at hr
      · rename_i high middle hhigh
        cases hr
        obtain ⟨hlength, hhigh⟩ := ih _ _ _ hhigh
        have := b.toNat_le
        simp only [Nat.one_shiftLeft, Nat.pow_succ, List.length_cons] at hhigh ⊢
        omega
      · cases hr
      · cases hr

theorem uses_toByte : Uses 0 (fun _ => True) toByte := by
  intro bits a rest hr
  cases hr
  exact ⟨by simp, trivial⟩

end BitReader

end Lexicon.Gzip
