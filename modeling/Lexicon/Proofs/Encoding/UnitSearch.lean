import Lexicon.Source.Lines

/-!
# Searching for code units

The search for a code unit goes through some bytes unit by unit. So it may be resumed: when nothing
was found in some whole units, it is enough to search the bytes behind them.

## Key results

- `unitInduction`: bytes are whole units and then less than one
- `indexOfUnit?_eq`: one step of the search
- `indexOfUnit?_append`: a search behind whole units goes on where the search in them ended
- `firstUnit?_eq_some_iff`: how the unit of an ASCII character is written
-/

namespace Lexicon.Encoding

/-! ## Units of some bytes -/

/-- Bytes are whole units and then less than one. -/
@[elab_as_elim]
theorem unitInduction {motive : List UInt8 → Prop} (e : Encoding)
    (short : ∀ bytes, bytes.length < e.unitWidth → motive bytes)
    (unit : ∀ bytes, e.unitWidth ≤ bytes.length → motive (bytes.drop e.unitWidth) → motive bytes)
    (bytes : List UInt8) : motive bytes := by
  induction hn : bytes.length using Nat.strongRecOn generalizing bytes with
  | _ n ih =>
    by_cases hlt : bytes.length < e.unitWidth
    · exact short bytes hlt
    · have hpos := e.unitWidth_pos
      have hle : e.unitWidth ≤ bytes.length := Nat.le_of_not_lt hlt
      exact unit bytes hle (ih _ (by rw [List.length_drop]; omega) _ rfl)

/-- The first unit does not depend on what stands behind it. -/
theorem firstUnit?_append {e : Encoding} {a : List UInt8} (h : e.unitWidth ≤ a.length)
    (b : List UInt8) : e.firstUnit? (a ++ b) = e.firstUnit? a := by
  rcases e with page | _ | order
  · obtain ⟨x, a, rfl⟩ := List.exists_cons_of_length_pos h
    rfl
  · obtain ⟨x, a, rfl⟩ := List.exists_cons_of_length_pos h
    rfl
  · match a, h with
    | x :: y :: a, _ => rfl

/-- How a character of ASCII is written, as one code unit. -/
def asciiUnit (e : Encoding) (n : UInt8) : List UInt8 :=
  match e with
  | utf16 .little => [n, 0]
  | utf16 .big => [0, n]
  | _ => [n]

@[simp]
theorem length_asciiUnit (e : Encoding) (n : UInt8) : (e.asciiUnit n).length = e.unitWidth := by
  rcases e with page | _ | _ | _ <;> rfl

private theorem toNat_pair_eq_iff (a b n : UInt8) :
    b.toNat * 256 + a.toNat = n.toNat ↔ a = n ∧ b = 0 := by
  have ha := a.toNat_lt
  have hn := n.toNat_lt
  constructor
  · intro h
    exact ⟨UInt8.toNat_inj.mp (by omega), UInt8.toNat_inj.mp (by rw [UInt8.toNat_zero]; omega)⟩
  · rintro ⟨rfl, rfl⟩
    rw [UInt8.toNat_zero]
    omega

/-- Bytes start with the unit of an ASCII character where they start with its spelling. -/
theorem firstUnit?_eq_some_iff (e : Encoding) (n : UInt8) (bytes : List UInt8) :
    e.firstUnit? bytes = some n.toNat ↔ e.asciiUnit n <+: bytes := by
  have hnarrow : ∀ bytes : List UInt8, bytes.head?.map UInt8.toNat = some n.toNat ↔ [n] <+: bytes := by
    intro bytes
    cases bytes with
    | nil => simp
    | cons a rest => simp [UInt8.toNat_inj, eq_comm]
  rcases e with page | _ | order
  · show (singleByte page).firstUnit? bytes = some n.toNat ↔ [n] <+: bytes
    rw [← hnarrow]
    cases bytes <;> simp [firstUnit?]
  · show utf8.firstUnit? bytes = some n.toNat ↔ [n] <+: bytes
    rw [← hnarrow]
    cases bytes <;> simp [firstUnit?]
  · match bytes, order with
    | [], .little => simp [firstUnit?, asciiUnit]
    | [], .big => simp [firstUnit?, asciiUnit]
    | [a], .little => simp [firstUnit?, asciiUnit]
    | [a], .big => simp [firstUnit?, asciiUnit]
    | a :: b :: rest, .little =>
      simp only [firstUnit?, asciiUnit, ByteOrder.unit, Option.some.injEq, toNat_pair_eq_iff]
      simp [eq_comm]
    | a :: b :: rest, .big =>
      simp only [firstUnit?, asciiUnit, ByteOrder.unit, Option.some.injEq, toNat_pair_eq_iff]
      simp [eq_comm, and_comm]

/-! ## Steps of the search -/

private theorem indexOfByte?_eq_map (target index : Nat) (bytes : List UInt8) :
    indexOfByte? target index bytes = (indexOfByte? target 0 bytes).map (· + index) := by
  induction bytes generalizing index with
  | nil => rfl
  | cons a rest ih =>
    simp only [indexOfByte?]
    split
    · simp
    · rw [ih, ih (0 + 1)]
      simp only [Option.map_map]
      congr 1
      funext i
      simp only [Function.comp]
      omega

private theorem indexOfPair?_eq_map (order : ByteOrder) (target : Nat) :
    ∀ (index : Nat) (bytes : List UInt8), indexOfPair? order target index bytes =
      (indexOfPair? order target 0 bytes).map (· + index)
  | _, [] => rfl
  | _, [_] => rfl
  | index, a :: b :: rest => by
    have hindex := indexOfPair?_eq_map order target (index + 2) rest
    have hstart := indexOfPair?_eq_map order target (0 + 2) rest
    simp only [indexOfPair?]
    split
    · simp
    · rw [hindex, hstart, Option.map_map]
      congr 1
      funext i
      simp only [Function.comp]
      omega

@[simp]
theorem indexOfUnit?_nil (e : Encoding) (target : Nat) : e.indexOfUnit? target [] = none := by
  cases e <;> rfl

/-- Less than one unit is nothing, or half a unit of UTF-16. -/
theorem cases_of_lt_unitWidth {e : Encoding} {bytes : List UInt8} (h : bytes.length < e.unitWidth) :
    bytes = [] ∨ ∃ order b, e = utf16 order ∧ bytes = [b] := by
  rcases e with page | _ | order
  · exact .inl (List.length_eq_zero_iff.mp (Nat.lt_one_iff.mp h))
  · exact .inl (List.length_eq_zero_iff.mp (Nat.lt_one_iff.mp h))
  · match bytes, h with
    | [], _ => exact .inl rfl
    | [b], _ => exact .inr ⟨order, b, rfl, rfl⟩

/-- Less than one unit holds no unit. -/
theorem indexOfUnit?_eq_none_of_lt {e : Encoding} {bytes : List UInt8}
    (h : bytes.length < e.unitWidth) (target : Nat) : e.indexOfUnit? target bytes = none := by
  rcases cases_of_lt_unitWidth h with rfl | ⟨order, b, rfl, rfl⟩
  · exact indexOfUnit?_nil e target
  · rfl

/-- The search looks at the first unit, and goes on behind it. -/
theorem indexOfUnit?_eq {e : Encoding} {bytes : List UInt8} (h : e.unitWidth ≤ bytes.length)
    (target : Nat) :
    e.indexOfUnit? target bytes =
      if e.firstUnit? bytes = some target then some 0
      else (e.indexOfUnit? target (bytes.drop e.unitWidth)).map (· + e.unitWidth) := by
  have hbyte : ∀ bytes : List UInt8, 1 ≤ bytes.length →
      indexOfByte? target 0 bytes =
        if bytes.head?.map UInt8.toNat = some target then some 0
        else (indexOfByte? target 0 (bytes.drop 1)).map (· + 1) := by
    intro bytes hlen
    obtain ⟨a, rest, rfl⟩ := List.exists_cons_of_length_pos hlen
    simp only [indexOfByte?, List.head?_cons, Option.map_some, Option.some.injEq,
      List.drop_succ_cons, List.drop_zero]
    rw [indexOfByte?_eq_map target (0 + 1)]
  rcases e with page | _ | order
  · show indexOfByte? target 0 bytes = _
    rw [hbyte bytes h]
    cases bytes <;> rfl
  · show indexOfByte? target 0 bytes = _
    rw [hbyte bytes h]
    cases bytes <;> rfl
  · match bytes, h with
    | a :: b :: rest, _ =>
      simp only [indexOfUnit?, indexOfPair?, firstUnit?, Option.some.injEq, unitWidth,
        List.drop_succ_cons, List.drop_zero]
      rw [indexOfPair?_eq_map order target (0 + 2)]

/-! ## Resuming the search -/

/-- What is found in some bytes is found there whatever stands behind them. -/
theorem indexOfUnit?_append_of_some {e : Encoding} {target i : Nat} {a : List UInt8}
    (h : e.indexOfUnit? target a = some i) (b : List UInt8) :
    e.indexOfUnit? target (a ++ b) = some i := by
  induction a using unitInduction e generalizing i with
  | short a hlt => rw [indexOfUnit?_eq_none_of_lt hlt] at h; cases h
  | unit a hle ih =>
    have hlen : e.unitWidth ≤ (a ++ b).length := by rw [List.length_append]; omega
    rw [indexOfUnit?_eq hle] at h
    rw [indexOfUnit?_eq hlen, firstUnit?_append hle, List.drop_append_of_le_length hle]
    split at h
    · rename_i hfirst
      rw [if_pos hfirst]
      exact h
    · rename_i hfirst
      obtain ⟨j, hj, rfl⟩ := Option.map_eq_some_iff.mp h
      rw [if_neg hfirst, ih hj]
      rfl

/-- A search behind whole units goes on where the search in them ended. -/
theorem indexOfUnit?_append {e : Encoding} {a : List UInt8} (ha : a.length % e.unitWidth = 0)
    (target : Nat) (b : List UInt8) :
    e.indexOfUnit? target (a ++ b) =
      (e.indexOfUnit? target a).or ((e.indexOfUnit? target b).map (· + a.length)) := by
  induction a using unitInduction e with
  | short a hlt =>
    -- Less than one unit, and whole units: nothing
    rw [Nat.mod_eq_of_lt hlt] at ha
    rw [List.length_eq_zero_iff.mp ha, indexOfUnit?_nil]
    simp
  | unit a hle ih =>
    have hlen : e.unitWidth ≤ (a ++ b).length := by rw [List.length_append]; omega
    have hdrop : (a.drop e.unitWidth).length % e.unitWidth = 0 := by
      rw [List.length_drop, ← Nat.mod_eq_sub_mod hle, ha]
    rw [indexOfUnit?_eq hlen, indexOfUnit?_eq hle, firstUnit?_append hle,
      List.drop_append_of_le_length hle, ih hdrop]
    split
    · rfl
    · cases e.indexOfUnit? target (a.drop e.unitWidth) with
      | some i => rfl
      | none =>
        simp only [Option.none_or, Option.map_none, Option.map_map, List.length_drop]
        congr 1
        funext i
        simp only [Function.comp]
        omega

/-- Bytes in which nothing is found have no part at their start in which something is. -/
theorem indexOfUnit?_take_eq_none {e : Encoding} {target : Nat} {bytes : List UInt8}
    (h : e.indexOfUnit? target bytes = none) (n : Nat) :
    e.indexOfUnit? target (bytes.take n) = none := by
  cases hi : e.indexOfUnit? target (bytes.take n) with
  | none => rfl
  | some i =>
    have hall := indexOfUnit?_append_of_some hi (bytes.drop n)
    rw [List.take_append_drop, h] at hall
    cases hall

end Lexicon.Encoding
