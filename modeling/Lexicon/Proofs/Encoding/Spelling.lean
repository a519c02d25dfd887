import Lexicon.Proofs.Encoding.TextUnits

/-!
# Well-formed Unicode

Bytes that a decoder of Unicode reads without a malformed sequence are what writing their text gives:
the decoder takes no other spelling of a character, neither one that is too long nor a lone half of a
surrogate pair.

## Key results

- `Decoder.exists_utf8EncodeChar`, `Decoder.exists_utf16Units`: the first character of well-formed
  bytes
- `Encoding.decode?_eq_some_iff_items`: bytes are well-formed where each item is a character
- `UnicodeForm.encode_of_decode?`: well-formed bytes are what writing their text gives
-/

namespace Lexicon

/-! ## Reading without malformed sequences -/

namespace Decoder

variable {σ : Type}

/-- What bytes spell from a state on. -/
def itemsFrom (d : Decoder σ) (s : σ) : List UInt8 → List (Option Char)
  | [] => d.finish s
  | b :: rest => (d.step s b).items ++ itemsFrom d (d.step s b).state rest

theorem decodeAfter_eq (d : Decoder σ) (done : List (Option Char)) (s : σ) (bytes : List UInt8) :
    d.decodeAfter done s bytes = done.reverse ++ d.itemsFrom s bytes := by
  induction bytes generalizing done s with
  | nil => rw [decodeAfter, itemsFrom, List.reverseAux_eq, List.reverse_append, List.reverse_reverse]
  | cons b rest ih =>
    rw [decodeAfter, itemsFrom, ih, List.reverseAux_eq, List.reverse_append, List.reverse_reverse,
      List.append_assoc]

/-- From a state on, nothing malformed is met. -/
def Accepts (d : Decoder σ) (s : σ) (bytes : List UInt8) : Prop :=
  none ∉ d.itemsFrom s bytes

theorem accepts_cons {d : Decoder σ} {s : σ} {b : UInt8} {rest : List UInt8} :
    d.Accepts s (b :: rest) ↔ none ∉ (d.step s b).items ∧ d.Accepts (d.step s b).state rest := by
  simp only [Accepts, itemsFrom, List.mem_append, not_or]

/-- Bytes of which every beginning is a written character are a written text. -/
theorem Accepts.exists_text {d : Decoder σ} {f : Char → List UInt8}
    (hfirst : ∀ b bytes, d.Accepts d.start (b :: bytes) →
      ∃ c rest, b :: bytes = f c ++ rest ∧ f c ≠ [] ∧ d.Accepts d.start rest)
    {bytes : List UInt8} (h : d.Accepts d.start bytes) : ∃ t : Text, bytes = t.flatMap f := by
  induction hn : bytes.length using Nat.strongRecOn generalizing bytes with
  | _ n ih =>
    subst hn
    cases bytes with
    | nil => exact ⟨[], rfl⟩
    | cons b bytes =>
      obtain ⟨c, rest, hsplit, hne, hrest⟩ := hfirst b bytes h
      have hlt : rest.length < (b :: bytes).length := by
        have hpos := List.length_pos_iff.mpr hne
        rw [hsplit, List.length_append]
        omega
      obtain ⟨t, rfl⟩ := ih rest.length hlt hrest rfl
      exact ⟨c :: t, hsplit⟩

end Decoder

/-! ## The first character in UTF-8 -/

/-- The second byte of a character is narrowed down by two of the first bytes. -/
theorem Utf8State.second_bounds {a b least low most high : Nat} (hlow : 0x80 ≤ low)
    (hhigh : high ≤ 0xBF)
    (h : (if a = least then low else 0x80) ≤ b ∧ b ≤ (if a = most then high else 0xBF)) :
    (0x80 ≤ b ∧ b ≤ 0xBF) ∧ (a = least → low ≤ b) ∧ (a = most → b ≤ high) := by
  split at h <;> split at h <;> omega

theorem toNat_ofNat_of_isValidChar {n : Nat} (h : n.isValidChar) : (Char.ofNat n).toNat = n := by
  rw [Char.ofNat, dif_pos h]
  rfl

namespace Decoder

section Utf8

variable {a b c d : Nat}

private theorem utf8EncodeChar_one (ha : a < 128) :
    String.utf8EncodeChar (Char.ofNat a) = [UInt8.ofNat a] := by
  unfold String.utf8EncodeChar
  simp only [Char.toNat_val, toNat_ofNat_of_isValidChar (n := a) (.inl (by omega))]
  rw [if_pos (by omega)]

private theorem utf8EncodeChar_two (ha : 2 ≤ a ∧ a < 32) (hb : b < 64) :
    String.utf8EncodeChar (Char.ofNat (a * 64 + b)) =
      [UInt8.ofNat (a + 192), UInt8.ofNat (b + 128)] := by
  have hfirst : (a * 64 + b) / 64 % 32 = a := by omega
  have hsecond : (a * 64 + b) % 64 = b := by omega
  unfold String.utf8EncodeChar
  simp only [Char.toNat_val, toNat_ofNat_of_isValidChar (n := a * 64 + b) (.inl (by omega))]
  rw [if_neg (by omega), if_pos (by omega), hfirst, hsecond]

private theorem utf8EncodeChar_three (ha : a < 16) (hb : b < 64) (hc : c < 64)
    (hlong : a = 0 → 32 ≤ b) (hsurrogate : a = 13 → b < 32) :
    String.utf8EncodeChar (Char.ofNat ((a * 64 + b) * 64 + c)) =
      [UInt8.ofNat (a + 224), UInt8.ofNat (b + 128), UInt8.ofNat (c + 128)] := by
  have hfirst : ((a * 64 + b) * 64 + c) / 4096 % 16 = a := by omega
  have hsecond : ((a * 64 + b) * 64 + c) / 64 % 64 = b := by omega
  have hthird : ((a * 64 + b) * 64 + c) % 64 = c := by omega
  have hvalid : ((a * 64 + b) * 64 + c).isValidChar := by
    unfold Nat.isValidChar
    omega
  unfold String.utf8EncodeChar
  simp only [Char.toNat_val, toNat_ofNat_of_isValidChar hvalid]
  rw [if_neg (by omega), if_neg (by omega), if_pos (by omega), hfirst, hsecond, hthird]

private theorem utf8EncodeChar_four (ha : a ≤ 4) (hb : b < 64) (hc : c < 64) (hd : d < 64)
    (hlong : a = 0 → 16 ≤ b) (hlarge : a = 4 → b < 16) :
    String.utf8EncodeChar (Char.ofNat (((a * 64 + b) * 64 + c) * 64 + d)) =
      [UInt8.ofNat (a + 240), UInt8.ofNat (b + 128), UInt8.ofNat (c + 128),
        UInt8.ofNat (d + 128)] := by
  have hfirst : (((a * 64 + b) * 64 + c) * 64 + d) / 262144 % 8 = a := by omega
  have hsecond : (((a * 64 + b) * 64 + c) * 64 + d) / 4096 % 64 = b := by omega
  have hthird : (((a * 64 + b) * 64 + c) * 64 + d) / 64 % 64 = c := by omega
  have hfourth : (((a * 64 + b) * 64 + c) * 64 + d) % 64 = d := by omega
  have hvalid : (((a * 64 + b) * 64 + c) * 64 + d).isValidChar := by
    unfold Nat.isValidChar
    omega
  unfold String.utf8EncodeChar
  simp only [Char.toNat_val, toNat_ofNat_of_isValidChar hvalid]
  rw [if_neg (by omega), if_neg (by omega), if_neg (by omega), hfirst, hsecond, hthird, hfourth]

/-- Inside a character a byte follows that goes on with it. -/
private theorem Accepts.exists_cons {missing low high bits : Nat} {bytes : List UInt8}
    (h : utf8.Accepts (.inside missing low high bits) bytes) :
    ∃ x rest, bytes = x :: rest ∧ (low ≤ x.toNat ∧ x.toNat ≤ high) ∧
      utf8.Accepts
        (if missing = 1 then .start
          else .inside (missing - 1) 0x80 0xBF (bits * 64 + (x.toNat - 0x80))) rest := by
  cases bytes with
  | nil => exact absurd List.mem_cons_self h
  | cons x rest =>
    obtain ⟨hitems, hrest⟩ := accepts_cons.mp h
    have hstep : utf8.step (.inside missing low high bits) x =
        (Utf8State.inside missing low high bits).step x.toNat := rfl
    rw [hstep, Utf8State.step] at hitems hrest
    by_cases hx : low ≤ x.toNat ∧ x.toNat ≤ high
    · refine ⟨x, rest, rfl, hx, ?_⟩
      rw [if_pos hx] at hrest
      simp only at hrest
      split at hrest
      · rename_i hlast
        rwa [if_pos hlast]
      · rename_i hmore
        rwa [if_neg hmore]
    · rw [if_neg hx] at hitems
      exact absurd List.mem_cons_self hitems

private theorem ofNat_sub_add {x : UInt8} {n : Nat} (h : n ≤ x.toNat) :
    UInt8.ofNat (x.toNat - n + n) = x := by
  rw [Nat.sub_add_cancel h, UInt8.ofNat_toNat]

/-- Well-formed bytes start with a written character. -/
theorem exists_utf8EncodeChar (x : UInt8) (bytes : List UInt8)
    (h : utf8.Accepts utf8.start (x :: bytes)) :
    ∃ c rest, x :: bytes = String.utf8EncodeChar c ++ rest ∧ String.utf8EncodeChar c ≠ [] ∧
      utf8.Accepts utf8.start rest := by
  have hne : ∀ c, String.utf8EncodeChar c ≠ [] := UnicodeForm.encodeChar_ne_nil .utf8
  obtain ⟨hitems, hrest⟩ := accepts_cons.mp h
  have hstep : utf8.step utf8.start x = Utf8State.first x.toNat := rfl
  rw [hstep, Utf8State.first] at hitems hrest
  -- The first byte tells how many there are
  split at hrest
  · rename_i hx
    refine ⟨Char.ofNat x.toNat, bytes, ?_, hne _, hrest⟩
    rw [utf8EncodeChar_one (by omega), UInt8.ofNat_toNat]
    rfl
  split at hrest
  · rename_i hx
    obtain ⟨y, rest, rfl, hy, hrest⟩ := hrest.exists_cons
    refine ⟨_, rest, ?_, hne (Char.ofNat ((x.toNat - 192) * 64 + (y.toNat - 128))), hrest⟩
    rw [utf8EncodeChar_two (by omega) (by omega), ofNat_sub_add (by omega), ofNat_sub_add (by omega)]
    rfl
  split at hrest
  · rename_i hx
    obtain ⟨y, rest, rfl, hy, hrest⟩ := hrest.exists_cons
    obtain ⟨z, rest, rfl, hz, hrest⟩ := hrest.exists_cons
    refine ⟨_, rest, ?_,
      hne (Char.ofNat (((x.toNat - 224) * 64 + (y.toNat - 128)) * 64 + (z.toNat - 128))), hrest⟩
    obtain ⟨hrange, hlong, hsurrogate⟩ := Utf8State.second_bounds (by decide) (by decide) hy
    rw [utf8EncodeChar_three (by omega) (by omega) (by omega) (by omega) (by omega),
      ofNat_sub_add (by omega), ofNat_sub_add (by omega), ofNat_sub_add (by omega)]
    rfl
  split at hrest
  · rename_i hx
    obtain ⟨y, rest, rfl, hy, hrest⟩ := hrest.exists_cons
    obtain ⟨z, rest, rfl, hz, hrest⟩ := hrest.exists_cons
    obtain ⟨w, rest, rfl, hw, hrest⟩ := hrest.exists_cons
    refine ⟨_, rest, ?_,
      hne (Char.ofNat ((((x.toNat - 240) * 64 + (y.toNat - 128)) * 64 + (z.toNat - 128)) * 64 +
        (w.toNat - 128))), hrest⟩
    obtain ⟨hrange, hlong, hlarge⟩ := Utf8State.second_bounds (by decide) (by decide) hy
    rw [utf8EncodeChar_four (by omega) (by omega) (by omega) (by omega) (by omega) (by omega),
      ofNat_sub_add (by omega), ofNat_sub_add (by omega), ofNat_sub_add (by omega),
      ofNat_sub_add (by omega)]
    rfl
  · -- No other byte starts a character
    rename_i h₁ h₂ h₃ h₄
    rw [if_neg h₁, if_neg h₂, if_neg h₃, if_neg h₄] at hitems
    exact absurd List.mem_cons_self hitems

end Utf8

end Decoder

/-! ## The first character in UTF-16 -/

theorem ByteOrder.unit_lt (order : ByteOrder) (x y : UInt8) : order.unit x y < 0x10000 := by
  have hx := x.toNat_lt
  have hy := y.toNat_lt
  cases order with
  | little =>
    show y.toNat * 256 + x.toNat < 0x10000
    omega
  | big =>
    show x.toNat * 256 + y.toNat < 0x10000
    omega

/-- The digits of a unit to the base 256 are its bytes. -/
theorem ByteOrder.bytes_unit (order : ByteOrder) (x y : UInt8) :
    order.bytes (order.unit x y) = [x, y] := by
  have hdigits : ∀ high low : UInt8, UInt8.ofNat (high.toNat * 256 + low.toNat) = low ∧
      UInt8.ofNat ((high.toNat * 256 + low.toNat) / 256) = high := by
    intro high low
    have hlow := low.toNat_lt
    have hhigh := high.toNat_lt
    constructor
    · apply UInt8.toNat_inj.mp
      rw [UInt8.toNat_ofNat']
      omega
    · apply UInt8.toNat_inj.mp
      rw [UInt8.toNat_ofNat']
      omega
  cases order with
  | little =>
    obtain ⟨hlow, hhigh⟩ := hdigits y x
    show [UInt8.ofNat (y.toNat * 256 + x.toNat), UInt8.ofNat ((y.toNat * 256 + x.toNat) / 256)] = _
    rw [hlow, hhigh]
  | big =>
    obtain ⟨hlow, hhigh⟩ := hdigits x y
    show [UInt8.ofNat ((x.toNat * 256 + y.toNat) / 256), UInt8.ofNat (x.toNat * 256 + y.toNat)] = _
    rw [hlow, hhigh]

private theorem utf16Units_one {u : Nat} (hu : u < 0x10000) (hlead : Utf16State.isLead u = false)
    (htrail : Utf16State.isTrail u = false) : utf16Units (Char.ofNat u) = [u] := by
  simp only [Utf16State.isLead, Utf16State.isTrail, Bool.and_eq_false_iff, decide_eq_false_iff_not]
    at hlead htrail
  have hvalid : u.isValidChar := by
    unfold Nat.isValidChar
    omega
  rw [utf16Units, toNat_ofNat_of_isValidChar hvalid, if_pos hu]

private theorem utf16Units_two {u v : Nat} (hlead : Utf16State.isLead u = true)
    (htrail : Utf16State.isTrail v = true) :
    utf16Units (Char.ofNat (0x10000 + (u - 0xD800) * 0x400 + (v - 0xDC00))) = [u, v] := by
  simp only [Utf16State.isLead, Utf16State.isTrail, Bool.and_eq_true, decide_eq_true_eq]
    at hlead htrail
  have hvalid : (0x10000 + (u - 0xD800) * 0x400 + (v - 0xDC00)).isValidChar := by
    unfold Nat.isValidChar
    omega
  have hfirst : 0xD800 + (0x10000 + (u - 0xD800) * 0x400 + (v - 0xDC00) - 0x10000) / 0x400 = u := by
    omega
  have hsecond : 0xDC00 + (0x10000 + (u - 0xD800) * 0x400 + (v - 0xDC00) - 0x10000) % 0x400 = v := by
    omega
  rw [utf16Units, toNat_ofNat_of_isValidChar hvalid, if_neg (by omega), hfirst, hsecond]

namespace Decoder

variable {order : ByteOrder}

/-- Behind the first byte of a unit, or inside a surrogate pair, there is a whole unit. -/
private theorem Accepts.exists_unit {lead : Option Nat} {bytes : List UInt8}
    (h : (utf16 order.unit).Accepts ⟨none, lead⟩ bytes) (hne : bytes ≠ [] ∨ lead ≠ none) :
    ∃ x y rest, bytes = x :: y :: rest ∧
      none ∉ (Utf16State.stepUnit lead (order.unit x y)).items ∧
      (utf16 order.unit).Accepts (Utf16State.stepUnit lead (order.unit x y)).state rest := by
  match bytes with
  | [] =>
    have hstart : (⟨none, lead⟩ : Utf16State) ≠ .start := by
      rintro heq
      exact (hne.resolve_left fun hnil => hnil rfl) (congrArg Utf16State.lead heq)
    have hfinish : (utf16 order.unit).finish ⟨none, lead⟩ = [none] := if_neg hstart
    rw [Accepts, itemsFrom, hfinish] at h
    exact absurd List.mem_cons_self h
  | [x] =>
    have hfinish : (utf16 order.unit).finish ⟨some x, lead⟩ = [none] := rfl
    obtain ⟨-, hrest⟩ := accepts_cons.mp h
    have hstate : ((utf16 order.unit).step ⟨none, lead⟩ x).state = ⟨some x, lead⟩ := rfl
    rw [hstate, Accepts, itemsFrom, hfinish] at hrest
    exact absurd List.mem_cons_self hrest
  | x :: y :: rest =>
    obtain ⟨-, hrest⟩ := accepts_cons.mp h
    obtain ⟨hitems, hrest⟩ := accepts_cons.mp hrest
    exact ⟨x, y, rest, rfl, hitems, hrest⟩

/-- Well-formed bytes start with a written character. -/
theorem exists_utf16Units (x : UInt8) (bytes : List UInt8)
    (h : (utf16 order.unit).Accepts (utf16 order.unit).start (x :: bytes)) :
    ∃ c rest, x :: bytes = (utf16Units c).flatMap order.bytes ++ rest ∧
      (utf16Units c).flatMap order.bytes ≠ [] ∧
      (utf16 order.unit).Accepts (utf16 order.unit).start rest := by
  have hne : ∀ c, (utf16Units c).flatMap order.bytes ≠ [] :=
    UnicodeForm.encodeChar_ne_nil (.utf16 order)
  obtain ⟨x, y, rest, hsplit, hitems, hrest⟩ :=
    Accepts.exists_unit h (.inl (List.cons_ne_nil x bytes))
  rw [hsplit]
  rw [Utf16State.stepUnit, Utf16State.first] at hitems hrest
  split at hrest
  · -- The first half of a surrogate pair, behind which there must be the second one
    rename_i hlead
    obtain ⟨z, w, rest, rfl, hitems, hrest⟩ := hrest.exists_unit (.inr (Option.some_ne_none _))
    rw [Utf16State.stepUnit] at hitems hrest
    split at hrest
    · rename_i htrail
      refine ⟨_, rest, ?_, hne (Char.ofNat (0x10000 + (order.unit x y - 0xD800) * 0x400 +
        (order.unit z w - 0xDC00))), hrest⟩
      rw [utf16Units_two hlead htrail, List.flatMap_cons, List.flatMap_singleton,
        order.bytes_unit, order.bytes_unit]
      rfl
    · rename_i htrail
      rw [if_neg htrail] at hitems
      exact absurd List.mem_cons_self hitems
  · rename_i hlead
    rw [if_neg hlead] at hitems
    split at hrest
    · rename_i htrail
      rw [if_pos htrail] at hitems
      exact absurd List.mem_cons_self hitems
    · rename_i htrail
      refine ⟨Char.ofNat (order.unit x y), rest, ?_, hne _, hrest⟩
      rw [utf16Units_one (order.unit_lt x y) (Bool.eq_false_iff.mpr hlead)
        (Bool.eq_false_iff.mpr htrail), List.flatMap_singleton, order.bytes_unit]
      rfl

end Decoder

/-! ## Well-formed bytes -/

theorem Encoding.decode?_eq_some_iff_items {e : Encoding} {bytes : List UInt8} {t : Text} :
    e.decode? bytes = some t ↔ e.items bytes = t.map some := by
  unfold decode?
  simp only
  constructor
  · intro h
    split at h
    · rename_i hall
      rw [← Option.some.inj h]
      generalize e.items bytes = items at hall
      induction items with
      | nil => rfl
      | cons item items ih =>
        obtain ⟨hitem, hall⟩ := Bool.and_eq_true_iff.mp hall
        obtain ⟨c, rfl⟩ := Option.isSome_iff_exists.mp hitem
        show some c :: items = some c :: (items.filterMap id).map some
        rw [← ih hall]
    · cases h
  · intro h
    rw [h, if_pos (by simp)]
    simp

/-- Well-formed bytes are what writing their text gives. -/
theorem UnicodeForm.encode_of_decode? {f : UnicodeForm} {bytes : List UInt8} {t : Text}
    (h : f.encoding.decode? bytes = some t) : f.encode t = bytes := by
  have hitems : none ∉ f.encoding.items bytes := by
    rw [Encoding.decode?_eq_some_iff_items.mp h]
    simp
  obtain ⟨t', rfl⟩ : ∃ t', bytes = f.encode t' := by
    cases f with
    | utf8 =>
      have haccepts : Decoder.utf8.Accepts Decoder.utf8.start bytes := by
        rw [Decoder.Accepts, ← List.nil_append (Decoder.itemsFrom _ _ _)]
        rw [← List.reverse_nil, ← Decoder.decodeAfter_eq]
        exact hitems
      exact haccepts.exists_text Decoder.exists_utf8EncodeChar
    | utf16 order =>
      have haccepts : (Decoder.utf16 order.unit).Accepts (Decoder.utf16 order.unit).start bytes := by
        rw [Decoder.Accepts, ← List.nil_append (Decoder.itemsFrom _ _ _)]
        rw [← List.reverse_nil, ← Decoder.decodeAfter_eq]
        exact hitems
      exact haccepts.exists_text Decoder.exists_utf16Units
  rw [decode?_encode] at h
  rw [Option.some.inj h]

end Lexicon
