import Lexicon.Proofs.Encoding.UnicodeForm
import Lexicon.Proofs.Source.Stretch

/-!
# Code units of written texts

A code unit that spells a character of ASCII occurs in a written text only where that character
stands: the bytes of other characters, halves of surrogate pairs among them, form no such unit.

## Key results

- `UnicodeForm.mem_of_mem_codeUnits`: the unit of a character of ASCII stands for that character
- `UnicodeForm.asciiUnit_prefix_iff`, `UnicodeForm.asciiUnit_suffix_iff`: how a text starts and ends
-/

namespace Lexicon

/-! ## Code units -/

namespace Encoding

variable {e : Encoding}

theorem codeUnits_append {a : List UInt8} (ha : a.length % e.unitWidth = 0) (b : List UInt8) :
    e.codeUnits (a ++ b) = e.codeUnits a ++ e.codeUnits b := by
  induction a using unitInduction e with
  | short a hlt =>
    rw [Nat.mod_eq_of_lt hlt] at ha
    have hnil : e.codeUnits [] = [] := codeUnits_of_lt e.unitWidth_pos
    rw [List.length_eq_zero_iff.mp ha, hnil]
    rfl
  | unit a hle ih =>
    have hlen : e.unitWidth ≤ (a ++ b).length := by rw [List.length_append]; omega
    have hdrop : (a.drop e.unitWidth).length % e.unitWidth = 0 := by
      rw [List.length_drop, ← Nat.mod_eq_sub_mod hle, ha]
    rw [codeUnits_of_le hlen, codeUnits_of_le hle, List.take_append_of_le_length hle,
      List.drop_append_of_le_length hle, ih hdrop]
    rfl

theorem flatten_codeUnits (e : Encoding) (bytes : List UInt8) : (e.codeUnits bytes).flatten = bytes := by
  induction bytes using unitInduction e with
  | short bytes hlt =>
    rw [codeUnits_of_lt hlt]
    split
    · rename_i hnil
      rw [hnil]
      rfl
    · exact List.flatten_singleton
  | unit bytes hle ih =>
    rw [codeUnits_of_le hle, List.flatten_cons, ih, List.take_append_drop]

theorem asciiUnit_ne_nil (e : Encoding) (n : UInt8) : e.asciiUnit n ≠ [] := by
  intro h
  have hlength := congrArg List.length h
  have hpos := e.unitWidth_pos
  rw [length_asciiUnit, List.length_nil] at hlength
  omega

theorem whole_asciiUnit (e : Encoding) (n : UInt8) : (e.asciiUnit n).length % e.unitWidth = 0 := by
  rw [length_asciiUnit, Nat.mod_self]

theorem codeUnits_asciiUnit (e : Encoding) (n : UInt8) :
    e.codeUnits (e.asciiUnit n) = [e.asciiUnit n] := by
  rcases e with page | _ | _ | _ <;> rfl

end Encoding

/-- A character of ASCII and its byte. -/
structure IsAscii (a : Char) (n : UInt8) : Prop where
  toNat_eq : a.toNat = n.toNat
  lt : n.toNat < 128

theorem isAscii_lineFeed : IsAscii '\n' 0x0A := ⟨rfl, by decide⟩

theorem isAscii_carriageReturn : IsAscii '\r' 0x0D := ⟨rfl, by decide⟩

theorem isAscii_numberSign : IsAscii '#' 0x23 := ⟨rfl, by decide⟩

/-- The halves of a surrogate pair lie where no character of ASCII does. -/
theorem utf16Units_cases (c : Char) :
    (utf16Units c = [c.toNat] ∧ c.toNat < 0x10000) ∨
      ∃ lead trail, utf16Units c = [lead, trail] ∧ (128 ≤ lead ∧ lead < 0x10000) ∧
        128 ≤ trail ∧ trail < 0x10000 := by
  have hvalid : c.toNat < 0xD800 ∨ (0xDFFF < c.toNat ∧ c.toNat < 0x110000) := c.valid
  unfold utf16Units
  split
  · rename_i h
    exact .inl ⟨rfl, h⟩
  · exact .inr ⟨_, _, rfl, by omega, by omega⟩

theorem lt_of_mem_utf16Units {c : Char} {u : Nat} (h : u ∈ utf16Units c) : u < 0x10000 := by
  rcases utf16Units_cases c with ⟨hunits, hlt⟩ | ⟨lead, trail, hunits, hlead, htrail⟩
  · rw [hunits] at h
    rw [List.mem_singleton.mp h]
    exact hlt
  · rw [hunits] at h
    simp only [List.mem_cons, List.not_mem_nil, or_false] at h
    omega

/-- Code units are told apart by their bytes. -/
theorem ByteOrder.eq_of_bytes_eq (order : ByteOrder) {u v : Nat} (hu : u < 0x10000)
    (hv : v < 0x10000) (h : order.bytes u = order.bytes v) : u = v := by
  obtain ⟨a, b, hbytes, hunit⟩ := order.unit_bytes hu
  obtain ⟨a', b', hbytes', hunit'⟩ := order.unit_bytes hv
  rw [h, hbytes'] at hbytes
  cases hbytes
  rw [← hunit, hunit']

namespace UnicodeForm

variable {f : UnicodeForm} {a c : Char} {n : UInt8}

theorem encodeChar_ne_nil (f : UnicodeForm) (c : Char) : f.encodeChar c ≠ [] := by
  intro h
  cases f with
  | utf8 =>
    have hlength := String.length_utf8EncodeChar c
    have hpos := c.utf8Size_pos
    rw [show String.utf8EncodeChar c = [] from h, List.length_nil] at hlength
    omega
  | utf16 order =>
    have hlength : ((utf16Units c).flatMap order.bytes).length = 0 := congrArg List.length h
    rcases utf16Units_cases c with ⟨hunits, -⟩ | ⟨lead, trail, hunits, -⟩
    · rw [hunits, List.flatMap_singleton, ByteOrder.length_bytes] at hlength
      cases hlength
    · rw [hunits, List.flatMap_cons, List.length_append, ByteOrder.length_bytes] at hlength
      omega

theorem whole_encodeChar (f : UnicodeForm) (c : Char) :
    (f.encodeChar c).length % f.encoding.unitWidth = 0 := by
  cases f with
  | utf8 => exact Nat.mod_one _
  | utf16 order =>
    show ((utf16Units c).flatMap order.bytes).length % 2 = 0
    rcases utf16Units_cases c with ⟨hunits, -⟩ | ⟨lead, trail, hunits, -⟩
    · rw [hunits, List.flatMap_singleton, ByteOrder.length_bytes]
    · rw [hunits, List.flatMap_cons, List.flatMap_singleton, List.length_append,
        ByteOrder.length_bytes, ByteOrder.length_bytes]

private theorem encodeChar_of_lt (f : UnicodeForm) (hc : c.toNat < 128) :
    f.encodeChar c = f.encoding.asciiUnit (UInt8.ofNat c.toNat) := by
  cases f with
  | utf8 =>
    show String.utf8EncodeChar c = _
    unfold String.utf8EncodeChar
    simp only [Char.toNat_val]
    rw [if_pos (by omega)]
    rfl
  | utf16 order =>
    have hunit : utf16Units c = [c.toNat] := if_pos (by omega)
    have hhigh : c.toNat / 256 = 0 := by omega
    show (utf16Units c).flatMap order.bytes = _
    rw [hunit, List.flatMap_singleton]
    cases order with
    | little =>
      show [_, UInt8.ofNat (c.toNat / 256)] = _
      rw [hhigh]
      rfl
    | big =>
      show [UInt8.ofNat (c.toNat / 256), _] = _
      rw [hhigh]
      rfl

/-- A character of ASCII is one code unit. -/
theorem encodeChar_ascii (f : UnicodeForm) (ha : IsAscii a n) :
    f.encodeChar a = f.encoding.asciiUnit n := by
  rw [encodeChar_of_lt f (ha.toNat_eq ▸ ha.lt), ha.toNat_eq, UInt8.ofNat_toNat]

private theorem codeUnits_utf16 (order : ByteOrder) (c : Char) :
    (Encoding.utf16 order).codeUnits ((utf16 order).encodeChar c) =
      (utf16Units c).map order.bytes := by
  show (Encoding.utf16 order).codeUnits ((utf16Units c).flatMap order.bytes) = _
  rcases utf16Units_cases c with ⟨hunits, -⟩ | ⟨lead, trail, hunits, -⟩
  · rw [hunits]
    cases order <;> rfl
  · rw [hunits]
    cases order <;> rfl

private theorem asciiUnit_utf16 (order : ByteOrder) (n : UInt8) :
    (Encoding.utf16 order).asciiUnit n = order.bytes n.toNat := by
  have hlow : UInt8.ofNat n.toNat = n := UInt8.ofNat_toNat
  have hhigh : n.toNat / 256 = 0 := Nat.div_eq_of_lt n.toNat_lt
  cases order with
  | little =>
    show [n, 0] = [UInt8.ofNat n.toNat, UInt8.ofNat (n.toNat / 256)]
    rw [hlow, hhigh]
    rfl
  | big =>
    show [0, n] = [UInt8.ofNat (n.toNat / 256), UInt8.ofNat n.toNat]
    rw [hlow, hhigh]
    rfl

/-- In UTF-8 only characters of ASCII have small bytes. -/
private theorem large_of_mem_utf8EncodeChar {b : UInt8} (hc : 128 ≤ c.toNat)
    (h : b ∈ String.utf8EncodeChar c) : 128 ≤ b.toNat := by
  have hlarge : ∀ {a : Nat}, 128 ≤ a → a < 256 → 128 ≤ (UInt8.ofNat a).toNat := by
    intro a ha hlt
    rwa [Decoder.toNat_ofNat_of_lt hlt]
  unfold String.utf8EncodeChar at h
  simp only [Char.toNat_val] at h
  rw [if_neg (by omega)] at h
  split at h
  · simp only [List.mem_cons, List.not_mem_nil, or_false] at h
    rcases h with rfl | rfl
    · exact hlarge (by omega) (by omega)
    · exact hlarge (by omega) (by omega)
  split at h
  · simp only [List.mem_cons, List.not_mem_nil, or_false] at h
    rcases h with rfl | rfl | rfl
    · exact hlarge (by omega) (by omega)
    · exact hlarge (by omega) (by omega)
    · exact hlarge (by omega) (by omega)
  · simp only [List.mem_cons, List.not_mem_nil, or_false] at h
    rcases h with rfl | rfl | rfl | rfl
    · exact hlarge (by omega) (by omega)
    · exact hlarge (by omega) (by omega)
    · exact hlarge (by omega) (by omega)
    · exact hlarge (by omega) (by omega)

private theorem toNat_of_mem_utf8EncodeChar (hn : n.toNat < 128) (h : n ∈ String.utf8EncodeChar c) :
    c.toNat = n.toNat := by
  by_cases hc : c.toNat < 128
  · have hbyte : String.utf8EncodeChar c = [UInt8.ofNat c.toNat] := encodeChar_of_lt utf8 hc
    rw [hbyte] at h
    rw [List.mem_singleton.mp h, Decoder.toNat_ofNat_of_lt (by omega)]
  · have hlarge := large_of_mem_utf8EncodeChar (by omega) h
    omega

private theorem toNat_of_mem_utf16Units (hn : n.toNat < 128) (h : n.toNat ∈ utf16Units c) :
    c.toNat = n.toNat := by
  rcases utf16Units_cases c with ⟨hunits, -⟩ | ⟨lead, trail, hunits, hlead, htrail⟩
  · rw [hunits] at h
    exact (List.mem_singleton.mp h).symm
  · -- No half of a surrogate pair is that small
    rw [hunits] at h
    simp only [List.mem_cons, List.not_mem_nil, or_false] at h
    omega

/-- The unit of a character of ASCII stands for that character and no other. -/
theorem eq_of_mem_codeUnits (ha : IsAscii a n)
    (h : f.encoding.asciiUnit n ∈ f.encoding.codeUnits (f.encodeChar c)) : c = a := by
  apply Char.toNat_inj.mp
  rw [ha.toNat_eq]
  cases f with
  | utf8 =>
    obtain ⟨b, hb, hbn⟩ := List.mem_map.mp h
    rw [(List.cons.inj hbn).1] at hb
    exact toNat_of_mem_utf8EncodeChar ha.lt hb
  | utf16 order =>
    rw [encoding, codeUnits_utf16, asciiUnit_utf16] at h
    obtain ⟨u, hu, hun⟩ := List.mem_map.mp h
    have hlt : n.toNat < 0x10000 := Nat.lt_trans ha.lt (by decide)
    rw [order.eq_of_bytes_eq (lt_of_mem_utf16Units hu) hlt hun] at hu
    exact toNat_of_mem_utf16Units ha.lt hu

/-! ## Texts -/

theorem encode_append (f : UnicodeForm) (t s : Text) : f.encode (t ++ s) = f.encode t ++ f.encode s :=
  List.flatMap_append

theorem whole_encode (f : UnicodeForm) (t : Text) :
    (f.encode t).length % f.encoding.unitWidth = 0 := by
  induction t with
  | nil => exact Nat.zero_mod _
  | cons c t ih =>
    show (f.encodeChar c ++ f.encode t).length % _ = 0
    rw [List.length_append, Nat.add_mod, whole_encodeChar, ih]
    exact Nat.zero_mod _

theorem encode_ne_nil (f : UnicodeForm) {t : Text} (h : t ≠ []) : f.encode t ≠ [] := by
  obtain ⟨c, rest, rfl⟩ := List.exists_cons_of_ne_nil h
  intro hnil
  exact encodeChar_ne_nil f c (List.append_eq_nil_iff.mp hnil).1

theorem codeUnits_encode (f : UnicodeForm) (t : Text) :
    f.encoding.codeUnits (f.encode t) =
      t.flatMap fun c => f.encoding.codeUnits (f.encodeChar c) := by
  induction t with
  | nil => exact Encoding.codeUnits_of_lt f.encoding.unitWidth_pos
  | cons c t ih =>
    show f.encoding.codeUnits (f.encodeChar c ++ f.encode t) = _
    rw [Encoding.codeUnits_append (whole_encodeChar f c), ih, List.flatMap_cons]

theorem mem_of_mem_codeUnits {t : Text} (ha : IsAscii a n)
    (h : f.encoding.asciiUnit n ∈ f.encoding.codeUnits (f.encode t)) : a ∈ t := by
  rw [codeUnits_encode] at h
  obtain ⟨c, hc, hunit⟩ := List.mem_flatMap.mp h
  rwa [eq_of_mem_codeUnits ha hunit] at hc

theorem encode_singleton (f : UnicodeForm) (c : Char) : f.encode [c] = f.encodeChar c :=
  List.flatMap_singleton _ _

theorem encode_ascii (f : UnicodeForm) (ha : IsAscii a n) :
    f.encode [a] = f.encoding.asciiUnit n := by
  rw [encode_singleton, encodeChar_ascii f ha]

private theorem codeUnits_encodeChar_ne_nil (f : UnicodeForm) (c : Char) :
    f.encoding.codeUnits (f.encodeChar c) ≠ [] := by
  intro h
  apply encodeChar_ne_nil f c
  rw [← Encoding.flatten_codeUnits f.encoding (f.encodeChar c), h]
  rfl

/-- The bytes of a text start with the unit of a character of ASCII where the text starts with the
character. -/
theorem asciiUnit_prefix_iff (f : UnicodeForm) (ha : IsAscii a n) (t : Text) :
    f.encoding.asciiUnit n <+: f.encode t ↔ t.head? = some a := by
  cases t with
  | nil =>
    have hne : ¬ f.encoding.asciiUnit n <+: f.encode [] :=
      fun h => Encoding.asciiUnit_ne_nil f.encoding n (List.prefix_nil.mp h)
    simp [hne]
  | cons c t =>
    show _ <+: f.encodeChar c ++ f.encode t ↔ some c = some a
    rw [Option.some.injEq]
    constructor
    · -- The first unit is one of the first character
      rintro ⟨rest, hrest⟩
      have hunits := congrArg f.encoding.codeUnits hrest
      rw [Encoding.codeUnits_append (Encoding.whole_asciiUnit f.encoding n),
        Encoding.codeUnits_asciiUnit, Encoding.codeUnits_append (whole_encodeChar f c)] at hunits
      obtain ⟨u, us, hu⟩ := List.exists_cons_of_ne_nil (codeUnits_encodeChar_ne_nil f c)
      rw [hu] at hunits
      apply eq_of_mem_codeUnits (f := f) ha
      rw [hu, (List.cons.inj hunits).1]
      exact List.mem_cons_self
    · rintro rfl
      rw [encodeChar_ascii f ha]
      exact List.prefix_append _ _

/-- The bytes of a text end with the unit of a character of ASCII where the text ends with the
character. -/
theorem asciiUnit_suffix_iff (f : UnicodeForm) (ha : IsAscii a n) (t : Text) :
    f.encoding.asciiUnit n <:+ f.encode t ↔ t.getLast? = some a := by
  rcases List.eq_nil_or_concat t with rfl | ⟨t, c, rfl⟩
  · have hne : ¬ f.encoding.asciiUnit n <:+ f.encode [] :=
      fun h => Encoding.asciiUnit_ne_nil f.encoding n (List.suffix_nil.mp h)
    simp [hne]
  · rw [List.concat_eq_append, List.getLast?_concat, Option.some.injEq, encode_append,
      encode_singleton]
    constructor
    · rintro ⟨before, hbefore⟩
      have hwhole : before.length % f.encoding.unitWidth = 0 := by
        have hlength := congrArg List.length hbefore
        have hall := whole_encode f (t ++ [c])
        rw [encode_append, encode_singleton, ← hlength, List.length_append,
          Encoding.length_asciiUnit, Nat.add_mod_right] at hall
        exact hall
      have hunits := congrArg f.encoding.codeUnits hbefore
      rw [Encoding.codeUnits_append hwhole, Encoding.codeUnits_asciiUnit,
        Encoding.codeUnits_append (whole_encode f t)] at hunits
      -- The last unit is one of the last character
      obtain ⟨us, u, hu⟩ := (List.eq_nil_or_concat _).resolve_left
        (codeUnits_encodeChar_ne_nil f c)
      rw [hu, List.concat_eq_append, ← List.append_assoc] at hunits
      have hlast : f.encoding.asciiUnit n = u :=
        List.singleton_inj.mp (List.append_inj' hunits rfl).2
      apply eq_of_mem_codeUnits (f := f) ha
      rw [hu, List.concat_eq_append, hlast]
      exact List.mem_append_right us List.mem_cons_self
    · rintro rfl
      rw [encodeChar_ascii f ha]
      exact List.suffix_append _ _

end UnicodeForm

end Lexicon
