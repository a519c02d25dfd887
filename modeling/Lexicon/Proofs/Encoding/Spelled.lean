import Lexicon.Proofs.Encoding.Spelling

/-!
# Spelled characters

Well-formed bytes spell the characters of their text one after the other, in a code page as well as in
Unicode. Each character fills whole code units, and the units of a character look like a blank only
if the character is one.

## Key results

- `decode?_eq_some_iff`: well-formed bytes spell the characters of their text
- `Spelled.units_spelling`: the units of a text are those of its characters
- `Spelled.isBlankUnit_eq`: blanks among characters and among units
- `length_of_decode?`: bytes of which each character is one unit
-/

namespace Lexicon

/-! ## Spelled characters -/

namespace Encoding

variable {e : Encoding}

/-- An encoding is a code page or covers all of Unicode. -/
@[elab_as_elim]
theorem unicodeCases {motive : Encoding → Prop} (page : ∀ page, motive (.singleByte page))
    (unicode : ∀ f : UnicodeForm, motive f.encoding) (e : Encoding) : motive e :=
  match e with
  | .singleByte p => page p
  | .utf8 => unicode .utf8
  | .utf16 order => unicode (.utf16 order)

/-- Whether some bytes are a spelling of a character. -/
def Spells (e : Encoding) (c : Char) (bytes : List UInt8) : Prop :=
  match e with
  | singleByte page => ∃ b, bytes = [b] ∧ page.char b = c
  | utf8 => bytes = UnicodeForm.utf8.encodeChar c
  | utf16 order => bytes = (UnicodeForm.utf16 order).encodeChar c

/-- A character and how it is spelled. -/
structure Spelled (e : Encoding) where
  char : Char
  bytes : List UInt8
  spells : e.Spells char bytes

theorem spells_page {page : CodePage} {c : Char} {bytes : List UInt8} :
    (singleByte page).Spells c bytes ↔ ∃ b, bytes = [b] ∧ page.char b = c :=
  .rfl

theorem spells_unicode {f : UnicodeForm} {c : Char} {bytes : List UInt8} :
    f.encoding.Spells c bytes ↔ bytes = f.encodeChar c := by
  cases f with
  | utf8 => exact .rfl
  | utf16 order => exact .rfl

namespace Spelled

/-- The text that spelled characters make up. -/
def text (l : List e.Spelled) : Text :=
  l.map char

/-- The bytes of spelled characters, one spelling after the other. -/
def spelling (l : List e.Spelled) : List UInt8 :=
  l.flatMap bytes

end Spelled

/-! ## Well-formed bytes -/

theorem items_page (page : CodePage) (bytes : List UInt8) :
    (singleByte page).items bytes = (bytes.map page.char).map some := by
  have hfrom : (Decoder.singleByte page).itemsFrom () bytes = (bytes.map page.char).map some := by
    induction bytes with
    | nil => rfl
    | cons b rest ih =>
      rw [Decoder.itemsFrom, List.map_cons, List.map_cons, ← ih]
      rfl
  show (Decoder.singleByte page).decodeAfter [] () bytes = _
  rw [Decoder.decodeAfter_eq, hfrom]
  rfl

private theorem items_spelling (l : List e.Spelled) :
    e.items (Spelled.spelling l) = (Spelled.text l).map some := by
  induction e using unicodeCases with
  | page page =>
    have hchars : (Spelled.spelling l).map page.char = Spelled.text l := by
      induction l with
      | nil => rfl
      | cons s l ih =>
        obtain ⟨b, hbytes, hchar⟩ := spells_page.mp s.spells
        have hrest : ((l.flatMap Spelled.bytes).map page.char) = l.map Spelled.char := ih
        rw [Spelled.spelling, List.flatMap_cons, List.map_append, hbytes, hrest, Spelled.text]
        show page.char b :: l.map Spelled.char = s.char :: l.map Spelled.char
        rw [hchar]
    rw [items_page, hchars]
  | unicode f =>
    have hwritten : Spelled.spelling l = f.encode (Spelled.text l) := by
      rw [UnicodeForm.encode, Spelled.text, List.flatMap_map, Spelled.spelling]
      congr 1
      funext s
      exact spells_unicode.mp s.spells
    rw [hwritten, UnicodeForm.items_encode]

/-- Well-formed bytes spell the characters of their text, one after the other. -/
theorem decode?_eq_some_iff {bytes : List UInt8} {t : Text} :
    e.decode? bytes = some t ↔
      ∃ l : List e.Spelled, Spelled.text l = t ∧ Spelled.spelling l = bytes := by
  constructor
  · intro h
    induction e using unicodeCases with
    | page page =>
      rw [decode?_eq_some_iff_items, items_page] at h
      refine ⟨bytes.map fun b => ⟨page.char b, [b], b, rfl, rfl⟩, ?_, ?_⟩
      · rw [Spelled.text, List.map_map]
        exact (List.map_inj_right fun _ _ => Option.some.inj).mp h
      · rw [Spelled.spelling, List.flatMap_map]
        exact List.flatMap_singleton' bytes
    | unicode f =>
      refine ⟨t.map fun c => ⟨c, f.encodeChar c, spells_unicode.mpr rfl⟩, ?_, ?_⟩
      · rw [Spelled.text, List.map_map]
        exact List.map_id t
      · rw [Spelled.spelling, List.flatMap_map]
        exact UnicodeForm.encode_of_decode? h
  · rintro ⟨l, rfl, rfl⟩
    exact decode?_eq_some_iff_items.mpr (items_spelling l)

/-! ## Units of spelled characters -/

theorem isAscii_space : IsAscii ' ' 0x20 := ⟨rfl, by decide⟩

theorem isAscii_tab : IsAscii '\t' 0x09 := ⟨rfl, by decide⟩

theorem units_eq (e : Encoding) (bytes : List UInt8) :
    e.units bytes = (e.codeUnits bytes).map e.firstUnit? := by
  have hpairs : ∀ (order : ByteOrder) (done : List (Option Nat)) (bytes : List UInt8),
      pairsAfter order done bytes =
        done.reverse ++ (bytePairs bytes).map (utf16 order).firstUnit? := by
    intro order done bytes
    fun_induction pairsAfter order done bytes with
    | case1 done => rw [bytePairs, List.map_nil, List.append_nil]
    | case2 done b => rw [List.reverse_cons]; rfl
    | case3 done a b rest ih =>
      rw [ih, List.reverse_cons, List.append_assoc]
      rfl
  rcases e with page | _ | order
  · show bytes.map _ = (bytes.map _).map _
    rw [List.map_map]
    rfl
  · show bytes.map _ = (bytes.map _).map _
    rw [List.map_map]
    rfl
  · exact hpairs order [] bytes

theorem units_append {a : List UInt8} (ha : a.length % e.unitWidth = 0) (b : List UInt8) :
    e.units (a ++ b) = e.units a ++ e.units b := by
  rw [units_eq, units_eq, units_eq, codeUnits_append ha, List.map_append]

theorem units_nil (e : Encoding) : e.units [] = [] := by
  rcases e with page | _ | order <;> rfl

/-- Whole units fill the bytes. -/
theorem length_units {bytes : List UInt8} (h : bytes.length % e.unitWidth = 0) :
    (e.units bytes).length * e.unitWidth = bytes.length := by
  rw [units_eq, List.length_map]
  induction bytes using unitInduction e with
  | short bytes hlt =>
    rw [Nat.mod_eq_of_lt hlt] at h
    rw [codeUnits_of_lt hlt, if_pos (List.length_eq_zero_iff.mp h), h]
    exact Nat.zero_mul _
  | unit bytes hle ih =>
    have hrest : (bytes.drop e.unitWidth).length % e.unitWidth = 0 := by
      rw [List.length_drop, ← Nat.mod_eq_sub_mod hle, h]
    rw [codeUnits_of_le hle, List.length_cons, Nat.add_mul, ih hrest, List.length_drop, Nat.one_mul]
    omega

private theorem length_of_mem_codeUnits {bytes u : List UInt8} (h : u ∈ e.codeUnits bytes) :
    u.length ≤ e.unitWidth := by
  induction bytes using unitInduction e with
  | short bytes hlt =>
    rw [codeUnits_of_lt hlt] at h
    split at h
    · cases h
    · rw [List.mem_singleton.mp h]
      exact Nat.le_of_lt hlt
  | unit bytes hle ih =>
    rw [codeUnits_of_le hle] at h
    rcases List.mem_cons.mp h with rfl | h
    · exact List.length_take_le _ _
    · exact ih h

private theorem firstUnit?_eq_iff_of_mem {bytes u : List UInt8} (h : u ∈ e.codeUnits bytes)
    (n : UInt8) : e.firstUnit? u = some n.toNat ↔ u = e.asciiUnit n := by
  rw [firstUnit?_eq_some_iff]
  constructor
  · intro hstarts
    have hlength := length_of_mem_codeUnits h
    rw [← length_asciiUnit e n] at hlength
    exact (hstarts.eq_of_length_le hlength).symm
  · rintro rfl
    exact List.prefix_rfl

end Encoding

namespace CodePage

theorem char_of_lt (page : CodePage) {b : UInt8} (h : b.toNat < 0x80) :
    page.char b = Char.ofNat b.toNat :=
  if_pos h

/-- The table has the characters of all other bytes. -/
theorem exists_char_of_le (page : CodePage) {b : UInt8} (h : 0x80 ≤ b.toNat) :
    ∃ n ∈ page.high, page.char b = Char.ofNat n := by
  have hindex : b.toNat - 0x80 < page.high.length := by
    have hlt := b.toNat_lt
    rw [page.length_high]
    omega
  have hchar : page.char b = Char.ofNat (page.high.getD (b.toNat - 0x80) 0) :=
    if_neg (Nat.not_lt.mpr h)
  rw [List.getD_eq_getElem?_getD, List.getElem?_eq_getElem hindex, Option.getD_some] at hchar
  exact ⟨_, List.getElem_mem hindex, hchar⟩

/-- Only the bytes of ASCII stand for blanks in a code page. -/
theorem isBlankUnit_char (page : CodePage) (b : UInt8) :
    Encoding.isBlankUnit (some b.toNat) = Text.isBlank (page.char b) := by
  have hlow : ∀ n < 0x80, Encoding.isBlankUnit (some n) = Text.isBlank (Char.ofNat n) := by decide
  have hhigh : ∀ n ∈ page.high, Text.isBlank (Char.ofNat n) = false := by
    cases page with
    | latin => decide +kernel
    | cyrillic => decide +kernel
    | easternEuropean => decide +kernel
  rcases Nat.lt_or_ge b.toNat 0x80 with hlt | hge
  · rw [page.char_of_lt hlt]
    exact hlow b.toNat hlt
  · obtain ⟨n, hn, hchar⟩ := page.exists_char_of_le hge
    have hunit : Encoding.isBlankUnit (some b.toNat) = false := by
      simp only [Encoding.isBlankUnit, Option.some_beq_some, Bool.or_eq_false_iff,
        beq_eq_false_iff_ne]
      omega
    rw [hchar, hhigh n hn, hunit]

end CodePage

namespace Encoding.Spelled

variable {e : Encoding}

theorem whole (s : e.Spelled) : s.bytes.length % e.unitWidth = 0 := by
  induction e using unicodeCases with
  | page page => exact Nat.mod_one _
  | unicode f =>
    rw [spells_unicode.mp s.spells]
    exact f.whole_encodeChar s.char

theorem bytes_ne_nil (s : e.Spelled) : s.bytes ≠ [] := by
  induction e using unicodeCases with
  | page page =>
    obtain ⟨b, hbytes, -⟩ := spells_page.mp s.spells
    rw [hbytes]
    exact List.cons_ne_nil b []
  | unicode f =>
    rw [spells_unicode.mp s.spells]
    exact f.encodeChar_ne_nil s.char

/-- A character is a blank where its units are: no part of a wider character looks like a blank. -/
theorem isBlankUnit_eq (s : e.Spelled) {u : Option Nat} (h : u ∈ e.units s.bytes) :
    isBlankUnit u = Text.isBlank s.char := by
  rw [units_eq] at h
  obtain ⟨v, hv, rfl⟩ := List.mem_map.mp h
  induction e using unicodeCases with
  | page page =>
    obtain ⟨b, hbytes, hchar⟩ := spells_page.mp s.spells
    rw [hbytes] at hv
    rw [List.mem_singleton.mp hv, ← hchar]
    exact page.isBlankUnit_char b
  | unicode f =>
    have hchar : ∀ {a : Char} {n : UInt8}, IsAscii a n →
        (f.encoding.firstUnit? v = some n.toNat ↔ s.char = a) := by
      intro a n ha
      rw [firstUnit?_eq_iff_of_mem hv]
      rw [spells_unicode.mp s.spells] at hv
      constructor
      · rintro rfl
        exact UnicodeForm.eq_of_mem_codeUnits ha hv
      · rintro rfl
        rw [f.encodeChar_ascii ha, codeUnits_asciiUnit] at hv
        exact List.mem_singleton.mp hv
    rw [Bool.eq_iff_iff, isBlankUnit, Text.isBlank]
    simp only [Bool.or_eq_true, beq_iff_eq]
    exact or_congr (hchar isAscii_space) (hchar isAscii_tab)

/-- The units of spelled characters are those of one character after the other. -/
theorem units_spelling (l : List e.Spelled) :
    e.units (spelling l) = l.flatMap fun s => e.units s.bytes := by
  induction l with
  | nil => exact units_nil e
  | cons s l ih =>
    show e.units (s.bytes ++ spelling l) = _
    rw [units_append s.whole, ih, List.flatMap_cons]

theorem whole_spelling (l : List e.Spelled) : (spelling l).length % e.unitWidth = 0 := by
  induction l with
  | nil => exact Nat.zero_mod _
  | cons s l ih =>
    show (s.bytes ++ spelling l).length % _ = 0
    rw [List.length_append, Nat.add_mod, s.whole, ih]
    exact Nat.zero_mod _

theorem units_ne_nil (s : e.Spelled) : e.units s.bytes ≠ [] := by
  intro h
  have hlength := length_units s.whole
  rw [h, List.length_nil, Nat.zero_mul] at hlength
  exact s.bytes_ne_nil (List.length_eq_zero_iff.mp hlength.symm)

end Encoding.Spelled

/-! ## Characters of one code unit -/

namespace Encoding

/-- The character takes up one code unit: in UTF-8 one of ASCII does, in UTF-16 and in the code pages
one of the Basic Multilingual Plane. -/
def OneUnit (e : Encoding) (c : Char) : Prop :=
  match e with
  | utf8 => c.toNat < 0x80
  | _ => c.toNat < 0x10000

instance (e : Encoding) (c : Char) : Decidable (e.OneUnit c) :=
  match e with
  | singleByte _ => inferInstanceAs (Decidable (_ < _))
  | utf8 => inferInstanceAs (Decidable (_ < _))
  | utf16 _ => inferInstanceAs (Decidable (_ < _))

variable {e : Encoding}

theorem Spelled.length_bytes (s : e.Spelled) (h : e.OneUnit s.char) :
    s.bytes.length = e.unitWidth := by
  rcases e with page | _ | order
  · obtain ⟨b, hbytes, -⟩ := spells_page.mp s.spells
    rw [hbytes]
    rfl
  · have hascii : IsAscii s.char (UInt8.ofNat s.char.toNat) := by
      have hlt : s.char.toNat < 0x80 := h
      have hnat := Decoder.toNat_ofNat_of_lt (show s.char.toNat < 256 by omega)
      exact ⟨hnat.symm, by omega⟩
    have hbytes : s.bytes = UnicodeForm.utf8.encodeChar s.char := s.spells
    rw [hbytes, UnicodeForm.encodeChar_ascii _ hascii]
    rfl
  · have hunits : utf16Units s.char = [s.char.toNat] := if_pos h
    have hbytes : s.bytes = (utf16Units s.char).flatMap order.bytes := s.spells
    rw [hbytes, hunits, List.flatMap_singleton, ByteOrder.length_bytes]
    rfl

/-- Characters that take up one code unit each are as many as there are units. -/
theorem length_of_decode? {bytes : List UInt8} {t : Text} (h : e.decode? bytes = some t)
    (hone : ∀ c ∈ t, e.OneUnit c) : bytes.length = t.length * e.unitWidth := by
  obtain ⟨l, rfl, rfl⟩ := decode?_eq_some_iff.mp h
  clear h
  induction l with
  | nil => rw [Spelled.text, List.map_nil, List.length_nil, Nat.zero_mul]; rfl
  | cons s l ih =>
    have hfirst := s.length_bytes (hone s.char List.mem_cons_self)
    have hrest := ih fun c hc => hone c (List.mem_cons_of_mem _ hc)
    show (s.bytes ++ Spelled.spelling l).length = (Spelled.text l).length.succ * e.unitWidth
    rw [List.length_append, hfirst, hrest, Nat.succ_mul, Nat.add_comm]

end Encoding

end Lexicon
