import Mathlib.Data.List.Forall2
import Lexicon.Proofs.Encoding.LossyUtf8
import Lexicon.Proofs.Header.Settings

/-!
# Headers in a provisional encoding

The header is read as UTF-8 before its code page is known. The number sign, names and quotes of a header
line are characters of ASCII, and these are the same in UTF-8 and in the code page. So the line is cut at
the same places, and only a value that is not all ASCII may be another one.

## Key results

- `HeaderLine.agrees_read`: texts with the same characters of ASCII say the same in a header
- `Header.rel_codePageName?`: and give the same name of a code page
- `Header.provisional_agrees`: what a header says before its code page is known
-/

namespace Lexicon

open Text (AgreeInAscii SameAscii isAscii)

/-! ## Related options -/

section

variable {α β γ δ : Type} {R : α → β → Prop} {S : γ → δ → Prop}

theorem rel_or {a a' : Option α} {b b' : Option β} (h : Option.Rel R a b)
    (h' : Option.Rel R a' b') : Option.Rel R (a.or a') (b.or b') := by
  cases h with
  | none => exact h'
  | some h => exact .some h

theorem rel_bind {a : Option α} {b : Option β} {f : α → Option γ} {g : β → Option δ}
    (h : Option.Rel R a b) (hfg : ∀ x y, R x y → Option.Rel S (f x) (g y)) :
    Option.Rel S (a.bind f) (b.bind g) := by
  cases h with
  | none => exact .none
  | some h => exact hfg _ _ h

end

/-! ## Reading header lines -/

namespace HeaderLine

/-- Two lines say the same but for values outside ASCII: they are of the same kind, with the same
directive or the same name instead, and their values agree. -/
def Agrees : HeaderLine → HeaderLine → Prop
  | setting d v, setting d' w => d = d' ∧ AgreeInAscii v w
  | other name, other name' => name = name'
  | unquoted d, unquoted d' => d = d'
  | _, _ => False

theorem isAscii_of_isNameChar {c : Char} (h : Directive.isNameChar c = true) : isAscii c = true := by
  have hbound : c.val ≤ 'z'.val := by
    rcases (Bool.or_eq_true _ _).mp h with halpha | hunder
    · rcases (Bool.or_eq_true _ _).mp halpha with hupper | hlower
      · have hle : c.val ≤ 'Z'.val := (of_decide_eq_true hupper).2
        exact UInt32.le_trans hle (by decide)
      · exact of_decide_eq_true ((Bool.and_eq_true _ _).mp hlower).2
    · rw [eq_of_beq hunder]
      decide
  have hnat : c.toNat ≤ 122 := UInt32.le_iff_toNat_le.mp hbound
  exact decide_eq_true (by omega)

theorem isNameChar_of_foreign {c : Char} (h : isAscii c = false) :
    Directive.isNameChar c = false :=
  Bool.eq_false_iff.mpr fun hname => Bool.eq_false_iff.mp h (isAscii_of_isNameChar hname)

theorem ne_quote_of_foreign {c : Char} (h : isAscii c = false) : (c != '"') = true := by
  rw [bne_iff_ne]
  rintro rfl
  cases h

/-- Such texts have the same name in front. -/
theorem takeWhile_isNameChar {s t : Text} (h : SameAscii s t) :
    s.takeWhile Directive.isNameChar = t.takeWhile Directive.isNameChar := by
  have hname : (s.takeWhile Directive.isNameChar).all isAscii = true := by
    rw [List.all_eq_true]
    intro c hc
    exact isAscii_of_isNameChar (List.all_eq_true.mp List.all_takeWhile c hc)
  exact (h.takeWhile fun _ => isNameChar_of_foreign).agree.eq hname

theorem rel_afterQuote? {s t : Text} (h : SameAscii s t) :
    Option.Rel SameAscii (afterQuote? s) (afterQuote? t) := by
  have hdrop := h.dropWhile fun _ => ne_quote_of_foreign
  unfold afterQuote?
  cases hs : s.dropWhile (· != '"') with
  | nil =>
    rw [hs] at hdrop
    rw [hdrop.eq_nil]
    exact .none
  | cons c rest =>
    have hascii : isAscii c = true := by
      rw [quote_of_dropWhile hs]
      rfl
    rw [hs] at hdrop
    obtain ⟨rest', ht, hrest⟩ := hdrop.cons_left hascii
    rw [ht]
    exact .some hrest

theorem rel_quoted? {s t : Text} (h : SameAscii s t) :
    Option.Rel SameAscii (quoted? s) (quoted? t) := by
  refine rel_bind (rel_afterQuote? h) fun behind behind' hbehind => ?_
  -- The last quote is the first one from behind
  exact rel_bind (rel_afterQuote? hbehind.reverse) fun value value' hvalue => .some hvalue.reverse

/-- Texts with the same characters of ASCII say the same. -/
theorem agrees_read {s t : Text} (h : SameAscii s t) : (read s).Agrees (read t) := by
  cases h with
  | nil => rfl
  | @ascii c s t hc h =>
    by_cases hmark : c = '#'
    · subst hmark
      unfold read
      simp only [takeWhile_isNameChar h]
      cases Directive.ofName? (t.takeWhile Directive.isNameChar) with
      | none => rfl
      | some d =>
        have hquoted := rel_quoted? (h.dropWhile fun _ => isNameChar_of_foreign)
        generalize quoted? (s.dropWhile _) = a, quoted? (t.dropWhile _) = b at hquoted
        cases hquoted with
        | none => rfl
        | some hvalue => exact ⟨rfl, hvalue.agree⟩
    · have hunmarked : ∀ rest : Text, (c :: rest).head? ≠ some '#' :=
        fun rest hhead => hmark (Option.some.inj hhead)
      rw [read_unmarked (hunmarked s), read_unmarked (hunmarked t)]
      rfl
  | foreign hu hv h =>
    rw [read_unmarked (hu.head?_append_ne _ rfl), read_unmarked (hv.head?_append_ne _ rfl)]
    rfl

theorem Agrees.rel_value? {a b : HeaderLine} (h : a.Agrees b) (d : Directive) :
    Option.Rel AgreeInAscii (a.value? d) (b.value? d) := by
  cases a with
  | setting directive v =>
    cases b with
    | setting directive' w =>
      obtain ⟨rfl, hvalue⟩ := h
      rw [value?, value?]
      split
      · exact .some hvalue
      · exact .none
    | other name => cases h
    | unquoted directive' => cases h
  | other name =>
    cases b with
    | other name' => exact .none
    | _ => cases h
  | unquoted directive =>
    cases b with
    | unquoted directive' => exact .none
    | _ => cases h

end HeaderLine

/-- Lines with the same characters of ASCII give the same name of a code page. -/
theorem Header.rel_codePageName? {ls ts : List Text} (h : List.Forall₂ SameAscii ls ts) :
    Option.Rel AgreeInAscii (codePageName? ls) (codePageName? ts) := by
  simp only [codePageName?, funext codePage?_eq]
  induction h with
  | nil => exact .none
  | @cons l t ls ts hline h ih =>
    rw [List.map_cons, List.map_cons, getLast?_filterMap_cons, getLast?_filterMap_cons]
    -- A value in the lines behind this one counts, or else the one in this line
    exact rel_or ih ((HeaderLine.agrees_read hline).rel_value? _)

/-! ## The header before its code page is known -/

namespace Header

/-- What a line says as UTF-8 agrees with what it says in its code page. So if the name of the code page
is all ASCII, the header read as UTF-8 gives the name that it gives when it is read in the code page. -/
theorem provisional_agrees (page : CodePage) :
    (∀ bytes, ∃ t, (Encoding.singleByte page).decode? bytes = some t ∧
      (HeaderLine.read (Encoding.utf8.decodeLossy bytes)).Agrees (HeaderLine.read t)) ∧
    ∀ lines : List (List UInt8), ∃ ts, lines.mapM (Encoding.singleByte page).decode? = some ts ∧
      ∀ name, codePageName? (lines.map Encoding.utf8.decodeLossy) = some name →
        name.all isAscii = true → codePageName? ts = some name := by
  constructor
  · intro bytes
    exact ⟨_, Encoding.decode?_page page bytes,
      HeaderLine.agrees_read (Encoding.sameAscii_decodeLossy page bytes)⟩
  · intro lines
    have hdecoded : lines.mapM (Encoding.singleByte page).decode? =
        some (lines.map fun bytes => bytes.map page.char) := by
      rw [funext (Encoding.decode?_page page)]
      exact List.mapM_pure
    have hsame : List.Forall₂ SameAscii (lines.map Encoding.utf8.decodeLossy)
        (lines.map fun bytes => bytes.map page.char) := by
      rw [List.forall₂_map_left_iff, List.forall₂_map_right_iff]
      exact List.forall₂_same.mpr fun bytes _ => Encoding.sameAscii_decodeLossy page bytes
    refine ⟨_, hdecoded, fun name hname hascii => ?_⟩
    have hrel := rel_codePageName? hsame
    rw [hname] at hrel
    generalize codePageName? (lines.map fun bytes => bytes.map page.char) = final at hrel
    cases hrel with
    | some hagree => rw [hagree.eq hascii]

/-- The first two bytes of three stand before the quote, and the quote is no part of them. -/
theorem provisional_agrees_truncated :
    let ascii (s : String) : List UInt8 := s.toList.map fun c => c.toNat.toUInt8
    let lines := [ascii "#SOURCE_CODE_PAGE " ++ [0xE2, 0x82] ++ ascii "\"Latin\"" ++ [0xC3]]
    codePageName? (lines.map Encoding.utf8.decodeLossy) = some "Latin".toList ∧
      ∃ ts, lines.mapM (Encoding.singleByte .latin).decode? = some ts ∧
        codePageName? ts = some "Latin".toList := by
  intro ascii lines
  have hname : codePageName? (lines.map Encoding.utf8.decodeLossy) = some "Latin".toList := by
    decide +kernel
  obtain ⟨ts, hdecoded, hfinal⟩ := (provisional_agrees .latin).2 lines
  exact ⟨hname, ts, hdecoded, hfinal _ hname (by decide)⟩

end Header

end Lexicon
