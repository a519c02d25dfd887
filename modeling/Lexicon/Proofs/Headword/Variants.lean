import Mathlib.Algebra.Group.Nat.Defs
import Mathlib.Data.List.Nodup
import Lexicon.Proofs.Headword.Enumeration
import Lexicon.Proofs.Text.Pieces

/-!
# What variants are like

A variant keeps some of the pieces of its headword and none of the parentheses that stand for themselves.
So nothing in it is optional any more, and the pairs of a backslash and the character that it escapes are
those of the headword.

## Key results

- `Selected.of_mem_allVariants`: a variant is made of pieces of the headword
- `filter_mem_allVariants`: keeping all optional parts gives a variant
- `allVariants_headwordOf`: the variants of groups in a row are their combinations
- `variants_clean`: what all this says about the variants of a headword
-/

namespace Lexicon.Headword

open Text (ofPieces Ungrouped Whole)

/-! ## Pieces of a variant -/

/-- The text is spelled by some of the pieces, in their order and without parentheses that stand for
themselves. -/
def Selected (ps : List Piece) (v : Text) : Prop :=
  ∃ kept : List Piece, kept.Sublist ps ∧ Ungrouped '(' ')' kept ∧ v = ofPieces kept

namespace Selected

variable {ps qs : List Piece} {v : Text}

theorem nil (ps : List Piece) : Selected ps [] :=
  ⟨[], List.nil_sublist ps, .nil, rfl⟩

theorem mono (h : Selected ps v) (hsub : ps.Sublist qs) : Selected qs v := by
  obtain ⟨kept, hkept, hv⟩ := h
  exact ⟨kept, hkept.trans hsub, hv⟩

theorem cons (h : Selected ps v) {p : Piece} (hopening : p ≠ .plain '(')
    (hclosing : p ≠ .plain ')') : Selected (p :: ps) (p.source ++ v) := by
  obtain ⟨kept, hkept, hfree, rfl⟩ := h
  exact ⟨p :: kept, hkept.cons_cons p, Ungrouped.cons_iff.mpr ⟨hopening, hclosing, hfree⟩, rfl⟩

/-- A variant is made of pieces of the headword. -/
theorem of_mem_allVariants (h : v ∈ allVariants ps) : Selected ps v := by
  fun_induction allVariants ps generalizing v with
  | case1 =>
    rw [List.mem_singleton.mp h]
    exact nil []
  | case2 rest ih => exact (ih h).mono (List.sublist_cons_self _ _)
  | case3 rest after hgroup ih =>
    obtain ⟨rfl, -⟩ := splitGroup_eq_some hgroup
    exact (ih h).mono (((List.sublist_cons_self _ _).trans (List.sublist_append_right _ _)).cons _)
  | case4 rest body after hgroup hne ih₁ ih₂ =>
    obtain ⟨rfl, -⟩ := splitGroup_eq_some hgroup
    have hafter : after.Sublist (.plain ')' :: after) := List.sublist_cons_self _ _
    rcases List.mem_append.mp h with h | h
    · exact (ih₁ h).mono ((hafter.trans (List.sublist_append_right _ _)).cons _)
    · exact (ih₂ h).mono ((List.Sublist.append_left hafter body).cons _)
  | case5 hgroup ih => exact (ih h).mono (List.sublist_cons_self _ _)
  | case6 rest hgroup hne ih =>
    rcases List.mem_cons.mp h with rfl | h
    · exact nil _
    · exact (ih h).mono (List.sublist_cons_self _ _)
  | case7 p rest hclosing hopening ih =>
    obtain ⟨v, hv, rfl⟩ := List.mem_map.mp h
    exact (ih hv).cons hopening hclosing

/-- Leaving out pieces takes no escape pair apart, so no new parentheses stand for themselves. -/
theorem ungrouped_pieces {t : Text} (h : Selected t.pieces v) : Ungrouped '(' ')' v.pieces := by
  obtain ⟨kept, hkept, hfree, rfl⟩ := h
  rwa [Text.pieces_ofPieces hkept]

end Selected

theorem Selected.of_mem_variants {t v : Text} (h : v ∈ variants t) : Selected t.pieces v := by
  rw [variants_eq_foldl, foldl_addVariant] at h
  exact of_mem_allVariants (List.mem_eraseDups.mp (List.mem_of_mem_take h))

/-! ## The headword without its parentheses -/

/-- Whether a piece is anything else than a parenthesis that stands for itself. -/
def isOrdinary (p : Piece) : Bool :=
  p ≠ .plain '(' ∧ p ≠ .plain ')'

/-- The headword with all optional parts kept: without the parentheses that stand for themselves. -/
def withoutParentheses (t : Text) : Text :=
  ofPieces (t.pieces.filter isOrdinary)

/-- Keeping all optional parts gives a variant. -/
theorem filter_mem_allVariants (ps : List Piece) : ofPieces (ps.filter isOrdinary) ∈ allVariants ps := by
  fun_induction allVariants ps with
  | case1 => exact List.mem_singleton.mpr rfl
  | case2 rest ih => exact ih
  | case3 rest after hgroup ih =>
    obtain ⟨rfl, -⟩ := splitGroup_eq_some hgroup
    exact ih
  | case4 rest body after hgroup hne ih₁ ih₂ =>
    obtain ⟨rfl, -⟩ := splitGroup_eq_some hgroup
    apply List.mem_append_right
    rw [List.filter_append] at ih₂
    rw [List.filter_cons_of_neg (by decide), List.filter_append,
      List.filter_cons_of_neg (by decide)]
    exact ih₂
  | case5 hgroup ih => exact ih
  | case6 rest hgroup hne ih => exact List.mem_cons_of_mem _ ih
  | case7 p rest hclosing hopening ih =>
    have hp : isOrdinary p = true := decide_eq_true ⟨hopening, hclosing⟩
    rw [List.filter_cons_of_pos hp]
    exact List.mem_map_of_mem ih

/-! ## No repetitions -/

theorem nodup_eraseDups (vs : List Text) : vs.eraseDups.Nodup := by
  induction vs using List.reverseRecOn with
  | nil => exact List.nodup_nil
  | append_singleton vs v ih =>
    rw [eraseDups_concat]
    split
    · exact ih
    · rename_i hnew
      rw [← List.concat_eq_append]
      exact ih.concat fun hmem => hnew (List.mem_eraseDups.mp hmem)

theorem eraseDups_of_nodup {vs : List Text} (h : vs.Nodup) : vs.eraseDups = vs := by
  induction vs using List.reverseRecOn with
  | nil => rfl
  | append_singleton vs v ih =>
    rw [List.nodup_append] at h
    have hnew : v ∉ vs := fun hmem => h.2.2 v hmem v List.mem_cons_self rfl
    rw [eraseDups_concat, if_neg hnew, ih h.1]

/-! ## Groups in a row -/

/-- A text in which nothing is optional and no escape pair is cut at the end. -/
structure Plain (t : Text) : Prop where
  whole : Whole t
  ungrouped : Ungrouped '(' ')' t.pieces

instance (t : Text) : Decidable (Plain t) :=
  decidable_of_iff (Whole t ∧ Ungrouped '(' ')' t.pieces)
    ⟨fun h => ⟨h.1, h.2⟩, fun h => ⟨h.whole, h.ungrouped⟩⟩

/-- An optional part of a headword, with the text between it and the part before. -/
structure OptionalPart where
  before : Text
  body : Text
  plain_before : Plain before
  plain_body : Plain body
  body_ne_nil : body ≠ []

/-- The headword with the given optional parts in turn and a text behind them. -/
def headwordOf (last : Text) : List OptionalPart → Text
  | [] => last
  | part :: rest => part.before ++ '(' :: (part.body ++ ')' :: headwordOf last rest)

/-- The ways to leave out or keep each of the optional parts. -/
def combinations (last : Text) : List OptionalPart → List Text
  | [] => [last]
  | part :: rest =>
    (combinations last rest).map (part.before ++ ·) ++
      (combinations last rest).map (part.before ++ part.body ++ ·)

theorem length_combinations (last : Text) (parts : List OptionalPart) :
    (combinations last parts).length = 2 ^ parts.length := by
  induction parts with
  | nil => rfl
  | cons part rest ih =>
    rw [combinations, List.length_append, List.length_map, List.length_map, ih, List.length_cons,
      Nat.pow_succ, Nat.mul_two]

theorem pieces_headwordOf (last : Text) (part : OptionalPart) (rest : List OptionalPart) :
    (headwordOf last (part :: rest)).pieces =
      part.before.pieces ++
        .plain '(' :: (part.body.pieces ++ .plain ')' :: (headwordOf last rest).pieces) := by
  rw [headwordOf, Text.pieces_append part.plain_before.whole, Text.pieces_plain (by decide),
    Text.pieces_append part.plain_body.whole, Text.pieces_plain (by decide)]

/-- The variants of groups in a row are the ways to leave out or keep each of them. -/
theorem allVariants_headwordOf {last : Text} (hlast : Ungrouped '(' ')' last.pieces)
    (parts : List OptionalPart) :
    allVariants (headwordOf last parts).pieces = combinations last parts := by
  induction parts with
  | nil => exact allVariants_pieces hlast
  | cons part rest ih =>
    have hne : part.body.pieces ≠ [] := by
      intro hnil
      apply part.body_ne_nil
      rw [← Text.ofPieces_pieces part.body, hnil]
      rfl
    rw [pieces_headwordOf, allVariants_append part.plain_before.ungrouped,
      allVariants_group part.plain_body.ungrouped.balanced, if_neg hne,
      allVariants_append part.plain_body.ungrouped, ih, List.map_append, List.map_map,
      Text.ofPieces_pieces, Text.ofPieces_pieces, combinations]
    simp only [Function.comp_def, List.append_assoc]

/-! ## The variants of a headword -/

/-- A headword has at least one variant and at most 32, all different. In none of them is anything optional,
so each is its own only variant. Unless there are too many, one of them keeps all optional parts. Up to five
groups in a row give each of their combinations, if these are different. -/
theorem variants_clean (t : Text) :
    (1 ≤ (variants t).length ∧ (variants t).length ≤ 32) ∧
    (variants t).Nodup ∧
    (∀ v ∈ variants t, Ungrouped '(' ')' v.pieces ∧ variants v = [v]) ∧
    ((variants t).length < 32 → withoutParentheses t ∈ variants t) ∧
    (∀ parts last, t = headwordOf last parts → Ungrouped '(' ')' last.pieces → parts.length ≤ 5 →
      (combinations last parts).Nodup →
      variants t = combinations last parts ∧ (variants t).length = 2 ^ parts.length) := by
  have hlist : variants t = (allVariants t.pieces).eraseDups.take 32 := by
    rw [variants_eq_foldl, foldl_addVariant]
    rfl
  have hfull : withoutParentheses t ∈ (allVariants t.pieces).eraseDups :=
    List.mem_eraseDups.mpr (filter_mem_allVariants t.pieces)
  refine ⟨⟨?_, ?_⟩, ?_, fun v hv => ?_, fun hroom => ?_, fun parts last ht hlast hfew hnodup => ?_⟩
  · rw [hlist, List.length_take]
    have := List.length_pos_of_mem hfull
    omega
  · rw [hlist]
    exact List.length_take_le _ _
  · rw [hlist]
    exact (nodup_eraseDups _).sublist (List.take_sublist _ _)
  · have hfree := (Selected.of_mem_variants hv).ungrouped_pieces
    exact ⟨hfree, variants_eq_singleton hfree⟩
  · rw [hlist, List.length_take] at hroom
    rw [hlist, List.take_of_length_le (by omega)]
    exact hfull
  · subst ht
    have hcount := length_combinations last parts
    have hlimit : 2 ^ parts.length ≤ 32 := Nat.pow_le_pow_right (by decide) hfew
    rw [hlist, allVariants_headwordOf hlast, eraseDups_of_nodup hnodup,
      List.take_of_length_le (by omega)]
    exact ⟨rfl, hcount⟩

/-- An optional part that holds an escaped parenthesis, behind another one. -/
private def escapedPart : OptionalPart where
  before := "a\\(".toList
  body := "b\\)".toList
  plain_before := by decide +kernel
  plain_body := by decide +kernel
  body_ne_nil := by decide

theorem variants_clean_escaped :
    let t := headwordOf "c\\".toList [escapedPart]
    variants t = ["a\\(c\\".toList, "a\\(b\\)c\\".toList] ∧
      "a\\(b\\)c\\".toList ∈ variants t ∧
      variants "a\\(c\\".toList = ["a\\(c\\".toList] := by
  intro t
  obtain ⟨-, -, hclean, hfull, hparts⟩ := variants_clean t
  obtain ⟨hvariants, hcount⟩ :=
    hparts [escapedPart] "c\\".toList rfl (by decide +kernel) (by decide) (by decide +kernel)
  have hkept : withoutParentheses t ∈ variants t := hfull (by rw [hcount]; decide)
  have hcombinations : combinations "c\\".toList [escapedPart] =
      ["a\\(c\\".toList, "a\\(b\\)c\\".toList] := by
    decide +kernel
  rw [hcombinations] at hvariants
  have hall : withoutParentheses t = "a\\(b\\)c\\".toList := by decide +kernel
  rw [hall] at hkept
  exact ⟨hvariants, hkept, (hclean _ (by rw [hvariants]; exact List.mem_cons_self)).2⟩

end Lexicon.Headword
