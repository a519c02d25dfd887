import Lexicon.Headword.Unsorted
import Lexicon.Proofs.Text.Nesting
import Lexicon.Proofs.Text.Pieces

/-!
# Unsorted parts, one after the other

What remains of a headword are some of its pieces, none of them a brace that stands for itself. So its
escape pairs stay what they were, and resolving it again changes nothing. Where the braces in front of a
part are balanced, the part is opened outside all others, and what stands before it, in it and behind it
is resolved on its own.

## Key results

- `resolveUnsorted_eq`: what remains, without the pieces read before
- `ungrouped_resolveUnsorted`: no brace remains
- `resolveUnsorted_of_ungrouped`: without braces everything remains
- `keptPieces_append`, `keptPieces_hidden`: what remains behind balanced pieces, and inside a part
- `resolveUnsorted_parts`: what all this says about a headword with an unsorted part
-/

namespace Lexicon.Headword

open Text (Balanced Ungrouped Whole depthAfter? ofPieces)

/-! ## The pieces that remain -/

/-- The pieces that remain of those inside `depth` open braces. -/
def keptPieces (strip : Bool) (depth : Nat) : List Piece → List Piece
  | [] => []
  | .plain '{' :: rest => keptPieces strip (depth + 1) rest
  | .plain '}' :: rest => keptPieces strip (depth - 1) rest
  | p :: rest =>
    if depth = 0 ∨ strip = false then p :: keptPieces strip depth rest
    else keptPieces strip depth rest

section

variable {strip : Bool} {depth : Nat} {rest : List Piece}

theorem keptPieces_opening :
    keptPieces strip depth (.plain '{' :: rest) = keptPieces strip (depth + 1) rest :=
  rfl

theorem keptPieces_closing :
    keptPieces strip depth (.plain '}' :: rest) = keptPieces strip (depth - 1) rest :=
  rfl

theorem keptPieces_other {p : Piece} (hopening : p ≠ .plain '{') (hclosing : p ≠ .plain '}') :
    keptPieces strip depth (p :: rest) =
      if depth = 0 ∨ strip = false then p :: keptPieces strip depth rest
      else keptPieces strip depth rest :=
  keptPieces.eq_4 strip depth p rest hopening hclosing

end

theorem unsortedAfter_eq (strip : Bool) (depth : Nat) (done ps : List Piece) :
    unsortedAfter strip depth done ps = done.reverse ++ keptPieces strip depth ps := by
  fun_induction unsortedAfter strip depth done ps with
  | case1 depth done => exact (List.append_nil _).symm
  | case2 depth done rest ih => rw [ih, keptPieces_opening]
  | case3 depth done rest ih => rw [ih, keptPieces_closing]
  | case4 depth done p rest hopening hclosing ih =>
    rw [ih, keptPieces_other hopening hclosing]
    split
    · rw [List.reverse_cons, List.append_assoc, List.singleton_append]
    · rfl

/-- What remains, without the pieces read before. -/
theorem resolveUnsorted_eq (strip : Bool) (t : Text) :
    resolveUnsorted strip t = ofPieces (keptPieces strip 0 t.pieces) := by
  rw [resolveUnsorted, unsortedAfter_eq]
  rfl

theorem keptPieces_sublist (strip : Bool) (depth : Nat) (ps : List Piece) :
    (keptPieces strip depth ps).Sublist ps := by
  fun_induction keptPieces strip depth ps with
  | case1 => exact List.nil_sublist _
  | case2 depth rest ih => exact ih.trans (List.sublist_cons_self _ _)
  | case3 depth rest ih => exact ih.trans (List.sublist_cons_self _ _)
  | case4 depth p rest hopening hclosing hkept ih => exact ih.cons_cons p
  | case5 depth p rest hopening hclosing hhidden ih => exact ih.trans (List.sublist_cons_self _ _)

theorem ungrouped_keptPieces (strip : Bool) (depth : Nat) (ps : List Piece) :
    Ungrouped '{' '}' (keptPieces strip depth ps) := by
  fun_induction keptPieces strip depth ps with
  | case1 => exact .nil
  | case2 depth rest ih => exact ih
  | case3 depth rest ih => exact ih
  | case4 depth p rest hopening hclosing hkept ih =>
    exact Ungrouped.cons_iff.mpr ⟨hopening, hclosing, ih⟩
  | case5 depth p rest hopening hclosing hhidden ih => exact ih

/-- Leaving out whole pieces takes no escape pair apart. -/
theorem pieces_resolveUnsorted (strip : Bool) (t : Text) :
    (resolveUnsorted strip t).pieces = keptPieces strip 0 t.pieces := by
  rw [resolveUnsorted_eq]
  exact Text.pieces_ofPieces (keptPieces_sublist strip 0 t.pieces)

/-- No brace remains that stands for itself. -/
theorem ungrouped_resolveUnsorted (strip : Bool) (t : Text) :
    Ungrouped '{' '}' (resolveUnsorted strip t).pieces := by
  rw [pieces_resolveUnsorted]
  exact ungrouped_keptPieces strip 0 t.pieces

theorem keptPieces_of_ungrouped (strip : Bool) {ps : List Piece} (h : Ungrouped '{' '}' ps) :
    keptPieces strip 0 ps = ps := by
  induction ps with
  | nil => rfl
  | cons p rest ih =>
    obtain ⟨hopening, hclosing, hrest⟩ := Ungrouped.cons_iff.mp h
    rw [keptPieces_other hopening hclosing, if_pos (.inl rfl), ih hrest]

/-- Where no brace stands for itself, no part is unsorted. -/
theorem resolveUnsorted_of_ungrouped (strip : Bool) {t : Text} (h : Ungrouped '{' '}' t.pieces) :
    resolveUnsorted strip t = t := by
  rw [resolveUnsorted_eq, keptPieces_of_ungrouped strip h, Text.ofPieces_pieces]

/-! ## Balanced braces -/

section

variable {strip : Bool} {depth depth' : Nat} {ps : List Piece}

/-- Pieces are resolved in turn, as long as no brace is closed that has not been opened. -/
theorem keptPieces_append (h : depthAfter? '{' '}' depth ps = some depth') (qs : List Piece) :
    keptPieces strip depth (ps ++ qs) = keptPieces strip depth ps ++ keptPieces strip depth' qs := by
  induction h using Text.depthInduction (show '}' ≠ '{' by decide) with
  | nil => rfl
  | opened depth ps _ ih => rw [List.cons_append, keptPieces_opening, keptPieces_opening, ih]
  | closed depth ps _ ih =>
    rw [List.cons_append, keptPieces_closing, keptPieces_closing, Nat.add_sub_cancel, ih]
  | other depth p ps hopening hclosing _ ih =>
    rw [List.cons_append, keptPieces_other hopening hclosing,
      keptPieces_other hopening hclosing, ih]
    split
    · rfl
    · rfl

/-- With the parts themselves left out, nothing in one remains. -/
theorem keptPieces_hidden (h : depthAfter? '{' '}' depth ps = some depth') (qs : List Piece) :
    keptPieces true (depth + 1) (ps ++ qs) = keptPieces true (depth' + 1) qs := by
  induction h using Text.depthInduction (show '}' ≠ '{' by decide) with
  | nil => rfl
  | opened depth ps _ ih => rw [List.cons_append, keptPieces_opening, ih]
  | closed depth ps _ ih => rw [List.cons_append, keptPieces_closing, Nat.add_sub_cancel, ih]
  | other depth p ps hopening hclosing _ ih =>
    have hinside : ¬ (depth + 1 = 0 ∨ true = false) := by simp
    rw [List.cons_append, keptPieces_other hopening hclosing, if_neg hinside, ih]

/-- With the parts kept, it does not matter how many are open. -/
theorem keptPieces_shown (depth : Nat) (ps : List Piece) :
    keptPieces false depth ps = keptPieces false 0 ps := by
  induction ps generalizing depth with
  | nil => rfl
  | cons p rest ih =>
    by_cases hopening : p = .plain '{'
    · subst hopening
      rw [keptPieces_opening, keptPieces_opening, ih (depth + 1), ih (0 + 1)]
    by_cases hclosing : p = .plain '}'
    · subst hclosing
      rw [keptPieces_closing, keptPieces_closing, ih (depth - 1)]
    · rw [keptPieces_other hopening hclosing, keptPieces_other hopening hclosing,
        if_pos (.inr rfl), if_pos (.inl rfl), ih depth]

end

/-! ## A headword with an unsorted part -/

theorem pieces_unsortedPart {a b : Text} (ha : Whole a) (hb : Whole b) (c : Text) :
    (a ++ '{' :: (b ++ '}' :: c)).pieces =
      a.pieces ++ .plain '{' :: (b.pieces ++ .plain '}' :: c.pieces) := by
  rw [Text.pieces_append ha, Text.pieces_plain (by decide), Text.pieces_append hb,
    Text.pieces_plain (by decide)]

/-- No brace that stands for itself remains of a headword, so resolving it again in either way changes
nothing. An unsorted part behind and around balanced braces is left out or kept on its own, and so is
what stands before and behind it. -/
theorem resolveUnsorted_parts :
    (∀ (t : Text) (strip : Bool), Ungrouped '{' '}' (resolveUnsorted strip t).pieces ∧
      ∀ again, resolveUnsorted again (resolveUnsorted strip t) = resolveUnsorted strip t) ∧
    ∀ a b c : Text, Whole a → Balanced '{' '}' a.pieces → Whole b → Balanced '{' '}' b.pieces →
      resolveUnsorted true (a ++ '{' :: (b ++ '}' :: c)) =
        resolveUnsorted true a ++ resolveUnsorted true c ∧
      resolveUnsorted false (a ++ '{' :: (b ++ '}' :: c)) =
        resolveUnsorted false a ++ resolveUnsorted false b ++ resolveUnsorted false c := by
  constructor
  · intro t strip
    have hfree := ungrouped_resolveUnsorted strip t
    exact ⟨hfree, fun again => resolveUnsorted_of_ungrouped again hfree⟩
  · intro a b c ha hbefore hb hinside
    simp only [resolveUnsorted_eq, pieces_unsortedPart ha hb]
    rw [keptPieces_append hbefore, keptPieces_append hbefore, keptPieces_opening,
      keptPieces_opening]
    constructor
    · rw [keptPieces_hidden hinside, keptPieces_closing, Text.ofPieces_append]
    · rw [keptPieces_shown (0 + 1), keptPieces_append hinside, keptPieces_closing,
        Text.ofPieces_append, Text.ofPieces_append, List.append_assoc]

theorem resolveUnsorted_parts_escaped :
    let a : Text := "\\\x7ba".toList
    let b : Text := "b\x7bc\\\x7d\x7d".toList
    let c : Text := "\x7dd\\".toList
    (Whole a ∧ Balanced '{' '}' a.pieces ∧ Whole b ∧ Balanced '{' '}' b.pieces) ∧
      resolveUnsorted true (a ++ '{' :: (b ++ '}' :: c)) = "\\\x7bad\\".toList ∧
      resolveUnsorted false (a ++ '{' :: (b ++ '}' :: c)) = "\\\x7babc\\\x7dd\\".toList := by
  intro a b c
  have ha : Whole a := by decide
  have hbefore : Balanced '{' '}' a.pieces := by decide
  have hb : Whole b := by decide
  have hinside : Balanced '{' '}' b.pieces := by decide
  obtain ⟨htrue, hfalse⟩ := resolveUnsorted_parts.2 a b c ha hbefore hb hinside
  refine ⟨⟨ha, hbefore, hb, hinside⟩, ?_, ?_⟩
  · rw [htrue]
    decide
  · rw [hfalse]
    decide

end Lexicon.Headword
