import Mathlib.Data.List.Induction
import Lexicon.Headword.Optional
import Lexicon.Proofs.Text.Nesting

/-!
# All variants of a headword

The variants of a headword are found by a search that adds each new one to a list and stops when the
list is full. Without the list and the limit it is a plain enumeration: a group gives the variants of
what follows it, and then those of its contents with what follows. Searching comes to enumerating,
leaving out what has been listed before, and cutting the list.

The search keeps a group by dropping its opening parenthesis and going on inside, so that it meets the
closing one later. What stands between the two is balanced, and behind balanced pieces a closing
parenthesis has nothing to close.

## Key results

- `splitGroup_eq_some`, `splitGroup_append`: a group ends behind balanced pieces
- `allVariants_append_closing`: behind balanced pieces, a closing parenthesis makes no difference
- `expandAfter_eq_foldl`: searching adds what is enumerated, in this order
- `variants_eq_singleton`: a headword without parentheses has one variant
- `foldl_addVariant`: adding to a list with a limit is leaving out repetitions and cutting
- `variants_eq_take`: the variants of a headword
-/

namespace Lexicon.Headword

open Text (depthAfter? ofPieces Ungrouped)

/-! ## Groups -/

/-- What stands in the group in which the pieces start, with `depth` more groups opened inside it, and what
follows the group; `none` if it is never closed. -/
def splitGroup (depth : Nat) : List Piece → Option (List Piece × List Piece)
  | [] => none
  | .plain ')' :: rest =>
    if depth = 0 then some ([], rest)
    else (splitGroup (depth - 1) rest).map fun g => (.plain ')' :: g.1, g.2)
  | .plain '(' :: rest => (splitGroup (depth + 1) rest).map fun g => (.plain '(' :: g.1, g.2)
  | p :: rest => (splitGroup depth rest).map fun g => (p :: g.1, g.2)

section Groups

variable {depth : Nat} {ps body after : List Piece}

/-- A group ends at the first parenthesis that closes one more than is opened before it. -/
theorem splitGroup_eq_some (h : splitGroup depth ps = some (body, after)) :
    ps = body ++ .plain ')' :: after ∧ depthAfter? '(' ')' depth body = some 0 := by
  fun_induction splitGroup depth ps generalizing body with
  | case1 => cases h
  | case2 rest =>
    cases h
    exact ⟨rfl, rfl⟩
  | case3 depth rest hdepth ih =>
    obtain ⟨⟨body, _⟩, hgroup, ⟨⟩⟩ := Option.map_eq_some_iff.mp h
    obtain ⟨rfl, hbody⟩ := ih hgroup
    obtain ⟨depth, rfl⟩ := Nat.exists_eq_succ_of_ne_zero hdepth
    exact ⟨rfl, (Text.depthAfter?_closing (by decide)).trans hbody⟩
  | case4 depth rest ih =>
    obtain ⟨⟨body, _⟩, hgroup, ⟨⟩⟩ := Option.map_eq_some_iff.mp h
    obtain ⟨rfl, hbody⟩ := ih hgroup
    exact ⟨rfl, Text.depthAfter?_opening.trans hbody⟩
  | case5 depth p rest hclosing hopening ih =>
    obtain ⟨⟨body, _⟩, hgroup, ⟨⟩⟩ := Option.map_eq_some_iff.mp h
    obtain ⟨rfl, hbody⟩ := ih hgroup
    exact ⟨rfl, (Text.depthAfter?_other hopening hclosing).trans hbody⟩

/-- A group ends behind balanced pieces, whatever follows it. -/
theorem splitGroup_append (h : depthAfter? '(' ')' depth body = some 0) (after : List Piece) :
    splitGroup depth (body ++ .plain ')' :: after) = some (body, after) := by
  induction h using Text.depthInduction (show ')' ≠ '(' by decide) with
  | nil => rfl
  | opened depth body _ ih => rw [List.cons_append, splitGroup, ih]; rfl
  | closed depth body _ ih =>
    rw [List.cons_append, splitGroup, if_neg (Nat.succ_ne_zero depth), Nat.add_sub_cancel, ih]
    rfl
  | other depth p body hopening hclosing _ ih =>
    rw [List.cons_append, splitGroup.eq_4 _ _ _ hclosing hopening, ih]
    rfl

/-- What the search leaves out is the group. -/
theorem afterGroup_eq (depth : Nat) (ps : List Piece) :
    afterGroup depth ps = (splitGroup depth ps).map Prod.snd := by
  fun_induction splitGroup depth ps with
  | case1 => rfl
  | case2 rest => rfl
  | case3 depth rest hdepth ih =>
    rw [afterGroup, if_neg hdepth, ih, Option.map_map]
    rfl
  | case4 depth rest ih =>
    rw [afterGroup, ih, Option.map_map]
    rfl
  | case5 depth p rest hclosing hopening ih =>
    rw [afterGroup.eq_4 _ _ _ hclosing hopening, ih, Option.map_map]
    rfl

end Groups

/-! ## All variants -/

/-- All variants of a headword, each as often as there are ways to it. Leaving a group out comes before
keeping it, an empty group has nothing to leave out, and a parenthesis that closes no group is dropped.
One that is never closed gives a variant that ends before it, unless it is the last piece. -/
def allVariants : List Piece → List Text
  | [] => [[]]
  | .plain ')' :: rest => allVariants rest
  | .plain '(' :: rest =>
    match _h : splitGroup 0 rest with
    | some (body, after) =>
      if body = [] then allVariants after else allVariants after ++ allVariants (body ++ after)
    | none => if rest = [] then allVariants rest else [] :: allVariants rest
  | p :: rest => (allVariants rest).map (p.source ++ ·)
termination_by ps => ps.length
decreasing_by
  all_goals simp only [List.length_cons, List.length_append]
  · omega
  · rw [(splitGroup_eq_some _h).1, List.length_append, List.length_cons]
    omega
  · rw [(splitGroup_eq_some _h).1, List.length_append, List.length_cons]
    omega
  · rw [(splitGroup_eq_some _h).1, List.length_append, List.length_cons]
    omega
  · omega
  · omega
  · omega

theorem allVariants_group {body : List Piece} (h : Text.Balanced '(' ')' body) (after : List Piece) :
    allVariants (.plain '(' :: (body ++ .plain ')' :: after)) =
      if body = [] then allVariants after else allVariants after ++ allVariants (body ++ after) := by
  rw [allVariants]
  split
  · rename_i _ hgroup
    cases (splitGroup_append h after).symm.trans hgroup
    rfl
  · rename_i hgroup
    cases (splitGroup_append h after).symm.trans hgroup

/-- A parenthesis that closes a group may as well be left out when the group is kept. -/
theorem allVariants_append_closing {ps : List Piece} (h : Text.Balanced '(' ')' ps)
    (qs : List Piece) : allVariants (ps ++ .plain ')' :: qs) = allVariants (ps ++ qs) := by
  -- On the length: a group in `ps` is kept without its own parentheses first
  induction hn : ps.length using Nat.strongRecOn generalizing ps with
  | _ n ih =>
    subst hn
    cases ps with
    | nil => rw [List.nil_append, List.nil_append, allVariants]
    | cons p rest =>
      rw [List.cons_append, List.cons_append]
      by_cases hopening : p = .plain '('
      · subst hopening
        rw [Text.Balanced, Text.depthAfter?_opening] at h
        obtain ⟨body, after, rfl, hbody, hafter⟩ := Text.exists_closing (by decide) h
        have hlength : (body ++ after).length < (.plain '(' :: (body ++ .plain ')' :: after)).length := by
          simp only [List.length_cons, List.length_append]
          omega
        have hafter' := ih after.length (by rw [List.length_append] at hlength; omega) hafter rfl
        have hboth := ih _ hlength (Text.Balanced.append hbody hafter) rfl
        rw [List.append_assoc] at hboth
        rw [List.append_assoc, List.append_assoc, List.cons_append, List.cons_append,
          allVariants_group hbody, allVariants_group hbody, hafter', hboth, List.append_assoc]
      by_cases hclosing : p = .plain ')'
      · subst hclosing
        cases h
      · rw [Text.Balanced, Text.depthAfter?_other hopening hclosing] at h
        rw [allVariants.eq_4 _ _ hclosing hopening, allVariants.eq_4 _ _ hclosing hopening,
          ih rest.length (Nat.lt_add_one _) h rfl]

/-- A group that the search keeps. -/
theorem allVariants_kept {rest after : List Piece} (hempty : ∀ tail, rest ≠ .plain ')' :: tail)
    (hafter : afterGroup 0 rest = some after) :
    allVariants (.plain '(' :: rest) = allVariants after ++ allVariants rest := by
  rw [afterGroup_eq] at hafter
  obtain ⟨⟨body, after⟩, hgroup, rfl⟩ := Option.map_eq_some_iff.mp hafter
  obtain ⟨rfl, hbody⟩ := splitGroup_eq_some hgroup
  have hne : body ≠ [] := by
    rintro rfl
    exact hempty after rfl
  rw [allVariants_group hbody, if_neg hne, allVariants_append_closing hbody]

theorem allVariants_unclosed {rest : List Piece} (h : afterGroup 0 rest = none) :
    allVariants (.plain '(' :: rest) =
      if rest = [] then allVariants rest else [] :: allVariants rest := by
  rw [afterGroup_eq, Option.map_eq_none_iff] at h
  rw [allVariants]
  split
  · rename_i hgroup
    cases h.symm.trans hgroup
  · rfl

/-- Pieces that are no parentheses stand in front of every variant of what follows. -/
theorem allVariants_append {ps : List Piece} (h : Ungrouped '(' ')' ps) (qs : List Piece) :
    allVariants (ps ++ qs) = (allVariants qs).map (ofPieces ps ++ ·) := by
  induction ps with
  | nil => exact (List.map_id' _).symm
  | cons p rest ih =>
    obtain ⟨hopening, hclosing, hrest⟩ := Ungrouped.cons_iff.mp h
    rw [List.cons_append, allVariants.eq_4 _ _ hclosing hopening, ih hrest, List.map_map]
    simp only [Function.comp_def, Text.ofPieces_cons, List.append_assoc]

theorem allVariants_pieces {t : Text} (h : Ungrouped '(' ')' t.pieces) :
    allVariants t.pieces = [t] := by
  have hall := allVariants_append h []
  rwa [List.append_nil, allVariants, List.map_singleton, List.append_nil,
    Text.ofPieces_pieces] at hall

/-! ## Adding variants one by one -/

theorem addVariant_of_full {found : List Text} (h : ¬ found.length < variantLimit) (v : Text) :
    addVariant found v = found :=
  if_neg fun hboth => h hboth.1

theorem foldl_addVariant_of_full {found : List Text} (h : ¬ found.length < variantLimit)
    (vs : List Text) : vs.foldl addVariant found = found := by
  induction vs with
  | nil => rfl
  | cons v rest ih => rw [List.foldl_cons, addVariant_of_full h, ih]

theorem keptText_cons_append (p : Piece) (kept : List Piece) (v : Text) :
    keptText (p :: kept) ++ v = keptText kept ++ (p.source ++ v) := by
  simp [keptText]

/-- The variants of the pieces behind those kept are added in turn. -/
theorem expandAfter_eq_foldl (kept ps : List Piece) (found : List Text) :
    expandAfter kept ps found =
      ((allVariants ps).map (keptText kept ++ ·)).foldl addVariant found := by
  fun_induction expandAfter kept ps found with
  | case1 kept found =>
    rw [allVariants, List.map_singleton, List.append_nil]
    rfl
  | case2 kept found rest ih => rw [ih, allVariants]
  | case3 kept found rest ih =>
    have hgroup := allVariants_group Text.Ungrouped.nil.balanced rest
    rw [List.nil_append, if_pos rfl] at hgroup
    rw [ih, hgroup]
  | case4 kept found rest hempty after hafter found' hroom ih₁ ih₂ =>
    -- The group is left out and then kept
    rw [ih₂, allVariants_kept hempty hafter, List.map_append, List.foldl_append, ← ih₁]
  | case5 kept found rest hempty after hafter found' hfull ih =>
    -- Leaving the group out has filled the list, and keeping it would add nothing
    rw [allVariants_kept hempty hafter, List.map_append, List.foldl_append, ← ih,
      foldl_addVariant_of_full hfull]
  | case6 kept found rest hempty hafter ih =>
    rw [dite_eq_ite] at ih
    rw [ih, allVariants_unclosed hafter]
    split
    · rfl
    · rw [List.map_cons, List.foldl_cons, List.append_nil]
  | case7 kept found p rest hclosing hempty hopening ih =>
    rw [ih, allVariants.eq_4 _ _ hclosing hopening, List.map_map]
    simp only [Function.comp_def, keptText_cons_append]

theorem variants_eq_foldl (t : Text) :
    variants t = (allVariants t.pieces).foldl addVariant [] := by
  rw [variants, expandAfter_eq_foldl]
  -- Nothing is kept yet
  exact congrArg (List.foldl addVariant []) (List.map_id' _)

/-- Where no parenthesis stands for itself, no part is optional. -/
theorem variants_eq_singleton {t : Text} (h : Ungrouped '(' ')' t.pieces) : variants t = [t] := by
  rw [variants_eq_foldl, allVariants_pieces h]
  rfl

/-! ## Listing without repetitions -/

theorem eraseDups_concat (vs : List Text) (v : Text) :
    (vs ++ [v]).eraseDups = if v ∈ vs then vs.eraseDups else vs.eraseDups ++ [v] := by
  rw [List.eraseDups_append]
  split
  · rename_i h
    simp [List.removeAll, h]
  · rename_i h
    simp [List.removeAll, h, List.eraseDups_cons]

/-- Adding to a list that was cut is adding to the whole list and cutting it. -/
theorem addVariant_take (vs : List Text) (v : Text) :
    addVariant (vs.eraseDups.take variantLimit) v = (vs ++ [v]).eraseDups.take variantLimit := by
  rw [eraseDups_concat]
  by_cases hroom : vs.eraseDups.length < variantLimit
  · rw [List.take_of_length_le (Nat.le_of_lt hroom), addVariant]
    by_cases hmem : v ∈ vs
    · rw [if_neg fun h => h.2 (List.mem_eraseDups.mpr hmem), if_pos hmem,
        List.take_of_length_le (Nat.le_of_lt hroom)]
    · rw [if_pos ⟨hroom, fun h => hmem (List.mem_eraseDups.mp h)⟩, if_neg hmem,
        List.take_of_length_le (by rwa [List.length_append])]
  · have hfull : variantLimit ≤ vs.eraseDups.length := Nat.not_lt.mp hroom
    rw [addVariant_of_full (by rw [List.length_take_of_le hfull]; exact Nat.lt_irrefl _)]
    split
    · rfl
    · rw [List.take_append_of_le_length hfull]

theorem foldl_addVariant (vs : List Text) :
    vs.foldl addVariant [] = vs.eraseDups.take variantLimit := by
  induction vs using List.reverseRecOn with
  | nil => rfl
  | append_singleton vs v ih =>
    rw [List.foldl_append, List.foldl_cons, List.foldl_nil, ih, addVariant_take]

/-- The variants of a headword are all that there are, without repetitions and up to the limit. -/
theorem variants_eq_take (t : Text) :
    variants t = (allVariants t.pieces).eraseDups.take variantLimit := by
  rw [variants_eq_foldl, foldl_addVariant]

-- A group, an escaped parenthesis, and one that is never closed
example : allVariants (Text.pieces "a(b)\\)(c".toList) =
    ["a\\)".toList, "a\\)c".toList, "ab\\)".toList, "ab\\)c".toList] := by
  decide +kernel

end Lexicon.Headword
