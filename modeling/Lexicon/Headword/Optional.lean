import Lexicon.Text.Piece

/-!
# Optional parts

A part of a headword in parentheses may be left out, so a headword with `k` such parts stands for
up to `2 ^ k` variants. They are listed depth first: groups are decided from left to right, and
leaving a group out comes before keeping it. At most `variantLimit` different variants are listed;
of equal ones the first is kept.
-/

namespace Lexicon.Headword

/-- The most variants that one headword gives. -/
def variantLimit : Nat := 32

/-- Adds a variant to those found, unless it is there already or the limit is reached. -/
def addVariant (found : List Text) (variant : Text) : List Text :=
  if found.length < variantLimit ∧ variant ∉ found then found ++ [variant] else found

/-- The pieces after the parenthesis that closes the group in which `ps` stands, with `depth` more
groups opened inside it. -/
def afterGroup (depth : Nat) : List Piece → Option (List Piece)
  | [] => none
  | .plain ')' :: rest => if depth = 0 then some rest else afterGroup (depth - 1) rest
  | .plain '(' :: rest => afterGroup (depth + 1) rest
  | _ :: rest => afterGroup depth rest

/-- What follows a group is shorter than what follows its opening parenthesis. -/
theorem length_lt_of_afterGroup {depth : Nat} {ps after : List Piece}
    (h : afterGroup depth ps = some after) : after.length < ps.length := by
  fun_induction afterGroup depth ps <;> simp_all <;> omega

/-- The text of the pieces kept so far, last first. -/
def keptText (kept : List Piece) : Text :=
  Text.ofPieces kept.reverse

/-- Lists the variants of the pieces `ps` behind the kept pieces `kept` (last first), adding them to
those found.

An empty group has nothing to leave out. A parenthesis that is never closed gives, unless it is the
last piece, one more variant that ends before it. -/
def expandAfter (kept : List Piece) (ps : List Piece) (found : List Text) : List Text :=
  match ps with
  | [] => addVariant found (keptText kept)
  | .plain ')' :: rest => expandAfter kept rest found
  | .plain '(' :: .plain ')' :: rest => expandAfter kept rest found
  | .plain '(' :: rest =>
    match _h : afterGroup 0 rest with
    | some after =>
      -- First the group is left out, then it is kept
      let found := expandAfter kept after found
      if found.length < variantLimit then expandAfter kept rest found else found
    | none =>
      -- The group is never closed: the text before it counts, and reading goes on inside
      expandAfter kept rest (if rest = [] then found else addVariant found (keptText kept))
  | p :: rest => expandAfter (p :: kept) rest found
termination_by ps.length
decreasing_by
  all_goals simp only [List.length_cons]
  · exact Nat.lt_add_one _
  · exact Nat.lt_add_right 1 (Nat.lt_add_one _)
  · exact Nat.lt_add_right 1 (length_lt_of_afterGroup _h)
  · exact Nat.lt_add_one _
  · exact Nat.lt_add_one _
  · exact Nat.lt_add_one _

/-- The variants of a headword, with and without each of its optional parts. -/
def variants (t : Text) : List Text :=
  expandAfter [] t.pieces []

/-! ## Length -/

private theorem length_ofPieces_afterGroup_le {depth : Nat} {ps after : List Piece}
    (h : afterGroup depth ps = some after) :
    (Text.ofPieces after).length ≤ (Text.ofPieces ps).length := by
  fun_induction afterGroup depth ps <;> simp_all <;> omega

theorem mem_addVariant {found : List Text} {variant v : Text}
    (h : v ∈ addVariant found variant) : v ∈ found ∨ v = variant := by
  unfold addVariant at h
  split at h
  · simpa using h
  · exact .inl h

private theorem length_le_of_mem_expandAfter {kept ps : List Piece} {found : List Text} {v : Text}
    (h : v ∈ expandAfter kept ps found) :
    v ∈ found ∨ v.length ≤ (keptText kept).length + (Text.ofPieces ps).length := by
  fun_induction expandAfter kept ps found with
  | case1 kept found =>
    -- No piece is left: the kept pieces are the one new variant
    rcases mem_addVariant h with h | rfl
    · exact .inl h
    · exact .inr (Nat.le_add_right _ _)
  | case2 kept found rest ih => exact (ih h).imp_right fun h => by simp; omega
  | case3 kept found rest ih => exact (ih h).imp_right fun h => by simp; omega
  | case4 kept found rest _ after hafter found' _ ih₁ ih₂ =>
    -- With room left the group is kept as well, so `v` comes from one of two lists
    have := length_ofPieces_afterGroup_le hafter
    rcases ih₂ h with h | h
    · exact (ih₁ h).imp_right fun h => by simp; omega
    · exact .inr (by simp; omega)
  | case5 kept found rest _ after hafter found' _ ih =>
    have := length_ofPieces_afterGroup_le hafter
    exact (ih h).imp_right fun h => by simp; omega
  | case6 kept found rest _ _ ih =>
    -- A group without an end may add the text before it, which is no longer than the whole
    rcases ih h with h | h
    · split at h
      · exact .inl h
      · exact (mem_addVariant h).imp_right fun h => by subst h; exact Nat.le_add_right _ _
    · exact .inr (by simp; omega)
  | case7 kept found p rest _ _ _ ih =>
    exact (ih h).imp_right fun h => by simp [keptText] at h ⊢; omega

/-- No variant is longer than the headword. -/
theorem length_le_of_mem_variants {t v : Text} (h : v ∈ variants t) : v.length ≤ t.length := by
  rcases length_le_of_mem_expandAfter h with h | h
  · cases h
  · simpa [keptText, Text.ofPieces_pieces] using h

end Lexicon.Headword
