import Lexicon.Text.Piece

/-!
# Nested groups

An opening and a closing character that stand for themselves put what is between them into a group, and
groups nest. Reading a text from the left, all there is to know is how many groups are open. Pieces are
balanced if every group opened in them is closed in them, and no other one is.

## Key results

- `depthInduction`: induction on pieces in which no group is closed that is not open
- `depthAfter?_append`: pieces are read in turn
- `Ungrouped.depthAfter?_eq`: other pieces open and close nothing
- `exists_closing`: where all open groups are closed, the outermost of them is closed last
-/

namespace Lexicon.Text

/-- How many groups are open behind the pieces, with `depth` of them open before; `none` if a group is
closed where none is open. -/
def depthAfter? (opening closing : Char) (depth : Nat) : List Piece → Option Nat
  | [] => some depth
  | p :: rest =>
    if p = .plain opening then depthAfter? opening closing (depth + 1) rest
    else if p = .plain closing then
      if depth = 0 then none else depthAfter? opening closing (depth - 1) rest
    else depthAfter? opening closing depth rest

/-- Every group opened in the pieces is closed in them, and no other one is. -/
def Balanced (opening closing : Char) (ps : List Piece) : Prop :=
  depthAfter? opening closing 0 ps = some 0

instance (opening closing : Char) (ps : List Piece) : Decidable (Balanced opening closing ps) :=
  inferInstanceAs (Decidable (_ = _))

/-- No group is opened or closed in the pieces. -/
structure Ungrouped (opening closing : Char) (ps : List Piece) : Prop where
  opening : .plain opening ∉ ps
  closing : .plain closing ∉ ps

instance (opening closing : Char) (ps : List Piece) : Decidable (Ungrouped opening closing ps) :=
  decidable_of_iff (.plain opening ∉ ps ∧ .plain closing ∉ ps)
    ⟨fun h => ⟨h.1, h.2⟩, fun h => ⟨h.opening, h.closing⟩⟩

section

variable {opening closing : Char} {depth : Nat} {ps : List Piece}

theorem depthAfter?_opening :
    depthAfter? opening closing depth (.plain opening :: ps) =
      depthAfter? opening closing (depth + 1) ps := by
  rw [depthAfter?, if_pos rfl]

theorem depthAfter?_closing (h : closing ≠ opening) :
    depthAfter? opening closing (depth + 1) (.plain closing :: ps) =
      depthAfter? opening closing depth ps := by
  have hp : Piece.plain closing ≠ .plain opening := fun heq => h (Piece.plain.inj heq)
  rw [depthAfter?, if_neg hp, if_pos rfl, if_neg (Nat.succ_ne_zero depth), Nat.add_sub_cancel]

theorem depthAfter?_other {p : Piece} (hopening : p ≠ .plain opening)
    (hclosing : p ≠ .plain closing) :
    depthAfter? opening closing depth (p :: ps) = depthAfter? opening closing depth ps := by
  rw [depthAfter?, if_neg hopening, if_neg hclosing]

/-- Pieces that close no group but one that is open are read piece by piece. -/
@[elab_as_elim]
theorem depthInduction {depth' : Nat}
    {motive : ∀ depth ps, depthAfter? opening closing depth ps = some depth' → Prop}
    (hne : closing ≠ opening) (nil : motive depth' [] rfl)
    (opened : ∀ depth ps h, motive (depth + 1) ps h →
      motive depth (.plain opening :: ps) (depthAfter?_opening.trans h))
    (closed : ∀ depth ps h, motive depth ps h →
      motive (depth + 1) (.plain closing :: ps) ((depthAfter?_closing hne).trans h))
    (other : ∀ depth p ps (hopening : p ≠ .plain opening) (hclosing : p ≠ .plain closing) h,
      motive depth ps h → motive depth (p :: ps) ((depthAfter?_other hopening hclosing).trans h))
    {depth : Nat} {ps : List Piece} (h : depthAfter? opening closing depth ps = some depth') :
    motive depth ps h := by
  induction ps generalizing depth with
  | nil =>
    cases h
    exact nil
  | cons p rest ih =>
    by_cases hopening : p = .plain opening
    · subst hopening
      exact opened depth rest (depthAfter?_opening.symm.trans h) (ih _)
    by_cases hclosing : p = .plain closing
    · subst hclosing
      cases depth with
      | zero =>
        rw [depthAfter?, if_neg hopening, if_pos rfl, if_pos rfl] at h
        cases h
      | succ depth =>
        exact closed depth rest ((depthAfter?_closing hne).symm.trans h) (ih _)
    · exact other depth p rest hopening hclosing
        ((depthAfter?_other hopening hclosing).symm.trans h) (ih _)

/-- Pieces are read in turn. -/
theorem depthAfter?_append (ps qs : List Piece) :
    depthAfter? opening closing depth (ps ++ qs) =
      (depthAfter? opening closing depth ps).bind (depthAfter? opening closing · qs) := by
  induction ps generalizing depth with
  | nil => rfl
  | cons p rest ih =>
    rw [List.cons_append, depthAfter?, depthAfter?]
    split
    · exact ih
    split
    · split
      · rfl
      · exact ih
    · exact ih

theorem Balanced.append {qs : List Piece} (hps : Balanced opening closing ps)
    (hqs : Balanced opening closing qs) : Balanced opening closing (ps ++ qs) := by
  rw [Balanced, depthAfter?_append, hps]
  exact hqs

/-- Where all open groups are closed, one piece closes the outermost of them. Those inside it are closed
before, and what follows opens no group that it does not close. -/
theorem exists_closing (hne : closing ≠ opening)
    (h : depthAfter? opening closing (depth + 1) ps = some 0) :
    ∃ body after, ps = body ++ .plain closing :: after ∧
      depthAfter? opening closing depth body = some 0 ∧ Balanced opening closing after := by
  induction ps generalizing depth with
  | nil => cases h
  | cons p rest ih =>
    by_cases hopening : p = .plain opening
    · subst hopening
      rw [depthAfter?_opening] at h
      obtain ⟨body, after, rfl, hbody, hafter⟩ := ih h
      exact ⟨.plain opening :: body, after, rfl, depthAfter?_opening.trans hbody, hafter⟩
    by_cases hclosing : p = .plain closing
    · subst hclosing
      rw [depthAfter?_closing hne] at h
      cases depth with
      | zero => exact ⟨[], rest, rfl, rfl, h⟩
      | succ depth =>
        obtain ⟨body, after, rfl, hbody, hafter⟩ := ih h
        exact ⟨.plain closing :: body, after, rfl, (depthAfter?_closing hne).trans hbody, hafter⟩
    · rw [depthAfter?_other hopening hclosing] at h
      obtain ⟨body, after, rfl, hbody, hafter⟩ := ih h
      exact ⟨p :: body, after, rfl, (depthAfter?_other hopening hclosing).trans hbody, hafter⟩

/-! ## Pieces without groups -/

namespace Ungrouped

theorem nil : Ungrouped opening closing [] :=
  ⟨List.not_mem_nil, List.not_mem_nil⟩

theorem cons_iff {p : Piece} :
    Ungrouped opening closing (p :: ps) ↔
      p ≠ .plain opening ∧ p ≠ .plain closing ∧ Ungrouped opening closing ps := by
  constructor
  · intro h
    have hopening := h.opening
    have hclosing := h.closing
    rw [List.mem_cons, not_or] at hopening hclosing
    exact ⟨Ne.symm hopening.1, Ne.symm hclosing.1, hopening.2, hclosing.2⟩
  · rintro ⟨hopening, hclosing, hps⟩
    constructor
    · rw [List.mem_cons, not_or]
      exact ⟨Ne.symm hopening, hps.opening⟩
    · rw [List.mem_cons, not_or]
      exact ⟨Ne.symm hclosing, hps.closing⟩

/-- Other pieces open and close nothing. -/
theorem depthAfter?_eq (h : Ungrouped opening closing ps) :
    depthAfter? opening closing depth ps = some depth := by
  induction ps with
  | nil => rfl
  | cons p rest ih =>
    obtain ⟨hopening, hclosing, hrest⟩ := cons_iff.mp h
    rw [depthAfter?_other hopening hclosing]
    exact ih hrest

theorem balanced (h : Ungrouped opening closing ps) : Balanced opening closing ps :=
  h.depthAfter?_eq

end Ungrouped

end

end Lexicon.Text
