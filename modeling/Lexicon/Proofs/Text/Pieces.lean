import Lexicon.Text.Piece

/-!
# Pieces of parts of a text

A text that is cut where a piece ends has the pieces of its two parts. Where it is cut inside an
escape pair, the first part ends with a lone backslash instead. Leaving out whole pieces leaves the
others as they are; so does leaving out white space at the ends, apart from such a backslash.

## Key results

- `Text.pieceInduction`: a text is made of pieces
- `Text.pieces_append`: the pieces of a text that is cut where a piece ends
- `Text.PartOf.of_isPrefix`: the pieces of a text that is cut anywhere
- `Text.pieces_ofPieces`: leaving out pieces
- `Text.pieces_source_append`: putting a piece in front of another text
- `Text.partOf_trim`: leaving out white space at the ends
-/

namespace Lexicon.Text

/-- A text is made of pieces: characters for themselves, escape pairs, and at its end perhaps a
backslash. -/
@[elab_as_elim]
theorem pieceInduction {motive : Text → Prop} (nil : motive []) (lone : motive ['\\'])
    (escaped : ∀ c t, motive t → motive ('\\' :: c :: t))
    (plain : ∀ c t, c ≠ '\\' → motive t → motive (c :: t)) (t : Text) : motive t := by
  induction hn : t.length using Nat.strongRecOn generalizing t with
  | _ n ih =>
    subst hn
    match t with
    | [] => exact nil
    | [c] =>
      by_cases hc : c = '\\'
      · rw [hc]
        exact lone
      · exact plain c [] hc nil
    | c :: d :: rest =>
      by_cases hc : c = '\\'
      · rw [hc]
        exact escaped d rest (ih rest.length (by simp only [List.length_cons]; omega) rest rfl)
      · exact plain c (d :: rest) hc (ih (d :: rest).length (Nat.lt_add_one _) (d :: rest) rfl)

/-! ## Cutting a text -/

/-- A text is whole if no escape pair is cut at its end. -/
def Whole (t : Text) : Prop :=
  .loneBackslash ∉ t.pieces

instance (t : Text) : Decidable (Whole t) :=
  inferInstanceAs (Decidable (_ ∉ _))

theorem whole_nil : Whole [] := List.not_mem_nil

theorem pieces_append {a : Text} (h : Whole a) (b : Text) :
    (a ++ b).pieces = a.pieces ++ b.pieces := by
  induction a using pieceInduction with
  | nil => rfl
  | lone => exact absurd List.mem_cons_self h
  | escaped c a ih =>
    rw [Whole, pieces_escaped, List.mem_cons, not_or] at h
    rw [List.cons_append, List.cons_append, pieces_escaped, pieces_escaped, ih h.2]
    rfl
  | plain c a hc ih =>
    rw [Whole, pieces_plain hc, List.mem_cons, not_or] at h
    rw [List.cons_append, pieces_plain hc, pieces_plain hc, ih h.2]
    rfl

/-- The pieces of `a` stand in a row in `t`, apart from a backslash at the end of `a` if an escape
pair was cut there. -/
def PartOf (a t : Text) : Prop :=
  ∃ ps, ps <:+: t.pieces ∧ (a.pieces = ps ∨ a.pieces = ps ++ [.loneBackslash])

private theorem pieces_prefix {a t : Text} (h : a <+: t) :
    ∃ ps, ps <+: t.pieces ∧ (a.pieces = ps ∨ a.pieces = ps ++ [.loneBackslash]) := by
  obtain ⟨b, rfl⟩ := h
  induction a using pieceInduction with
  | nil => exact ⟨[], List.nil_prefix, .inl rfl⟩
  | lone => exact ⟨[], List.nil_prefix, .inr rfl⟩
  | escaped c a ih =>
    obtain ⟨ps, hps, ha⟩ := ih
    refine ⟨.escaped c :: ps, ?_, ?_⟩
    · rw [List.cons_append, List.cons_append, pieces_escaped]
      exact List.cons_prefix_cons.mpr ⟨rfl, hps⟩
    · rw [pieces_escaped]
      exact ha.imp (congrArg _) (congrArg _)
  | plain c a hc ih =>
    obtain ⟨ps, hps, ha⟩ := ih
    refine ⟨.plain c :: ps, ?_, ?_⟩
    · rw [List.cons_append, pieces_plain hc]
      exact List.cons_prefix_cons.mpr ⟨rfl, hps⟩
    · rw [pieces_plain hc]
      exact ha.imp (congrArg _) (congrArg _)

theorem PartOf.of_isPrefix {a t : Text} (h : a <+: t) : PartOf a t := by
  obtain ⟨ps, hps, ha⟩ := pieces_prefix h
  exact ⟨ps, hps.isInfix, ha⟩

theorem PartOf.mem {a t : Text} (h : PartOf a t) {c : Char} (hc : .plain c ∈ a.pieces) :
    .plain c ∈ t.pieces := by
  obtain ⟨ps, hps, ha | ha⟩ := h
  · rw [ha] at hc
    exact hps.subset hc
  · rw [ha] at hc
    rcases List.mem_append.mp hc with hc | hc
    · exact hps.subset hc
    · cases List.mem_singleton.mp hc

/-- Plain characters in a row stand in a row in the whole text as well. -/
theorem PartOf.row {a t : Text} (h : PartOf a t) {cs : List Char}
    (hcs : cs.map .plain <:+: a.pieces) : cs.map .plain <:+: t.pieces := by
  obtain ⟨ps, hps, ha | ha⟩ := h
  · rw [ha] at hcs
    exact hcs.trans hps
  · rw [ha] at hcs
    rcases List.infix_concat_iff.mp hcs with hend | hcs
    · -- A backslash that was cut off is no plain character
      rcases List.suffix_concat_iff.mp hend with hnil | ⟨before, hlast, -⟩
      · rw [hnil]
        exact List.nil_infix
      · have hmem : Piece.loneBackslash ∈ cs.map Piece.plain := by
          rw [hlast]
          exact List.mem_append_right _ List.mem_cons_self
        obtain ⟨c, -, hc⟩ := List.mem_map.mp hmem
        cases hc
    · exact hcs.trans hps

/-! ## Leaving out pieces -/

/-- Pieces of a text that are left when others are left out are those of the text they spell. -/
theorem pieces_ofPieces {ps : List Piece} {t : Text} (h : ps.Sublist t.pieces) :
    (ofPieces ps).pieces = ps := by
  induction t using pieceInduction generalizing ps with
  | nil =>
    rw [List.sublist_nil.mp h]
    rfl
  | lone =>
    rw [pieces_loneBackslash] at h
    rcases List.sublist_cons_iff.mp h with hps | ⟨rest, rfl, hrest⟩
    · rw [List.sublist_nil.mp hps]
      rfl
    · rw [List.sublist_nil.mp hrest]
      rfl
  | escaped c t ih =>
    rw [pieces_escaped] at h
    rcases List.sublist_cons_iff.mp h with hps | ⟨rest, rfl, hrest⟩
    · exact ih hps
    · show pieces ('\\' :: c :: ofPieces rest) = _
      rw [pieces_escaped, ih hrest]
  | plain c t hc ih =>
    rw [pieces_plain hc] at h
    rcases List.sublist_cons_iff.mp h with hps | ⟨rest, rfl, hrest⟩
    · exact ih hps
    · show pieces (c :: ofPieces rest) = _
      rw [pieces_plain hc, ih hrest]

/-! ## Putting pieces in front -/

theorem plain_backslash_not_mem (t : Text) : .plain '\\' ∉ t.pieces := by
  induction t using pieceInduction with
  | nil => exact List.not_mem_nil
  | lone => decide
  | escaped c t ih =>
    rw [pieces_escaped, List.mem_cons, not_or]
    exact ⟨Piece.noConfusion, ih⟩
  | plain c t hc ih =>
    rw [pieces_plain hc, List.mem_cons, not_or]
    exact ⟨fun h => hc (Piece.plain.inj h).symm, ih⟩

/-- A piece of a text is one in front of any other text as well, unless it is a backslash that would
escape what follows. -/
theorem pieces_source_append {p : Piece} {t : Text} (h : p ∈ t.pieces) (hlone : p ≠ .loneBackslash)
    (u : Text) : (p.source ++ u).pieces = p :: u.pieces := by
  cases p with
  | plain c =>
    apply pieces_plain
    rintro rfl
    exact plain_backslash_not_mem t h
  | escaped c => exact pieces_escaped c u
  | loneBackslash => exact absurd rfl hlone

/-- Nothing stands behind a lone backslash. -/
theorem eq_nil_of_loneBackslash {ps : List Piece} {t : Text}
    (h : (.loneBackslash :: ps).Sublist t.pieces) : ps = [] := by
  have hpieces := pieces_ofPieces h
  have hrest := pieces_ofPieces (List.sublist_of_cons_sublist h)
  rw [ofPieces_cons] at hpieces
  cases hu : ofPieces ps with
  | nil =>
    rw [hu] at hrest
    exact hrest.symm
  | cons c u =>
    -- It would escape the character behind it
    rw [hu] at hpieces
    cases (pieces_escaped c u).symm.trans hpieces

/-- Characters other than backslashes are pieces of their own. -/
theorem pieces_plain_append {cs : Text} (h : '\\' ∉ cs) (t : Text) :
    (cs ++ t).pieces = cs.map .plain ++ t.pieces := by
  induction cs with
  | nil => rfl
  | cons c cs ih =>
    rw [List.mem_cons, not_or] at h
    rw [List.cons_append, pieces_plain (Ne.symm h.1), ih h.2]
    rfl

/-! ## White space at the ends -/

theorem pieces_trimStart (t : Text) : (trimStart t).pieces <:+ t.pieces := by
  induction t with
  | nil => exact List.suffix_rfl
  | cons c rest ih =>
    unfold trimStart
    rw [List.dropWhile_cons]
    split
    · rename_i hc
      -- White space is no backslash, so it is a piece
      have hback : c ≠ '\\' := by
        rintro rfl
        exact absurd hc (by decide +kernel)
      rw [pieces_plain hback]
      exact ih.trans (List.suffix_cons _ _)
    · exact List.suffix_rfl

theorem trimEnd_isPrefix (t : Text) : trimEnd t <+: t := by
  have hsuffix : trimStart t.reverse <:+ t.reverse := List.dropWhile_suffix _
  rwa [← List.reverse_prefix, List.reverse_reverse] at hsuffix

theorem trim_isInfix (t : Text) : trim t <:+: t := by
  have hsuffix : trimStart t <:+ t := List.dropWhile_suffix _
  exact (trimEnd_isPrefix _).isInfix.trans hsuffix.isInfix

theorem partOf_trim (t : Text) : PartOf (trim t) t := by
  obtain ⟨ps, hps, htrim⟩ := PartOf.of_isPrefix (trimEnd_isPrefix (trimStart t))
  exact ⟨ps, hps.trans (pieces_trimStart t).isInfix, htrim⟩

end Lexicon.Text
