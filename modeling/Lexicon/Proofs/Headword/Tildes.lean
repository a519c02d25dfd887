import Lexicon.Headword.Tilde
import Lexicon.Proofs.Text.Pieces

/-!
# Tildes and what stands for them

Replacing tildes puts the pieces of the headword in the place of some pieces of the text and leaves the
others alone. If the headword has no tilde of its own and cuts no escape pair at its end, the result is
cut into just these pieces, so no tilde is left, and none comes up where the headword meets the text.
Flipping the case of the first letter does no harm: no letter has a backslash or a tilde for its other
form.

## Key results

- `Unicode.mem_toLower`, `Unicode.mem_toUpper`: case mappings give marks only for themselves
- `fillInduction`: induction on pieces as the tildes in them are replaced
- `replaceTildes_eq`: the pieces that are put together
- `pieces_replaceTildes`: the result is cut into these pieces
- `replaceTildes_of_not_mem`: without tildes nothing is replaced
- `fillTildes_append`: texts are filled in turn, unless a caret may belong to a tilde behind it
- `replaceTildes_settled`: what all this says about a text and a headword
-/

namespace Lexicon

/-! ## Case mappings -/

namespace Unicode

/-- No code point is mapped to a character. -/
def Avoids (spans : List CaseSpan) (sequences : List (Nat × List Nat)) (d : Char) : Prop :=
  (∀ s ∈ spans, d.toNat < s.image ∨ s.image + (s.last - s.first) < d.toNat) ∧
    ∀ entry ∈ sequences, d ∉ entry.2.map Char.ofNat

instance (spans : List CaseSpan) (sequences : List (Nat × List Nat)) (d : Char) :
    Decidable (Avoids spans sequences d) :=
  inferInstanceAs (Decidable (_ ∧ _))

theorem mem_mapCase {spans : List CaseSpan} {sequences : List (Nat × List Nat)} {c d : Char}
    (havoids : Avoids spans sequences d) (hd : d.toNat ≠ 0) (h : d ∈ mapCase spans sequences c) :
    d = c := by
  unfold mapCase at h
  split at h
  · rename_i s hs
    have hhas := List.find?_some hs
    simp only [Span.has, Bool.and_eq_true, decide_eq_true_eq] at hhas
    have hrange := havoids.1 s (List.mem_of_find?_eq_some hs)
    have himage := List.mem_singleton.mp h
    by_cases hvalid : (s.apply c.toNat).isValidChar
    · have hcode : d.toNat = s.image + (c.toNat - s.first) := by
        rw [himage, Char.ofNat, dif_pos hvalid]
        rfl
      omega
    · -- A number that is no code point gives the character zero
      have hzero : Char.ofNat (s.apply c.toNat) = '\x00' := dif_neg hvalid
      rw [himage, hzero] at hd
      exact absurd rfl hd
  split at h
  · rename_i images hlookup
    obtain ⟨before, after, hentry, -⟩ := List.lookup_eq_some_iff.mp hlookup
    have hmem : (c.toNat, images) ∈ sequences := by
      rw [hentry]
      exact List.mem_append_right _ List.mem_cons_self
    exact absurd h (havoids.2 _ hmem)
  · exact List.mem_singleton.mp h

/-- The characters that mark something in a text with tildes: the backslash and the tilde. -/
def IsMark (d : Char) : Prop :=
  d = '\\' ∨ d = '~'

/-- A mark is a small form of itself only. -/
theorem mem_toLower {c d : Char} (hd : IsMark d) (h : d ∈ toLower c) : d = c := by
  rcases hd with rfl | rfl
  · exact mem_mapCase (by decide +kernel) (by decide) h
  · exact mem_mapCase (by decide +kernel) (by decide) h

/-- A mark is a capital form of itself only. -/
theorem mem_toUpper {c d : Char} (hd : IsMark d) (h : d ∈ toUpper c) : d = c := by
  rcases hd with rfl | rfl
  · exact mem_mapCase (by decide +kernel) (by decide) h
  · exact mem_mapCase (by decide +kernel) (by decide) h

end Unicode

namespace Headword

open Text (Whole ofPieces)

/-! ## The pieces of the result -/

/-- The pieces with others in the place of the tildes. -/
def fillTildes (replacement flipped : List Piece) : List Piece → List Piece
  | [] => []
  | .plain '^' :: .plain '~' :: rest => flipped ++ fillTildes replacement flipped rest
  | .plain '~' :: rest => replacement ++ fillTildes replacement flipped rest
  | p :: rest => p :: fillTildes replacement flipped rest

section

variable {replacement flipped rest : List Piece}

theorem fillTildes_caret :
    fillTildes replacement flipped (.plain '^' :: .plain '~' :: rest) =
      flipped ++ fillTildes replacement flipped rest :=
  rfl

theorem fillTildes_tilde :
    fillTildes replacement flipped (.plain '~' :: rest) =
      replacement ++ fillTildes replacement flipped rest :=
  rfl

theorem fillTildes_other {p : Piece}
    (hcaret : ∀ more, p = .plain '^' → rest = .plain '~' :: more → False) (htilde : p ≠ .plain '~') :
    fillTildes replacement flipped (p :: rest) = p :: fillTildes replacement flipped rest :=
  fillTildes.eq_4 replacement flipped p rest hcaret htilde

/-- Induction on pieces as the tildes in them are replaced. -/
@[elab_as_elim]
theorem fillInduction {motive : List Piece → Prop} (nil : motive [])
    (caret : ∀ rest, motive rest → motive (.plain '^' :: .plain '~' :: rest))
    (tilde : ∀ rest, motive rest → motive (.plain '~' :: rest))
    (other : ∀ p rest, (∀ more, p = .plain '^' → rest = .plain '~' :: more → False) →
      p ≠ .plain '~' → motive rest → motive (p :: rest)) (ps : List Piece) : motive ps :=
  fillTildes.induct motive nil caret tilde other ps

end

theorem tildesAfter_eq (replacement flipped : List Piece) (done : Text) (ps : List Piece) :
    tildesAfter (ofPieces replacement) (ofPieces flipped) done ps =
      done.reverse ++ ofPieces (fillTildes replacement flipped ps) := by
  fun_induction tildesAfter (ofPieces replacement) (ofPieces flipped) done ps with
  | case1 done => exact (List.append_nil _).symm
  | case2 done rest ih =>
    rw [ih, fillTildes_caret, Text.ofPieces_append, List.reverseAux_eq, List.reverse_append,
      List.reverse_reverse, List.append_assoc]
  | case3 done rest ih =>
    rw [ih, fillTildes_tilde, Text.ofPieces_append, List.reverseAux_eq, List.reverse_append,
      List.reverse_reverse, List.append_assoc]
  | case4 done p rest hcaret htilde ih =>
    rw [ih, fillTildes_other hcaret htilde, Text.ofPieces_cons, List.reverseAux_eq,
      List.reverse_append, List.reverse_reverse, List.append_assoc]

/-- The pieces that are put together. -/
theorem replaceTildes_eq (t headword : Text) :
    replaceTildes t headword =
      ofPieces (fillTildes (Text.trim headword).pieces (flipInitial (Text.trim headword)).pieces
        t.pieces) := by
  have h := tildesAfter_eq (Text.trim headword).pieces (flipInitial (Text.trim headword)).pieces []
    t.pieces
  rwa [Text.ofPieces_pieces, Text.ofPieces_pieces] at h

section

variable {replacement flipped ps : List Piece}

theorem fillTildes_of_not_mem (h : .plain '~' ∉ ps) : fillTildes replacement flipped ps = ps := by
  induction ps using fillInduction with
  | nil => rfl
  | caret rest ih => exact absurd (List.mem_cons_of_mem _ List.mem_cons_self) h
  | tilde rest ih => exact absurd List.mem_cons_self h
  | other p rest hcaret htilde ih =>
    rw [fillTildes_other hcaret htilde, ih fun hmem => h (List.mem_cons_of_mem _ hmem)]

theorem not_mem_fillTildes (hreplacement : .plain '~' ∉ replacement)
    (hflipped : .plain '~' ∉ flipped) (ps : List Piece) :
    .plain '~' ∉ fillTildes replacement flipped ps := by
  induction ps using fillInduction with
  | nil => exact List.not_mem_nil
  | caret rest ih =>
    rw [fillTildes_caret]
    exact fun hmem => (List.mem_append.mp hmem).elim hflipped ih
  | tilde rest ih =>
    rw [fillTildes_tilde]
    exact fun hmem => (List.mem_append.mp hmem).elim hreplacement ih
  | other p rest hcaret htilde ih =>
    rw [fillTildes_other hcaret htilde]
    exact fun hmem => (List.mem_cons.mp hmem).elim (fun h => htilde h.symm) ih

/-- Whether a piece is an escape pair. -/
def isPair : Piece → Bool
  | .escaped _ => true
  | _ => false

/-- Escape pairs stay, and they stay in order. -/
theorem sublist_fillTildes (replacement flipped ps : List Piece) :
    (ps.filter isPair).Sublist (fillTildes replacement flipped ps) := by
  induction ps using fillInduction with
  | nil => exact List.nil_sublist _
  | caret rest ih =>
    rw [fillTildes_caret]
    exact ih.trans (List.sublist_append_right _ _)
  | tilde rest ih =>
    rw [fillTildes_tilde]
    exact ih.trans (List.sublist_append_right _ _)
  | other p rest hcaret htilde ih =>
    rw [fillTildes_other hcaret htilde, List.filter_cons]
    split
    · exact ih.cons_cons p
    · exact ih.cons p

/-- Pieces are filled in turn, unless the first ones end in a caret. -/
theorem fillTildes_append (h : ps.getLast? ≠ some (.plain '^')) (qs : List Piece) :
    fillTildes replacement flipped (ps ++ qs) =
      fillTildes replacement flipped ps ++ fillTildes replacement flipped qs := by
  have htail : ∀ {p : Piece} {rest : List Piece}, (p :: rest).getLast? ≠ some (.plain '^') →
      rest.getLast? ≠ some (.plain '^') := by
    intro p rest hlast hrest
    rw [List.getLast?_cons, hrest] at hlast
    exact hlast rfl
  induction ps using fillInduction with
  | nil => rfl
  | caret rest ih =>
    rw [List.cons_append, List.cons_append, fillTildes_caret, fillTildes_caret,
      ih (htail (htail h)), List.append_assoc]
  | tilde rest ih =>
    rw [List.cons_append, fillTildes_tilde, fillTildes_tilde, ih (htail h), List.append_assoc]
  | other p rest hcaret htilde ih =>
    -- A caret in front of a tilde is not the last piece, so the tilde is in `rest`
    have hcaret' : ∀ more, p = .plain '^' → rest ++ qs = .plain '~' :: more → False := by
      intro more hp hmore
      cases rest with
      | nil => exact h (congrArg some hp)
      | cons q rest =>
        rw [(List.cons.inj hmore).1] at hcaret
        exact hcaret rest hp rfl
    rw [List.cons_append, fillTildes_other hcaret' htilde, fillTildes_other hcaret htilde,
      ih (htail h), List.cons_append]

end

/-! ## How the result is cut -/

/-- Whole texts in the place of tildes leave the other pieces as they are. -/
theorem pieces_fillTildes {replacement flipped : Text} (hreplacement : Whole replacement)
    (hflipped : Whole flipped) {ps : List Piece} {t : Text} (h : ps.Sublist t.pieces) :
    (ofPieces (fillTildes replacement.pieces flipped.pieces ps)).pieces =
      fillTildes replacement.pieces flipped.pieces ps := by
  induction ps using fillInduction with
  | nil => rfl
  | caret rest ih =>
    rw [fillTildes_caret, Text.ofPieces_append, Text.ofPieces_pieces, Text.pieces_append hflipped,
      ih (List.sublist_of_cons_sublist (List.sublist_of_cons_sublist h))]
  | tilde rest ih =>
    rw [fillTildes_tilde, Text.ofPieces_append, Text.ofPieces_pieces,
      Text.pieces_append hreplacement, ih (List.sublist_of_cons_sublist h)]
  | other p rest hcaret htilde ih =>
    rw [fillTildes_other hcaret htilde]
    by_cases hlone : p = .loneBackslash
    · -- Nothing comes behind a lone backslash
      subst hlone
      rw [Text.eq_nil_of_loneBackslash h]
      rfl
    · rw [Text.ofPieces_cons, Text.pieces_source_append (h.subset List.mem_cons_self) hlone,
        ih (List.sublist_of_cons_sublist h)]

/-- The headword with its first letter flipped is no less fit to stand for a tilde. -/
theorem flipInitial_fit {r : Text} (hwhole : Whole r) (htilde : .plain '~' ∉ r.pieces) :
    Whole (flipInitial r) ∧ .plain '~' ∉ (flipInitial r).pieces := by
  cases r with
  | nil => exact ⟨hwhole, htilde⟩
  | cons c rest =>
    by_cases hc : c = '\\'
    · -- A backslash has no other form
      subst hc
      have hflip : flipInitial ('\\' :: rest) = '\\' :: rest := by
        have himage : (if Unicode.isUppercase '\\' then Unicode.toLower '\\'
            else Unicode.toUpper '\\') = ['\\'] := by decide +kernel
        rw [flipInitial, himage]
        rfl
      rw [hflip]
      exact ⟨hwhole, htilde⟩
    · rw [Text.pieces_plain hc, List.mem_cons, not_or] at htilde
      rw [Whole, Text.pieces_plain hc, List.mem_cons, not_or] at hwhole
      have hmark : ∀ {d}, Unicode.IsMark d →
          d ∈ (if Unicode.isUppercase c then Unicode.toLower c else Unicode.toUpper c) → d = c := by
        intro d hd hmem
        split at hmem
        · exact Unicode.mem_toLower hd hmem
        · exact Unicode.mem_toUpper hd hmem
      have hback := fun hmem => hc (hmark (.inl rfl) hmem).symm
      rw [Whole, flipInitial, Text.pieces_plain_append hback]
      constructor
      · rw [List.mem_append, not_or]
        exact ⟨by simp, hwhole.2⟩
      · rw [List.mem_append, not_or]
        refine ⟨fun hmem => ?_, htilde.2⟩
        obtain ⟨d, hd, heq⟩ := List.mem_map.mp hmem
        cases heq
        exact htilde.1 (congrArg Piece.plain (hmark (.inr rfl) hd))

/-- The result is cut into the pieces that were put together. -/
theorem pieces_replaceTildes {headword : Text} (hwhole : Whole (Text.trim headword))
    (htilde : .plain '~' ∉ (Text.trim headword).pieces) (t : Text) :
    (replaceTildes t headword).pieces =
      fillTildes (Text.trim headword).pieces (flipInitial (Text.trim headword)).pieces t.pieces := by
  rw [replaceTildes_eq]
  exact pieces_fillTildes hwhole (flipInitial_fit hwhole htilde).1 (List.Sublist.refl t.pieces)

/-- Where no tilde stands for itself, nothing is replaced. -/
theorem replaceTildes_of_not_mem {t : Text} (h : .plain '~' ∉ t.pieces) (headword : Text) :
    replaceTildes t headword = t := by
  rw [replaceTildes_eq, fillTildes_of_not_mem h, Text.ofPieces_pieces]

/-! ## Tildes in a text -/

/-- With a headword that has no tilde of its own and cuts no escape pair at its end, no tilde is left
over, the escape pairs of the text stay in order, and the result is the same for any other headword put
in. A text is filled part by part, unless a part ends inside an escape pair or in a caret. -/
theorem replaceTildes_settled :
    (∀ t headword : Text, Whole (Text.trim headword) → .plain '~' ∉ (Text.trim headword).pieces →
      .plain '~' ∉ (replaceTildes t headword).pieces ∧
      (t.pieces.filter isPair).Sublist (replaceTildes t headword).pieces ∧
      ∀ other, replaceTildes (replaceTildes t headword) other = replaceTildes t headword) ∧
    ∀ a b headword : Text, Whole a → a.pieces.getLast? ≠ some (.plain '^') →
      replaceTildes (a ++ b) headword = replaceTildes a headword ++ replaceTildes b headword := by
  constructor
  · intro t headword hwhole htilde
    have hpieces := pieces_replaceTildes hwhole htilde t
    have hleft : .plain '~' ∉ (replaceTildes t headword).pieces := by
      rw [hpieces]
      exact not_mem_fillTildes htilde (flipInitial_fit hwhole htilde).2 t.pieces
    refine ⟨hleft, ?_, replaceTildes_of_not_mem hleft⟩
    rw [hpieces]
    exact sublist_fillTildes _ _ t.pieces
  · intro a b headword hwhole hcaret
    rw [replaceTildes_eq, replaceTildes_eq, replaceTildes_eq, Text.pieces_append hwhole,
      fillTildes_append hcaret, Text.ofPieces_append]

/-- Carets and tildes in a row, and a headword with an escaped tilde whose first letter has two capitals. -/
theorem replaceTildes_settled_carets :
    let a : Text := "^^~\\~".toList
    let b : Text := "~^\\".toList
    let headword : Text := " ß\\~ ".toList
    (Whole (Text.trim headword) ∧ .plain '~' ∉ (Text.trim headword).pieces) ∧
      (Whole a ∧ a.pieces.getLast? ≠ some (.plain '^')) ∧
      replaceTildes (a ++ b) headword = "^SS\\~\\~ß\\~^\\".toList ∧
      replaceTildes "^SS\\~\\~ß\\~^\\".toList "go".toList = "^SS\\~\\~ß\\~^\\".toList := by
  intro a b headword
  have hwhole : Whole (Text.trim headword) := by decide +kernel
  have htilde : .plain '~' ∉ (Text.trim headword).pieces := by decide +kernel
  have ha : Whole a := by decide +kernel
  have hcaret : a.pieces.getLast? ≠ some (.plain '^') := by decide +kernel
  have hresult : replaceTildes (a ++ b) headword = "^SS\\~\\~ß\\~^\\".toList := by
    rw [replaceTildes_settled.2 a b headword ha hcaret]
    decide +kernel
  obtain ⟨-, -, hagain⟩ := replaceTildes_settled.1 (a ++ b) headword hwhole htilde
  refine ⟨⟨hwhole, htilde⟩, ⟨ha, hcaret⟩, hresult, ?_⟩
  rw [← hresult]
  exact hagain "go".toList

end Headword

end Lexicon
