import Lexicon.Proofs.Encoding.Spelled

/-!
# Headword parts

A line that starts with a blank belongs to the body of an article; only the blanks at its start and
its first token are of interest to a reader of headwords. The bytes of a line are cut there before
they are decoded, at a code unit; the text is cut there at a character, and that is the same cut.

## Key results

- `Text.headwordPart`: what is kept of a line
- `Encoding.decode?_take_headwordLength`: the part of a line that is decoded is its headword part
-/

namespace Lexicon

/-! ## Up to the end of the first token -/

section Token

variable {α β : Type} {f : α → List β} {p : α → Bool} {q : β → Bool}

/-- The blanks at the start of a list and the token after them. -/
def throughToken (p : α → Bool) (l : List α) : List α :=
  l.takeWhile p ++ (l.dropWhile p).takeWhile (!p ·)

theorem throughToken_prefix (p : α → Bool) (l : List α) : throughToken p l <+: l := by
  refine ⟨(l.dropWhile p).dropWhile (!p ·), ?_⟩
  rw [throughToken, List.append_assoc, List.takeWhile_append_dropWhile,
    List.takeWhile_append_dropWhile]

theorem throughToken_map (p : β → Bool) (g : α → β) (l : List α) :
    throughToken p (l.map g) = (throughToken (p ∘ g) l).map g := by
  rw [throughToken, List.takeWhile_map, List.dropWhile_map, List.takeWhile_map, ← List.map_append]
  rfl

variable (hne : ∀ a, f a ≠ []) (hsame : ∀ a, ∀ b ∈ f a, q b = p a)
include hne hsame

/-- Blocks that pass a test as a whole or not at all are taken as a whole. -/
private theorem takeWhile_blocks (l : List α) :
    (l.flatMap f).takeWhile q = (l.takeWhile p).flatMap f := by
  induction l with
  | nil => rfl
  | cons a l ih =>
    rw [List.flatMap_cons]
    cases hp : p a with
    | true =>
      rw [List.takeWhile_append_of_pos fun b hb => (hsame a b hb).trans hp, ih,
        List.takeWhile_cons_of_pos hp, List.flatMap_cons]
    | false =>
      obtain ⟨b, rest, hb⟩ := List.exists_cons_of_ne_nil (hne a)
      have hq : ¬ q b = true := by
        rw [hsame a b (hb ▸ List.mem_cons_self), hp]
        exact Bool.false_ne_true
      rw [hb, List.cons_append, List.takeWhile_cons_of_neg hq,
        List.takeWhile_cons_of_neg (Bool.eq_false_iff.mp hp), List.flatMap_nil]

private theorem dropWhile_blocks (l : List α) :
    (l.flatMap f).dropWhile q = (l.dropWhile p).flatMap f := by
  have hall : (l.flatMap f).takeWhile q ++ (l.flatMap f).dropWhile q =
      (l.takeWhile p).flatMap f ++ (l.dropWhile p).flatMap f := by
    rw [List.takeWhile_append_dropWhile, ← List.flatMap_append, List.takeWhile_append_dropWhile]
  rw [takeWhile_blocks hne hsame] at hall
  exact List.append_cancel_left hall

/-- Where each block is blank as a whole or not at all, the end of the first token is the end of a
block. -/
theorem throughToken_blocks (l : List α) :
    throughToken q (l.flatMap f) = (throughToken p l).flatMap f := by
  have hother : ∀ a, ∀ b ∈ f a, (!q b) = !p a := by
    intro a b hb
    rw [hsame a b hb]
  rw [throughToken, takeWhile_blocks hne hsame, dropWhile_blocks hne hsame,
    takeWhile_blocks hne hother, ← List.flatMap_append]
  rfl

end Token

/-- What tells a headword line from a line of an article body: a line that starts with a blank up to
the end of its first token, any other line as a whole. -/
def Text.headwordPart (t : Text) : Text :=
  if t.head?.any isBlank then throughToken isBlank t else t

/-! ## Cutting bytes -/

namespace Encoding

variable {e : Encoding}

private theorem indentedTokenUnits_eq (us : List (Option Nat)) :
    indentedTokenUnits us = (throughToken isBlankUnit us).length :=
  List.length_append.symm

/-- The units up to the end of the first token are those of the characters up to there. -/
private theorem indentedTokenUnits_spelling (l : List e.Spelled) :
    indentedTokenUnits (e.units (Spelled.spelling l)) * e.unitWidth =
      (Spelled.spelling (throughToken (Text.isBlank ·.char) l)).length := by
  have hblank : ∀ s : e.Spelled, ∀ u ∈ e.units s.bytes, isBlankUnit u = Text.isBlank s.char :=
    fun s u => s.isBlankUnit_eq
  rw [indentedTokenUnits_eq, Spelled.units_spelling,
    throughToken_blocks Spelled.units_ne_nil hblank, ← Spelled.units_spelling,
    length_units (Spelled.whole_spelling _)]

private theorem isBlankUnit_firstUnit? (s : e.Spelled) (l : List e.Spelled) :
    isBlankUnit (e.firstUnit? (Spelled.spelling (s :: l))) = Text.isBlank s.char := by
  have hwidth : e.unitWidth ≤ s.bytes.length :=
    Nat.le_of_dvd (List.length_pos_iff.mpr s.bytes_ne_nil) (Nat.dvd_of_mod_eq_zero s.whole)
  have htake : e.firstUnit? (s.bytes.take e.unitWidth) = e.firstUnit? s.bytes := by
    have hle : e.unitWidth ≤ (s.bytes.take e.unitWidth).length := by
      rw [List.length_take]
      omega
    rw [← firstUnit?_append hle (s.bytes.drop e.unitWidth), List.take_append_drop]
  have hfirst : e.firstUnit? s.bytes ∈ e.units s.bytes := by
    rw [units_eq, codeUnits_of_le hwidth, List.map_cons, htake]
    exact List.mem_cons_self
  show isBlankUnit (e.firstUnit? (s.bytes ++ Spelled.spelling l)) = _
  rw [firstUnit?_append hwidth, s.isBlankUnit_eq hfirst]

/-- Bytes cut behind their first token spell the text cut there. -/
theorem decode?_take_headwordLength {bytes : List UInt8} {t : Text} (h : e.decode? bytes = some t) :
    e.decode? (bytes.take (e.headwordLength bytes)) = some t.headwordPart := by
  obtain ⟨l, rfl, rfl⟩ := decode?_eq_some_iff.mp h
  cases l with
  | nil =>
    show e.decode? (List.take _ []) = some []
    rw [List.take_nil]
    exact h
  | cons s l =>
    have hhead : (Spelled.text (s :: l)).head?.any Text.isBlank = Text.isBlank s.char := rfl
    rw [headwordLength, isBlankUnit_firstUnit?, Text.headwordPart, hhead]
    cases Text.isBlank s.char with
    | false => rwa [if_neg Bool.false_ne_true, if_neg Bool.false_ne_true, List.take_length]
    | true =>
      -- Both cuts stand behind the same spelled character
      obtain ⟨rest, hrest⟩ := throughToken_prefix (Text.isBlank ·.char) (s :: l)
      have hsplit : Spelled.spelling (s :: l) =
          Spelled.spelling (throughToken (Text.isBlank ·.char) (s :: l)) ++
            Spelled.spelling rest := by
        rw [Spelled.spelling, Spelled.spelling, Spelled.spelling, ← List.flatMap_append, hrest]
      rw [if_pos rfl, if_pos rfl, indentedTokenUnits_spelling, decode?_eq_some_iff]
      refine ⟨throughToken (Text.isBlank ·.char) (s :: l), ?_, ?_⟩
      · rw [Spelled.text, Spelled.text, throughToken_map]
        rfl
      · have hle : (Spelled.spelling (throughToken (Text.isBlank ·.char) (s :: l))).length ≤
            (Spelled.spelling (s :: l)).length := by
          rw [hsplit, List.length_append]
          exact Nat.le_add_right _ _
        rw [Nat.min_eq_left hle, hsplit, List.take_left]

end Encoding

end Lexicon
