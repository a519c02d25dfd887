import Lexicon.Headword.Escape
import Lexicon.Proofs.Headword.Enumeration
import Lexicon.Proofs.Headword.Tildes
import Lexicon.Proofs.Headword.Unsorted

/-!
# Escaped headwords

Every step that gives a character of a headword a meaning looks for it outside escape pairs. In an
escaped text all reserved characters stand in pairs, and each step looks for reserved characters
only, so it passes the text on as it is.

## Key results

- `pieces_escape`: an escaped text is cut into one piece for each character
- `unescape_escape`: resolving the escapes gives the text back
- `resolveUnsorted_escape`, `variants_escape`, `replaceTildes_escape`: nothing in an escaped text is
  unsorted or optional, or stands for the headword
- `trim_escape`: white space at the ends of an escaped text is that of the text
-/

namespace Lexicon

/-! ## White space at the ends -/

namespace Text

/-- Neither starts nor ends with white space. -/
structure Trimmed (t : Text) : Prop where
  head : ∀ c ∈ t.head?, Unicode.isWhiteSpace c = false
  last : ∀ c ∈ t.getLast?, Unicode.isWhiteSpace c = false

private theorem trimStart_eq {t : Text} (h : ∀ c ∈ t.head?, Unicode.isWhiteSpace c = false) :
    trimStart t = t := by
  cases t with
  | nil => rfl
  | cons c rest =>
    have hc := h c rfl
    rw [trimStart, List.dropWhile_cons, hc]
    rfl

theorem Trimmed.trim_eq {t : Text} (h : t.Trimmed) : trim t = t := by
  have hlast : trimStart t.reverse = t.reverse :=
    trimStart_eq fun c hc => h.last c (by rwa [List.head?_reverse] at hc)
  rw [trim, trimStart_eq h.head, trimEnd, hlast, List.reverse_reverse]

end Text

namespace Headword

/-! ## Pieces of an escaped text -/

/-- The piece that an escaped character is. -/
def escapedPiece (c : Char) : Piece :=
  if reserved.contains c then .escaped c else .plain c

theorem literal_escapedPiece (c : Char) : (escapedPiece c).literal = [c] := by
  unfold escapedPiece
  split
  · rfl
  · rfl

private theorem pieces_escapeChar_append (c : Char) (t : Text) :
    (escapeChar c ++ t).pieces = escapedPiece c :: t.pieces := by
  unfold escapeChar escapedPiece
  split
  · exact Text.pieces_escaped c t
  · rename_i hplain
    have hback : c ≠ '\\' := by
      rintro rfl
      exact hplain (by decide)
    exact Text.pieces_plain hback t

/-- An escaped text is cut into one piece for each character. -/
theorem pieces_escape (t : Text) : (escape t).pieces = t.map escapedPiece := by
  induction t with
  | nil => rfl
  | cons c rest ih =>
    rw [escape, List.flatMap_cons, pieces_escapeChar_append, List.map_cons]
    exact congrArg _ ih

/-- No reserved character of an escaped text stands for itself. -/
theorem plain_not_mem_pieces_escape {c : Char} (hc : reserved.contains c = true) (t : Text) :
    .plain c ∉ (escape t).pieces := by
  rw [pieces_escape, List.mem_map]
  rintro ⟨d, -, hd⟩
  unfold escapedPiece at hd
  split at hd
  · cases hd
  · rename_i hplain
    cases hd
    exact hplain hc

/-! ## Escaped texts -/

/-- Resolving the escapes gives the text back. -/
theorem unescape_escape (t : Text) : unescape (escape t) = t := by
  rw [unescape, pieces_escape, List.flatMap_map]
  simp only [literal_escapedPiece, List.flatMap_singleton']

theorem resolveUnsorted_escape (strip : Bool) (t : Text) :
    resolveUnsorted strip (escape t) = escape t :=
  resolveUnsorted_of_ungrouped strip ⟨plain_not_mem_pieces_escape (by decide) t,
    plain_not_mem_pieces_escape (by decide) t⟩

theorem variants_escape (t : Text) : variants (escape t) = [escape t] :=
  variants_eq_singleton ⟨plain_not_mem_pieces_escape (by decide) t,
    plain_not_mem_pieces_escape (by decide) t⟩

theorem replaceTildes_escape (t headword : Text) :
    replaceTildes (escape t) headword = escape t :=
  replaceTildes_of_not_mem (plain_not_mem_pieces_escape (by decide) t) headword

/-! ## The ends of an escaped text -/

theorem escape_eq_nil_iff {t : Text} : escape t = [] ↔ t = [] := by
  cases t with
  | nil => exact Iff.rfl
  | cons c rest =>
    rw [escape, List.flatMap_cons, escapeChar]
    split <;> simp

private theorem getLast?_escapeChar (c : Char) : (escapeChar c).getLast? = some c := by
  unfold escapeChar
  split
  · rfl
  · rfl

theorem getLast?_escape (t : Text) : (escape t).getLast? = t.getLast? := by
  rcases t.eq_nil_or_concat with rfl | ⟨init, c, rfl⟩
  · rfl
  · rw [List.concat_eq_append, escape, List.flatMap_append, List.flatMap_singleton,
      List.getLast?_append, getLast?_escapeChar, List.getLast?_append]
    rfl

theorem trimmed_escape {t : Text} (h : t.Trimmed) : (escape t).Trimmed where
  head := by
    cases t with
    | nil => exact h.head
    | cons d rest =>
      intro c hc
      rw [escape, List.flatMap_cons, escapeChar] at hc
      split at hc
      · -- A backslash is no white space
        cases hc
        decide +kernel
      · exact h.head c hc
  last := by rw [getLast?_escape]; exact h.last

/-- Escaping brings no white space to the ends of a text. -/
theorem trim_escape {t : Text} (h : t.Trimmed) : Text.trim (escape t) = escape t :=
  (trimmed_escape h).trim_eq

end Headword

end Lexicon
