import Lexicon.Unicode.WhiteSpace

/-!
# Texts

A text is the list of its characters. Two notions of empty space matter in a dictionary source:
*blanks*, the space and the tab, separate tokens of the format; *white space*, in the sense of
Unicode, is what trimming removes from the ends of a text.
-/

namespace Lexicon

/-- A text: its characters in order. -/
abbrev Text := List Char

namespace Text

/-- The two blanks of the format, space and tab. -/
def isBlank (c : Char) : Bool :=
  c == ' ' || c == '\t'

/-- The text without white space at its start. -/
def trimStart (t : Text) : Text :=
  t.dropWhile Unicode.isWhiteSpace

/-- The text without white space at its end. -/
def trimEnd (t : Text) : Text :=
  (trimStart t.reverse).reverse

/-- The text without white space at its ends. -/
def trim (t : Text) : Text :=
  trimEnd (trimStart t)

/-- The text with the ASCII capitals made small. -/
def asciiLower (t : Text) : Text :=
  t.map Char.toLower

theorem length_trimStart_le (t : Text) : (trimStart t).length ≤ t.length :=
  (List.dropWhile_sublist _).length_le

theorem length_trimEnd_le (t : Text) : (trimEnd t).length ≤ t.length := by
  simpa [trimEnd] using length_trimStart_le t.reverse

/-- Trimming never makes a text longer. -/
theorem length_trim_le (t : Text) : (trim t).length ≤ t.length :=
  Nat.le_trans (length_trimEnd_le _) (length_trimStart_le t)

end Text

end Lexicon
