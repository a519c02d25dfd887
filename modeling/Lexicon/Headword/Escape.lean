import Lexicon.Text.Piece

/-!
# Escaping headwords

`escape` protects every character that means something anywhere in the markup, so that the text
reads as itself; `unescape` resolves the escapes again and must therefore come last, after every
step that honours them. `collapseBlanks` brings the blanks of a headword into one form.
-/

namespace Lexicon.Headword

/-- The characters with a meaning somewhere in the markup. -/
def reserved : List Char :=
  ['\\', '[', ']', '{', '}', '(', ')', '<', '>', '~', '^', '@', '#']

/-- One character of an escaped text, with a backslash before it if it is special. -/
def escapeChar (c : Char) : Text :=
  if reserved.contains c then ['\\', c] else [c]

/-- Puts a backslash before every special character. -/
def escape (t : Text) : Text :=
  t.flatMap escapeChar

/-- Resolves the escapes: each pair gives the escaped character, and a backslash at the end of the
text disappears. -/
def unescape (t : Text) : Text :=
  t.pieces.flatMap Piece.literal

/-! ## Blanks -/

/-- Collapses blanks after the characters in `done` (last first); `gap` says that blanks have been
met since the last of them. -/
def collapseAfter (done : Text) (gap : Bool) : Text → Text
  | [] => done.reverse
  | c :: rest =>
    if Text.isBlank c then collapseAfter done (!done.isEmpty) rest
    else collapseAfter (if gap then c :: ' ' :: done else c :: done) false rest

/-- Replaces every run of blanks by a single space and drops the blanks at both ends. -/
def collapseBlanks (t : Text) : Text :=
  collapseAfter [] false t

example : collapseBlanks "  a\t b  ".toList = "a b".toList := by decide

example : unescape (escape "[a]~\\".toList) = "[a]~\\".toList := by decide

end Lexicon.Headword
