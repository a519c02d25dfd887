import Lexicon.Text.Basic

/-!
# Glyphs and regions

A glyph is a character of an article as the markup reads it: either with its meaning in the markup,
or escaped. Which characters escape depends on two kinds of region. Inside a transcription, the tag
`t`, a doubled bracket stands for the bracket itself. Inside a media name, the tag `s`, a backslash
is a character of a file name, unless a bracket or another backslash follows.
-/

namespace Lexicon.Markup

/-- A character together with whether it is escaped. -/
structure Glyph where
  char : Char
  escaped : Bool
  deriving DecidableEq, Repr

namespace Glyph

/-- Whether the glyph is the unescaped character `c`. -/
def isPlain (g : Glyph) (c : Char) : Bool :=
  !g.escaped && g.char == c

/-- Whether the glyph is an unescaped blank. -/
def isPlainBlank (g : Glyph) : Bool :=
  !g.escaped && Text.isBlank g.char

/-- The glyph written as text that reads as the same glyph outside all regions: an escaped one with
its backslash. Last character first, on top of `done`. -/
def sourceOnto (g : Glyph) (done : Text) : Text :=
  if g.escaped then g.char :: '\\' :: done else g.char :: done

end Glyph

/-- How many transcription and media tags are open, as far as their brackets tell. -/
structure Regions where
  transcription : Nat
  media : Nat
  deriving DecidableEq, Repr

namespace Regions

/-- Outside all regions. -/
def outside : Regions := ⟨0, 0⟩

/-- One more for an opening tag, one less for a closing one, but never below zero. -/
def shift (closing : Bool) (n : Nat) : Nat :=
  if closing then n - 1 else n + 1

/-- The regions after an opening or closing tag. -/
def after (r : Regions) (closing : Bool) (name : Text) : Regions where
  transcription := if name = ['t'] then shift closing r.transcription else r.transcription
  media := if name = ['s'] then shift closing r.media else r.media

/-- Whether a backslash escapes the character after it. -/
def backslashEscapes (r : Regions) (next : Char) : Bool :=
  r.media == 0 || next == '[' || next == ']' || next == '\\'

/-- Whether a character cannot be read before the one after it is known: a backslash always, a
bracket inside a transcription. -/
def mustHold (r : Regions) (c : Char) : Bool :=
  c == '\\' || (r.transcription != 0 && (c == '[' || c == ']'))

end Regions

end Lexicon.Markup
