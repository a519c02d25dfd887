import Lexicon.Text.Piece
import Lexicon.Unicode.Case

/-!
# Tildes

Inside an article a tilde stands for the headword; `^~` stands for the headword with the case of
its first letter flipped.
-/

namespace Lexicon.Headword

/-- The text with the case of its first letter flipped: a capital becomes small, anything else
becomes a capital where there is one. -/
def flipInitial : Text → Text
  | [] => []
  | c :: rest => (if Unicode.isUppercase c then Unicode.toLower c else Unicode.toUpper c) ++ rest

/-- The text that the pieces give after `done` (last first). -/
def tildesAfter (replacement flipped done : Text) : List Piece → Text
  | [] => done.reverse
  | .plain '^' :: .plain '~' :: rest =>
    tildesAfter replacement flipped (flipped.reverseAux done) rest
  | .plain '~' :: rest => tildesAfter replacement flipped (replacement.reverseAux done) rest
  | p :: rest => tildesAfter replacement flipped (p.source.reverseAux done) rest

/-- Replaces the tildes outside escape pairs by a headword without the white space at its ends. -/
def replaceTildes (t headword : Text) : Text :=
  let replacement := Text.trim headword
  tildesAfter replacement (flipInitial replacement) [] t.pieces

example : replaceTildes "~s, ^~, \\~".toList " go ".toList = "gos, Go, \\~".toList := by
  decide +kernel

end Lexicon.Headword
