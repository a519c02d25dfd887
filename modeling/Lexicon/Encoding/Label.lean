import Lexicon.Encoding.Basic
import Lexicon.Text.Basic

/-!
# Labels

The names under which a header or a user asks for an encoding. Letter case and white space around a
name do not matter.
-/

namespace Lexicon

/-- A name without white space at its ends and with small ASCII letters. -/
def Text.folded (t : Text) : Text :=
  Text.asciiLower (Text.trim t)

namespace CodePage

/-- The names of the code pages in a header. -/
def labels : List (Text × CodePage) :=
  [("latin".toList, latin), ("cyrillic".toList, cyrillic),
   ("easterneuropean".toList, easternEuropean)]

/-- The code page that a header names. -/
def ofLabel? (label : Text) : Option CodePage :=
  labels.lookup (Text.folded label)

end CodePage

namespace Encoding

/-- The names of encodings, code pages in a header apart. -/
def labels : List (Text × Encoding) :=
  [("utf-8".toList, utf8), ("utf8".toList, utf8),
   ("utf-16le".toList, utf16 .little), ("utf16le".toList, utf16 .little),
   ("utf-16".toList, utf16 .little), ("unicode".toList, utf16 .little),
   ("utf-16be".toList, utf16 .big), ("utf16be".toList, utf16 .big),
   ("windows-1252".toList, singleByte .latin), ("cp1252".toList, singleByte .latin),
   ("latin1".toList, singleByte .latin),
   ("windows-1251".toList, singleByte .cyrillic), ("cp1251".toList, singleByte .cyrillic),
   ("windows-1250".toList, singleByte .easternEuropean),
   ("cp1250".toList, singleByte .easternEuropean)]

/-- The encoding that a label names: a code page as in a header, or one of `labels`. -/
def ofLabel? (label : Text) : Option Encoding :=
  match CodePage.ofLabel? label with
  | some page => some (singleByte page)
  | none => labels.lookup (Text.folded label)

end Encoding

end Lexicon
