import Lexicon.Encoding.CodePage

/-!
# Encodings

How the text of a dictionary source is written as bytes: in a single-byte code page, in UTF-8, or in
UTF-16 of either byte order. Lines are told apart by code units, which are one or two bytes wide.
-/

namespace Lexicon

/-- The order of the two bytes of a UTF-16 code unit. -/
inductive ByteOrder where
  | little
  | big
  deriving DecidableEq, Repr

/-- A text encoding. -/
inductive Encoding where
  | singleByte (page : CodePage)
  | utf8
  | utf16 (order : ByteOrder)
  deriving DecidableEq, Repr

namespace CodePage

/-- The registered name of a code page. -/
def codecName : CodePage → String
  | latin => "windows-1252"
  | cyrillic => "windows-1251"
  | easternEuropean => "windows-1250"

end CodePage

namespace Encoding

/-- The registered name of an encoding. -/
def codecName : Encoding → String
  | singleByte page => page.codecName
  | utf8 => "UTF-8"
  | utf16 .little => "UTF-16LE"
  | utf16 .big => "UTF-16BE"

/-- The number of bytes of a code unit. -/
def unitWidth : Encoding → Nat
  | utf16 _ => 2
  | _ => 1

/-- Whether the encoding covers all of Unicode. -/
def isUnicode : Encoding → Bool
  | singleByte _ => false
  | _ => true

theorem unitWidth_pos (e : Encoding) : 0 < e.unitWidth := by
  cases e <;> simp [unitWidth]

end Encoding

/-- How the lines of a source end. -/
inductive LineEnding where
  /-- A line feed alone. -/
  | lf
  /-- A carriage return and a line feed. -/
  | crlf
  deriving DecidableEq, Repr

namespace LineEnding

/-- The number of code units at the end of a line. -/
def units : LineEnding → Nat
  | lf => 1
  | crlf => 2

/-- The number of bytes at the end of a line. -/
def byteLength (f : LineEnding) (e : Encoding) : Nat :=
  f.units * e.unitWidth

end LineEnding

end Lexicon
