import Lexicon.Language.Table
import Lexicon.Unicode.Alphanumeric
import Lexicon.Unicode.Case

/-!
# Language numbers

A language is known by a number that packs the two letters of its code, the first in the low byte;
zero means an unknown language. Header values name languages loosely: letter case and anything that
is neither letter nor number are ignored, and a name may carry a suffix that tells a spelling or
sorting variant.
-/

namespace Lexicon.Language

/-- An ASCII capital made small; other bytes stay as they are. -/
def lowerByte (b : UInt8) : UInt8 :=
  if 0x41 ≤ b ∧ b ≤ 0x5A then b + 0x20 else b

/-- The number of a code: of a text of two bytes in UTF-8, and zero for any other. -/
def idOfCode (code : Text) : Nat :=
  match code.flatMap String.utf8EncodeChar with
  | [a, b] => (lowerByte a).toNat + 256 * (lowerByte b).toNat
  | _ => 0

/-- The code with a number, if the table has it. -/
def codeOfId? (id : Nat) : Option Text :=
  (all.find? fun language => idOfCode language.code == id).map (·.code)

/-- The code for a Windows locale identifier. -/
def codeOfLocale? (locale : Nat) : Option Text :=
  (all.find? fun language => language.locale == some locale).map (·.code)

/-! ## Names -/

/-- The letters and numbers of a name, in small form. -/
def foldName (name : Text) : Text :=
  (name.filter Unicode.isAlphanumeric).flatMap Unicode.toLower

/-- The language with a folded name or code. -/
def find? (folded : Text) : Option Language :=
  all.find? fun language => language.code == folded || language.names.contains folded

/-- The suffixes for spelling and sorting variants. -/
def suffixes : List Text :=
  ["newspelling".toList, "standard".toList, "modernsort".toList, "traditionalsort".toList,
   "prc".toList]

/-- A text without a suffix that it ends with. -/
def stripSuffix? (t suffix : Text) : Option Text :=
  if suffix.isSuffixOf t then some (t.take (t.length - suffix.length)) else none

/-- The language with a folded name that carries a suffix. The first suffix that the name ends with
is the one that counts. -/
def findVariant? (folded : Text) : Option Language := do
  let stem ← suffixes.findSome? (stripSuffix? folded)
  if stem = [] then none else find? stem

/-- The language that a header value names. -/
def ofName? (name : Text) : Option Language :=
  let folded := foldName name
  if folded = [] then none else (find? folded).or (findVariant? folded)

/-- The number of the language that a header value names; zero if it is unknown. -/
def idOfName (name : Text) : Nat :=
  match ofName? name with
  | some language => idOfCode language.code
  | none => 0

example : idOfName "German (New Spelling)".toList = idOfCode "de".toList := by decide +kernel

end Lexicon.Language
