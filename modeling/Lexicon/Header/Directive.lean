import Lexicon.Text.Basic

/-!
# Header lines

A header line is a number sign, a name and a value in double quotes. The value reaches from the
first quote after the name to the last one of the line, so it may hold quotes itself. Lines with a
name that means nothing here are skipped.
-/

namespace Lexicon

/-- The directives that a header may give. -/
inductive Directive where
  | name
  | indexLanguage
  | contentsLanguage
  | soundDictionary
  | sourceCodePage
  deriving DecidableEq, Repr

namespace Directive

/-- How the directives are written, in capitals. -/
def names : List (Text × Directive) :=
  [("NAME".toList, name), ("INDEX_LANGUAGE".toList, indexLanguage),
   ("CONTENTS_LANGUAGE".toList, contentsLanguage), ("SOUND_DICTIONARY".toList, soundDictionary),
   ("SOURCE_CODE_PAGE".toList, sourceCodePage)]

/-- The directive with a name, in any ASCII case. -/
def ofName? (t : Text) : Option Directive :=
  names.lookup (t.map Char.toUpper)

/-- The characters that make up the name of a directive. -/
def isNameChar (c : Char) : Bool :=
  c.isAlpha || c == '_'

end Directive

/-- What a header line says. -/
inductive HeaderLine where
  /-- A directive with its value. -/
  | setting (directive : Directive) (value : Text)
  /-- A line without a directive, with the name that it has instead. -/
  | other (name : Text)
  /-- A directive without a value in quotes. -/
  | unquoted (directive : Directive)
  deriving DecidableEq, Repr

namespace HeaderLine

/-- The text after the first double quote. -/
def afterQuote? (t : Text) : Option Text :=
  match t.dropWhile (· != '"') with
  | [] => none
  | _ :: rest => some rest

/-- The text between the first and the last double quote. -/
def quoted? (t : Text) : Option Text := do
  let rest ← afterQuote? t
  let value ← afterQuote? rest.reverse
  return value.reverse

/-- Reads a header line. -/
def read : Text → HeaderLine
  | '#' :: line =>
    let name := line.takeWhile Directive.isNameChar
    match Directive.ofName? name with
    | none => other name
    | some directive =>
      match quoted? (line.dropWhile Directive.isNameChar) with
      | some value => setting directive value
      | none => unquoted directive
  | _ => other []

end HeaderLine

end Lexicon
