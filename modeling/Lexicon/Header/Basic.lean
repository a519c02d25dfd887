import Lexicon.Header.Directive

/-!
# Headers

The header of a dictionary collects the values of its header lines. Of several lines with the same
directive the last one counts; the others, and lines without a value, leave no trace.
-/

namespace Lexicon

/-- What the header of a dictionary says. -/
structure Header where
  /-- The name of the dictionary. -/
  name : Text
  /-- The language of the headwords. -/
  indexLanguage : Text
  /-- The language of the articles. -/
  contentsLanguage : Text
  /-- The dictionary that has the sounds for this one. -/
  soundDictionary : Option Text
  deriving DecidableEq, Repr

namespace Header

/-- A header that says nothing. -/
def empty : Header := ⟨[], [], [], none⟩

/-- The header with one more line. The code page is not part of it: it has done its work when the
lines are decoded. -/
def add (h : Header) : HeaderLine → Header
  | .setting .name value => { h with name := value }
  | .setting .indexLanguage value => { h with indexLanguage := value }
  | .setting .contentsLanguage value => { h with contentsLanguage := value }
  | .setting .soundDictionary value => { h with soundDictionary := some value }
  | _ => h

/-- The header that lines of text give. -/
def ofLines (lines : List Text) : Header :=
  (lines.map HeaderLine.read).foldl add empty

/-- The name of the code page in a header line. -/
def codePage? : HeaderLine → Option Text
  | .setting .sourceCodePage value => some value
  | _ => none

/-- The name of the code page that lines of text give. -/
def codePageName? (lines : List Text) : Option Text :=
  ((lines.map HeaderLine.read).filterMap codePage?).getLast?

end Header

end Lexicon
