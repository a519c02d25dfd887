import Lexicon.Dictionary.Open
import Lexicon.Dictionary.Run
import Lexicon.Headword.Escape
import Lexicon.Headword.Optional
import Lexicon.Headword.Unsorted
import Lexicon.Language.Id
import Lexicon.Markup.Article

/-!
# Dumps

A dump lists a dictionary in readable form: what its header says, then for each article the offset
and the variants of its headword, and the text of each line of its body. A line that starts with a
blank belongs to a body, any other one is a headword; lines of white space alone are left out. Lines
that cannot be decoded are passed over with a notice on the error output.

A limit ends the dump before the headword that would exceed it.
-/

namespace Lexicon

/-- A line printed by a dump. -/
inductive Printed where
  | output (line : Text)
  | error (line : Text)
  deriving DecidableEq, Repr

namespace Dump

/-- What a dump is asked to show. -/
structure Options where
  /-- The encoding that the user names. -/
  encoding : Option Text
  /-- Comments are removed before lines are told apart. -/
  stripComments : Bool
  /-- Bodies are left out. -/
  headwordsOnly : Bool
  /-- The most articles to show. -/
  limit : Option Nat
  deriving DecidableEq, Repr

/-- All that a dump prints, in order, and its exit code. -/
structure Report where
  lines : List Printed
  exitCode : Nat
  deriving DecidableEq, Repr

/-! ## Lines of output -/

/-- A number in a given base. -/
def digits (base n : Nat) : Text :=
  Nat.toDigits base n

/-- The rule above and below a dump. -/
def rule : Text :=
  List.replicate 60 '='

/-- What a dump says about a language. -/
def languageText (name : Text) : Text :=
  name ++ " (id ".toList ++ digits 10 (Language.idOfName name) ++ ")".toList

/-- What a dump says before the articles. -/
def headerLines (d : Dictionary) : List Text :=
  [[], "Dictionary Information:".toList,
   "  Name: ".toList ++ d.header.name,
   "  From: ".toList ++ languageText d.header.indexLanguage,
   "  To: ".toList ++ languageText d.header.contentsLanguage,
   "  Encoding: ".toList ++ d.encoding.codecName.toList] ++
  (d.header.soundDictionary.toList.map fun sounds => "  Sound dictionary: ".toList ++ sounds)

/-- The variants of a headword as readers see them. -/
def shownVariants (headword : Text) : List Text :=
  (Headword.variants (Headword.resolveUnsorted true headword)).map fun v =>
    Headword.unescape (Headword.collapseBlanks v)

/-- What a dump says about a headword line. -/
def headwordLines (line : Line) : List Text :=
  [[], "[0x".toList ++ digits 16 line.offset ++ "] ".toList ++
    " | ".toList.intercalate (shownVariants line.text)]

/-- What a dump says about a line of a body. -/
def bodyLine (t : Text) : Text :=
  "    ".toList ++ (Markup.parse (Text.trimStart t)).render false

/-- The notice for a line that is passed over. -/
def skippedLine (failure : Failure) : Text :=
  "  skipping line: ".toList ++ failure.message.toList

/-! ## Articles -/

/-- What a line of a dictionary is. -/
inductive Kind where
  | empty
  | body
  | headword
  deriving DecidableEq, Repr

/-- Tells the lines of a dictionary apart. -/
def kindOf (t : Text) : Kind :=
  if t.all Unicode.isWhiteSpace then .empty
  else if (t.head?.map Text.isBlank).getD false then .body
  else .headword

/-- Whether no more articles are wanted after some. -/
def limitReached (options : Options) (articles : Nat) : Bool :=
  options.limit.any (· ≤ articles)

/-- What is printed for the lines of a dictionary, after the lines in `done` (last first), and the
number of articles, `articles` of which come before them. -/
def articlesAfter (options : Options) (done : List Printed) (articles : Nat) :
    List (Except Failure Line) → List Printed × Except Failure Nat
  | [] => (done.reverse, .ok articles)
  | .error (.undecodable n e) :: rest =>
    articlesAfter options (.error (skippedLine (.undecodable n e)) :: done) articles rest
  | .error failure :: _ => (done.reverse, .error failure)
  | .ok line :: rest =>
    match kindOf line.text with
    | .empty => articlesAfter options done articles rest
    | .body =>
      if options.headwordsOnly then articlesAfter options done articles rest
      else articlesAfter options (.output (bodyLine line.text) :: done) articles rest
    | .headword =>
      -- The limit counts headwords, so the body of the last article is still shown
      if limitReached options articles then (done.reverse, .ok articles)
      else
        articlesAfter options (((headwordLines line).map .output).reverseAux done) (articles + 1)
          rest

/-- What is printed for an open dictionary, and the number of its articles. -/
def dictionaryLines (options : Options) (d : Dictionary) : List Printed × Except Failure Nat :=
  let mode : ReadMode := ⟨options.headwordsOnly, options.stripComments⟩
  let (articles, total) := articlesAfter options [] 0 (d.run mode)
  ((headerLines d).map .output ++ articles, total)

/-! ## The whole dump -/

/-- What a dump says when it is done. -/
def summary (articles : Nat) : List Text :=
  [[], rule, "SUCCESS! ".toList ++ digits 10 articles ++ " article(s) read.".toList]

/-- What a dump says when it fails. -/
def complaint (failure : Failure) : List Text :=
  [[], "ERROR: Failed to read DSL file".toList, "  ".toList ++ failure.message.toList]

/-- The dump of a source with a name; if the source cannot be had, with the reason why. -/
def report (options : Options) (path : String) (source : Except String Source) : Report :=
  let opened := do
    let source ← source.mapError (Failure.cannotOpen path)
    Dictionary.ofSource options.encoding source
  let (lines, total) :=
    match opened with
    | .ok d => dictionaryLines options d
    | .error failure => ([], .error failure)
  let title := ["Reading DSL file: ".toList ++ path.toList, rule].map Printed.output
  match total with
  | .ok articles => ⟨title ++ lines ++ (summary articles).map .output, 0⟩
  | .error failure => ⟨title ++ lines ++ (complaint failure).map .error, 1⟩

end Dump

end Lexicon
