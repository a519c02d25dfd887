import Lexicon.Dump

/-!
# The command line

`dsl-dump PATH [--encoding LABEL] [--strip-comments] [--headwords-only] [--limit N]` prints the dump
of a dictionary file. The value of an option may also follow it behind an equals sign.
-/

namespace Lexicon.CommandLine

/-- What the command line asks for. -/
structure Arguments where
  path : Option String
  options : Dump.Options

/-- Nothing has been asked for. -/
def start : Arguments := ⟨none, ⟨none, false, false, none⟩⟩

/-- An option and its value, if they stand in one word. -/
def splitOption (word : String) : String × Option String :=
  match word.toList.span (· != '=') with
  | (_, []) => (word, none)
  | (name, _ :: value) => (String.ofList name, some (String.ofList value))

/-- Adds an option with a value. -/
def addValue? (a : Arguments) (name value : String) : Option Arguments :=
  match name with
  | "--encoding" => some { a with options := { a.options with encoding := some value.toList } }
  | "--limit" => do
    let n ← value.toNat?
    return { a with options := { a.options with limit := some n } }
  | _ => none

/-- Adds an option without a value. -/
def addSwitch? (a : Arguments) (name : String) : Option Arguments :=
  match name with
  | "--strip-comments" => some { a with options := { a.options with stripComments := true } }
  | "--headwords-only" => some { a with options := { a.options with headwordsOnly := true } }
  | _ => none

/-- Reads the words of a command line; `none` if they make no sense. -/
def readWords (a : Arguments) : List String → Option Arguments
  | [] => some a
  | word :: rest =>
    if !word.startsWith "--" then
      if a.path.isSome then none else readWords { a with path := some word } rest
    else
      match splitOption word with
      | (name, some value) => do readWords (← addValue? a name value) rest
      | (name, none) =>
        match addSwitch? a name with
        | some a => readWords a rest
        | none =>
          match rest with
          | value :: rest => do readWords (← addValue? a name value) rest
          | [] => none

/-- The reason why a file could not be opened. -/
def reasonOf : IO.Error → String
  | .noFileOrDirectory .. => "No such file or directory (os error 2)"
  | .permissionDenied .. => "Permission denied (os error 13)"
  | e => toString e

/-- Reads a file. -/
def readFile (path : String) : IO (Except String Source) := do
  try
    let bytes ← IO.FS.readBinFile path
    return .ok (Source.ofBytes bytes.size bytes.toList)
  catch e => return .error (reasonOf e)

/-- Prints a line. -/
def printLine : Printed → IO Unit
  | .output line => IO.println (String.ofList line)
  | .error line => IO.eprintln (String.ofList line)

/-- Prints the dump that a command line asks for. -/
def run (words : List String) : IO UInt32 := do
  match readWords start words with
  | some ⟨some path, options⟩ =>
    let report := Dump.report options path (← readFile path)
    report.lines.forM printLine
    return report.exitCode.toUInt32
  | _ =>
    IO.eprintln "usage: dsl-dump PATH [--encoding LABEL] [--strip-comments] [--headwords-only] [--limit N]"
    return 2

end Lexicon.CommandLine

def main (words : List String) : IO UInt32 :=
  Lexicon.CommandLine.run words
