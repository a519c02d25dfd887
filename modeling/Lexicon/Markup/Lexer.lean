import Lexicon.Headword.Optional
import Lexicon.Headword.Unsorted
import Lexicon.Markup.Event
import Lexicon.Markup.Glyph

/-!
# Reading an article

The lexer takes an article one character at a time. `feed` turns characters into glyphs, holding
back a character whose reading hangs on the next one; `accept` lets a glyph act on what is being
read: running text, a tag, a link, a comment or a sub-entry. Nothing is an error: an unfinished tag,
link or comment at the end of the text is dropped, an unfinished sub-entry ends there.

* `[name attrs]` and `[/name]` are tags;
* `<<target>>` is a link;
* `@` as the first character of a line, blanks apart, makes the rest of the line a sub-entry;
* `{{…}}` is a comment.
-/

namespace Lexicon.Markup

/-- What is being read. Texts are collected last character first. -/
inductive Mode where
  /-- Running text. -/
  | text
  /-- One `<` in running text. -/
  | angle
  /-- One `{` in running text. -/
  | brace
  /-- The start of a tag, up to its first glyph that is no blank. -/
  | tagStart
  | tagName (closing : Bool) (name : Text)
  /-- The blanks between the name of a tag and its attributes. -/
  | tagGap (closing : Bool) (name : Text)
  | tagAttrs (closing : Bool) (name attrs : Text)
  /-- The blanks between `<<` and the target of a link. -/
  | linkStart
  | link (target : Text)
  /-- One `>` in the target of a link. -/
  | linkAngle (target : Text)
  | comment
  /-- One `}` in a comment. -/
  | commentBrace
  | subEntry (target : Text)
  deriving DecidableEq, Repr

/-- The state of reading an article. -/
structure Lexer where
  /-- Whether an at sign may start a sub-entry. -/
  subEntries : Bool
  /-- A backslash or bracket whose reading hangs on the next character. -/
  held : Option Char
  /-- Whether only blanks have been read on this line. -/
  lineBlank : Bool
  regions : Regions
  mode : Mode
  /-- The running text since the last event, last character first. -/
  pending : Text
  /-- The events so far, last one first. -/
  events : List (Event Target)

namespace Lexer

/-- Nothing has been read. -/
def start (subEntries : Bool) : Lexer :=
  ⟨subEntries, none, true, .outside, .text, [], []⟩

/-! ## Events -/

/-- Makes the running text so far an event, if there is any. -/
def flush (s : Lexer) : Lexer :=
  if s.pending = [] then s
  else { s with pending := [], events := .text s.pending.reverse :: s.events }

/-- Adds events after the running text so far. -/
def emit (s : Lexer) (events : List (Event Target)) : Lexer :=
  let s := s.flush
  { s with events := events.reverseAux s.events }

/-- Continues with something else. -/
def goto (s : Lexer) (mode : Mode) : Lexer :=
  { s with mode }

/-- Adds a character to the running text. -/
def push (s : Lexer) (c : Char) : Lexer :=
  { s with pending := c :: s.pending, mode := .text }

/-- Ends a tag, of which the name and the attributes were collected. -/
def finishTag (s : Lexer) (closing : Bool) (name attrs : Text) : Lexer :=
  let name := name.reverse
  let s := s.emit [if closing then .closing name else .opening name attrs.reverse]
  { s with regions := s.regions.after closing name, mode := .text }

/-- The text to be read for a collected target: without white space at its ends and without
unsorted parts. -/
def targetText (target : Text) : Text :=
  Headword.resolveUnsorted true (Text.trim target.reverse)

/-- Ends a link. -/
def finishLink (s : Lexer) (target : Text) : Lexer :=
  (s.emit [.embed (.link (targetText target))]).goto .text

/-- The headwords of a sub-entry: the variants of its collected target that are not empty. -/
def subEntryVariants (target : Text) : List Text :=
  ((Headword.variants (targetText target)).map Text.trim).filter (· ≠ [])

/-- Ends a sub-entry. -/
def finishSubEntry (s : Lexer) (target : Text) : Lexer :=
  (s.emit ((subEntryVariants target).map fun v => .embed (.subEntry v))).goto .text

/-! ## Glyphs -/

/-- The character that a glyph adds to running text: an escaped space does not break, except in the
name of a media file. -/
def textChar (s : Lexer) (g : Glyph) : Char :=
  if g.escaped ∧ g.char = ' ' ∧ s.regions.media = 0 then '\u00a0' else g.char

/-- Reads a glyph in running text. -/
def readText (s : Lexer) (g : Glyph) : Lexer :=
  if g.isPlain '[' then s.goto .tagStart
  else if g.isPlain '<' then s.goto .angle
  else if g.isPlain '{' then s.goto .brace
  else if g.isPlain '@' && s.subEntries && s.lineBlank then s.goto (.subEntry [])
  else s.push (s.textChar g)

/-- Reads a glyph in the attributes of a tag. -/
def readAttrs (s : Lexer) (closing : Bool) (name attrs : Text) (g : Glyph) : Lexer :=
  if g.isPlain ']' then s.finishTag closing name attrs
  else s.goto (.tagAttrs closing name (g.char :: attrs))

/-- Reads a glyph between the name of a tag and its attributes. -/
def readGap (s : Lexer) (closing : Bool) (name : Text) (g : Glyph) : Lexer :=
  if g.isPlainBlank then s.goto (.tagGap closing name) else s.readAttrs closing name [] g

/-- Reads a glyph in the name of a tag. -/
def readName (s : Lexer) (closing : Bool) (name : Text) (g : Glyph) : Lexer :=
  if g.isPlain ']' || g.isPlainBlank then s.readGap closing name g
  else s.goto (.tagName closing (g.char :: name))

/-- Reads a glyph in the target of a link. -/
def readTarget (s : Lexer) (target : Text) (g : Glyph) : Lexer :=
  if g.isPlain '>' then s.goto (.linkAngle target) else s.goto (.link (g.sourceOnto target))

/-- Reads a glyph. -/
def step (s : Lexer) (g : Glyph) : Lexer :=
  match s.mode with
  | .text => s.readText g
  | .angle => if g.isPlain '<' then s.goto .linkStart else (s.push '<').readText g
  | .brace => if g.isPlain '{' then s.goto .comment else (s.push '{').readText g
  | .tagStart =>
    if Text.isBlank g.char then s
    else if g.isPlain '/' then s.goto (.tagName true [])
    else s.readName false [] g
  | .tagName closing name => s.readName closing name g
  | .tagGap closing name => s.readGap closing name g
  | .tagAttrs closing name attrs => s.readAttrs closing name attrs g
  | .linkStart => if Text.isBlank g.char then s else s.readTarget [] g
  | .link target => s.readTarget target g
  | .linkAngle target =>
    if g.isPlain '>' then s.finishLink target else s.goto (.link (g.sourceOnto ('>' :: target)))
  | .comment => if g.isPlain '}' then s.goto .commentBrace else s
  | .commentBrace => if g.isPlain '}' then s.goto .text else s.goto .comment
  | .subEntry target =>
    if g.isPlain '\n' then s.finishSubEntry target
    else if g.isPlain '\r' then s
    else s.goto (.subEntry (g.sourceOnto target))

/-- Whether only blanks have been read on the line after a glyph. An unescaped line break starts a
new line wherever it stands. -/
def lineBlankAfter (s : Lexer) (g : Glyph) : Bool :=
  g.isPlain '\n' || g.isPlain '\r' || (s.lineBlank && g.isPlainBlank)

/-- Reads a glyph and keeps track of the line. -/
def accept (s : Lexer) (g : Glyph) : Lexer :=
  { s.step g with lineBlank := s.lineBlankAfter g }

/-! ## Characters -/

/-- Takes a character when none is held back. -/
def take (s : Lexer) (c : Char) : Lexer :=
  if s.regions.mustHold c then { s with held := some c } else s.accept ⟨c, false⟩

/-- Whether a held character and the one after it are one escaped glyph. -/
def pairs (s : Lexer) (held next : Char) : Bool :=
  if held = '\\' then s.regions.backslashEscapes next else next == held

/-- Takes a character. -/
def feed (s : Lexer) (c : Char) : Lexer :=
  match s.held with
  | none => s.take c
  | some held =>
    let s := { s with held := none }
    if s.pairs held c then s.accept ⟨c, true⟩ else (s.accept ⟨held, false⟩).take c

/-! ## The end of the text -/

/-- Reads a character still held back as itself. A backslash that would escape is dropped. -/
def release (s : Lexer) : Lexer :=
  match s.held with
  | none => s
  | some held =>
    let s := { s with held := none }
    if held = '\\' ∧ s.regions.media = 0 then s else s.accept ⟨held, false⟩

/-- Ends what is being read. -/
def close (s : Lexer) : Lexer :=
  match s.mode with
  | .angle => s.push '<'
  | .brace => s.push '{'
  | .subEntry target => s.finishSubEntry target
  | _ => s

/-- All events, in order, when the text has ended. -/
def conclude (s : Lexer) : List (Event Target) :=
  s.release.close.flush.events.reverse

end Lexer

/-- The events of an article. Sub-entries are recognised only if `subEntries` says so. -/
def events (subEntries : Bool) (t : Text) : List (Event Target) :=
  (t.foldl Lexer.feed (Lexer.start subEntries)).conclude

end Lexicon.Markup
