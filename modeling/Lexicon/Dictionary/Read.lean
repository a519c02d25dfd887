import Lexicon.Comment
import Lexicon.Dictionary.Basic
import Lexicon.Encoding.Decode

/-!
# Reading lines of a dictionary

`next` reads a physical line, `nextJoined` a logical one: with comments removed, and lines joined
over which a comment stays open. A line that cannot be decoded is an error, but it has been read, and
reading goes on behind it. The end is reported once; a read after that is an error.

Where only headwords are wanted, a line that starts with a blank, and so belongs to the body of an
article, is decoded only up to the end of its first token.
-/

namespace Lexicon

/-- How lines are read. -/
structure ReadMode where
  /-- Only headword lines have to be complete. -/
  headwordsOnly : Bool
  /-- Comments are removed. -/
  withoutComments : Bool
  deriving DecidableEq, Repr

/-- The outcome of reading a line; `none` is the end. -/
abbrev LineResult := Except Failure (Option Line)

namespace Dictionary

/-! ## Physical lines -/

/-- The text of the line read last. -/
def decodeLine (headwordsOnly : Bool) (d : Dictionary) (raw : PhysicalLine) : LineResult :=
  let bytes :=
    if headwordsOnly then raw.bytes.take (d.encoding.headwordLength raw.bytes) else raw.bytes
  match d.encoding.decode? bytes with
  | some text => .ok (some ⟨text, raw.offset⟩)
  | none => .error (.undecodable d.lineCount d.encoding)

/-- Reads a physical line, whether or not the end has been reported. -/
def advance (headwordsOnly : Bool) (d : Dictionary) : LineResult × Dictionary :=
  match d.firstLine with
  | some raw => (d.decodeLine headwordsOnly raw, { d with firstLine := none })
  | none =>
    match d.stream.readLine d.encoding with
    | (.error fault, s) => (.error (.unreadable fault), { d with stream := s })
    | (.ok none, s) => (.ok none, { d with stream := s })
    | (.ok (some raw), s) =>
      let d := { d with stream := s }
      (d.decodeLine headwordsOnly raw, d)

/-- Reads a physical line. -/
def next (headwordsOnly : Bool) (d : Dictionary) : LineResult × Dictionary :=
  if d.ended then (.error .pastEnd, d)
  else
    match d.advance headwordsOnly with
    | (.ok none, d) => (.ok none, { d with ended := true })
    | r => r

/-! ## Progress -/

/-- Whether a line has been used up, decodable or not. -/
def usedLine : LineResult → Bool
  | .ok (some _) => true
  | .error (.undecodable ..) => true
  | _ => false

/-- Reading a line uses something up. -/
theorem advance_size_lt {headwordsOnly : Bool} {d : Dictionary}
    (h : usedLine (d.advance headwordsOnly).1 = true) :
    (d.advance headwordsOnly).2.size < d.size := by
  unfold advance at h ⊢
  cases hp : d.firstLine with
  | some raw => simp [size, hp]
  | none =>
    simp only [hp] at h ⊢
    -- Of the three outcomes only a line is used up
    rcases hr : d.stream.readLine d.encoding with ⟨_ | _ | raw, s⟩
    · simp [hr, usedLine] at h
    · simp [hr, usedLine] at h
    · have := LineStream.readLine_size_lt (congrArg Prod.fst hr)
      simpa [hr, size, hp] using this

/-! ## Logical lines -/

/-- Adds a physical line to the lines joined so far. -/
def join (d : Dictionary) (line : Line) : Line :=
  let text := (Comment.strip d.commentOpen line.text).1
  match d.joined with
  | some before => { before with text := before.text ++ text }
  | none => { line with text }

/-- Reads physical lines until no comment is open. At the end of the source a line with an open
comment is given out as far as it goes. -/
def advanceJoined (headwordsOnly : Bool) (d : Dictionary) : LineResult × Dictionary :=
  match _h : d.advance headwordsOnly with
  | (.error failure, d') => (.error failure, d')
  | (.ok none, d') =>
    (.ok d'.joined, { d' with commentOpen := false, joined := none, ended := d'.joined.isNone })
  | (.ok (some line), d') =>
    let joined := d'.join line
    if (Comment.strip d'.commentOpen line.text).2 then
      advanceJoined headwordsOnly { d' with commentOpen := true, joined := some joined }
    else (.ok (some joined), { d' with commentOpen := false, joined := none })
termination_by d.size
decreasing_by
  have : usedLine (d.advance headwordsOnly).1 = true := by rw [_h]; rfl
  have := advance_size_lt this
  rwa [_h] at this

/-- Reads a logical line. -/
def nextJoined (headwordsOnly : Bool) (d : Dictionary) : LineResult × Dictionary :=
  if d.ended then (.error .pastEnd, d) else d.advanceJoined headwordsOnly

/-! ## Runs of lines -/

/-- Reads a line. -/
def read (mode : ReadMode) (d : Dictionary) : LineResult × Dictionary :=
  if mode.withoutComments then d.nextJoined mode.headwordsOnly else d.next mode.headwordsOnly

/-- At most `n` lines and errors, after those in `done` (last first). -/
def takeAfter (mode : ReadMode) (done : List (Except Failure Line)) :
    Nat → Dictionary → List (Except Failure Line) × Dictionary
  | 0, d => (done.reverse, d)
  | n + 1, d =>
    match d.read mode with
    | (.ok (some line), d) => takeAfter mode (.ok line :: done) n d
    | (.ok none, d) => (done.reverse, d)
    | (.error .pastEnd, d) => (done.reverse, d)
    | (.error failure, d) => takeAfter mode (.error failure :: done) n d

/-- The next `n` lines and errors, or those up to the end. Here the end is no error, however often
it is met. -/
def take (mode : ReadMode) (n : Nat) (d : Dictionary) :
    List (Except Failure Line) × Dictionary :=
  takeAfter mode [] n d

end Dictionary

end Lexicon
