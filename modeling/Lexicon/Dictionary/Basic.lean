import Lexicon.Header.Basic
import Lexicon.Source.Lines

/-!
# Open dictionaries

A dictionary that has been opened: its encoding and header, and how far its lines have been read.
-/

namespace Lexicon

/-- A line of text and the number of bytes before it in the uncompressed source, the byte-order mark
included. -/
structure Line where
  text : Text
  offset : Nat
  deriving DecidableEq, Repr

/-- A dictionary being read. -/
structure Dictionary where
  encoding : Encoding
  header : Header
  stream : LineStream
  /-- The first line after the header, until it is asked for. -/
  firstLine : Option PhysicalLine
  /-- Whether a comment is open at the end of the line read last. -/
  commentOpen : Bool
  /-- The parts outside comments of lines joined so far, while a comment is open. -/
  joined : Option Line
  /-- Whether the end has been reported. -/
  ended : Bool

namespace Dictionary

/-- The number of physical lines read so far, header lines included. -/
def lineCount (d : Dictionary) : Nat :=
  d.stream.lineCount

/-- The terminator of the first line that had one, a line feed until then. -/
def lineEnding (d : Dictionary) : LineEnding :=
  d.stream.lineEnding.getD .lf

/-- The number of bytes of that many code units. -/
def bytesOf (d : Dictionary) (units : Nat) : Nat :=
  units * d.encoding.unitWidth

/-- How much there is left to read. -/
def size (d : Dictionary) : Nat :=
  d.stream.size + if d.firstLine.isSome then 1 else 0

end Dictionary

end Lexicon
