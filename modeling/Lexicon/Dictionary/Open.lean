import Lexicon.Dictionary.Basic
import Lexicon.Encoding.Decode
import Lexicon.Encoding.Preamble
import Lexicon.Encoding.Label
import Lexicon.Source.Lines

/-!
# Opening dictionaries

Opening settles the encoding and reads the header, which is all lines at the start that begin with a
number sign. The encoding is, in this order, that of a byte-order mark, the one that the user names,
UTF-16 if a zero byte gives it away, the code page that the header names, or UTF-8.

The header is read twice: first in a provisional encoding, to find the name of the code page, and
then in the final one.
-/

namespace Lexicon

namespace Stream

/-- Reads until there are at least `n` bytes or the stream ends. Gives the bytes and what is left. -/
def fill (n : Nat) (buffered : List UInt8) (s : Stream) : Except ReadFault (List UInt8 × Stream) :=
  if n ≤ buffered.length then .ok (buffered, s)
  else
    match _h : s.read buffered.length with
    | (.error fault, _) => .error fault
    | (.ok [], _) => .ok (buffered, exhausted)
    | (.ok (b :: chunk), s) => fill n (buffered ++ b :: chunk) s
termination_by s.size
decreasing_by
  have := size_of_read _h
  simp only [Delivery.length, List.length_cons] at this
  omega

end Stream

namespace Preamble

/-- The preamble with the encoding that a user names, unless a byte-order mark has settled it. A
name that means nothing is ignored. -/
def override (label : Option Text) (p : Preamble) : Preamble :=
  match label.bind Encoding.ofLabel? with
  | some e => if p.markLength = 0 then { p with encoding := e, undecided := false } else p
  | none => p

/-- The final encoding, given the name of the code page in the header. -/
def settle (p : Preamble) (codePageName : Option Text) : Except Failure Encoding :=
  match codePageName with
  | some name =>
    if p.undecided then
      match CodePage.ofLabel? name with
      | some page => .ok (.singleByte page)
      | none => .error (.unknownCodePage name)
    else .ok p.encoding
  | none => .ok p.encoding

end Preamble

/-- The lines of a header, the first line after it, and the stream behind that line. -/
structure Opening where
  header : List PhysicalLine
  first : PhysicalLine
  stream : LineStream

namespace Opening

/-- Reads header lines, after those in `done` (last first), up to the first line that is none. -/
def read (e : Encoding) (done : List PhysicalLine) (s : LineStream) : Except Failure Opening :=
  match _h : s.readLine e with
  | (.error fault, _) => .error (.unreadable fault)
  | (.ok none, _) => .error (.unusable .noArticles)
  | (.ok (some line), s') =>
    if e.firstUnit? line.bytes = some Encoding.headerUnit then read e (line :: done) s'
    else .ok ⟨done.reverse, line, s'⟩
termination_by s.size
decreasing_by
  have := LineStream.readLine_size_lt (congrArg Prod.fst _h)
  rwa [_h] at this

/-- The name of the code page, in a provisional decoding of the header. -/
def codePageName? (e : Encoding) (o : Opening) : Option Text :=
  Header.codePageName? (o.header.map fun line => e.decodeLossy line.bytes)

/-- The texts of lines, after those in `done` (last first), of which the first one has the number
`n`. -/
def decodeLines (e : Encoding) (done : List Text) (n : Nat) :
    List PhysicalLine → Except Failure (List Text)
  | [] => .ok done.reverse
  | line :: rest =>
    match e.decode? line.bytes with
    | some t => decodeLines e (t :: done) (n + 1) rest
    | none => .error (.undecodable n e)

end Opening

namespace Dictionary

/-- Opens a dictionary over a stream, in the encoding that the user names if nothing stronger speaks
against it. -/
def ofStream (label : Option Text) (stream : Stream) : Except Failure Dictionary := do
  let (buffered, stream) ← (stream.fill 4 []).mapError .unreadable
  let found ← (Preamble.ofBytes buffered).mapError .unusable
  let preamble := found.override label
  let mark := found.markLength
  -- The provisional encoding has the unit width of the final one, so the header is cut only once
  let opening ← Opening.read preamble.encoding [] ⟨buffered.drop mark, stream, mark, 0, 0, none⟩
  let encoding ← preamble.settle (opening.codePageName? preamble.encoding)
  let lines ← Opening.decodeLines encoding [] 1 opening.header
  return ⟨encoding, Header.ofLines lines, opening.stream, some opening.first, false, none, false⟩

/-- Opens a dictionary over a source, compressed or not. -/
def ofSource (label : Option Text) (source : Source) : Except Failure Dictionary := do
  ofStream label (← (Stream.ofSource source).mapError .unreadable)

end Dictionary

end Lexicon
