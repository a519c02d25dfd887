import Lexicon.Encoding.Basic
import Lexicon.Text.Basic

/-!
# Failures

Everything that can go wrong when a dictionary source is opened or read, by cause. The wording of
each is in `Failure.message`. Markup inside an article is never a failure.
-/

namespace Lexicon

/-- Why bytes could not be read. -/
inductive ReadFault where
  /-- Compressed data ended too early. -/
  | unexpectedEnd
  /-- A member of a compressed file does not start with a valid header. -/
  | gzipHeader
  /-- A name or comment in the header of a compressed member is too long. -/
  | gzipField
  /-- The checksum or the length after a compressed member does not fit its contents. -/
  | gzipChecksum
  /-- Compressed data follow no valid format. -/
  | deflate
  /-- The source itself failed. -/
  | source
  deriving DecidableEq, Repr

namespace ReadFault

/-- The wording of a read fault. -/
def message : ReadFault → String
  | unexpectedEnd => "unexpected end of file"
  | gzipHeader => "invalid gzip header"
  | gzipField => "gzip header field too long"
  | gzipChecksum => "corrupt gzip stream does not have a matching checksum"
  | deflate => "corrupt deflate stream"
  | source => "input failed"

end ReadFault

/-- Why a source is no dictionary. -/
inductive Defect where
  | empty
  /-- The first two bytes of the UTF-8 byte-order mark without the third one. -/
  | truncatedMark
  /-- There is nothing after the header. -/
  | noArticles
  deriving DecidableEq, Repr

namespace Defect

/-- The wording of a defect. -/
def message : Defect → String
  | empty => "the stream is empty"
  | truncatedMark => "truncated UTF-8 byte-order mark"
  | noArticles => "the header is not followed by any article"

end Defect

/-- Why a dictionary could not be opened or a line not be read. -/
inductive Failure where
  /-- The file could not be opened; the system says why. -/
  | cannotOpen (path reason : String)
  /-- Reading the source failed. -/
  | unreadable (fault : ReadFault)
  /-- The source is no dictionary. -/
  | unusable (defect : Defect)
  /-- The header names a code page that is not known. -/
  | unknownCodePage (name : Text)
  /-- A line, counted from one, is not valid in the encoding of the source. -/
  | undecodable (line : Nat) (encoding : Encoding)
  /-- The end had been reported before. -/
  | pastEnd
  deriving DecidableEq, Repr

namespace Failure

/-- The wording of a failure. -/
def message : Failure → String
  | cannotOpen path reason => "Can't open .dsl file " ++ path ++ ": " ++ reason
  | unreadable fault => "Can't read .dsl file: " ++ fault.message
  | unusable defect => "The .dsl file is malformed: " ++ defect.message
  | unknownCodePage name =>
    "The .dsl file specified an unknown code page: " ++ String.ofList name
  | undecodable line encoding =>
    "Encoding error on line " ++ toString line ++ ": invalid " ++ encoding.codecName ++
      " byte sequence"
  | pastEnd => "Attempted to read past the end of the .dsl stream"

end Failure

end Lexicon
