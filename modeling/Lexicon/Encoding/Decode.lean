import Lexicon.Encoding.Decoder
import Lexicon.Encoding.Unit
import Lexicon.Text.Basic

/-!
# Decoding lines

`decode?` reads bytes strictly: one malformed sequence and there is no text. `decodeLossy` puts the
replacement character in place of each malformed sequence. Neither gives a byte-order mark a special
meaning.
-/

namespace Lexicon.Encoding

/-- What some bytes spell: characters, and `none` for each malformed sequence. -/
def items (e : Encoding) (bytes : List UInt8) : List (Option Char) :=
  match e with
  | singleByte page => (Decoder.singleByte page).decode bytes
  | utf8 => Decoder.utf8.decode bytes
  | utf16 order => (Decoder.utf16 order.unit).decode bytes

/-- The text that bytes spell, if they are well-formed. -/
def decode? (e : Encoding) (bytes : List UInt8) : Option Text :=
  let items := e.items bytes
  if items.all Option.isSome then some (items.filterMap id) else none

/-- The text that bytes spell, with U+FFFD for each malformed sequence. -/
def decodeLossy (e : Encoding) (bytes : List UInt8) : Text :=
  (e.items bytes).map (·.getD '\uFFFD')

end Lexicon.Encoding
