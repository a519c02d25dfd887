import Lexicon.Encoding.Basic

/-!
# Code units

Line terminators and blanks are looked for unit by unit, so a byte that only looks like one inside a
wider unit is not taken for it. `indexOfUnit?` searches at multiples of the unit width; bytes at the
end that do not fill a unit match nothing.
-/

namespace Lexicon

namespace ByteOrder

/-- The value of two bytes, in the order in which they stand. -/
def unit : ByteOrder → UInt8 → UInt8 → Nat
  | little, a, b => b.toNat * 256 + a.toNat
  | big, a, b => a.toNat * 256 + b.toNat

end ByteOrder

namespace Encoding

/-- The code unit at the start of some bytes. -/
def firstUnit? : Encoding → List UInt8 → Option Nat
  | utf16 order, a :: b :: _ => some (order.unit a b)
  | utf16 _, _ => none
  | _, a :: _ => some a.toNat
  | _, [] => none

/-- The code unit that starts at an index, which need not be a multiple of the unit width. -/
def unitFrom? (e : Encoding) (bytes : List UInt8) (index : Nat) : Option Nat :=
  e.firstUnit? (bytes.drop index)

/-! ## Searching -/

/-- The index of the first byte with a given value, counted from `index`. -/
def indexOfByte? (target index : Nat) : List UInt8 → Option Nat
  | [] => none
  | a :: rest => if a.toNat = target then some index else indexOfByte? target (index + 1) rest

/-- The index of the first byte pair with a given value, counted from `index`. -/
def indexOfPair? (order : ByteOrder) (target index : Nat) : List UInt8 → Option Nat
  | a :: b :: rest =>
    if order.unit a b = target then some index else indexOfPair? order target (index + 2) rest
  | _ => none

/-- The index of the first code unit with a given value. -/
def indexOfUnit? (e : Encoding) (target : Nat) (bytes : List UInt8) : Option Nat :=
  match e with
  | utf16 order => indexOfPair? order target 0 bytes
  | _ => indexOfByte? target 0 bytes

/-! ## Blanks -/

/-- The line feed, as a code unit. -/
def lineFeedUnit : Nat := 0x0A

/-- The carriage return, as a code unit. -/
def carriageReturnUnit : Nat := 0x0D

/-- The number sign, which starts a header line, as a code unit. -/
def headerUnit : Nat := 0x23

/-- Whether a code unit is a blank. What is too short for a unit is none. -/
def isBlankUnit (u : Option Nat) : Bool :=
  u == some 0x20 || u == some 0x09

/-- The code units of two-byte units after those in `done` (last first); `none` stands for a byte
left over at the end. -/
def pairsAfter (order : ByteOrder) (done : List (Option Nat)) : List UInt8 → List (Option Nat)
  | [] => done.reverse
  | [_] => (none :: done).reverse
  | a :: b :: rest => pairsAfter order (some (order.unit a b) :: done) rest

/-- The code units of some bytes; `none` stands for bytes at the end that do not fill a unit. -/
def units (e : Encoding) (bytes : List UInt8) : List (Option Nat) :=
  match e with
  | utf16 order => pairsAfter order [] bytes
  | _ => bytes.map fun b => some b.toNat

/-- The number of units in the blanks at the start of a line and the token after them. -/
def indentedTokenUnits (us : List (Option Nat)) : Nat :=
  let rest := us.dropWhile isBlankUnit
  (us.takeWhile isBlankUnit).length + (rest.takeWhile (!isBlankUnit ·)).length

/-- The number of bytes that are enough to tell a headword line from a line of an article body: the
whole line if it does not start with a blank, else the blanks at its start and its first token. -/
def headwordLength (e : Encoding) (bytes : List UInt8) : Nat :=
  if isBlankUnit (e.firstUnit? bytes) then
    min (indentedTokenUnits (e.units bytes) * e.unitWidth) bytes.length
  else bytes.length

end Encoding

end Lexicon
