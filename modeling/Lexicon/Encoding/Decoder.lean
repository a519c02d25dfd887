import Lexicon.Encoding.Basic

/-!
# Decoders

A decoder takes bytes one at a time and gives out what they spell: characters, and `none` for each
sequence of bytes that spells nothing. A byte may end a malformed sequence and be read again as the
start of the next one, so one byte may give several items.

The three decoders follow the Encoding Standard: in UTF-8 a malformed sequence is as long as it can
be the start of a character.
-/

namespace Lexicon

/-- What a byte gives: the items it completes and the state after it. -/
structure Decoded (σ : Type) where
  items : List (Option Char)
  state : σ

/-- A machine that decodes bytes. -/
structure Decoder (σ : Type) where
  /-- The state between characters. -/
  start : σ
  step : σ → UInt8 → Decoded σ
  /-- What remains to be said at the end of the bytes. -/
  finish : σ → List (Option Char)

namespace Decoder

variable {σ : Type}

/-- Decodes bytes from a state; `done` holds the items before them, last first. -/
def decodeAfter (d : Decoder σ) (done : List (Option Char)) (s : σ) :
    List UInt8 → List (Option Char)
  | [] => ((d.finish s).reverseAux done).reverse
  | b :: rest => decodeAfter d ((d.step s b).items.reverseAux done) (d.step s b).state rest

/-- Decodes bytes. -/
def decode (d : Decoder σ) (bytes : List UInt8) : List (Option Char) :=
  decodeAfter d [] d.start bytes

/-! ## Single bytes -/

/-- The decoder of a code page: every byte is a character. -/
def singleByte (page : CodePage) : Decoder Unit where
  start := ()
  step _ b := ⟨[some (page.char b)], ()⟩
  finish _ := []

end Decoder

/-! ## UTF-8 -/

/-- Where UTF-8 is being read: between characters, or inside one with `missing` more bytes to come,
the next of them between `low` and `high`, and the bits so far in `bits`. -/
inductive Utf8State where
  | start
  | inside (missing low high bits : Nat)
  deriving DecidableEq, Repr

namespace Utf8State

/-- Reads the first byte of a character. Bytes that would only start an overlong form or something
past the last code point are malformed at once or narrow down the byte after them. -/
def first (b : Nat) : Decoded Utf8State :=
  if b < 0x80 then ⟨[some (Char.ofNat b)], start⟩
  else if 0xC2 ≤ b ∧ b ≤ 0xDF then ⟨[], inside 1 0x80 0xBF (b - 0xC0)⟩
  else if 0xE0 ≤ b ∧ b ≤ 0xEF then
    ⟨[], inside 2 (if b = 0xE0 then 0xA0 else 0x80) (if b = 0xED then 0x9F else 0xBF) (b - 0xE0)⟩
  else if 0xF0 ≤ b ∧ b ≤ 0xF4 then
    ⟨[], inside 3 (if b = 0xF0 then 0x90 else 0x80) (if b = 0xF4 then 0x8F else 0xBF) (b - 0xF0)⟩
  else ⟨[none], start⟩

/-- Reads a byte. One that cannot continue the character ends a malformed sequence and starts
afresh. -/
def step (s : Utf8State) (b : Nat) : Decoded Utf8State :=
  match s with
  | start => first b
  | inside missing low high bits =>
    if low ≤ b ∧ b ≤ high then
      let bits := bits * 64 + (b - 0x80)
      if missing = 1 then ⟨[some (Char.ofNat bits)], start⟩
      else ⟨[], inside (missing - 1) 0x80 0xBF bits⟩
    else ⟨none :: (first b).items, (first b).state⟩

end Utf8State

namespace Decoder

/-- The UTF-8 decoder. -/
def utf8 : Decoder Utf8State where
  start := .start
  step s b := s.step b.toNat
  finish
    | .start => []
    | .inside .. => [none]

end Decoder

/-! ## UTF-16 -/

/-- Where UTF-16 is being read. -/
structure Utf16State where
  /-- The first byte of a code unit, without the second one yet. -/
  byte : Option UInt8
  /-- The first half of a surrogate pair, without the second one yet. -/
  lead : Option Nat
  deriving DecidableEq, Repr

namespace Utf16State

/-- The state between characters. -/
def start : Utf16State := ⟨none, none⟩

/-- Whether a code unit is the first half of a surrogate pair. -/
def isLead (u : Nat) : Bool :=
  0xD800 ≤ u && u ≤ 0xDBFF

/-- Whether a code unit is the second half of a surrogate pair. -/
def isTrail (u : Nat) : Bool :=
  0xDC00 ≤ u && u ≤ 0xDFFF

/-- Reads a code unit with no surrogate before it. -/
def first (u : Nat) : Decoded Utf16State :=
  if isLead u then ⟨[], ⟨none, some u⟩⟩
  else if isTrail u then ⟨[none], start⟩
  else ⟨[some (Char.ofNat u)], start⟩

/-- Reads a code unit. A first half without its second one is malformed. -/
def stepUnit (lead : Option Nat) (u : Nat) : Decoded Utf16State :=
  match lead with
  | none => first u
  | some l =>
    if isTrail u then
      ⟨[some (Char.ofNat (0x10000 + (l - 0xD800) * 0x400 + (u - 0xDC00)))], start⟩
    else ⟨none :: (first u).items, (first u).state⟩

end Utf16State

namespace Decoder

/-- The UTF-16 decoder; `unit` combines the two bytes of a code unit. -/
def utf16 (unit : UInt8 → UInt8 → Nat) : Decoder Utf16State where
  start := .start
  step s b :=
    match s.byte with
    | none => ⟨[], { s with byte := some b }⟩
    | some a => Utf16State.stepUnit s.lead (unit a b)
  finish s := if s = .start then [] else [none]

end Decoder

end Lexicon
