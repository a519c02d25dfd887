import Lexicon.Proofs.Encoding.UnitSearch
import Lexicon.Proofs.Source.Delivery

/-!
# Lines of a byte string

Bytes that are all there at once are cut into lines without a buffer: they are taken apart into code
units, and every unit that is a line feed ends a line. A carriage return at the end of a line and the
number sign of a header line are found by the way they are written.

## Key results

- `stretches_eq`: cutting bytes into lines is searching for one line feed after the other
- `stretches_append_of_some`: more bytes leave a line with its line feed as it is
- `Stretch.span_eq`: how far a line reaches
- `eq_nil_of_stretches_eq_cons`: only the last line can lack a terminator
-/

namespace Lexicon

namespace Encoding

/-! ## Code units -/

/-- Bytes in pairs; a byte left over at the end stands alone. -/
def bytePairs : List UInt8 → List (List UInt8)
  | a :: b :: rest => [a, b] :: bytePairs rest
  | [a] => [[a]]
  | [] => []

/-- Bytes cut into code units; bytes at the end that do not fill a unit stand alone. -/
def codeUnits (e : Encoding) (bytes : List UInt8) : List (List UInt8) :=
  match e with
  | utf16 _ => bytePairs bytes
  | _ => bytes.map fun b => [b]

theorem codeUnits_of_lt {e : Encoding} {bytes : List UInt8} (h : bytes.length < e.unitWidth) :
    e.codeUnits bytes = if bytes = [] then [] else [bytes] := by
  rcases cases_of_lt_unitWidth h with rfl | ⟨order, b, rfl, rfl⟩
  · cases e <;> rfl
  · rfl

theorem codeUnits_of_le {e : Encoding} {bytes : List UInt8} (h : e.unitWidth ≤ bytes.length) :
    e.codeUnits bytes = bytes.take e.unitWidth :: e.codeUnits (bytes.drop e.unitWidth) := by
  rcases e with page | _ | order
  · obtain ⟨a, rest, rfl⟩ := List.exists_cons_of_length_pos h; rfl
  · obtain ⟨a, rest, rfl⟩ := List.exists_cons_of_length_pos h; rfl
  · match bytes, h with
    | a :: b :: rest, _ => rfl

end Encoding

/-! ## Lines -/

/-- A line as it stands in a byte string, up to its line feed. -/
structure Stretch where
  bytes : List UInt8
  /-- Whether a line feed ends the line; if not, the end of the bytes does. -/
  terminated : Bool
  deriving DecidableEq, Repr

namespace Stretch

/-- The number of bytes from the start of the line to the next one. -/
def span (e : Encoding) (l : Stretch) : Nat :=
  l.bytes.length + if l.terminated then e.unitWidth else 0

def hasReturn (e : Encoding) (l : Stretch) : Bool :=
  (e.asciiUnit 0x0D).isSuffixOf l.bytes

/-- The line without a carriage return at its end. -/
def content (e : Encoding) (l : Stretch) : List UInt8 :=
  if l.hasReturn e then l.bytes.take (l.bytes.length - e.unitWidth) else l.bytes

def ending? (e : Encoding) (l : Stretch) : Option LineEnding :=
  if l.terminated then some (if l.hasReturn e then .crlf else .lf) else none

def isHeader (e : Encoding) (l : Stretch) : Bool :=
  (e.asciiUnit 0x23).isPrefixOf (l.content e)

/-- Up to the next line there are the content of a line and its terminator. -/
theorem span_eq {e : Encoding} {l : Stretch} {ending : LineEnding}
    (h : l.ending? e = some ending) :
    l.span e = (l.content e).length + ending.byteLength e := by
  unfold ending? at h
  split at h
  · rename_i hterminated
    rw [span, if_pos hterminated, content]
    split at h
    · rename_i hreturn
      cases h
      have hle := (List.isSuffixOf_iff_suffix.mp hreturn).length_le
      rw [Encoding.length_asciiUnit] at hle
      rw [if_pos hreturn, List.length_take, LineEnding.byteLength, LineEnding.units]
      omega
    · rename_i hreturn
      cases h
      rw [if_neg hreturn, LineEnding.byteLength, LineEnding.units, Nat.one_mul]
  · cases h

theorem exists_ending {e : Encoding} {l : Stretch} (h : l.terminated = true) :
    ∃ ending, l.ending? e = some ending := by
  rw [ending?, if_pos h]
  exact ⟨_, rfl⟩

end Stretch

/-- The lines of code units, of which the bytes `line` of the first line have been taken. -/
def stretchesAfter (e : Encoding) (line : List UInt8) : List (List UInt8) → List Stretch
  | [] => if line = [] then [] else [⟨line, false⟩]
  | u :: rest =>
    if u = e.asciiUnit 0x0A then ⟨line, true⟩ :: stretchesAfter e [] rest
    else stretchesAfter e (line ++ u) rest

/-- The lines of some bytes: each ends at a code unit that is a line feed, and what is left at the
end, if anything, is one more line. -/
def stretches (e : Encoding) (bytes : List UInt8) : List Stretch :=
  stretchesAfter e [] (e.codeUnits bytes)

@[simp]
theorem stretches_nil (e : Encoding) : stretches e [] = [] := by
  rcases e with page | _ | order <;> rfl

private theorem take_eq_asciiUnit_iff {e : Encoding} {bytes : List UInt8} (n : UInt8) :
    bytes.take e.unitWidth = e.asciiUnit n ↔ e.firstUnit? bytes = some n.toNat := by
  rw [Encoding.firstUnit?_eq_some_iff, List.prefix_iff_eq_take, Encoding.length_asciiUnit, eq_comm]

private theorem stretchesAfter_codeUnits (e : Encoding) (line bytes : List UInt8) :
    stretchesAfter e line (e.codeUnits bytes) =
      match e.indexOfUnit? Encoding.lineFeedUnit bytes with
      | some i => ⟨line ++ bytes.take i, true⟩ :: stretches e (bytes.drop (i + e.unitWidth))
      | none => if line ++ bytes = [] then [] else [⟨line ++ bytes, false⟩] := by
  -- Unit by unit: each is a line feed, or goes to the line
  induction bytes using Encoding.unitInduction e generalizing line with
  | short bytes hlt =>
    rw [Encoding.codeUnits_of_lt hlt, Encoding.indexOfUnit?_eq_none_of_lt hlt]
    simp only
    split
    · rename_i hnil
      rw [hnil, List.append_nil, stretchesAfter]
    · -- Less than a unit is no line feed
      have hne : bytes ≠ e.asciiUnit 0x0A := by
        intro heq
        rw [heq, Encoding.length_asciiUnit] at hlt
        exact Nat.lt_irrefl _ hlt
      rw [stretchesAfter, if_neg hne, stretchesAfter]
  | unit bytes hle ih =>
    rw [Encoding.codeUnits_of_le hle, Encoding.indexOfUnit?_eq hle, stretchesAfter]
    by_cases hfeed : e.firstUnit? bytes = some Encoding.lineFeedUnit
    · have hunit : bytes.take e.unitWidth = e.asciiUnit 0x0A := (take_eq_asciiUnit_iff 0x0A).mpr hfeed
      rw [if_pos hunit, if_pos hfeed]
      simp [stretches]
    · have hunit : ¬ bytes.take e.unitWidth = e.asciiUnit 0x0A :=
        fun h => hfeed ((take_eq_asciiUnit_iff 0x0A).mp h)
      rw [if_neg hunit, if_neg hfeed, ih]
      have hall : line ++ bytes.take e.unitWidth ++ bytes.drop e.unitWidth = line ++ bytes := by
        rw [List.append_assoc, List.take_append_drop]
      cases e.indexOfUnit? Encoding.lineFeedUnit (bytes.drop e.unitWidth) with
      | none => simp only [Option.map_none, hall]
      | some i =>
        have htake : bytes.take (i + e.unitWidth) =
            bytes.take e.unitWidth ++ (bytes.drop e.unitWidth).take i := by
          rw [Nat.add_comm, List.take_add]
        have hdrop : e.unitWidth + (i + e.unitWidth) = i + e.unitWidth + e.unitWidth := by omega
        simp only [Option.map_some, List.drop_drop]
        rw [List.append_assoc, htake, hdrop]

/-- Cutting bytes into lines is searching for one line feed after the other. -/
theorem stretches_eq (e : Encoding) (bytes : List UInt8) :
    stretches e bytes =
      match e.indexOfUnit? Encoding.lineFeedUnit bytes with
      | some i => ⟨bytes.take i, true⟩ :: stretches e (bytes.drop (i + e.unitWidth))
      | none => if bytes = [] then [] else [⟨bytes, false⟩] :=
  stretchesAfter_codeUnits e [] bytes

/-- What stands behind a line does not change the line. -/
theorem stretches_append_of_some {e : Encoding} {a : List UInt8} {i : Nat}
    (h : e.indexOfUnit? Encoding.lineFeedUnit a = some i) (b : List UInt8) :
    stretches e (a ++ b) = ⟨a.take i, true⟩ :: stretches e (a.drop (i + e.unitWidth) ++ b) := by
  have hle := Encoding.indexOfUnit_le h
  rw [stretches_eq, Encoding.indexOfUnit?_append_of_some h]
  simp only
  rw [List.take_append_of_le_length (by omega), List.drop_append_of_le_length hle]

/-! ## Places -/

/-- A line of a byte string with its place: the number of bytes before it, and its number, counted
from one. -/
structure PlacedStretch extends Stretch where
  offset : Nat
  number : Nat
  deriving DecidableEq, Repr

/-- The bytes of a line without its terminator, and where it starts. -/
def PlacedStretch.physical (e : Encoding) (l : PlacedStretch) : PhysicalLine :=
  ⟨l.content e, l.offset⟩

/-- Lines that follow each other, with their places, given those of the first one. -/
def place (e : Encoding) (offset number : Nat) : List Stretch → List PlacedStretch
  | [] => []
  | l :: rest => ⟨l, offset, number⟩ :: place e (offset + l.span e) (number + 1) rest

/-- Only the last line can lack a terminator. -/
theorem eq_nil_of_stretches_eq_cons {e : Encoding} {bytes : List UInt8} {l : Stretch}
    {rest : List Stretch} (h : stretches e bytes = l :: rest) (hl : l.terminated = false) :
    rest = [] := by
  rw [stretches_eq] at h
  split at h
  · cases h; cases hl
  · split at h
    · cases h
    · cases h; rfl

end Lexicon
