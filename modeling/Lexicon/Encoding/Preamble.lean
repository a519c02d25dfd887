import Lexicon.Failure

/-!
# Preambles

The first bytes of a source tell its encoding: by a byte-order mark, or by a zero byte in what must
then be a UTF-16 code unit. Failing that the source counts as UTF-8, and its header may still name a
code page.
-/

namespace Lexicon

/-- What the first bytes of a source say. -/
structure Preamble where
  encoding : Encoding
  /-- The number of bytes of the byte-order mark, zero if there is none. -/
  markLength : Nat
  /-- Nothing has settled the encoding, so a code page named in the header counts. -/
  undecided : Bool
  deriving DecidableEq, Repr

namespace Preamble

/-- Reads the preamble in the first bytes of a source. -/
def ofBytes (bytes : List UInt8) : Except Defect Preamble :=
  match bytes with
  | [] => .error .empty
  | 0xFF :: 0xFE :: _ => .ok ⟨.utf16 .little, 2, false⟩
  | 0xFE :: 0xFF :: _ => .ok ⟨.utf16 .big, 2, false⟩
  | 0xEF :: 0xBB :: 0xBF :: _ => .ok ⟨.utf8, 3, false⟩
  | 0xEF :: 0xBB :: _ => .error .truncatedMark
  | a :: b :: _ =>
    -- A dictionary starts with ASCII, of which UTF-16 makes a zero byte and another one
    if a ≠ 0 ∧ b = 0 then .ok ⟨.utf16 .little, 0, false⟩
    else if a = 0 ∧ b ≠ 0 then .ok ⟨.utf16 .big, 0, false⟩
    else .ok ⟨.utf8, 0, true⟩
  | [_] => .ok ⟨.utf8, 0, true⟩

end Preamble

end Lexicon
