import Lexicon.Unicode.Span

/-!
# White space

The Unicode property `White_Space`.
-/

namespace Lexicon.Unicode

/-- The code points with the property `White_Space`. -/
def whiteSpaceSpans : List Span :=
  [⟨0x9, 0xD, 1⟩, ⟨0x20, 0x20, 1⟩, ⟨0x85, 0x85, 1⟩, ⟨0xA0, 0xA0, 1⟩, ⟨0x1680, 0x1680, 1⟩,
   ⟨0x2000, 0x200A, 1⟩, ⟨0x2028, 0x2029, 1⟩, ⟨0x202F, 0x202F, 1⟩, ⟨0x205F, 0x205F, 1⟩,
   ⟨0x3000, 0x3000, 1⟩]

/-- Whether a character is white space. -/
def isWhiteSpace (c : Char) : Bool :=
  whiteSpaceSpans.any (·.has c.toNat)

example : isWhiteSpace ' ' = true ∧ isWhiteSpace '\t' = true ∧ isWhiteSpace '\n' = true := by decide +kernel

example : isWhiteSpace '\u00a0' = true ∧ isWhiteSpace '\u200b' = false := by decide +kernel

end Lexicon.Unicode
