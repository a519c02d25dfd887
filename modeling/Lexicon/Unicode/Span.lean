/-!
# Spans of code points

A character property is given as a list of spans: code points from a first to a last one at an
even distance. Alternating alphabets (capital, small, capital, …) are one span of step two.
A case mapping adds the image of the first code point; the others keep their distance to it.
-/

namespace Lexicon.Unicode

/-- The code points `first`, `first + step`, … up to `last`. -/
structure Span where
  first : Nat
  last : Nat
  step : Nat

namespace Span

/-- Whether a code point belongs to the span. -/
def has (s : Span) (c : Nat) : Bool :=
  s.first ≤ c && c ≤ s.last && (c - s.first) % s.step == 0

end Span

/-- A span whose code points are mapped one to one: `first` to `image`, the others by the same
distance. -/
structure CaseSpan extends Span where
  image : Nat

namespace CaseSpan

/-- The image of a code point of the span. -/
def apply (s : CaseSpan) (c : Nat) : Nat :=
  s.image + (c - s.first)

end CaseSpan

end Lexicon.Unicode
