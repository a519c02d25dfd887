import Lexicon.Text.Piece

/-!
# Unsorted parts

A part of a headword in curly braces is shown but does not take part in sorting and search.
`resolveUnsorted` removes the braces, with `strip` together with what stands in them. Braces nest;
a closing brace without an opening one is removed as well, and an opening brace that is never
closed reaches to the end of the text.
-/

namespace Lexicon.Headword

/-- The pieces that remain after those in `done` (last first), inside `depth` open braces. -/
def unsortedAfter (strip : Bool) (depth : Nat) (done : List Piece) : List Piece → List Piece
  | [] => done.reverse
  | .plain '{' :: rest => unsortedAfter strip (depth + 1) done rest
  | .plain '}' :: rest => unsortedAfter strip (depth - 1) done rest
  | p :: rest =>
    -- An escaped brace comes here too: it neither opens nor closes a part
    unsortedAfter strip depth (if depth = 0 ∨ strip = false then p :: done else done) rest

/-- Removes the braces around unsorted parts, with `strip` also the parts themselves. -/
def resolveUnsorted (strip : Bool) (t : Text) : Text :=
  Text.ofPieces (unsortedAfter strip 0 [] t.pieces)

/-! ## Length -/

private theorem length_unsortedAfter_le (strip : Bool) (depth : Nat) (done ps : List Piece) :
    (Text.ofPieces (unsortedAfter strip depth done ps)).length ≤
      (Text.ofPieces done.reverse).length + (Text.ofPieces ps).length := by
  fun_induction unsortedAfter strip depth done ps with
  | case1 => simp
  | case2 depth done rest ih => simp at ih ⊢; omega
  | case3 depth done rest ih => simp at ih ⊢; omega
  | case4 depth done p rest h₁ h₂ ih =>
    -- The piece is kept or dropped; its own length covers both
    refine Nat.le_trans ih ?_
    split
    · simp; omega
    · simp

/-- Resolving unsorted parts never makes a text longer. -/
theorem length_resolveUnsorted_le (strip : Bool) (t : Text) :
    (resolveUnsorted strip t).length ≤ t.length := by
  have h := length_unsortedAfter_le strip 0 [] t.pieces
  simpa [resolveUnsorted, Text.ofPieces_pieces] using h

example : resolveUnsorted true "\x7bto \x7dgo".toList = "go".toList := by decide

example : resolveUnsorted false "\x7bto \x7dgo\x7d".toList = "to go".toList := by decide

end Lexicon.Headword
