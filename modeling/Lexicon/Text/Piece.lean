import Lexicon.Text.Basic

/-!
# Pieces of marked-up text

A backslash takes the special meaning from the character after it. Everything that honours
escapes first cuts a text into pieces: a character that stands for itself, or an escape pair. A
backslash at the very end of a text escapes nothing and is a piece of its own.

The view is `ofPieces`: putting the pieces together again gives the text (`ofPieces_pieces`).
-/

namespace Lexicon

/-- A unit of reading under backslash escapes. -/
inductive Piece where
  /-- A character outside an escape pair; never a backslash. -/
  | plain (c : Char)
  /-- A backslash and the character that it escapes. -/
  | escaped (c : Char)
  /-- A backslash at the end of the text. -/
  | loneBackslash
  deriving DecidableEq, Repr

namespace Piece

/-- How the piece is written. -/
def source : Piece → Text
  | plain c => [c]
  | escaped c => ['\\', c]
  | loneBackslash => ['\\']

/-- What the piece says when escapes are resolved. -/
def literal : Piece → Text
  | plain c => [c]
  | escaped c => [c]
  | loneBackslash => []

end Piece

namespace Text

/-- The text that a list of pieces spells. -/
def ofPieces (ps : List Piece) : Text :=
  ps.flatMap Piece.source

/-- The pieces of the text, after those in `done` (last first). -/
def piecesAfter (done : List Piece) : Text → List Piece
  | [] => done.reverse
  | ['\\'] => (.loneBackslash :: done).reverse
  | '\\' :: c :: rest => piecesAfter (.escaped c :: done) rest
  | c :: rest => piecesAfter (.plain c :: done) rest

/-- Cuts a text into its pieces. -/
def pieces (t : Text) : List Piece :=
  piecesAfter [] t

/-! ## The text of a list of pieces -/

@[simp] theorem ofPieces_nil : ofPieces [] = [] := rfl

@[simp] theorem ofPieces_cons (p : Piece) (ps : List Piece) :
    ofPieces (p :: ps) = p.source ++ ofPieces ps := rfl

@[simp] theorem ofPieces_append (ps qs : List Piece) :
    ofPieces (ps ++ qs) = ofPieces ps ++ ofPieces qs := by
  simp [ofPieces]

/-! ## Pieces of a longer text -/

/-- The pieces already cut stay in front. -/
theorem piecesAfter_append (more done : List Piece) (t : Text) :
    piecesAfter (done ++ more) t = more.reverse ++ piecesAfter done t := by
  fun_induction piecesAfter done t with
  | case1 done => simp [piecesAfter]
  | case2 done => simp [piecesAfter]
  | case3 done c rest ih => simpa [piecesAfter] using ih
  | case4 done c rest h₁ h₂ ih =>
    rw [piecesAfter.eq_4 _ _ _ h₁ h₂]
    simpa using ih

theorem piecesAfter_eq (done : List Piece) (t : Text) :
    piecesAfter done t = done.reverse ++ pieces t := by
  simpa [pieces] using piecesAfter_append done [] t

@[simp] theorem pieces_nil : pieces [] = [] := rfl

@[simp] theorem pieces_loneBackslash : pieces ['\\'] = [.loneBackslash] := rfl

@[simp] theorem pieces_escaped (c : Char) (rest : Text) :
    pieces ('\\' :: c :: rest) = .escaped c :: pieces rest := by
  simp [pieces, piecesAfter, piecesAfter_eq [.escaped c]]

theorem pieces_plain {c : Char} (h : c ≠ '\\') (rest : Text) :
    pieces (c :: rest) = .plain c :: pieces rest := by
  simp [pieces, piecesAfter, h, piecesAfter_eq [.plain c]]

/-- Putting the pieces of a text together again gives the text. -/
theorem ofPieces_pieces (t : Text) : ofPieces (pieces t) = t := by
  -- Generalised over the pieces already cut
  suffices ∀ done, ofPieces (piecesAfter done t) = ofPieces done.reverse ++ t by
    simpa [pieces] using this []
  intro done
  fun_induction piecesAfter done t with
  | case1 done => simp
  | case2 done => simp [Piece.source]
  | case3 done c rest ih => rw [ih]; simp [Piece.source]
  | case4 done c rest h₁ h₂ ih => rw [ih]; simp [Piece.source]

end Text

end Lexicon
