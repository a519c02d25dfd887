import Lexicon.Text.Basic

/-!
# Comments

A comment runs from `{{` to the first `}}` after it, possibly over several lines. Comments do not
nest. `strip` works line by line: a flag says whether a comment is open, before the line and after
it.
-/

namespace Lexicon.Comment

/-- What remains of a text after the characters in `done` (last first), and whether a comment is
open at its end; `inside` says whether one is open at its start. -/
def stripAfter (done : Text) (inside : Bool) : Text → Text × Bool
  | [] => (done.reverse, inside)
  | [c] => if inside then (done.reverse, true) else ((c :: done).reverse, false)
  | c :: d :: rest =>
    if inside then
      if c = '}' ∧ d = '}' then stripAfter done false rest else stripAfter done true (d :: rest)
    else if c = '{' ∧ d = '{' then stripAfter done true rest
    else stripAfter (c :: done) false (d :: rest)

/-- Removes the comments of a line. `inside` says whether the line starts inside a comment; the
second component says whether it ends inside one. -/
def strip (inside : Bool) (t : Text) : Text × Bool :=
  stripAfter [] inside t

example : strip false "a\x7b\x7bb\x7d\x7dc\x7b\x7bd".toList = ("ac".toList, true) := by decide

end Lexicon.Comment
