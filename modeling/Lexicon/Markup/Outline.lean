import Lexicon.Markup.Event
import Lexicon.Markup.Node

/-!
# Outlines

An outline is an article tree under construction: the tags still open, and the finished nodes at
the top. Tags need not be closed in order. A closing tag ends the innermost open tag that it
fits; the tags opened after that one are closed too and opened again behind it. Tags in which
nothing stands leave no trace.

Margins, the tags `m`, `m0`, …, `m9`, are outermost: an opening margin ends the margin before it and
is put around all tags that are open.
-/

namespace Lexicon.Markup

/-- Whether a name is that of a margin: `m`, or `m` and one digit. -/
def isMargin : Text → Bool
  | ['m'] => true
  | ['m', d] => d.isDigit
  | _ => false

/-- Whether a closing tag fits an open one; the closing tag of `m` fits every margin. -/
def fits (opened name : Text) : Bool :=
  opened == name || (name == ['m'] && isMargin opened)

/-- The most tags that are open at a time; others are ignored. -/
def depthLimit : Nat := 128

/-- An open tag with the nodes inside it so far, last one first. -/
structure Frame where
  name : Text
  attrs : Text
  children : List Node

namespace Frame

/-- The same tag with nothing inside it. -/
def emptied (f : Frame) : Frame :=
  { f with children := [] }

/-- The finished tag. -/
def toNode (f : Frame) : Node :=
  .tag f.name f.attrs f.children.reverse

end Frame

/-- A tree under construction. -/
structure Outline where
  /-- The open tags, innermost first. -/
  frames : List Frame
  /-- The finished nodes outside all open tags, last one first. -/
  done : List Node

namespace Outline

/-- Nothing has been read. -/
def empty : Outline := ⟨[], []⟩

/-- Adds a node at the end. -/
def add (o : Outline) (n : Node) : Outline :=
  match o.frames with
  | [] => { o with done := n :: o.done }
  | f :: rest => { o with frames := { f with children := n :: f.children } :: rest }

/-- Closes the innermost open tag. -/
def pop (o : Outline) : Outline :=
  match o.frames with
  | [] => o
  | f :: rest =>
    if f.children = [] then { o with frames := rest } else add { o with frames := rest } f.toNode

/-- Closes the innermost `n` open tags. -/
def popMany : Nat → Outline → Outline
  | 0, o => o
  | n + 1, o => popMany n o.pop

/-- Opens tags again, innermost first, with nothing inside them. -/
def resume (o : Outline) (frames : List Frame) : Outline :=
  { o with frames := frames.map Frame.emptied ++ o.frames }

/-- Closes the innermost open tag that a closing tag fits, and opens those inside it again. -/
def endTag (o : Outline) (name : Text) : Outline :=
  -- The tags inside the one that is closed; if they are all, no open tag fits
  let inner := o.frames.takeWhile fun f => !fits f.name name
  if inner.length < o.frames.length then (popMany (inner.length + 1) o).resume inner else o

/-- Opens a tag, a margin outside those already open. -/
def beginTag (o : Outline) (name attrs : Text) : Outline :=
  if isMargin name then
    -- All tags are closed, and opened again inside the margin
    let outer := popMany o.frames.length o
    { outer with frames := [⟨name, attrs, []⟩] }.resume o.frames
  else { o with frames := ⟨name, attrs, []⟩ :: o.frames }

/-- The outline after an opening tag. A line break `br` is a node at once and stays without
contents. -/
def onOpening (o : Outline) (name attrs : Text) : Outline :=
  -- The margin before it ends even where this one is then ignored
  let o := if isMargin name then o.endTag ['m'] else o
  if depthLimit ≤ o.frames.length then o
  else if name = ['b', 'r'] then o.add (.tag name attrs [])
  else o.beginTag name attrs

/-- The outline after an event. -/
def apply (o : Outline) : Event Node → Outline
  | .text t => o.add (.text t)
  | .opening name attrs => o.onOpening name attrs
  | .closing name => o.endTag name
  | .embed n => o.add n

/-- The finished nodes, with all tags closed. -/
def toNodes (o : Outline) : List Node :=
  (popMany o.frames.length o).done.reverse

/-- The nodes that a list of events describes. -/
def nodesOf (events : List (Event Node)) : List Node :=
  (events.foldl apply empty).toNodes

end Outline

end Lexicon.Markup
