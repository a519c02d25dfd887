import Lexicon.Text.Basic

/-!
# Article trees

An article is a list of nodes: runs of text, and tags around further nodes. `Node.render` writes
the text of a node without its markup, with or without the transcriptions in it.
-/

namespace Lexicon.Markup

/-- A node of an article. -/
inductive Node where
  /-- A run of text. -/
  | text (t : Text)
  /-- A tag: its name, all that was written between the name and the closing bracket, and the
  nodes inside it. -/
  | tag (name attrs : Text) (children : List Node)
  deriving Repr

/-- The names of the tags whose contents are a transcription: `t`, and `!trs` for what is kept out
of the index. -/
def transcriptionNames : List Text :=
  ["t".toList, "!trs".toList]

namespace Node

/-- The name of a tag. -/
def name? : Node → Option Text
  | text _ => none
  | tag name _ _ => some name

/-- The nodes directly inside a node. -/
def children : Node → List Node
  | text _ => []
  | tag _ _ children => children

/-- Whether the node is a transcription. -/
def isTranscription : Node → Bool
  | text _ => false
  | tag name _ _ => transcriptionNames.contains name

mutual

/-- The text of a node, last character first, on top of `done`. -/
def renderOnto (strip : Bool) (done : Text) : Node → Text
  | text t => t.reverseAux done
  | tag _ _ children => renderAllOnto strip done children

/-- The texts of several nodes, last character first, on top of `done`. With `strip` the
transcriptions among them are left out. -/
def renderAllOnto (strip : Bool) (done : Text) : List Node → Text
  | [] => done
  | n :: rest =>
    renderAllOnto strip (if strip && n.isTranscription then done else renderOnto strip done n) rest

end

/-- The text of a node without its markup. With `strip` the transcriptions inside it are left out;
the node itself is rendered in any case. -/
def render (strip : Bool) (n : Node) : Text :=
  (renderOnto strip [] n).reverse

end Node

end Lexicon.Markup
