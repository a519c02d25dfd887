import Lexicon.Text.Basic

/-!
# Events

Reading an article from left to right gives a flat list of events. Links and sub-entries carry a
text that is an article of its own; the type of what an event embeds is a parameter, so that the
same events can carry the finished nodes later.
-/

namespace Lexicon.Markup

/-- What reading an article comes across. -/
inductive Event (α : Type) where
  /-- A run of text; never empty. -/
  | text (t : Text)
  /-- An opening tag. -/
  | opening (name attrs : Text)
  /-- A closing tag. -/
  | closing (name : Text)
  /-- Something that stands in the article as a whole. -/
  | embed (content : α)
  deriving DecidableEq, Repr

namespace Event

/-- The same event with other contents embedded. -/
def map {α β : Type} (f : α → β) : Event α → Event β
  | text t => text t
  | opening name attrs => opening name attrs
  | closing name => closing name
  | embed content => embed (f content)

end Event

/-- A text inside an article that is read on its own. -/
inductive Target where
  /-- What a link `<<…>>` points to. -/
  | link (t : Text)
  /-- One variant of the headword of a sub-entry. -/
  | subEntry (t : Text)
  deriving DecidableEq, Repr

namespace Target

/-- How many characters of an article the target takes up at least: a link has two angle brackets on
each side, a sub-entry has an at sign before it. -/
def span : Target → Nat
  | link t => t.length + 4
  | subEntry t => t.length + 1

end Target

end Lexicon.Markup
