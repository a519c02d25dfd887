import Lexicon.Markup.Outline
import Lexicon.Markup.Span

/-!
# Articles

`parse` reads an article into its tree. The targets of links and the headwords of sub-entries are
articles themselves; each is shorter than the article around it, so the reading ends. In the
headword of a sub-entry no further sub-entry starts.

`nodes_eq` is the rule without the bookkeeping for termination.
-/

namespace Lexicon.Markup

/-- The name of the tag that stands for a link. -/
def linkName : Text := "ref".toList

/-- The name of the tag that stands for a sub-entry. -/
def subEntryName : Text := ['@']

/-- The nodes of an article. Sub-entries are recognised only if `subEntries` says so. -/
def nodes (subEntries : Bool) (t : Text) : List Node :=
  Outline.nodesOf <| (events subEntries t).attach.map fun
    | ⟨.text run, _⟩ => .text run
    | ⟨.opening name attrs, _⟩ => .opening name attrs
    | ⟨.closing name, _⟩ => .closing name
    | ⟨.embed (.link target), _⟩ => .embed (.tag linkName [] (nodes subEntries target))
    | ⟨.embed (.subEntry headword), _⟩ => .embed (.tag subEntryName [] (nodes false headword))
termination_by t.length
decreasing_by
  all_goals
    have := span_le_of_mem_events ‹_›
    simp only [Target.span] at this
    omega

/-- The node for a link or a sub-entry inside an article. -/
def Target.toNode (subEntries : Bool) : Target → Node
  | .link target => .tag linkName [] (nodes subEntries target)
  | .subEntry headword => .tag subEntryName [] (nodes false headword)

/-- The nodes of an article are built from its events, links and sub-entries read in turn. -/
theorem nodes_eq (subEntries : Bool) (t : Text) :
    nodes subEntries t =
      Outline.nodesOf ((events subEntries t).map (Event.map (Target.toNode subEntries))) := by
  -- The attached membership proofs serve termination only; without them both sides map one function
  rw [nodes]
  congr 1
  rw [← List.attach_map_val (l := events subEntries t) (f := Event.map _)]
  refine List.map_congr_left fun ⟨e, he⟩ _ => ?_
  rcases e with run | ⟨name, attrs⟩ | name | ⟨target | headword⟩ <;> rfl

/-- The tree of an article: a tag without a name around its nodes. -/
def parse (t : Text) : Node :=
  .tag [] [] (nodes true t)

end Lexicon.Markup
