import Lexicon.Markup.Article
import Lexicon.Proofs.Markup.OutlineLeaves

/-!
# Reading an article without a tree

A machine that keeps no tree, only one list of open tags, writes the leaves of an article straight
from its events. Where an outline closes tags and opens them again, the machine takes an entry out
of the list or puts one in; where an outline drops a tag that stayed empty, the machine has nothing
to do. The leaves of a link or a sub-entry come from the same machine, started anew on its text.

## Key results

- `flat_apply`: each event does to an outline, seen from outside, what it does to the machine
- `leavesAll_nodesOf`: so a whole run of events does
- `leavesAll_nodes`: the tree of an article has the leaves that the machine writes, links and
  sub-entries included
- `leaves_parse`: the same for the tree of a whole article
- `render_parse_eq`: rendering an article writes the texts of its events in order
-/

namespace Lexicon.Markup

/-- A list without the last of its entries that pass; the others keep their order. -/
def eraseLast {α : Type} (p : α → Bool) (l : List α) : List α :=
  (l.reverse.eraseP p).reverse

/-! ## The machine -/

/-- The state of the machine. -/
structure Flat where
  /-- The open tags, outermost first. -/
  opened : List Label
  /-- The leaves so far, in document order. -/
  written : List Leaf
  deriving DecidableEq, Repr

namespace Flat

/-- Nothing has been read. -/
def start : Flat := ⟨[], []⟩

/-- Writes leaves inside the open tags. -/
def write (m : Flat) (leaves : List Leaf) : Flat :=
  { m with written := m.written ++ leaves.map (Leaf.within m.opened) }

/-- Opens a margin: the margin before it ends, and the new one goes outside all open tags if there
is room for it. -/
def openMargin (m : Flat) (tag : Label) : Flat :=
  let others := eraseLast (isMargin ·.name) m.opened
  { m with opened := if depthLimit ≤ others.length then others else tag :: others }

/-- Opens a tag that is no margin, inside all open tags, if there is room for it. A line break is
written at once and not kept. -/
def openInner (m : Flat) (tag : Label) : Flat :=
  if depthLimit ≤ m.opened.length then m
  else if tag.name = ['b', 'r'] then m.write [⟨[], .tag tag⟩]
  else { m with opened := m.opened ++ [tag] }

/-- Does what an event asks for. An event embeds the leaves of what it stands for. -/
def step (m : Flat) : Event (List Leaf) → Flat
  | .text t => m.write [⟨[], .text t⟩]
  | .opening name attrs =>
    if isMargin name then m.openMargin ⟨name, attrs⟩ else m.openInner ⟨name, attrs⟩
  | .closing name => { m with opened := eraseLast (fits ·.name name) m.opened }
  | .embed leaves => m.write leaves

/-- The leaves that a list of events describes. -/
def leavesOf (events : List (Event (List Leaf))) : List Leaf :=
  (events.foldl step start).written

/-- The leaves of a tag around leaves. The tag is a leaf itself if there are none. -/
def enclose (name : Text) (leaves : List Leaf) : List Leaf :=
  if leaves = [] then [⟨[], .tag ⟨name, []⟩⟩] else leaves.map (Leaf.within [⟨name, []⟩])

/-- The leaves of an article, read without a tree. -/
def read (subEntries : Bool) (t : Text) : List Leaf :=
  leavesOf <| (events subEntries t).attach.map fun
    | ⟨.text run, _⟩ => .text run
    | ⟨.opening name attrs, _⟩ => .opening name attrs
    | ⟨.closing name, _⟩ => .closing name
    | ⟨.embed (.link target), _⟩ => .embed (enclose linkName (read subEntries target))
    | ⟨.embed (.subEntry headword), _⟩ => .embed (enclose subEntryName (read false headword))
termination_by t.length
decreasing_by
  all_goals
    have := span_le_of_mem_events ‹_›
    simp only [Target.span] at this
    omega

end Flat

/-- The leaves of a link or a sub-entry inside an article, read without a tree. -/
def Target.leaves (subEntries : Bool) : Target → List Leaf
  | .link target => Flat.enclose linkName (Flat.read subEntries target)
  | .subEntry headword => Flat.enclose subEntryName (Flat.read false headword)

/-- The leaves of an article come from its events, links and sub-entries read in turn. -/
theorem Flat.read_eq (subEntries : Bool) (t : Text) :
    Flat.read subEntries t =
      Flat.leavesOf ((events subEntries t).map (Event.map (Target.leaves subEntries))) := by
  -- The attached membership proofs serve termination only; without them both sides map one function
  rw [Flat.read]
  congr 1
  rw [← List.attach_map_val (l := events subEntries t) (f := Event.map _)]
  refine List.map_congr_left fun ⟨e, he⟩ _ => ?_
  rcases e with run | ⟨name, attrs⟩ | name | ⟨target | headword⟩ <;> rfl

/-! ## Outlines seen from outside -/

namespace Outline

/-- What the machine knows of an outline. -/
def flat (o : Outline) : Flat :=
  ⟨o.path, o.leaves⟩

theorem flat_add (o : Outline) (n : Node) : (o.add n).flat = o.flat.write (Node.leaves [] n) := by
  have hpath : (o.add n).path = o.path := by rw [path, labels_add, path]
  have hleaves := Node.leaves_eq_map_within o.path [] n
  rw [List.append_nil] at hleaves
  rw [flat, hpath, leaves_add, hleaves]
  rfl

/-- A closing tag takes the innermost open tag that it fits out of the list. -/
theorem flat_endTag (o : Outline) (name : Text) :
    (o.endTag name).flat = { o.flat with opened := eraseLast (fits ·.name name) o.flat.opened } := by
  simp only [flat, path, eraseLast, labels_endTag, leaves_endTag, List.reverse_reverse]

theorem fits_m (opened : Text) : fits opened ['m'] = isMargin opened := by
  unfold fits
  by_cases h : opened = ['m']
  · subst h; rfl
  · simp [h]

private theorem length_path (o : Outline) : o.path.length = o.frames.length := by
  simp [path, labels]

theorem flat_onOpening_inner (o : Outline) {name : Text} (h : isMargin name = false)
    (attrs : Text) : (o.onOpening name attrs).flat = o.flat.openInner ⟨name, attrs⟩ := by
  simp only [onOpening, h, Bool.false_eq_true, if_false, Flat.openInner]
  rw [show o.flat.opened.length = o.frames.length from length_path o]
  split
  · -- Too many tags are open: nothing happens
    rfl
  · split
    · rename_i hbr
      rw [flat_add, Node.leaves]
    · simp only [flat, path, leaves_beginTag, labels_beginTag, h, Bool.false_eq_true, if_false,
        List.reverse_cons]

theorem flat_onOpening_margin (o : Outline) {name : Text} (h : isMargin name = true)
    (attrs : Text) : (o.onOpening name attrs).flat = o.flat.openMargin ⟨name, attrs⟩ := by
  have hbr : name ≠ ['b', 'r'] := by rintro rfl; exact absurd h (by decide)
  -- The margin before it ends first
  have hothers : eraseLast (isMargin ·.name) o.flat.opened = (o.endTag ['m']).path := by
    have hend := congrArg Flat.opened (flat_endTag o ['m'])
    simp only [fits_m] at hend
    exact hend.symm
  simp only [Flat.openMargin, hothers, length_path, onOpening, h, if_true, hbr, if_false]
  split
  · simp only [flat, leaves_endTag]
  · simp only [flat, path, leaves_beginTag, leaves_endTag, labels_beginTag, h, if_true,
      List.reverse_append, List.reverse_cons, List.reverse_nil, List.nil_append, List.cons_append]

/-- Each event does to an outline, seen from outside, what it does to the machine. -/
theorem flat_apply (o : Outline) (e : Event Node) :
    (o.apply e).flat = o.flat.step (e.map (Node.leaves [])) := by
  cases e with
  | text t =>
    rw [apply, flat_add, Node.leaves]; rfl
  | opening name attrs =>
    simp only [apply, Event.map, Flat.step]
    split
    · rename_i h; exact flat_onOpening_margin o h attrs
    · rename_i h; exact flat_onOpening_inner o (Bool.eq_false_iff.mpr h) attrs
  | closing name => exact flat_endTag o name
  | embed n => exact flat_add o n

theorem flat_foldl (events : List (Event Node)) (o : Outline) :
    (events.foldl apply o).flat = (events.map (Event.map (Node.leaves []))).foldl Flat.step o.flat := by
  induction events generalizing o with
  | nil => rfl
  | cons e events ih => rw [List.foldl_cons, ih, flat_apply, List.map_cons, List.foldl_cons]

/-- The tree that events describe has the leaves that they describe without a tree. -/
theorem leavesAll_nodesOf (events : List (Event Node)) :
    Node.leavesAll [] (nodesOf events) =
      Flat.leavesOf (events.map (Event.map (Node.leaves []))) := by
  rw [nodesOf, leavesAll_toNodes]
  exact congrArg Flat.written (flat_foldl events empty)

-- Tags that cross: the outer one ends, and the inner one goes on behind it
example :
    Flat.leavesOf [.opening ['b'] [], .opening ['i'] [], .text ['x'], .closing ['b'], .text ['y']] =
      [⟨[⟨['b'], []⟩, ⟨['i'], []⟩], .text ['x']⟩, ⟨[⟨['i'], []⟩], .text ['y']⟩] := by
  decide

end Outline

/-! ## Articles -/

private theorem leaves_tag_eq_enclose (name : Text) (children : List Node) :
    Node.leaves [] (.tag name [] children) = Flat.enclose name (Node.leavesAll [] children) := by
  unfold Flat.enclose
  by_cases h : children = []
  · subst h; rw [if_pos (Node.leavesAll_nil []), Node.leaves]
  · rw [if_neg (by rwa [Node.leavesAll_eq_nil_iff]), Node.leaves_tag _ _ _ h]
    exact Node.leavesAll_eq_map_within [⟨name, []⟩] [] children

theorem leavesAll_nodes (subEntries : Bool) (t : Text) :
    Node.leavesAll [] (nodes subEntries t) = Flat.read subEntries t := by
  -- On the length of the article: the targets embedded in it are shorter
  induction hn : t.length using Nat.strongRecOn generalizing subEntries t with
  | _ n ih =>
    rw [nodes_eq, Outline.leavesAll_nodesOf, Flat.read_eq, List.map_map]
    congr 1
    refine List.map_congr_left fun e he => ?_
    rcases e with run | ⟨name, attrs⟩ | name | target
    · rfl
    · rfl
    · rfl
    · have hspan := span_le_of_mem_events he
      cases target with
      | link target =>
        simp only [Target.span] at hspan
        simp only [Function.comp, Event.map, Target.toNode, Target.leaves, leaves_tag_eq_enclose]
        rw [ih target.length (by omega) subEntries target rfl]
      | subEntry headword =>
        simp only [Target.span] at hspan
        simp only [Function.comp, Event.map, Target.toNode, Target.leaves, leaves_tag_eq_enclose]
        rw [ih headword.length (by omega) false headword rfl]

/-- The tree of an article, laid flat, is what the machine writes without a tree. -/
theorem leaves_parse (t : Text) : Node.leavesAll [] (parse t).children = Flat.read true t :=
  leavesAll_nodes true t

/-! ## The text of an article -/

/-- The text that an event contributes, with that of the leaves it embeds. -/
def Event.written : Event (List Leaf) → Text
  | .text t => t
  | .embed leaves => leaves.flatMap (·.tip.written)
  | _ => []

namespace Flat

private theorem flatMap_written_write (m : Flat) (leaves : List Leaf) :
    (m.write leaves).written.flatMap (·.tip.written) =
      m.written.flatMap (·.tip.written) ++ leaves.flatMap (·.tip.written) := by
  simp [write, List.flatMap_map]

theorem flatMap_written_step (m : Flat) (e : Event (List Leaf)) :
    (m.step e).written.flatMap (·.tip.written) =
      m.written.flatMap (·.tip.written) ++ e.written := by
  cases e with
  | text t => rw [step, flatMap_written_write]; simp [Event.written, Tip.written]
  | opening name attrs =>
    simp only [step]
    split
    · simp [openMargin, Event.written]
    · -- Only a line break writes a leaf, and that one is no text
      unfold openInner
      split
      · simp [Event.written]
      · split
        · rw [flatMap_written_write]; simp [Event.written, Tip.written]
        · simp [Event.written]
  | closing name => simp [step, Event.written]
  | embed leaves => rw [step, flatMap_written_write]; rfl

theorem flatMap_written_foldl (events : List (Event (List Leaf))) (m : Flat) :
    (events.foldl step m).written.flatMap (·.tip.written) =
      m.written.flatMap (·.tip.written) ++ events.flatMap Event.written := by
  induction events generalizing m with
  | nil => simp
  | cons e events ih =>
    rw [List.foldl_cons, ih, flatMap_written_step, List.flatMap_cons, List.append_assoc]

end Flat

/-- Rendering an article writes the texts of its events in order, whatever its tags do. -/
theorem render_parse_eq (t : Text) :
    (parse t).render false =
      ((events true t).map (Event.map (Target.leaves true))).flatMap Event.written := by
  rw [parse, Node.render_tag_eq, leavesAll_nodes, Flat.read_eq, Flat.leavesOf,
    Flat.flatMap_written_foldl]
  rfl

end Lexicon.Markup
