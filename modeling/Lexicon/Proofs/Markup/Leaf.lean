import Lexicon.Markup.Node

/-!
# Leaves of article trees

An article tree laid flat: its runs of text and its tags without contents, in document order, each
with the tags around it. What a tree renders to can be read off its leaves.

## Key results

- `leavesAll_append`: the leaves of nodes in a row stand in a row
- `leaves_eq_map_within`: the tags around a node are around all its leaves
- `leaves_ne_nil`: no node vanishes when a tree is laid flat
- `render_tag_eq`: rendering writes the leaves one after the other
-/

namespace Lexicon.Markup

/-- A tag apart from what stands in it. -/
structure Label where
  name : Text
  attrs : Text
  deriving DecidableEq, Repr

/-- What stands where a tree ends. -/
inductive Tip where
  | text (t : Text)
  /-- A tag in which nothing stands. -/
  | tag (label : Label)
  deriving DecidableEq, Repr

/-- The text that a tip contributes. -/
def Tip.written : Tip → Text
  | text t => t
  | tag _ => []

/-- A tip with the tags around it, outermost first. -/
structure Leaf where
  path : List Label
  tip : Tip
  deriving DecidableEq, Repr

/-- The same leaf with more tags around it. -/
def Leaf.within (outer : List Label) (l : Leaf) : Leaf :=
  { l with path := outer ++ l.path }

@[simp]
theorem Leaf.within_mk (outer path : List Label) (tip : Tip) :
    Leaf.within outer ⟨path, tip⟩ = ⟨outer ++ path, tip⟩ := rfl

@[simp]
theorem Leaf.tip_within (outer : List Label) (l : Leaf) : (l.within outer).tip = l.tip := rfl

namespace Node

mutual

/-- The leaves of a node that stands inside the tags of `path`. -/
def leaves (path : List Label) : Node → List Leaf
  | text t => [⟨path, .text t⟩]
  | tag name attrs [] => [⟨path, .tag ⟨name, attrs⟩⟩]
  | tag name attrs (n :: rest) =>
    leaves (path ++ [⟨name, attrs⟩]) n ++ leavesAll (path ++ [⟨name, attrs⟩]) rest

/-- The leaves of several nodes inside the tags of `path`. -/
def leavesAll (path : List Label) : List Node → List Leaf
  | [] => []
  | n :: rest => leaves path n ++ leavesAll path rest

end

/-- A tag that is not empty has the leaves of its contents. -/
theorem leaves_tag (path : List Label) (name attrs : Text) {children : List Node}
    (h : children ≠ []) :
    leaves path (.tag name attrs children) = leavesAll (path ++ [⟨name, attrs⟩]) children := by
  cases children with
  | nil => exact absurd rfl h
  | cons n rest => rw [leaves, leavesAll]

@[simp]
theorem leavesAll_nil (path : List Label) : leavesAll path [] = [] := by
  rw [leavesAll]

theorem leavesAll_append (path : List Label) (as bs : List Node) :
    leavesAll path (as ++ bs) = leavesAll path as ++ leavesAll path bs := by
  induction as with
  | nil => simp
  | cons n rest ih => rw [List.cons_append, leavesAll, leavesAll, ih, List.append_assoc]

@[simp]
theorem leavesAll_singleton (path : List Label) (n : Node) :
    leavesAll path [n] = leaves path n := by
  rw [leavesAll, leavesAll_nil, List.append_nil]

mutual

/-- The tags around a node are around all its leaves. -/
theorem leaves_eq_map_within (outer path : List Label) (n : Node) :
    leaves (outer ++ path) n = (leaves path n).map (Leaf.within outer) := by
  match n with
  | .text t => rw [leaves, leaves]; rfl
  | .tag name attrs [] => rw [leaves, leaves]; rfl
  | .tag name attrs (n :: rest) =>
    -- The tag itself stands between `outer` and the leaves
    have hn := leaves_eq_map_within outer (path ++ [⟨name, attrs⟩]) n
    have hrest := leavesAll_eq_map_within outer (path ++ [⟨name, attrs⟩]) rest
    rw [leaves, leaves, List.map_append, List.append_assoc, hn, hrest]

theorem leavesAll_eq_map_within (outer path : List Label) (ns : List Node) :
    leavesAll (outer ++ path) ns = (leavesAll path ns).map (Leaf.within outer) := by
  match ns with
  | [] => rw [leavesAll, leavesAll]; rfl
  | n :: rest =>
    rw [leavesAll, leavesAll, List.map_append, leaves_eq_map_within outer path n,
      leavesAll_eq_map_within outer path rest]

end

/-- No node vanishes when a tree is laid flat. -/
theorem leaves_ne_nil (path : List Label) (n : Node) : leaves path n ≠ [] := by
  match n with
  | .text t => rw [leaves]; exact List.cons_ne_nil _ _
  | .tag name attrs [] => rw [leaves]; exact List.cons_ne_nil _ _
  | .tag name attrs (n :: rest) =>
    rw [leaves]
    exact fun h => leaves_ne_nil (path ++ [⟨name, attrs⟩]) n (List.append_eq_nil_iff.mp h).1

theorem leavesAll_eq_nil_iff (path : List Label) (ns : List Node) :
    leavesAll path ns = [] ↔ ns = [] := by
  cases ns with
  | nil => simp
  | cons n rest => simp [leavesAll, leaves_ne_nil]

/-! ## Rendering -/

mutual

/-- Rendering a node appends what its leaves contribute. -/
theorem renderOnto_eq (done : Text) (path : List Label) (n : Node) :
    renderOnto false done n = ((leaves path n).flatMap (·.tip.written)).reverse ++ done := by
  match n with
  | .text t => simp [renderOnto, leaves, Tip.written, List.reverseAux_eq]
  | .tag name attrs [] => simp [renderOnto, renderAllOnto, leaves, Tip.written]
  | .tag name attrs (n :: rest) =>
    have hn := renderOnto_eq done (path ++ [⟨name, attrs⟩]) n
    have hrest := fun d => renderAllOnto_eq d (path ++ [⟨name, attrs⟩]) rest
    simp [renderOnto, renderAllOnto, leaves, hn, hrest]

theorem renderAllOnto_eq (done : Text) (path : List Label) (ns : List Node) :
    renderAllOnto false done ns = ((leavesAll path ns).flatMap (·.tip.written)).reverse ++ done := by
  match ns with
  | [] => simp [renderAllOnto]
  | n :: rest =>
    have hn := renderOnto_eq done path n
    have hrest := fun d => renderAllOnto_eq d path rest
    simp [renderAllOnto, leavesAll, hn, hrest]

end

/-- Rendering a tag with all transcriptions writes the leaves inside it one after the other. -/
theorem render_tag_eq (name attrs : Text) (children : List Node) :
    render false (.tag name attrs children) =
      (leavesAll [] children).flatMap (·.tip.written) := by
  rw [render, renderOnto, renderAllOnto_eq [] []]
  simp

end Node

end Lexicon.Markup
