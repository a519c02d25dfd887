import Lexicon.Markup.Outline
import Lexicon.Proofs.Markup.Leaf

/-!
# The leaves of an outline

An outline is seen from outside as its open tags and the leaves of all it holds. Closing and
reopening tags moves nodes around in the outline, but leaves every leaf where it is in the document:
an operation on open tags changes the open tags alone, and adding a node adds its leaves at the end.

## Key results

- `leaves_add`, `leaves_pop`, `leaves_endTag`, `leaves_beginTag`: what each operation does to the
  leaves
- `labels_pop`, `labels_endTag`, `labels_beginTag`: what each operation does to the open tags
- `leavesAll_toNodes`: finishing an outline keeps its leaves
-/

namespace Lexicon.Markup

/-- An open tag apart from what stands in it. -/
def Frame.label (f : Frame) : Label :=
  ⟨f.name, f.attrs⟩

@[simp]
theorem Frame.label_emptied (f : Frame) : f.emptied.label = f.label := rfl

namespace Outline

/-- The open tags, innermost first. -/
def labels (o : Outline) : List Label :=
  o.frames.map Frame.label

/-- The open tags, outermost first. -/
def path (o : Outline) : List Label :=
  o.labels.reverse

/-- The leaves in open tags, of which the innermost comes first. -/
def frameLeaves : List Frame → List Leaf
  | [] => []
  | f :: rest =>
    frameLeaves rest ++
      Node.leavesAll ((f :: rest).map Frame.label).reverse f.children.reverse

/-- All leaves, in document order. -/
def leaves (o : Outline) : List Leaf :=
  Node.leavesAll [] o.done.reverse ++ frameLeaves o.frames

/-! ## Adding a node -/

@[simp]
theorem labels_add (o : Outline) (n : Node) : (o.add n).labels = o.labels := by
  unfold add labels
  split
  · rename_i h; rw [h]
  · rename_i f rest h; rw [h]; rfl

/-- A node that is added brings its leaves, inside all open tags. -/
theorem leaves_add (o : Outline) (n : Node) :
    (o.add n).leaves = o.leaves ++ Node.leaves o.path n := by
  unfold add leaves path labels
  -- The node goes into the innermost open tag, or behind what is finished
  cases h : o.frames with
  | nil => simp [frameLeaves, Node.leavesAll_append]
  | cons f rest => simp [frameLeaves, Node.leavesAll_append, Frame.label]

/-! ## Closing tags -/

theorem labels_pop (o : Outline) : o.pop.labels = o.labels.tail := by
  unfold pop
  cases h : o.frames with
  | nil => simp [labels, h]
  | cons f rest =>
    simp only
    -- An empty tag is dropped, any other one is added where it stood
    split
    · simp [labels, h]
    · rw [labels_add]
      simp [labels, h]

/-- Closing a tag keeps all leaves. -/
theorem leaves_pop (o : Outline) : o.pop.leaves = o.leaves := by
  unfold pop
  cases h : o.frames with
  | nil => rfl
  | cons f rest =>
    simp only
    split
    · -- A tag in which nothing stands has no leaves
      rename_i hempty
      simp [leaves, h, frameLeaves, hempty]
    · -- The finished tag stands where its contents stood
      rename_i hne
      rw [leaves_add]
      have hchildren : f.children.reverse ≠ [] := by simpa using hne
      simp [leaves, h, frameLeaves, path, labels, Frame.toNode, Frame.label,
        Node.leaves_tag _ _ _ hchildren]

theorem labels_popMany (n : Nat) (o : Outline) : (popMany n o).labels = o.labels.drop n := by
  induction n generalizing o with
  | zero => rfl
  | succ n ih => rw [popMany, ih, labels_pop, List.drop_tail]

theorem leaves_popMany (n : Nat) (o : Outline) : (popMany n o).leaves = o.leaves := by
  induction n generalizing o with
  | zero => rfl
  | succ n ih => rw [popMany, ih, leaves_pop]

/-- Once all tags are closed, none is open. -/
theorem frames_popMany_length (o : Outline) : (popMany o.frames.length o).frames = [] := by
  have h := labels_popMany o.frames.length o
  rw [List.drop_of_length_le (by simp [labels])] at h
  simpa [labels] using h

/-- Finishing an outline keeps its leaves. -/
theorem leavesAll_toNodes (o : Outline) : Node.leavesAll [] o.toNodes = o.leaves := by
  rw [← leaves_popMany o.frames.length o, toNodes, leaves, frames_popMany_length]
  simp [frameLeaves]

/-! ## Opening tags again -/

@[simp]
theorem labels_resume (o : Outline) (frames : List Frame) :
    (o.resume frames).labels = frames.map Frame.label ++ o.labels := by
  simp [resume, labels]

private theorem frameLeaves_emptied (frames rest : List Frame) :
    frameLeaves (frames.map Frame.emptied ++ rest) = frameLeaves rest := by
  induction frames with
  | nil => rfl
  | cons f frames ih => simp [frameLeaves, ih, Frame.emptied]

@[simp]
theorem leaves_resume (o : Outline) (frames : List Frame) :
    (o.resume frames).leaves = o.leaves := by
  simp [leaves, resume, frameLeaves_emptied]

/-! ## Tags of an article -/

/-- The tags from the innermost to the first that passes, and those outside it, are what erasing
that one leaves. -/
private theorem eraseP_eq_takeWhile_append_drop {α : Type} (p : α → Bool) (l : List α) :
    l.eraseP p = l.takeWhile (!p ·) ++ l.drop ((l.takeWhile (!p ·)).length + 1) := by
  induction l with
  | nil => rfl
  | cons a l ih =>
    by_cases ha : p a = true
    · simp [ha]
    · simp [ha, ih]

/-- A closing tag ends the innermost open tag that it fits, and no other. -/
theorem labels_endTag (o : Outline) (name : Text) :
    (o.endTag name).labels = o.labels.eraseP (fits ·.name name) := by
  have hinner : (o.frames.takeWhile fun f => !fits f.name name).map Frame.label =
      o.labels.takeWhile fun l => !fits l.name name := by
    rw [labels, List.takeWhile_map]; rfl
  rw [eraseP_eq_takeWhile_append_drop, ← hinner, List.length_map]
  unfold endTag
  simp only
  split
  · -- The tags inside the one that ends are opened again
    rw [labels_resume, labels_popMany]
  · -- No open tag fits, so all of them are inside
    rename_i hall
    have hsub : (o.frames.takeWhile fun f => !fits f.name name).Sublist o.frames :=
      List.takeWhile_sublist _
    rw [hsub.eq_of_length_le (Nat.le_of_not_lt hall), List.drop_of_length_le (by simp [labels]),
      List.append_nil]
    rfl

theorem leaves_endTag (o : Outline) (name : Text) : (o.endTag name).leaves = o.leaves := by
  unfold endTag
  simp only
  split
  · rw [leaves_resume, leaves_popMany]
  · rfl

/-- A margin is opened outside all open tags, any other tag inside them. -/
theorem labels_beginTag (o : Outline) (name attrs : Text) :
    (o.beginTag name attrs).labels =
      if isMargin name then o.labels ++ [⟨name, attrs⟩] else ⟨name, attrs⟩ :: o.labels := by
  unfold beginTag
  split
  · rw [labels_resume]; rfl
  · rfl

/-- Opening a tag keeps all leaves. -/
theorem leaves_beginTag (o : Outline) (name attrs : Text) :
    (o.beginTag name attrs).leaves = o.leaves := by
  unfold beginTag
  split
  · -- The margin goes around an outline without open tags
    rw [leaves_resume, ← leaves_popMany o.frames.length o]
    simp [leaves, frames_popMany_length, frameLeaves]
  · simp [leaves, frameLeaves]

end Outline

end Lexicon.Markup
