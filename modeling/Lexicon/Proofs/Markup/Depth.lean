import Lexicon.Markup.Article
import Lexicon.Proofs.Markup.LinkTargets
import Lexicon.Proofs.Markup.OutlineLeaves

/-!
# The depth of article trees

No text, however long, gives a tree in which nodes stand arbitrarily deep. The tags of one article
nest no deeper than the limit on open tags. Links and sub-entries hold articles of their own, but
only a few of them stand inside one another: no sub-entry starts inside a sub-entry, and links end
after three levels.

## Key results

- `Outline.Shallow`: what holds of an outline in which every node is added at most so deep
- `Outline.atMost_of_mem_nodesOf`: the depth of one article, given that of what is embedded in it
- `atMost_of_mem_nodes`: the depth of an article, by the levels of articles inside it
- `depth_le_of_at`: no node of an article stands deeper than 903 tags
-/

namespace Lexicon.Markup

namespace Node

/-- A node stands inside a number of tags of a tree. -/
inductive At (n : Node) : Nat → Node → Prop
  | root : At n 0 n
  | child {name attrs : Text} {children : List Node} {c : Node} {depth : Nat} :
    c ∈ children → At n depth c → At n (depth + 1) (.tag name attrs children)

/-- No node of a tree stands inside more than `d` of its tags. -/
def DepthAtMost (d : Nat) (root : Node) : Prop :=
  ∀ (n : Node) (depth : Nat), n.At depth root → depth ≤ d

namespace DepthAtMost

theorem mono {d d' : Nat} {n : Node} (h : n.DepthAtMost d) (hd : d ≤ d') : n.DepthAtMost d' :=
  fun inner depth hat => Nat.le_trans (h inner depth hat) hd

theorem text (t : Text) : DepthAtMost 0 (.text t) := by
  intro n depth hat
  cases hat
  exact Nat.le_refl 0

theorem leaf (name attrs : Text) : DepthAtMost 0 (.tag name attrs []) := by
  intro n depth hat
  cases hat with
  | root => exact Nat.le_refl 0
  | child hmem => cases hmem

theorem tag {d : Nat} {children : List Node} (name attrs : Text)
    (h : ∀ c ∈ children, c.DepthAtMost d) : DepthAtMost (d + 1) (.tag name attrs children) := by
  intro n depth hat
  cases hat with
  | root => exact Nat.zero_le _
  | child hmem hat => exact Nat.succ_le_succ (h _ hmem n _ hat)

end DepthAtMost

end Node

/-! ## One article -/

namespace Outline

/-- What is inside open tags stands no deeper than the tags that there is still room for, and `d`
more. -/
def ShallowFrames (d : Nat) : List Frame → Prop
  | [] => True
  | f :: rest =>
    (∀ c ∈ f.children, c.DepthAtMost (depthLimit - (rest.length + 1) + d)) ∧ ShallowFrames d rest

/-- An outline to which trees of depth `d` are added. -/
structure Shallow (d : Nat) (o : Outline) : Prop where
  room : o.frames.length ≤ depthLimit
  frames : ShallowFrames d o.frames
  done : ∀ n ∈ o.done, n.DepthAtMost (depthLimit + d)

variable {d : Nat} {o : Outline}

theorem Shallow.empty : empty.Shallow d :=
  ⟨Nat.zero_le _, trivial, nofun⟩

theorem Shallow.add (h : o.Shallow d) {n : Node}
    (hn : n.DepthAtMost (depthLimit - o.frames.length + d)) : (o.add n).Shallow d := by
  obtain ⟨hroom, hframes, hdone⟩ := h
  unfold Outline.add
  cases hfs : o.frames with
  | nil =>
    rw [hfs] at hn
    exact ⟨Nat.zero_le _, trivial, List.forall_mem_cons.mpr ⟨hn, hdone⟩⟩
  | cons f rest =>
    rw [hfs] at hroom hframes hn
    exact ⟨hroom, ⟨List.forall_mem_cons.mpr ⟨hn, hframes.1⟩, hframes.2⟩, hdone⟩

/-- Closing a tag puts what is in it one tag deeper, where there is room for one more. -/
theorem Shallow.pop (h : o.Shallow d) : o.pop.Shallow d := by
  unfold Outline.pop
  cases hfs : o.frames with
  | nil => exact h
  | cons f rest =>
    obtain ⟨hroom, hframes, hdone⟩ := h
    rw [hfs] at hroom hframes
    have hrest : Outline.Shallow d { o with frames := rest } :=
      ⟨Nat.le_of_succ_le hroom, hframes.2, hdone⟩
    simp only
    split
    · exact hrest
    · have hdepth : depthLimit - (rest.length + 1) + d + 1 = depthLimit - rest.length + d := by
        rw [List.length_cons] at hroom
        omega
      refine hrest.add ?_
      rw [← hdepth]
      exact Node.DepthAtMost.tag f.name f.attrs fun c hc =>
        hframes.1 c (List.mem_reverse.mp hc)

theorem Shallow.popMany (h : o.Shallow d) (n : Nat) : (popMany n o).Shallow d := by
  induction n generalizing o with
  | zero => exact h
  | succ n ih => exact ih h.pop

theorem length_frames_popMany (n : Nat) (o : Outline) :
    (popMany n o).frames.length = o.frames.length - n := by
  have hlength := congrArg List.length (labels_popMany n o)
  rwa [labels, List.length_map, List.length_drop, labels, List.length_map] at hlength

/-- There is nothing yet in tags that are opened again. -/
theorem Shallow.resume (h : o.Shallow d) {fs : List Frame}
    (hroom : fs.length + o.frames.length ≤ depthLimit) : (o.resume fs).Shallow d := by
  refine ⟨?_, ?_, h.done⟩
  · show (fs.map Frame.emptied ++ o.frames).length ≤ depthLimit
    rwa [List.length_append, List.length_map]
  · show ShallowFrames d (fs.map Frame.emptied ++ o.frames)
    clear hroom
    induction fs with
    | nil => exact h.frames
    | cons f fs ih => exact ⟨nofun, ih⟩

theorem Shallow.endTag (h : o.Shallow d) (name : Text) : (o.endTag name).Shallow d := by
  unfold Outline.endTag
  extract_lets inner
  split
  · rename_i hinner
    refine (h.popMany _).resume ?_
    have hroom := h.room
    rw [length_frames_popMany]
    omega
  · exact h

theorem Shallow.beginTag (h : o.Shallow d) (hroom : o.frames.length < depthLimit)
    (name attrs : Text) : (o.beginTag name attrs).Shallow d := by
  unfold Outline.beginTag
  split
  · -- Around the tags that are opened again there is the margin alone
    have hmargin :
        Shallow d { Outline.popMany o.frames.length o with frames := [⟨name, attrs, []⟩] } :=
      ⟨Nat.succ_le_of_lt (Nat.zero_lt_of_lt hroom), ⟨nofun, trivial⟩, (h.popMany _).done⟩
    exact hmargin.resume hroom
  · exact ⟨hroom, ⟨nofun, h.frames⟩, h.done⟩

theorem Shallow.onOpening (h : o.Shallow d) (name attrs : Text) :
    (o.onOpening name attrs).Shallow d := by
  unfold Outline.onOpening
  extract_lets o'
  have h' : o'.Shallow d := by
    show Outline.Shallow d (if isMargin name then o.endTag ['m'] else o)
    split
    · exact h.endTag ['m']
    · exact h
  split
  · exact h'
  · rename_i hroom
    split
    · exact h'.add ((Node.DepthAtMost.leaf name attrs).mono (Nat.zero_le _))
    · exact h'.beginTag (Nat.lt_of_not_le hroom) name attrs

/-- Every event keeps an outline shallow, if what it embeds is. -/
theorem Shallow.apply (h : o.Shallow d) {e : Event Node}
    (he : ∀ n, e = .embed n → n.DepthAtMost d) : (o.apply e).Shallow d := by
  cases e with
  | text t => exact h.add ((Node.DepthAtMost.text t).mono (Nat.zero_le _))
  | opening name attrs => exact h.onOpening name attrs
  | closing name => exact h.endTag name
  | embed n => exact h.add ((he n rfl).mono (Nat.le_add_left _ _))

theorem Shallow.foldl (h : o.Shallow d) {events : List (Event Node)}
    (hevents : ∀ n, .embed n ∈ events → n.DepthAtMost d) :
    (events.foldl Outline.apply o).Shallow d := by
  induction events generalizing o with
  | nil => exact h
  | cons e rest ih =>
    refine ih (h.apply ?_) fun n hn => hevents n (List.mem_cons_of_mem e hn)
    rintro n rfl
    exact hevents n List.mem_cons_self

/-- The tags of one article add no more than the limit to the depth of what is embedded in it. -/
theorem atMost_of_mem_nodesOf {events : List (Event Node)}
    (hevents : ∀ n, .embed n ∈ events → n.DepthAtMost d) {n : Node} (hn : n ∈ nodesOf events) :
    n.DepthAtMost (depthLimit + d) :=
  ((Shallow.empty.foldl hevents).popMany _).done n (List.mem_reverse.mp hn)

end Outline

/-! ## Articles inside articles -/

/-- How many articles can stand inside one another in a text inside `k` link targets. -/
def levels (k : Nat) (subEntries : Bool) : Nat :=
  3 - k + if subEntries then 3 else 0

theorem levels_link {k : Nat} (hk : k < 3) (subEntries : Bool) :
    levels (k + 1) subEntries < levels k subEntries := by
  unfold levels
  omega

/-- Sub-entries stand in no sub-entry, and their headwords have no braces. -/
theorem levels_subEntry (k : Nat) : levels 1 false < levels k true := by
  simp only [levels, if_true, Bool.false_eq_true, if_false]
  omega

/-- The tree of a link or a sub-entry is one tag deeper than the article in it. -/
private theorem atMost_embedded {m m' : Nat} (hm : m' < m) {children : List Node} (name : Text)
    (h : ∀ n ∈ children, n.DepthAtMost (depthLimit + (depthLimit + 1) * m')) :
    Node.DepthAtMost ((depthLimit + 1) * m) (.tag name [] children) := by
  refine (Node.DepthAtMost.tag name [] h).mono ?_
  calc depthLimit + (depthLimit + 1) * m' + 1
      = (depthLimit + 1) * (m' + 1) := by rw [Nat.mul_succ]; omega
    _ ≤ (depthLimit + 1) * m := Nat.mul_le_mul_left _ hm

/-- The nodes of an article stand inside the tags of no more articles than there are levels. -/
theorem atMost_of_mem_nodes {k : Nat} {subEntries : Bool} {t : Text} (ht : Restrained k t)
    {n : Node} (hn : n ∈ nodes subEntries t) :
    n.DepthAtMost (depthLimit + (depthLimit + 1) * levels k subEntries) := by
  -- On the levels: what is embedded has fewer of them
  induction hm : levels k subEntries using Nat.strongRecOn generalizing k subEntries t n with
  | _ m ih =>
    subst hm
    rw [nodes_eq] at hn
    refine Outline.atMost_of_mem_nodesOf (fun c hc => ?_) hn
    obtain ⟨e, he, hec⟩ := List.mem_map.mp hc
    cases e with
    | text run => cases hec
    | opening name attrs => cases hec
    | closing name => cases hec
    | embed x =>
      cases hec
      cases x with
      | link v =>
        obtain ⟨hk, hv⟩ := restrained_of_mem_events ht he
        have hlevels := levels_link hk subEntries
        exact atMost_embedded hlevels linkName fun c hc => ih _ hlevels hv hc rfl
      | subEntry v =>
        obtain ⟨hv, hsub⟩ := braceless_of_mem_events he
        obtain rfl : subEntries = true := hsub
        have hlevels := levels_subEntry k
        exact atMost_embedded hlevels subEntryName fun c hc => ih _ hlevels (.one hv) hc rfl

/-- However long a text is, no node of its tree stands deeper than seven articles inside one another
reach, each with a tag around it and as many tags in it as can be open at a time. -/
theorem depth_le_of_at {t : Text} {n : Node} {depth : Nat} (h : n.At depth (parse t)) :
    depth ≤ 7 * (depthLimit + 1) := by
  have hnodes : ∀ c ∈ nodes true t, c.DepthAtMost (depthLimit + (depthLimit + 1) * levels 0 true) :=
    fun c hc => atMost_of_mem_nodes (.zero t) hc
  exact (Node.DepthAtMost.tag [] [] hnodes).mono (by decide) n depth h

/-- Two links inside one another: the inner one comes about when the unsorted parts are left out of
the target of the outer one. -/
theorem depth_unsortedLink :
    (Node.text "b".toList).At 3 (parse "<<a<\x7b\x7d<b>\x7b\x7d>\x7b\x7d>>".toList) ∧
      3 ≤ 7 * (depthLimit + 1) := by
  have hb : nodes true "b".toList = [.text "b".toList] := by
    rw [nodes_eq]
    rfl
  have hlink : nodes true "a<<b>>".toList =
      [.text "a".toList, .tag linkName [] (nodes true "b".toList)] := by
    have hevents : events true "a<<b>>".toList =
        [.text "a".toList, .embed (.link "b".toList)] := by decide +kernel
    rw [nodes_eq, hevents]
    rfl
  have htext : nodes true "<<a<\x7b\x7d<b>\x7b\x7d>\x7b\x7d>>".toList =
      [.tag linkName [] (nodes true "a<<b>>".toList)] := by
    have hevents : events true "<<a<\x7b\x7d<b>\x7b\x7d>\x7b\x7d>>".toList =
        [.embed (.link "a<<b>>".toList)] := by decide +kernel
    rw [nodes_eq, hevents]
    rfl
  have hat : (Node.text "b".toList).At 3
      (parse "<<a<\x7b\x7d<b>\x7b\x7d>\x7b\x7d>>".toList) := by
    rw [parse, htext, hlink, hb]
    exact .child List.mem_cons_self (.child (List.mem_cons_of_mem _ List.mem_cons_self)
      (.child List.mem_cons_self .root))
  exact ⟨hat, depth_le_of_at hat⟩

end Lexicon.Markup
