import Lexicon.Proofs.Markup.Flat
import Lexicon.Proofs.Markup.Steps

/-!
# Regions and open tags

The lexer knows regions by counting brackets: one more for each opening tag of a name, one less for
each closing one. The outline knows which tags are open. Closing tags that cross, that reopen others
or that fit nothing, and margins that reopen everything, leave the two in step. Only a tag that is
ignored because too many are open is counted and not opened; so the count is never below the number
of open tags, and is above it by no more than the tags that were ignored.

## Key results

- `Lexer.Counted`: the regions are counts of brackets
- `Outline.openCount_apply`: what an event does to the number of open tags of a name
- `Outline.openCount_foldl`: counting brackets and counting open tags
- `regions_follow_tags`: at each point of a text, regions follow the open tags, and doubled brackets
  and backslashes are read accordingly
- `regions_beyond_limit`: a transcription that was ignored
-/

namespace Lexicon.Markup

/-! ## Counting brackets -/

section Counting

variable {α β : Type}

/-- The count of a name after an event. -/
def bracketStep (name : Text) (n : Nat) : Event α → Nat
  | .opening opened _ => if opened = name then Regions.shift false n else n
  | .closing closed => if closed = name then Regions.shift true n else n
  | _ => n

/-- How many tags of a name are open as far as their brackets tell. -/
def bracketCount (name : Text) (events : List (Event α)) : Nat :=
  events.foldl (bracketStep name) 0

theorem bracketCount_concat (name : Text) (events : List (Event α)) (e : Event α) :
    bracketCount name (events ++ [e]) = bracketStep name (bracketCount name events) e := by
  rw [bracketCount, List.foldl_append]
  rfl

theorem bracketCount_map (name : Text) (f : α → β) (events : List (Event α)) :
    bracketCount name (events.map (Event.map f)) = bracketCount name events := by
  have hstep : ∀ (n : Nat) (e : Event α), bracketStep name n (e.map f) = bracketStep name n e := by
    intro n e
    cases e with
    | text t => rfl
    | opening opened attrs => rfl
    | closing closed => rfl
    | embed content => rfl
  unfold bracketCount
  rw [List.foldl_map]
  simp only [hstep]

theorem bracketCount_embeds (name : Text) (events : List (Event α)) (contents : List α) :
    bracketCount name (events ++ contents.map .embed) = bracketCount name events := by
  induction contents generalizing events with
  | nil => rw [List.map_nil, List.append_nil]
  | cons c rest ih =>
    rw [List.map_cons, List.append_cons, ih, bracketCount_concat]
    rfl

/-- The regions that the brackets of some events tell of. -/
def Regions.ofEvents (events : List (Event α)) : Regions :=
  ⟨bracketCount ['t'] events, bracketCount ['s'] events⟩

theorem Regions.ofEvents_text (events : List (Event α)) (t : Text) :
    ofEvents (events ++ [.text t]) = ofEvents events := by
  rw [ofEvents, bracketCount_concat, bracketCount_concat]
  rfl

theorem Regions.ofEvents_embeds (events : List (Event α)) (contents : List α) :
    ofEvents (events ++ contents.map .embed) = ofEvents events := by
  rw [ofEvents, bracketCount_embeds, bracketCount_embeds]
  rfl

theorem Regions.ofEvents_tag (events : List (Event α)) (closing : Bool) (name attrs : Text) :
    ofEvents (events ++ [if closing then .closing name else .opening name attrs]) =
      (ofEvents events).after closing name := by
  rw [ofEvents, bracketCount_concat, bracketCount_concat]
  cases closing with
  | true => rfl
  | false => rfl

end Counting

namespace Lexer

variable {s : Lexer}

/-- The regions are those that the brackets so far tell of. -/
def Counted (s : Lexer) : Prop :=
  s.regions = Regions.ofEvents s.events.reverse

private theorem Counted.flush (h : s.Counted) : s.flush.Counted := by
  unfold Lexer.flush
  split
  · exact h
  · show s.regions = Regions.ofEvents (_ :: s.events).reverse
    rw [List.reverse_cons, Regions.ofEvents_text]
    exact h

private theorem Counted.emit_embeds (h : s.Counted) (targets : List Target) :
    (s.emit (targets.map .embed)).Counted := by
  show s.flush.regions = Regions.ofEvents (List.reverseAux _ s.flush.events).reverse
  rw [List.reverseAux_eq, List.reverse_append, List.reverse_reverse, Regions.ofEvents_embeds]
  exact h.flush

private theorem Counted.finishTag (h : s.Counted) (closing : Bool) (name attrs : Text) :
    (s.finishTag closing name attrs).Counted := by
  show s.flush.regions.after closing name.reverse = Regions.ofEvents (_ :: s.flush.events).reverse
  rw [List.reverse_cons, Regions.ofEvents_tag, h.flush]

theorem Counted.step (h : s.Counted) (g : Glyph) : (s.step g).Counted := by
  have houtcome := outcome_step s g
  generalize s.step g = s' at houtcome ⊢
  cases houtcome with
  | quiet hevents hregions hsub =>
    unfold Counted
    rw [hevents, hregions]
    exact h
  | tag closing name attrs => exact h.finishTag closing name attrs
  | link hmode hclose => exact h.emit_embeds [_]
  | @subEntry target hmode hbreak =>
    have hemit := h.emit_embeds ((subEntryVariants target).map .subEntry)
    rw [List.map_map] at hemit
    exact hemit

/-- Behind every text, the regions are those that the brackets so far tell of. -/
theorem counted_foldl (subEntries : Bool) (t : Text) :
    (t.foldl feed (start subEntries)).Counted := by
  apply foldl_feed
  · exact fun s held lineBlank h => h
  · exact fun s g h => h.step g
  · exact rfl

end Lexer

/-! ## Open tags -/

namespace Outline

/-- How many open tags have a name. -/
def openCount (o : Outline) (name : Text) : Nat :=
  o.labels.countP (·.name == name)

/-- Whether an event is an opening tag of a name for which there is no room. -/
def ignores (o : Outline) (name : Text) : Event Node → Bool
  | .opening opened _ => opened == name && decide (depthLimit ≤ o.frames.length)
  | _ => false

/-- How many opening tags of a name are ignored in a run of events. -/
def ignoredCount (name : Text) : Outline → List (Event Node) → Nat
  | _, [] => 0
  | o, e :: rest => (if o.ignores name e then 1 else 0) + ignoredCount name (o.apply e) rest

theorem openCount_add (o : Outline) (n : Node) (name : Text) :
    (o.add n).openCount name = o.openCount name := by
  rw [openCount, labels_add, openCount]

variable {name : Text}

private theorem countP_eraseP {α : Type} (p q : α → Bool) (l : List α)
    (h : ∀ a, q a = true → p a = false) : (l.eraseP q).countP p = l.countP p := by
  rcases List.exists_or_eq_self_of_eraseP q l with hsame | ⟨a, before, after, -, ha, hl, herase⟩
  · rw [hsame]
  · rw [herase, hl, List.countP_append, List.countP_append,
      List.countP_cons_of_neg (Bool.eq_false_iff.mp (h a ha))]

private theorem countP_eraseP_self {α : Type} (p : α → Bool) (l : List α) :
    (l.eraseP p).countP p = l.countP p - 1 := by
  induction l with
  | nil => rfl
  | cons a rest ih =>
    cases ha : p a with
    | true => rw [List.eraseP_cons_of_pos ha, List.countP_cons_of_pos ha, Nat.add_sub_cancel]
    | false =>
      have hneg := Bool.eq_false_iff.mp ha
      rw [List.eraseP_cons_of_neg hneg, List.countP_cons_of_neg hneg,
        List.countP_cons_of_neg hneg, ih]

/-- A closing tag ends an open tag of a name that is no margin only if it has that name itself. -/
theorem openCount_endTag (hmargin : isMargin name = false) (o : Outline) (closed : Text) :
    (o.endTag closed).openCount name =
      if closed = name then o.openCount name - 1 else o.openCount name := by
  unfold openCount
  rw [labels_endTag]
  split
  · rename_i hname
    subst hname
    have hfits : (fun l : Label => fits l.name closed) = (·.name == closed) := by
      have hm : (closed == ['m']) = false := by
        rw [beq_eq_false_iff_ne]
        rintro rfl
        cases hmargin
      funext l
      rw [fits, hm, Bool.false_and, Bool.or_false]
    rw [hfits, countP_eraseP_self]
  · rename_i hname
    apply countP_eraseP
    intro l hl
    rw [beq_eq_false_iff_ne]
    rintro rfl
    -- What the closing tag fits has its name or is a margin
    rw [fits, hmargin, Bool.and_false, Bool.or_false] at hl
    exact hname (eq_of_beq hl).symm

theorem openCount_beginTag (o : Outline) (opened attrs : Text) :
    (o.beginTag opened attrs).openCount name =
      if opened = name then o.openCount name + 1 else o.openCount name := by
  unfold openCount
  rw [labels_beginTag]
  by_cases hname : opened = name
  · have hpos : (fun l : Label => l.name == name) ⟨opened, attrs⟩ = true := beq_iff_eq.mpr hname
    rw [if_pos hname]
    split
    · rw [List.countP_append, List.countP_cons_of_pos (p := fun l : Label => l.name == name) hpos]
      rfl
    · rw [List.countP_cons_of_pos (p := fun l : Label => l.name == name) hpos]
  · have hneg : ¬ (fun l : Label => l.name == name) ⟨opened, attrs⟩ = true := by
      rwa [beq_iff_eq]
    rw [if_neg hname]
    split
    · rw [List.countP_append, List.countP_cons_of_neg (p := fun l : Label => l.name == name) hneg]
      rfl
    · rw [List.countP_cons_of_neg (p := fun l : Label => l.name == name) hneg]

theorem openCount_onOpening (hmargin : isMargin name = false) (hbreak : name ≠ ['b', 'r'])
    (o : Outline) (opened attrs : Text) :
    (o.onOpening opened attrs).openCount name =
      if opened = name ∧ ¬ depthLimit ≤ o.frames.length then o.openCount name + 1
      else o.openCount name := by
  by_cases hname : opened = name
  · subst hname
    rw [onOpening, hmargin, if_neg Bool.false_ne_true]
    by_cases hfull : depthLimit ≤ o.frames.length
    · rw [if_pos hfull, if_neg fun h => h.2 hfull]
    · rw [if_neg hfull, if_neg hbreak, if_pos ⟨rfl, hfull⟩, openCount_beginTag, if_pos rfl]
  · rw [if_neg fun h => hname h.1]
    -- A margin ends the margin before it, which has another name
    have hends : (if isMargin opened then o.endTag ['m'] else o).openCount name =
        o.openCount name := by
      have hm : ['m'] ≠ name := by
        rintro rfl
        cases hmargin
      split
      · rw [openCount_endTag hmargin, if_neg hm]
      · rfl
    unfold onOpening
    extract_lets o'
    split
    · exact hends
    split
    · rw [openCount_add]
      exact hends
    · rw [openCount_beginTag, if_neg hname]
      exact hends

/-- An event does to the number of open tags what it does to the count of brackets, unless there is
no room for a tag. -/
theorem openCount_apply (hmargin : isMargin name = false) (hbreak : name ≠ ['b', 'r'])
    (o : Outline) (e : Event Node) :
    (o.apply e).openCount name =
      if o.ignores name e then o.openCount name else bracketStep name (o.openCount name) e := by
  cases e with
  | text t => exact openCount_add o (.text t) name
  | embed n => exact openCount_add o n name
  | closing closed => exact openCount_endTag hmargin o closed
  | opening opened attrs =>
    rw [apply, openCount_onOpening hmargin hbreak, ignores, bracketStep]
    by_cases hname : opened = name
    · rw [if_pos hname, hname, beq_self_eq_true, Bool.true_and]
      by_cases hfull : depthLimit ≤ o.frames.length
      · rw [if_neg fun h => h.2 hfull, if_pos (decide_eq_true hfull)]
      · rw [if_pos ⟨rfl, hfull⟩, if_neg (by rwa [decide_eq_true_eq])]
        rfl
    · rw [if_neg fun h => hname h.1, if_neg hname, ite_self]

private theorem bracketStep_bounds {m n k : Nat} (h : m ≤ n ∧ n ≤ m + k) (name : Text)
    (e : Event Node) :
    bracketStep name m e ≤ bracketStep name n e ∧
      bracketStep name n e ≤ bracketStep name m e + k := by
  have hopen : Regions.shift false m = m + 1 ∧ Regions.shift false n = n + 1 := ⟨rfl, rfl⟩
  have hclose : Regions.shift true m = m - 1 ∧ Regions.shift true n = n - 1 := ⟨rfl, rfl⟩
  unfold bracketStep
  split
  · split <;> omega
  · split <;> omega
  · exact h

/-- Counting brackets comes to the number of open tags, apart from tags that were ignored. -/
theorem openCount_foldl (hmargin : isMargin name = false) (hbreak : name ≠ ['b', 'r'])
    (events : List (Event Node)) {o : Outline} {n k : Nat}
    (h : o.openCount name ≤ n ∧ n ≤ o.openCount name + k) :
    (events.foldl apply o).openCount name ≤ events.foldl (bracketStep name) n ∧
      events.foldl (bracketStep name) n ≤
        (events.foldl apply o).openCount name + (k + ignoredCount name o events) := by
  induction events generalizing o n k with
  | nil => exact h
  | cons e rest ih =>
    have happly := openCount_apply hmargin hbreak o e
    rw [List.foldl_cons, List.foldl_cons, ignoredCount, ← Nat.add_assoc k]
    apply ih
    cases hignored : o.ignores name e with
    | false =>
      rw [hignored, if_neg Bool.false_ne_true] at happly
      rw [happly]
      exact bracketStep_bounds h name e
    | true =>
      -- The bracket counts and the tag is not opened
      rw [hignored, if_pos rfl] at happly
      have hstep : bracketStep name n e = n + 1 := by
        cases e with
        | opening opened attrs =>
          have hname : opened = name := eq_of_beq (Bool.and_eq_true_iff.mp hignored).1
          exact if_pos hname
        | text t => cases hignored
        | closing closed => cases hignored
        | embed content => cases hignored
      rw [happly, hstep, if_pos rfl]
      omega

end Outline

/-- The outline that the events of an article so far describe. -/
def outline (subEntries : Bool) (events : List (Event Target)) : Outline :=
  (events.map (Event.map (Target.toNode subEntries))).foldl Outline.apply .empty

/-- How many opening tags of a name have been ignored so far. -/
def ignoredCount (subEntries : Bool) (name : Text) (events : List (Event Target)) : Nat :=
  Outline.ignoredCount name .empty (events.map (Event.map (Target.toNode subEntries)))

theorem bracketCount_bounds {name : Text} (hmargin : isMargin name = false)
    (hbreak : name ≠ ['b', 'r']) (subEntries : Bool) (events : List (Event Target)) :
    (outline subEntries events).openCount name ≤ bracketCount name events ∧
      bracketCount name events ≤
        (outline subEntries events).openCount name + ignoredCount subEntries name events := by
  have hbounds := Outline.openCount_foldl hmargin hbreak (o := .empty) (n := 0) (k := 0)
    (events.map (Event.map (Target.toNode subEntries))) ⟨Nat.le_refl 0, Nat.le_refl 0⟩
  rw [Nat.zero_add] at hbounds
  rw [← bracketCount_map name (Target.toNode subEntries)]
  exact hbounds

/-! ## Reading in regions -/

namespace Lexer

variable {s : Lexer} {c : Char}

/-- Inside a transcription, a doubled bracket is the bracket itself. -/
theorem feed_bracket_inside (hheld : s.held = none) (hregion : 0 < s.regions.transcription)
    (hc : c = '[' ∨ c = ']') : (s.feed c).feed c = s.accept ⟨c, true⟩ := by
  have hopen : (s.regions.transcription != 0) = true := bne_iff_ne.mpr (Nat.ne_of_gt hregion)
  have hhold : s.regions.mustHold c = true := by
    rw [Regions.mustHold, hopen]
    rcases hc with rfl | rfl <;> rfl
  have hpairs : s.pairs c c = true := by
    rcases hc with rfl | rfl <;> rfl
  rw [feed_feed hheld hhold, if_pos hpairs]

/-- Outside all transcriptions, a bracket is read at once. -/
theorem feed_bracket_outside (hheld : s.held = none) (hregion : s.regions.transcription = 0)
    (hc : c = '[' ∨ c = ']') : s.feed c = s.accept ⟨c, false⟩ := by
  apply feed_at_once hheld
  rw [Regions.mustHold, hregion]
  rcases hc with rfl | rfl <;> rfl

/-- Inside a media name, a backslash is kept, unless a bracket or a backslash follows. -/
theorem feed_backslash_inside (hheld : s.held = none) (hregion : 0 < s.regions.media)
    (hc : c ≠ '[' ∧ c ≠ ']' ∧ c ≠ '\\') :
    (s.feed '\\').feed c = (s.accept ⟨'\\', false⟩).accept ⟨c, false⟩ := by
  have hpairs : ¬ s.pairs '\\' c = true := by
    simp only [pairs, Regions.backslashEscapes, if_true, Bool.or_eq_true, beq_iff_eq, not_or]
    exact ⟨⟨⟨Nat.ne_of_gt hregion, hc.1⟩, hc.2.1⟩, hc.2.2⟩
  have hfree := mustHold_of_ne hc.1 hc.2.1 hc.2.2
  rw [feed_feed hheld rfl, if_neg hpairs, take, if_neg (Bool.eq_false_iff.mp (hfree _))]

/-- Outside all media names, a backslash escapes whatever follows. -/
theorem feed_backslash_outside (hheld : s.held = none) (hregion : s.regions.media = 0)
    (c : Char) : (s.feed '\\').feed c = s.accept ⟨c, true⟩ := by
  have hpairs : s.pairs '\\' c = true := by
    rw [pairs, if_pos rfl, Regions.backslashEscapes, hregion]
    rfl
  rw [feed_feed hheld rfl, if_pos hpairs]

end Lexer

/-- At each point of a text, the regions follow the open tags: there are as many as tags of their name
are open, apart from tags that have been ignored since too many were open. So a doubled bracket is the
bracket itself where a transcription is open, and a backslash is part of a media name where one is;
and a bracket is markup and a backslash escapes where none is open and none has been ignored. -/
theorem regions_follow_tags (subEntries : Bool) (t : Text) :
    let s := t.foldl Lexer.feed (Lexer.start subEntries)
    let o := outline subEntries s.events.reverse
    let ignored := fun name => ignoredCount subEntries name s.events.reverse
    (o.openCount ['t'] ≤ s.regions.transcription ∧
      s.regions.transcription ≤ o.openCount ['t'] + ignored ['t']) ∧
    (o.openCount ['s'] ≤ s.regions.media ∧ s.regions.media ≤ o.openCount ['s'] + ignored ['s']) ∧
    (s.held = none →
      (∀ c, c = '[' ∨ c = ']' →
        (0 < o.openCount ['t'] → (s.feed c).feed c = s.accept ⟨c, true⟩) ∧
        (o.openCount ['t'] = 0 → ignored ['t'] = 0 → s.feed c = s.accept ⟨c, false⟩)) ∧
      (∀ c, c ≠ '[' ∧ c ≠ ']' ∧ c ≠ '\\' →
        (0 < o.openCount ['s'] →
          (s.feed '\\').feed c = (s.accept ⟨'\\', false⟩).accept ⟨c, false⟩) ∧
        (o.openCount ['s'] = 0 → ignored ['s'] = 0 →
          (s.feed '\\').feed c = s.accept ⟨c, true⟩))) := by
  intro s o ignored
  have hcounted : s.regions = .ofEvents s.events.reverse := Lexer.counted_foldl subEntries t
  have ht : o.openCount ['t'] ≤ s.regions.transcription ∧
      s.regions.transcription ≤ o.openCount ['t'] + ignored ['t'] := by
    rw [hcounted]
    exact bracketCount_bounds (by decide) (by decide) subEntries s.events.reverse
  have hs : o.openCount ['s'] ≤ s.regions.media ∧
      s.regions.media ≤ o.openCount ['s'] + ignored ['s'] := by
    rw [hcounted]
    exact bracketCount_bounds (by decide) (by decide) subEntries s.events.reverse
  refine ⟨ht, hs, fun hheld => ⟨fun c hc => ⟨fun hopen => ?_, fun hopen hignored => ?_⟩,
    fun c hc => ⟨fun hopen => ?_, fun hopen hignored => ?_⟩⟩⟩
  · exact Lexer.feed_bracket_inside hheld (Nat.lt_of_lt_of_le hopen ht.1) hc
  · exact Lexer.feed_bracket_outside hheld (by omega) hc
  · exact Lexer.feed_backslash_inside hheld (Nat.lt_of_lt_of_le hopen hs.1) hc
  · exact Lexer.feed_backslash_outside hheld (by omega) c

/-- Tags up to the limit, and then a transcription. -/
private def beyondLimit : Text :=
  (List.replicate depthLimit "[b]".toList).flatten ++ "[t]".toList

/-- A transcription for which there is no room is not open, but brackets are read as if it were. -/
theorem regions_beyond_limit :
    let s := beyondLimit.foldl Lexer.feed (Lexer.start true)
    (outline true s.events.reverse).openCount ['t'] = 0 ∧ s.regions.transcription = 1 ∧
      (s.feed '[').feed '[' = s.accept ⟨'[', true⟩ := by
  intro s
  have hcounts : (outline true s.events.reverse).openCount ['t'] = 0 ∧
      s.regions.transcription = 1 ∧ s.held = none := by
    decide +kernel
  obtain ⟨hopen, hcount, hheld⟩ := hcounts
  refine ⟨hopen, hcount, Lexer.feed_bracket_inside hheld ?_ (.inl rfl)⟩
  rw [hcount]
  exact Nat.one_pos

end Lexicon.Markup
