import Lexicon.Proofs.Markup.Settled

/-!
# What a step of the lexer does

Most glyphs only change what is being read. Events come from three places: the end of a tag, which
also changes the regions, the end of a link and the end of a sub-entry. Facts about events and
regions are proved for these three and for a step that adds no event, and hold behind every text then.

## Key results

- `Lexer.outcome_step`: what reading a glyph can do
- `Lexer.step_text`: what is text
- `Lexer.feed_at_once`, `Lexer.feed_of_mustHold`, `Lexer.feed_feed`: how characters become glyphs
- `Lexer.foldl_feed`: what holds at the start and is kept by every glyph holds behind every text
- `Lexer.mem_step_embed`, `Lexer.mem_conclude_embed`: where something is embedded in an article
- `Lexer.foldl_feed_pieces`: the same as `foldl_feed` with the text still to be read, piece by piece
-/

namespace Lexicon.Markup.Lexer

/-- What reading a glyph can do. -/
inductive Outcome (s : Lexer) (g : Glyph) : Lexer → Prop
  /-- No event is added. -/
  | quiet {s' : Lexer} : s'.events = s.events → s'.regions = s.regions →
    s'.subEntries = s.subEntries → Outcome s g s'
  | tag (closing : Bool) (name attrs : Text) : Outcome s g (s.finishTag closing name attrs)
  | link {target : Text} :
    s.mode = .linkAngle target → g.isPlain '>' = true → Outcome s g (s.finishLink target)
  | subEntry {target : Text} :
    s.mode = .subEntry target → g.isPlain '\n' = true → Outcome s g (s.finishSubEntry target)

variable {s : Lexer}

private theorem outcome_readText (s : Lexer) (g : Glyph) :
    (s.readText g).events = s.events ∧ (s.readText g).regions = s.regions ∧
      (s.readText g).subEntries = s.subEntries := by
  unfold readText
  split
  · exact ⟨rfl, rfl, rfl⟩
  split
  · exact ⟨rfl, rfl, rfl⟩
  split
  · exact ⟨rfl, rfl, rfl⟩
  split
  · exact ⟨rfl, rfl, rfl⟩
  · exact ⟨rfl, rfl, rfl⟩

private theorem outcome_readAttrs (closing : Bool) (name attrs : Text) (g : Glyph) :
    s.Outcome g (s.readAttrs closing name attrs g) := by
  unfold readAttrs
  split
  · exact .tag closing name attrs
  · exact .quiet rfl rfl rfl

private theorem outcome_readGap (closing : Bool) (name : Text) (g : Glyph) :
    s.Outcome g (s.readGap closing name g) := by
  unfold readGap
  split
  · exact .quiet rfl rfl rfl
  · exact outcome_readAttrs closing name [] g

private theorem outcome_readName (closing : Bool) (name : Text) (g : Glyph) :
    s.Outcome g (s.readName closing name g) := by
  unfold readName
  split
  · exact outcome_readGap closing name g
  · exact .quiet rfl rfl rfl

private theorem outcome_readTarget (target : Text) (g : Glyph) :
    s.Outcome g (s.readTarget target g) := by
  unfold readTarget
  split
  · exact .quiet rfl rfl rfl
  · exact .quiet rfl rfl rfl

theorem outcome_step (s : Lexer) (g : Glyph) : s.Outcome g (s.step g) := by
  unfold step
  split
  case h_1 =>
    obtain ⟨hevents, hregions, hsub⟩ := outcome_readText s g
    exact .quiet hevents hregions hsub
  case h_2 =>
    split
    · exact .quiet rfl rfl rfl
    · obtain ⟨hevents, hregions, hsub⟩ := outcome_readText (s.push '<') g
      exact .quiet hevents hregions hsub
  case h_3 =>
    split
    · exact .quiet rfl rfl rfl
    · obtain ⟨hevents, hregions, hsub⟩ := outcome_readText (s.push '{') g
      exact .quiet hevents hregions hsub
  case h_4 =>
    split
    · exact .quiet rfl rfl rfl
    split
    · exact .quiet rfl rfl rfl
    · exact outcome_readName false [] g
  case h_5 => exact outcome_readName _ _ g
  case h_6 => exact outcome_readGap _ _ g
  case h_7 => exact outcome_readAttrs _ _ _ g
  case h_8 =>
    split
    · exact .quiet rfl rfl rfl
    · exact outcome_readTarget [] g
  case h_9 => exact outcome_readTarget _ g
  case h_10 hmode =>
    split
    · rename_i hclose
      exact .link hmode hclose
    · exact .quiet rfl rfl rfl
  case h_11 =>
    split
    · exact .quiet rfl rfl rfl
    · exact .quiet rfl rfl rfl
  case h_12 =>
    split
    · exact .quiet rfl rfl rfl
    · exact .quiet rfl rfl rfl
  case h_13 hmode =>
    split
    · rename_i hbreak
      exact .subEntry hmode hbreak
    split
    · exact .quiet rfl rfl rfl
    · exact .quiet rfl rfl rfl

/-- In running text a glyph that starts nothing else is text. -/
theorem step_text {g : Glyph} (hmode : s.mode = .text) (htag : g.isPlain '[' = false)
    (hlink : g.isPlain '<' = false) (hcomment : g.isPlain '{' = false)
    (hsub : g.isPlain '@' = false) : s.step g = s.push (s.textChar g) := by
  unfold step readText
  simp only [hmode]
  rw [htag, hlink, hcomment, hsub]
  rfl

/-! ## Characters -/

/-- Only a backslash or a bracket may have to wait for the next character. -/
theorem mustHold_of_ne {c : Char} (hopening : c ≠ '[') (hclosing : c ≠ ']') (hback : c ≠ '\\')
    (r : Regions) : r.mustHold c = false := by
  simp [Regions.mustHold, hopening, hclosing, hback]

/-- A character that can be read at once is. -/
theorem feed_at_once {c : Char} (hheld : s.held = none) (hhold : s.regions.mustHold c = false) :
    s.feed c = s.accept ⟨c, false⟩ := by
  unfold feed
  rw [hheld]
  exact if_neg (Bool.eq_false_iff.mp hhold)

/-- A character that has to be held back is. -/
theorem feed_of_mustHold {c : Char} (hheld : s.held = none)
    (hhold : s.regions.mustHold c = true) : s.feed c = { s with held := some c } := by
  unfold feed
  rw [hheld]
  exact if_pos hhold

/-- A character that has to be held back is read together with the next one, or before it. -/
theorem feed_feed {c : Char} (hheld : s.held = none) (hhold : s.regions.mustHold c = true)
    (next : Char) :
    (s.feed c).feed next =
      if s.pairs c next then s.accept ⟨next, true⟩ else (s.accept ⟨c, false⟩).take next := by
  have hback : { s with held := none } = s := by
    rw [← hheld]
  rw [feed_of_mustHold hheld hhold]
  show (if Lexer.pairs { s with held := none } c next then
      Lexer.accept { s with held := none } ⟨next, true⟩
    else (Lexer.accept { s with held := none } ⟨c, false⟩).take next) = _
  rw [hback]

/-! ## Texts -/

/-- A property that is kept by every glyph is kept by every text, unless it looks at the held
character or at where lines start. -/
theorem foldl_feed {P : Lexer → Prop}
    (hcongr : ∀ (s : Lexer) (held : Option Char) (lineBlank : Bool), P s →
      P { s with held, lineBlank })
    (hstep : ∀ (s : Lexer) (g : Glyph), P s → P (s.step g)) (h : P s) (t : Text) :
    P (t.foldl feed s) := by
  have haccept : ∀ (s : Lexer) (g : Glyph), P s → P (s.accept g) :=
    fun s g h => hcongr (s.step g) _ _ (hstep s g h)
  have htake : ∀ (s : Lexer) (c : Char), P s → P (s.take c) := by
    intro s c h
    unfold take
    split
    · exact hcongr s (some c) s.lineBlank h
    · exact haccept s ⟨c, false⟩ h
  induction t generalizing s with
  | nil => exact h
  | cons c rest ih =>
    apply ih
    unfold feed
    split
    · exact htake s c h
    · rename_i held _
      have hfree : P { s with held := none } := hcongr s none s.lineBlank h
      simp only
      split
      · exact haccept _ ⟨c, true⟩ hfree
      · exact htake _ c (haccept _ ⟨held, false⟩ hfree)

/-- Only backslashes and brackets are held back. -/
theorem held_foldl (subEntries : Bool) (t : Text) {held : Char}
    (h : (t.foldl feed (start subEntries)).held = some held) :
    held = '\\' ∨ held = '[' ∨ held = ']' := by
  rcases t.eq_nil_or_concat with rfl | ⟨before, c, rfl⟩
  · cases h
  · rw [List.concat_eq_append, List.foldl_append] at h
    obtain ⟨rfl, hc⟩ := held_feed h
    exact hc

/-! ## Embedded texts -/

private theorem mem_flush_embed {x : Target} :
    .embed x ∈ s.flush.events ↔ .embed x ∈ s.events := by
  unfold flush
  split
  · exact .rfl
  · constructor
    · intro h
      exact (List.mem_cons.mp h).resolve_left nofun
    · exact List.mem_cons_of_mem _

private theorem mem_emit_embed {x : Target} {events : List (Event Target)} :
    .embed x ∈ (s.emit events).events ↔ .embed x ∈ events ∨ .embed x ∈ s.events := by
  show _ ∈ events.reverseAux s.flush.events ↔ _
  rw [List.reverseAux_eq, List.mem_append, List.mem_reverse, mem_flush_embed]

private theorem mem_finishSubEntry {x : Target} {target : Text}
    (h : .embed x ∈ (s.finishSubEntry target).events) :
    .embed x ∈ s.events ∨ ∃ v ∈ subEntryVariants target, x = .subEntry v := by
  rcases mem_emit_embed.mp h with h | h
  · obtain ⟨v, hv, hx⟩ := List.mem_map.mp h
    exact .inr ⟨v, hv, (Event.embed.inj hx).symm⟩
  · exact .inl h

/-- A text is embedded where a link or a sub-entry ends. -/
theorem mem_step_embed {g : Glyph} {x : Target} (h : .embed x ∈ (s.step g).events) :
    .embed x ∈ s.events ∨
      (∃ target, s.mode = .linkAngle target ∧ g.isPlain '>' = true ∧
        x = .link (targetText target)) ∨
      ∃ target, s.mode = .subEntry target ∧ ∃ v ∈ subEntryVariants target, x = .subEntry v := by
  have houtcome := outcome_step s g
  generalize s.step g = s' at houtcome h
  cases houtcome with
  | quiet hevents hregions hsub =>
    rw [hevents] at h
    exact .inl h
  | tag closing name attrs =>
    rcases mem_emit_embed.mp h with h | h
    · have hx := List.mem_singleton.mp h
      split at hx
      · cases hx
      · cases hx
    · exact .inl h
  | link hmode hclose =>
    rcases mem_emit_embed.mp h with h | h
    · exact .inr (.inl ⟨_, hmode, hclose, Event.embed.inj (List.mem_singleton.mp h)⟩)
    · exact .inl h
  | subEntry hmode =>
    rcases mem_finishSubEntry h with h | h
    · exact .inl h
    · exact .inr (.inr ⟨_, hmode, h⟩)

private theorem mem_release_embed {x : Target} (hheld : s.held ≠ some '>')
    (h : .embed x ∈ s.release.events) :
    .embed x ∈ s.events ∨
      ∃ target, s.mode = .subEntry target ∧ ∃ v ∈ subEntryVariants target, x = .subEntry v := by
  unfold release at h
  split at h
  · exact .inl h
  · rename_i held hs
    simp only at h
    split at h
    · exact .inl h
    · rcases mem_step_embed h with h | ⟨target, hmode, hclose, hx⟩ | h
      · exact .inl h
      · -- What is held back ends no link
        have hchar : held = '>' := eq_of_beq (Bool.and_eq_true_iff.mp hclose).2
        exact absurd (hchar ▸ hs) hheld
      · exact .inr h

private theorem mem_close_embed {x : Target} (h : .embed x ∈ s.close.events) :
    .embed x ∈ s.events ∨
      ∃ target, s.mode = .subEntry target ∧ ∃ v ∈ subEntryVariants target, x = .subEntry v := by
  unfold close at h
  split at h
  · exact .inl h
  · exact .inl h
  · rename_i target hmode
    rcases mem_finishSubEntry h with h | h
    · exact .inl h
    · exact .inr ⟨target, hmode, h⟩
  · exact .inl h

/-- At the end of the text at most a sub-entry ends. -/
theorem mem_conclude_embed {x : Target} (hheld : s.held ≠ some '>') (h : .embed x ∈ s.conclude) :
    .embed x ∈ s.events ∨
      ∃ target, (s.mode = .subEntry target ∨ s.release.mode = .subEntry target) ∧
        ∃ v ∈ subEntryVariants target, x = .subEntry v := by
  rcases mem_close_embed (mem_flush_embed.mp (List.mem_reverse.mp h)) with h | ⟨target, hmode, h⟩
  · rcases mem_release_embed hheld h with h | ⟨target, hmode, h⟩
    · exact .inl h
    · exact .inr ⟨target, .inl hmode, h⟩
  · exact .inr ⟨target, .inr hmode, h⟩

/-! ## Pieces -/

/-- The state with the held character given back to the text. -/
def unheld (s : Lexer) : Lexer :=
  { s with held := none }

private theorem unheld_eq (hheld : s.held = none) : s.unheld = s := by
  rw [unheld, ← hheld]

section Pieces

variable {J : Lexer → Text → Prop}
  (plain : ∀ (s : Lexer) (c : Char) (t : Text), c ≠ '\\' → J s (c :: t) →
    J (s.accept ⟨c, false⟩) t)
  (escaped : ∀ (s : Lexer) (c : Char) (t : Text), s.regions.backslashEscapes c = true →
    J s ('\\' :: c :: t) → J (s.accept ⟨c, true⟩) t)
  (kept : ∀ (s : Lexer) (c : Char) (t : Text), s.regions.backslashEscapes c = false →
    J s ('\\' :: c :: t) → J ((s.accept ⟨'\\', false⟩).accept ⟨c, false⟩) t)
  (doubled : ∀ (s : Lexer) (c : Char) (t : Text), c = '[' ∨ c = ']' → J s (c :: c :: t) →
    J (s.accept ⟨c, true⟩) t)
include plain escaped kept doubled

omit escaped kept doubled in
private theorem take_pieces (hheld : s.held = none) {c : Char} {t : Text} (h : J s (c :: t)) :
    J (s.take c).unheld ((s.take c).held.toList ++ t) := by
  unfold take
  split
  · show J s.unheld (c :: t)
    rwa [unheld_eq hheld]
  · rename_i hhold
    have hback : c ≠ '\\' := by
      rintro rfl
      exact hhold rfl
    have hfree : (s.accept ⟨c, false⟩).held = none := by rw [held_accept, hheld]
    rw [unheld_eq hfree, hfree]
    exact plain s c t hback h

private theorem feed_pieces {c : Char} {t : Text}
    (hheld : ∀ held, s.held = some held → held = '\\' ∨ held = '[' ∨ held = ']')
    (h : J s.unheld (s.held.toList ++ c :: t)) :
    J (s.feed c).unheld ((s.feed c).held.toList ++ t) := by
  cases hs : s.held with
  | none =>
    have hfeed : s.feed c = s.take c := by rw [feed, hs]
    rw [hs, unheld_eq hs] at h
    rw [hfeed]
    exact take_pieces plain hs h
  | some held =>
    have hfeed : s.feed c = if s.unheld.pairs held c then s.unheld.accept ⟨c, true⟩
        else (s.unheld.accept ⟨held, false⟩).take c := by
      rw [feed, hs]
      rfl
    have haccept : ∀ g, (s.unheld.accept g).held = none := fun g => held_accept _ g
    rw [hs] at h
    rw [hfeed]
    split
    · -- The held character and this one are one glyph
      rename_i hpairs
      rw [unheld_eq (haccept _), haccept]
      by_cases hback : held = '\\'
      · subst hback
        exact escaped s.unheld c t hpairs h
      · rw [pairs, if_neg hback] at hpairs
        obtain rfl : c = held := eq_of_beq hpairs
        exact doubled s.unheld c t ((hheld c hs).resolve_left hback) h
    · rename_i hpairs
      by_cases hback : held = '\\'
      · subst hback
        have hescapes : s.unheld.regions.backslashEscapes c = false := Bool.eq_false_iff.mpr hpairs
        have hne := hescapes
        simp only [Regions.backslashEscapes, Bool.or_eq_false_iff, beq_eq_false_iff_ne] at hne
        have hhold := mustHold_of_ne hne.1.1.2 hne.1.2 hne.2
        have hfree : ((s.unheld.accept ⟨'\\', false⟩).accept ⟨c, false⟩).held = none := by
          rw [held_accept, haccept]
        rw [take, if_neg (Bool.eq_false_iff.mp (hhold _)), unheld_eq hfree, hfree]
        exact kept s.unheld c t hescapes h
      · exact take_pieces plain (haccept _) (plain s.unheld held (c :: t) hback h)

/-- Reading a text is reading it piece by piece: what holds of the state and the text still to be
read, and is kept by reading a plain character, an escape pair in its two readings and a doubled
bracket, holds behind the whole text, of which at most the held character is still to be read. -/
theorem foldl_feed_pieces
    (hheld : ∀ held, s.held = some held → held = '\\' ∨ held = '[' ∨ held = ']') {t : Text}
    (h : J s.unheld (s.held.toList ++ t)) :
    J (t.foldl feed s).unheld (t.foldl feed s).held.toList := by
  induction t generalizing s with
  | nil =>
    rw [List.append_nil] at h
    exact h
  | cons c t ih =>
    refine ih (fun held hfed => ?_) (feed_pieces plain escaped kept doubled hheld h)
    obtain ⟨rfl, hc⟩ := held_feed hfed
    exact hc

end Pieces

end Lexicon.Markup.Lexer
