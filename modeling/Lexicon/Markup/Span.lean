import Lexicon.Markup.Lexer

/-!
# Targets are shorter than their article

A link target leaves four angle brackets behind in the article, a sub-entry an at sign, and writing
an escape back never takes more characters than were read. So the targets met in an article are
shorter than the article, and reading them in turn comes to an end.

The invariant is `Lexer.Fits n`: after `n` characters, everything collected or already handed out
takes up at most `n` characters.
-/

namespace Lexicon.Markup

/-- How many characters of the article a target being collected takes up so far. -/
def Mode.span : Mode → Nat
  | .angle => 1
  | .linkStart => 2
  | .link target => target.length + 2
  | .linkAngle target => target.length + 3
  | .subEntry target => target.length + 1
  | _ => 0

/-- The number of characters that a glyph was written with. -/
def Glyph.span (g : Glyph) : Nat :=
  if g.escaped then 2 else 1

theorem Glyph.span_pos (g : Glyph) : 0 < g.span := by
  unfold span; split <;> omega

theorem Glyph.length_sourceOnto (g : Glyph) (done : Text) :
    (g.sourceOnto done).length = done.length + g.span := by
  unfold sourceOnto span; split <;> simp

namespace Lexer

/-- All targets handed out take up at most `n` characters. -/
def EventsFit (n : Nat) (s : Lexer) : Prop :=
  ∀ target, .embed target ∈ s.events → target.span ≤ n

/-- What is being collected and all targets handed out take up at most `n` characters. -/
structure Fits (n : Nat) (s : Lexer) : Prop where
  mode : s.mode.span ≤ n
  events : s.EventsFit n

/-! ## Events -/

theorem EventsFit.mono {m n : Nat} {s : Lexer} (h : s.EventsFit m) (hmn : m ≤ n) :
    s.EventsFit n :=
  fun target ht => Nat.le_trans (h target ht) hmn

theorem EventsFit.flush {n : Nat} {s : Lexer} (h : s.EventsFit n) : s.flush.EventsFit n := by
  intro target ht
  unfold Lexer.flush at ht
  split at ht
  · exact h target ht
  · exact h target (by simpa using ht)

theorem EventsFit.emit {n : Nat} {s : Lexer} {events : List (Event Target)} (h : s.EventsFit n)
    (hevents : ∀ target, .embed target ∈ events → target.span ≤ n) : (s.emit events).EventsFit n := by
  intro target ht
  simp only [Lexer.emit, List.reverseAux_eq, List.mem_append, List.mem_reverse] at ht
  exact ht.elim (hevents target) (h.flush target)

theorem EventsFit.finishTag {n : Nat} {s : Lexer} (h : s.EventsFit n) (closing : Bool)
    (name attrs : Text) : (s.finishTag closing name attrs).EventsFit n := by
  refine EventsFit.emit (s := s) h fun target ht => ?_
  split at ht <;> simp at ht

theorem length_targetText_le (target : Text) : (targetText target).length ≤ target.length := by
  refine Nat.le_trans (Headword.length_resolveUnsorted_le _ _) ?_
  simpa using Text.length_trim_le target.reverse

theorem EventsFit.finishLink {n : Nat} {s : Lexer} {target : Text} (h : s.EventsFit n)
    (ht : target.length + 4 ≤ n) : (s.finishLink target).EventsFit n := by
  refine EventsFit.emit (s := s) h fun t hmem => ?_
  have := length_targetText_le target
  simp only [List.mem_singleton, Event.embed.injEq] at hmem
  subst hmem
  simp only [Target.span]
  omega

theorem length_le_of_mem_subEntryVariants {target v : Text} (h : v ∈ subEntryVariants target) :
    v.length ≤ target.length := by
  simp only [subEntryVariants, List.mem_filter, List.mem_map] at h
  obtain ⟨⟨u, hu, rfl⟩, _⟩ := h
  exact Nat.le_trans (Text.length_trim_le u)
    (Nat.le_trans (Headword.length_le_of_mem_variants hu) (length_targetText_le target))

theorem EventsFit.finishSubEntry {n : Nat} {s : Lexer} {target : Text} (h : s.EventsFit n)
    (ht : target.length + 1 ≤ n) : (s.finishSubEntry target).EventsFit n := by
  refine EventsFit.emit (s := s) h fun t hmem => ?_
  simp only [List.mem_map, Event.embed.injEq] at hmem
  obtain ⟨v, hv, rfl⟩ := hmem
  have := length_le_of_mem_subEntryVariants hv
  simp only [Target.span]
  omega

/-! ## Glyphs -/

private theorem fits_goto {n : Nat} {s : Lexer} {mode : Mode} (h : s.EventsFit n)
    (hm : mode.span ≤ n) : (s.goto mode).Fits n :=
  ⟨hm, h⟩

private theorem fits_readText {n : Nat} {s : Lexer} (h : s.EventsFit (n + 1)) (g : Glyph) :
    (s.readText g).Fits (n + 1) := by
  unfold readText
  repeat' split
  all_goals exact ⟨by simp [Lexer.goto, Lexer.push, Mode.span], h⟩

private theorem fits_readAttrs {n : Nat} {s : Lexer} (h : s.EventsFit n) (closing : Bool)
    (name attrs : Text) (g : Glyph) : (s.readAttrs closing name attrs g).Fits n := by
  unfold readAttrs
  split
  · exact ⟨Nat.zero_le _, h.finishTag closing name attrs⟩
  · exact fits_goto h (Nat.zero_le _)

private theorem fits_readGap {n : Nat} {s : Lexer} (h : s.EventsFit n) (closing : Bool)
    (name : Text) (g : Glyph) : (s.readGap closing name g).Fits n := by
  unfold readGap
  split
  · exact fits_goto h (Nat.zero_le _)
  · exact fits_readAttrs h closing name [] g

private theorem fits_readName {n : Nat} {s : Lexer} (h : s.EventsFit n) (closing : Bool)
    (name : Text) (g : Glyph) : (s.readName closing name g).Fits n := by
  unfold readName
  split
  · exact fits_readGap h closing name g
  · exact fits_goto h (Nat.zero_le _)

private theorem fits_readTarget {n : Nat} {s : Lexer} {target : Text} {g : Glyph}
    (h : s.EventsFit n) (ht : target.length + 2 + g.span ≤ n) : (s.readTarget target g).Fits n := by
  have := g.span_pos
  unfold readTarget
  split
  · exact fits_goto h (by simp only [Mode.span]; omega)
  · exact fits_goto h (by simp only [Mode.span, Glyph.length_sourceOnto]; omega)

private theorem fits_step {n : Nat} {s : Lexer} (h : s.Fits n) (g : Glyph) :
    (s.step g).Fits (n + g.span) := by
  have hpos := g.span_pos
  have hmode := h.mode
  have hevents := h.events.mono (Nat.le_add_right n g.span)
  -- Running text may push a character, so it needs the bound in successor form
  obtain ⟨m, hm⟩ : ∃ m, n + g.span = m + 1 := ⟨n + g.span - 1, by omega⟩
  unfold step
  split <;> rename_i hs <;> rw [hs] at hmode <;> simp only [Mode.span] at hmode
  -- Running text, and the first characters of what may become a link or a comment
  case h_1 => rw [hm] at hevents ⊢; exact fits_readText hevents g
  case h_2 =>
    split
    · exact fits_goto hevents (by simp only [Mode.span]; omega)
    · rw [hm] at hevents ⊢; exact fits_readText (s := s.push '<') hevents g
  case h_3 =>
    split
    · exact fits_goto hevents (Nat.zero_le _)
    · rw [hm] at hevents ⊢; exact fits_readText (s := s.push '{') hevents g
  -- Tags collect no target
  case h_4 =>
    split
    · exact ⟨by rw [hs]; exact Nat.zero_le _, hevents⟩
    · split
      · exact fits_goto hevents (Nat.zero_le _)
      · exact fits_readName hevents false [] g
  case h_5 => exact fits_readName hevents _ _ g
  case h_6 => exact fits_readGap hevents _ _ g
  case h_7 => exact fits_readAttrs hevents _ _ _ g
  -- Links: the two angle brackets count, then each glyph of the target
  case h_8 =>
    split
    · exact ⟨by rw [hs]; simp only [Mode.span]; omega, hevents⟩
    · exact fits_readTarget hevents (by simp only [List.length_nil]; omega)
  case h_9 => exact fits_readTarget hevents (by omega)
  case h_10 =>
    split
    · exact ⟨Nat.zero_le _, hevents.finishLink (by omega)⟩
    · exact fits_goto hevents
        (by simp only [Mode.span, Glyph.length_sourceOnto, List.length_cons]; omega)
  -- Comments collect nothing
  case h_11 =>
    split
    · exact fits_goto hevents (Nat.zero_le _)
    · exact ⟨by rw [hs]; exact Nat.zero_le _, hevents⟩
  case h_12 => split <;> exact fits_goto hevents (Nat.zero_le _)
  -- Sub-entries: the at sign counts, then each glyph of the target
  case h_13 =>
    split
    · exact ⟨Nat.zero_le _, hevents.finishSubEntry (by omega)⟩
    · split
      · exact ⟨by rw [hs]; simp only [Mode.span]; omega, hevents⟩
      · exact fits_goto hevents (by simp only [Mode.span, Glyph.length_sourceOnto]; omega)

private theorem fits_accept {n : Nat} {s : Lexer} (h : s.Fits n) (g : Glyph) :
    (s.accept g).Fits (n + g.span) :=
  ⟨(fits_step h g).mode, (fits_step h g).events⟩

/-! ## The held character -/

private theorem held_flush (s : Lexer) : s.flush.held = s.held := by
  unfold flush; split <;> rfl

private theorem held_readAttrs (s : Lexer) (closing : Bool) (name attrs : Text) (g : Glyph) :
    (s.readAttrs closing name attrs g).held = s.held := by
  unfold readAttrs; split
  · exact held_flush s
  · rfl

private theorem held_readGap (s : Lexer) (closing : Bool) (name : Text) (g : Glyph) :
    (s.readGap closing name g).held = s.held := by
  unfold readGap; split
  · rfl
  · exact held_readAttrs s closing name [] g

private theorem held_readName (s : Lexer) (closing : Bool) (name : Text) (g : Glyph) :
    (s.readName closing name g).held = s.held := by
  unfold readName; split
  · exact held_readGap s closing name g
  · rfl

private theorem held_readText (s : Lexer) (g : Glyph) : (s.readText g).held = s.held := by
  unfold readText; repeat' split
  all_goals rfl

private theorem held_readTarget (s : Lexer) (target : Text) (g : Glyph) :
    (s.readTarget target g).held = s.held := by
  unfold readTarget; split <;> rfl

/-- Reading a glyph leaves the held character alone. -/
theorem held_accept (s : Lexer) (g : Glyph) : (s.accept g).held = s.held := by
  change (s.step g).held = s.held
  unfold step
  repeat' split
  all_goals first
    | rfl
    | exact held_readText _ g
    | exact held_readName _ _ _ g
    | exact held_readGap _ _ _ g
    | exact held_readAttrs _ _ _ _ g
    | exact held_readTarget _ _ g
    | exact held_flush s

/-! ## Characters -/

/-- `n` characters have been taken, the one held back among them. -/
def Took (n : Nat) (s : Lexer) : Prop :=
  ∃ m, s.Fits m ∧ m + s.held.toList.length ≤ n

private theorem Fits.mono {m n : Nat} {s : Lexer} (h : s.Fits m) (hmn : m ≤ n) : s.Fits n :=
  ⟨Nat.le_trans h.mode hmn, h.events.mono hmn⟩

private theorem took_start (subEntries : Bool) : (start subEntries).Took 0 :=
  ⟨0, ⟨Nat.le_refl _, fun _ h => by cases h⟩, Nat.le_refl _⟩

private theorem took_take {n : Nat} {s : Lexer} (h : s.Fits n) (hheld : s.held = none) (c : Char) :
    (s.take c).Took (n + 1) := by
  unfold take
  split
  · exact ⟨n, ⟨h.mode, h.events⟩, Nat.le_refl _⟩
  · exact ⟨n + 1, fits_accept h ⟨c, false⟩, by rw [held_accept, hheld]; exact Nat.le_refl _⟩

private theorem took_feed {n : Nat} {s : Lexer} (h : s.Took n) (c : Char) :
    (s.feed c).Took (n + 1) := by
  obtain ⟨m, hfits, hm⟩ := h
  unfold feed
  split
  · -- Nothing was held back: the character is held back or read by itself
    rename_i hheld
    obtain ⟨k, hk, hle⟩ := took_take hfits hheld c
    exact ⟨k, hk, by omega⟩
  · rename_i held hheld
    have hfits' : Fits m { s with held := none } := ⟨hfits.mode, hfits.events⟩
    simp only [hheld, Option.toList_some, List.length_singleton] at hm
    simp only
    split
    · -- The two characters are one escaped glyph
      refine ⟨m + 2, fits_accept hfits' ⟨c, true⟩, ?_⟩
      rw [held_accept]; exact Nat.succ_le_succ hm
    · -- The held character stands for itself, and the new one is taken after it
      obtain ⟨k, hk, hle⟩ :=
        took_take (fits_accept hfits' ⟨held, false⟩) (held_accept _ _) c
      exact ⟨k, hk, by simp only [Glyph.span] at hle; simp at hle; omega⟩

private theorem took_foldl {n : Nat} {s : Lexer} (h : s.Took n) (t : Text) :
    (t.foldl feed s).Took (n + t.length) := by
  induction t generalizing n s with
  | nil => exact h
  | cons c rest ih =>
    have := ih (took_feed h c)
    rw [List.foldl_cons, List.length_cons]
    rwa [show n + (rest.length + 1) = n + 1 + rest.length by omega]

/-! ## The end of the text -/

private theorem Took.release {n : Nat} {s : Lexer} (h : s.Took n) : s.release.Fits n := by
  obtain ⟨m, hfits, hm⟩ := h
  unfold Lexer.release
  split
  · exact hfits.mono (by omega)
  · rename_i held hheld
    have hfits' : Fits m { s with held := none } := ⟨hfits.mode, hfits.events⟩
    simp only [hheld, Option.toList_some, List.length_singleton] at hm
    simp only
    split
    · exact hfits'.mono (by omega)
    · exact (fits_accept hfits' ⟨held, false⟩).mono hm

private theorem Fits.close {n : Nat} {s : Lexer} (h : s.Fits n) : s.close.EventsFit n := by
  have hmode := h.mode
  unfold Lexer.close
  split
  · exact h.events
  · exact h.events
  · rename_i target hs
    rw [hs] at hmode
    exact h.events.finishSubEntry hmode
  · exact h.events

end Lexer

/-- What an article embeds takes up no more characters than the article has. -/
theorem span_le_of_mem_events {subEntries : Bool} {t : Text} {target : Target}
    (h : .embed target ∈ events subEntries t) : target.span ≤ t.length := by
  have htook := Lexer.took_foldl (Lexer.took_start subEntries) t
  rw [Nat.zero_add] at htook
  exact htook.release.close.flush target (by simpa [events, Lexer.conclude] using h)

end Lexicon.Markup
