import Lexicon.Markup.Span

/-!
# Characters that wait for the next one

The lexer holds a character back when its reading hangs on the next one. In a text in which no such
pair ever forms, holding back makes no difference: every character is read as itself, only some of
them a little later. So the events of such a text come from reading its characters one by one.

## Key results

- `settle_foldl`: reading a text with held characters, and reading each character as itself, end in
  the same state once the held character is read
- `conclude_of_unpaired`, `events_eq_of_unpaired`: the events of a text without pairs
-/

namespace Lexicon.Markup

theorem not_infix_of_cons {p : Text} {c : Char} {t : Text} (h : ¬ p <:+: c :: t) :
    ¬ p <:+: t :=
  fun hin => h (hin.trans (List.suffix_cons c t).isInfix)

/-- A character that is never doubled is not followed by itself. -/
theorem head?_ne_of_not_infix {c : Char} {t : Text} (h : ¬ [c, c] <:+: c :: t) :
    t.head? ≠ some c := by
  intro hhead
  obtain ⟨rest, rfl⟩ := List.head?_eq_some_iff.mp hhead
  exact h (List.prefix_append [c, c] rest).isInfix

/-- A text without backslashes and without two brackets of one kind in a row: no character in it
changes the reading of another. -/
structure Unpaired (t : Text) : Prop where
  backslash : '\\' ∉ t
  opening : ¬ ['[', '['] <:+: t
  closing : ¬ [']', ']'] <:+: t

namespace Unpaired

theorem tail {c : Char} {t : Text} (h : Unpaired (c :: t)) : Unpaired t where
  backslash := fun hmem => h.backslash (List.mem_cons_of_mem c hmem)
  opening := not_infix_of_cons h.opening
  closing := not_infix_of_cons h.closing

theorem head?_ne {c : Char} {t : Text} (h : Unpaired (c :: t)) (hc : c = '[' ∨ c = ']') :
    t.head? ≠ some c := by
  rcases hc with rfl | rfl
  · exact head?_ne_of_not_infix h.opening
  · exact head?_ne_of_not_infix h.closing

end Unpaired

namespace Lexer

/-- Reads a held character as itself. -/
def settle (s : Lexer) : Lexer :=
  match s.held with
  | none => s
  | some held => { s with held := none }.accept ⟨held, false⟩

/-- Reads a character as itself. -/
def acceptPlain (s : Lexer) (c : Char) : Lexer :=
  s.accept ⟨c, false⟩

theorem settle_of_held_eq_none {s : Lexer} (h : s.held = none) : s.settle = s := by
  unfold settle; rw [h]

/-- A character that is taken is read as itself, at once or when it is settled. -/
theorem settle_take {s : Lexer} (h : s.held = none) (c : Char) :
    (s.take c).settle = s.acceptPlain c := by
  unfold take
  split
  · -- Taking the character back out of the state leaves the state before
    have hs : { s with held := none } = s := by cases s; cases h; rfl
    simp only [settle, acceptPlain, hs]
  · exact settle_of_held_eq_none (by rw [held_accept, h])

/-- Characters that form no pair are read one after the other. -/
theorem settle_feed {s : Lexer} {c : Char}
    (h : ∀ held, s.held = some held → s.pairs held c = false) :
    (s.feed c).settle = s.settle.acceptPlain c := by
  unfold feed
  cases hheld : s.held with
  | none =>
    simp only
    rw [settle_take hheld, settle_of_held_eq_none hheld]
  | some held =>
    have hpairs : Lexer.pairs { s with held := none } held c = false := h held hheld
    have hsettle : s.settle = { s with held := none }.accept ⟨held, false⟩ := by
      unfold settle; rw [hheld]
    simp only [hpairs, Bool.false_eq_true, if_false]
    rw [settle_take (by rw [held_accept]), hsettle]

/-- What is held after a character is that character, and one that can be held. -/
theorem held_feed {s : Lexer} {c held : Char} (h : (s.feed c).held = some held) :
    held = c ∧ (c = '\\' ∨ c = '[' ∨ c = ']') := by
  have htake : ∀ {s : Lexer}, s.held = none → (s.take c).held = some held →
      held = c ∧ (c = '\\' ∨ c = '[' ∨ c = ']') := by
    intro s hs ht
    unfold take at ht
    split at ht
    · rename_i hmust
      refine ⟨(Option.some.inj ht).symm, ?_⟩
      simp only [Regions.mustHold, Bool.or_eq_true, Bool.and_eq_true, beq_iff_eq] at hmust
      exact hmust.imp_right And.right
    · rw [held_accept, hs] at ht; cases ht
  unfold feed at h
  split at h
  · exact htake ‹_› h
  · simp only at h
    split at h
    · rw [held_accept] at h; cases h
    · exact htake (by rw [held_accept]) h

theorem settle_foldl {t : Text} (ht : Unpaired t) {s : Lexer}
    (hheld : ∀ held, s.held = some held → (held = '[' ∨ held = ']') ∧ t.head? ≠ some held) :
    (t.foldl feed s).settle = t.foldl acceptPlain s.settle := by
  -- The invariant is that only a bracket is held, and that the text does not go on with it
  induction t generalizing s with
  | nil => rfl
  | cons c rest ih =>
    rw [List.foldl_cons, List.foldl_cons]
    have hfeed : (s.feed c).settle = s.settle.acceptPlain c := by
      refine settle_feed fun held h => ?_
      obtain ⟨hbracket, hne⟩ := hheld held h
      have hback : held ≠ '\\' := by rcases hbracket with rfl | rfl <;> decide
      have hdiff : c ≠ held := fun heq => hne (by rw [heq]; rfl)
      simp [pairs, hback, hdiff]
    rw [← hfeed]
    apply ih ht.tail
    intro held h
    -- What is held now is the character just read
    obtain ⟨rfl, hc⟩ := held_feed h
    have hback : held ≠ '\\' := fun heq => ht.backslash (heq ▸ List.mem_cons_self)
    have hbracket := hc.resolve_left hback
    exact ⟨hbracket, ht.head?_ne hbracket⟩

/-- At the end of a text a held bracket is read as itself. -/
theorem release_eq_settle {s : Lexer} (h : s.held ≠ some '\\') : s.release = s.settle := by
  unfold release settle
  cases hheld : s.held with
  | none => rfl
  | some held =>
    have hback : held ≠ '\\' := fun heq => h (heq ▸ hheld)
    simp [hback]

/-- Behind a text without pairs all events are those of its characters, read one by one. -/
theorem conclude_of_unpaired {t : Text} (ht : Unpaired t) {s : Lexer} (h : s.held = none) :
    (t.foldl feed s).conclude = (t.foldl acceptPlain s).close.flush.events.reverse := by
  have hback : (t.foldl feed s).held ≠ some '\\' := by
    -- It would have to be the last character of the text
    intro hheld
    rcases t.eq_nil_or_concat with rfl | ⟨init, c, rfl⟩
    · cases h.symm.trans hheld
    · rw [List.concat_eq_append, List.foldl_append, List.foldl_cons, List.foldl_nil] at hheld
      obtain ⟨rfl, -⟩ := held_feed hheld
      exact ht.backslash (by simp)
  rw [conclude, release_eq_settle hback, settle_foldl ht (by rw [h]; rintro held ⟨⟩),
    settle_of_held_eq_none h]

end Lexer

/-- The events of a text without pairs come from reading its characters one by one. -/
theorem events_eq_of_unpaired (subEntries : Bool) {t : Text} (ht : Unpaired t) :
    events subEntries t =
      (t.foldl Lexer.acceptPlain (Lexer.start subEntries)).close.flush.events.reverse :=
  Lexer.conclude_of_unpaired ht rfl

end Lexicon.Markup
