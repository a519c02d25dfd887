import Lexicon.Proofs.Comment
import Lexicon.Proofs.Markup.TagsOnly

/-!
# Comments in articles

Comments can be removed twice: line by line before articles are read, and by the lexer. In a text of
tags and comments in which no comment starts or ends inside a tag, both come to the same: reading the
text and reading what is left of it without its comments give the same events, so the same tree.

The two readings are followed side by side. Outside comments they are in the same state, apart from
what they know of where lines start (`Lexer.unlined`), which only matters for sub-entries; inside a
comment the one waits for the other in running text.

## Key results

- `bracketed_strip`: without its comments, a text still has its brackets in turns
- `Lexer.unlined_acceptPlain`: where lines start does not matter
- `Lexer.foldl_strip`: the two readings of a text end with the same events
- `parse_strip`: the trees are equal
-/

namespace Lexicon.Markup

/-! ## Texts of tags and comments -/

/-- Whether a bracket is open behind a character, if one is or is not open before it. Where a bracket is
open, no other one may be opened and no brace may stand; where none is, none may be closed. -/
def bracketAfter? (inside : Bool) (c : Char) : Option Bool :=
  if c = '[' then if inside then none else some true
  else if c = ']' then if inside then some false else none
  else if c = '{' ∨ c = '}' then if inside then none else some false
  else some inside

/-- Whether opening and closing brackets take turns in a text, without braces from an opening one to the
next closing one or to the end. `inside` says whether a bracket is open before the text. -/
def bracketed (inside : Bool) : Text → Bool
  | [] => true
  | c :: rest =>
    match bracketAfter? inside c with
    | some inside => bracketed inside rest
    | none => false

/-- A text of tags and comments, apart from one another. -/
structure Commented (t : Text) : Prop where
  backslash : '\\' ∉ t
  link : '<' ∉ t
  atSign : '@' ∉ t
  brackets : bracketed false t = true

section Brackets

variable {inside : Bool} {c : Char} {t : Text}

theorem bracketed_cons :
    bracketed inside (c :: t) = true ↔
      ∃ inside', bracketAfter? inside c = some inside' ∧ bracketed inside' t = true := by
  rw [bracketed]
  cases bracketAfter? inside c with
  | none => simp
  | some inside' => simp

/-- Braces stand outside brackets. -/
theorem bracketed_brace (hc : c = '{' ∨ c = '}') :
    bracketed inside (c :: t) = true ↔ inside = false ∧ bracketed false t = true := by
  have hopen : c ≠ '[' := by rcases hc with rfl | rfl <;> decide
  have hclose : c ≠ ']' := by rcases hc with rfl | rfl <;> decide
  rw [bracketed_cons, bracketAfter?, if_neg hopen, if_neg hclose, if_pos hc]
  cases inside <;> simp

/-- What is read of a tag ends with its closing bracket. -/
theorem bracketAfter?_inside {inside' : Bool} (h : bracketAfter? true c = some inside') :
    inside' = (c != ']') := by
  simp only [bracketAfter?, if_true] at h
  split at h
  · cases h
  split at h
  · rename_i hclose
    rw [hclose]
    exact (Option.some.inj h).symm
  · rename_i hclose
    rw [bne_iff_ne.mpr hclose]
    split at h
    · cases h
    · exact (Option.some.inj h).symm

/-- Outside tags only an opening bracket starts one. -/
theorem bracketAfter?_outside {inside' : Bool} (h : bracketAfter? false c = some inside') :
    inside' = (c == '[') := by
  simp only [bracketAfter?, Bool.false_eq_true, if_false] at h
  split at h
  · rename_i hopen
    rw [hopen]
    exact (Option.some.inj h).symm
  · rename_i hopen
    rw [beq_eq_false_iff_ne.mpr hopen]
    split at h
    · cases h
    · split at h <;> exact (Option.some.inj h).symm

/-- No bracket is doubled where brackets take turns. -/
theorem not_infix_of_bracketed (hc : c = '[' ∨ c = ']') (h : bracketed inside t = true) :
    ¬ [c, c] <:+: t := by
  induction t generalizing inside with
  | nil => simp
  | cons d rest ih =>
    obtain ⟨inside', hd, hrest⟩ := bracketed_cons.mp h
    rw [List.infix_cons_iff]
    rintro (hfront | hin)
    · obtain ⟨tail, htail⟩ := hfront
      obtain ⟨rfl, rfl⟩ := List.cons.inj htail
      obtain ⟨_, hd', -⟩ := bracketed_cons.mp hrest
      -- The second bracket may not stand where the first one leaves off
      rcases hc with rfl | rfl <;> cases inside <;> simp [bracketAfter?] at hd <;> subst hd <;>
        simp [bracketAfter?] at hd'
    · exact ih hrest hin

/-- Without its comments, a text still has its brackets in turns. Those in a comment are left out in
pairs. -/
theorem bracketed_strip (commentOpen : Bool) (t : Text) {inside : Bool}
    (h : bracketed inside t = true) :
    bracketed (!commentOpen && inside) (Comment.strip commentOpen t).1 = true := by
  induction commentOpen, t using Comment.stripInduction generalizing inside with
  | nil commentOpen => rfl
  | opening t ih =>
    obtain ⟨rfl, h⟩ := (bracketed_brace (.inl rfl)).mp h
    obtain ⟨-, h⟩ := (bracketed_brace (.inl rfl)).mp h
    rw [Comment.strip_opening]
    exact ih h
  | closing t ih =>
    obtain ⟨rfl, h⟩ := (bracketed_brace (.inr rfl)).mp h
    obtain ⟨-, h⟩ := (bracketed_brace (.inr rfl)).mp h
    rw [Comment.strip_closing]
    exact ih h
  | outside c t hc ih =>
    obtain ⟨inside', hinside, h⟩ := bracketed_cons.mp h
    rw [Comment.strip_outside hc]
    exact bracketed_cons.mpr ⟨inside', hinside, ih h⟩
  | inside c t hc ih =>
    obtain ⟨inside', -, h⟩ := bracketed_cons.mp h
    have hrest := ih h
    rw [Comment.strip_inside hc]
    exact hrest

end Brackets

namespace Commented

theorem unpaired {t : Text} (h : Commented t) : Unpaired t where
  backslash := h.backslash
  opening := not_infix_of_bracketed (.inl rfl) h.brackets
  closing := not_infix_of_bracketed (.inr rfl) h.brackets

theorem strip {t : Text} (h : Commented t) : Commented (Comment.strip false t).1 := by
  have hsub := Comment.strip_sublist false t
  exact ⟨fun hmem => h.backslash (hsub.subset hmem), fun hmem => h.link (hsub.subset hmem),
    fun hmem => h.atSign (hsub.subset hmem), bracketed_strip false t h.brackets⟩

end Commented

/-! ## Where lines start -/

namespace Lexer

/-- The state without what is known of where lines start. -/
def unlined (s : Lexer) : Lexer :=
  { s with lineBlank := true }

theorem flush_unlined (s : Lexer) : s.unlined.flush = s.flush.unlined := by
  unfold flush
  show (if s.pending = [] then _ else _) = _
  split <;> rfl

theorem emit_unlined (s : Lexer) (events : List (Event Target)) :
    s.unlined.emit events = (s.emit events).unlined := by
  simp only [emit, flush_unlined]
  rfl

private theorem readText_unlined (s : Lexer) {g : Glyph} (hg : g.isPlain '@' = false) :
    s.unlined.readText g = (s.readText g).unlined := by
  unfold readText
  rw [hg]
  simp only [Bool.false_and, Bool.false_eq_true, if_false]
  cases g.isPlain '['
  · cases g.isPlain '<'
    · cases g.isPlain '{' <;> rfl
    · rfl
  · rfl

private theorem finishTag_unlined (s : Lexer) (closing : Bool) (name attrs : Text) :
    s.unlined.finishTag closing name attrs = (s.finishTag closing name attrs).unlined := by
  simp only [finishTag, emit_unlined]
  rfl

private theorem readAttrs_unlined (s : Lexer) (closing : Bool) (name attrs : Text) (g : Glyph) :
    s.unlined.readAttrs closing name attrs g = (s.readAttrs closing name attrs g).unlined := by
  unfold readAttrs
  split
  · exact finishTag_unlined s closing name attrs
  · rfl

private theorem readGap_unlined (s : Lexer) (closing : Bool) (name : Text) (g : Glyph) :
    s.unlined.readGap closing name g = (s.readGap closing name g).unlined := by
  unfold readGap
  split
  · rfl
  · exact readAttrs_unlined s closing name [] g

private theorem readName_unlined (s : Lexer) (closing : Bool) (name : Text) (g : Glyph) :
    s.unlined.readName closing name g = (s.readName closing name g).unlined := by
  unfold readName
  split
  · exact readGap_unlined s closing name g
  · rfl

private theorem readTarget_unlined (s : Lexer) (target : Text) (g : Glyph) :
    s.unlined.readTarget target g = (s.readTarget target g).unlined := by
  unfold readTarget
  split <;> rfl

/-- Where lines start matters for at signs only. -/
theorem step_unlined (s : Lexer) {g : Glyph} (hg : g.isPlain '@' = false) :
    s.unlined.step g = (s.step g).unlined := by
  have hmode : s.unlined.mode = s.mode := rfl
  rw [step, step, hmode]
  cases s.mode with
  | text => exact readText_unlined s hg
  | angle =>
    simp only
    split
    · rfl
    · exact readText_unlined (s.push '<') hg
  | brace =>
    simp only
    split
    · rfl
    · exact readText_unlined (s.push '{') hg
  | tagStart =>
    simp only
    split
    · rfl
    split
    · rfl
    · exact readName_unlined s false [] g
  | tagName closing name => exact readName_unlined s closing name g
  | tagGap closing name => exact readGap_unlined s closing name g
  | tagAttrs closing name attrs => exact readAttrs_unlined s closing name attrs g
  | linkStart =>
    simp only
    split
    · rfl
    · exact readTarget_unlined s [] g
  | link target => exact readTarget_unlined s target g
  | linkAngle target =>
    simp only
    split
    · simp only [finishLink, emit_unlined]
      rfl
    · rfl
  | comment => simp only; split <;> rfl
  | commentBrace => simp only; split <;> rfl
  | subEntry target =>
    simp only
    split
    · simp only [finishSubEntry, emit_unlined]
      rfl
    split <;> rfl

theorem unlined_acceptPlain (s : Lexer) {c : Char} (hc : c ≠ '@') :
    (s.acceptPlain c).unlined = s.unlined.step ⟨c, false⟩ := by
  rw [step_unlined s (by simp [Glyph.isPlain, hc])]
  rfl

/-- The events when a text has ended do not tell where lines start. -/
theorem events_close_unlined (s : Lexer) :
    s.unlined.close.flush.events = s.close.flush.events := by
  have hclose : s.unlined.close = s.close.unlined := by
    have hmode : s.unlined.mode = s.mode := rfl
    rw [close, close, hmode]
    cases s.mode with
    | subEntry target =>
      simp only [finishSubEntry, emit_unlined]
      rfl
    | _ => rfl
  rw [hclose, flush_unlined]
  rfl

/-! ## Reading with and without comments -/

/-- Outside comments, with `t` left to be read: both readings are in one state, and no comment starts
with a brace that has been read. `inside` says whether a bracket is open. -/
structure InStep (inside : Bool) (s s' : Lexer) (t : Text) : Prop where
  state : s.unlined = s'.unlined
  reads : ∃ w, s'.Reads inside w
  next : ∀ d ∈ s'.mode.unread, d = '{' ∧ t.head? ≠ some '{'

/-- Inside a comment, with `t` left to be read: the reading without comments waits in running text, and
the comment does not end with a brace that has been read. -/
structure Skipping (s s' : Lexer) (t : Text) : Prop where
  state : (s.goto .text).unlined = s'.unlined
  reads : ∃ w, s'.Reads false w
  mode : s.mode = .comment ∨ s.mode = .commentBrace ∧ t.head? ≠ some '}'

variable {s s' : Lexer} {inside : Bool} {c : Char} {t : Text}

/-- A character that is kept is read in both readings. -/
theorem InStep.accept (h : InStep inside s s' (c :: t)) {inside' : Bool}
    (hbracket : bracketAfter? inside c = some inside') (hlink : c ≠ '<') (hat : c ≠ '@')
    (hc : ¬ (c = '{' ∧ t.head? = some '{')) :
    InStep inside' (s.acceptPlain c) (s'.acceptPlain c) t := by
  obtain ⟨hstate, ⟨w, hreads⟩, hnext⟩ := h
  have hwait : s'.mode.unread ≠ [c] := by
    intro heq
    obtain ⟨rfl, hhead⟩ := hnext c (by rw [heq]; exact List.mem_singleton_self c)
    exact hhead rfl
  have hstate' : (s.acceptPlain c).unlined = (s'.acceptPlain c).unlined := by
    rw [unlined_acceptPlain s hat, unlined_acceptPlain s' hat, hstate]
  cases inside with
  | true =>
    rw [bracketAfter?_inside hbracket]
    refine ⟨hstate', ⟨w, hreads.accept_inside c⟩, fun d hd => ?_⟩
    rw [hreads.unread_accept_inside c] at hd
    cases hd
  | false =>
    refine ⟨hstate', ?_, fun d hd => ?_⟩
    · rw [bracketAfter?_outside hbracket]
      by_cases hopen : c = '['
      · subst hopen
        exact ⟨w, hreads.accept_bracket hwait⟩
      · rw [beq_eq_false_iff_ne.mpr hopen]
        exact ⟨_, hreads.accept_outside hwait hopen hat⟩
    · -- What waits is the brace just read
      obtain ⟨rfl, hd⟩ := hreads.unread_accept_outside hwait hd
      have hbrace := hd.resolve_left hlink
      exact ⟨hbrace, fun hhead => hc ⟨hbrace, hhead⟩⟩

private theorem goto_mode {mode : Mode} (h : s.mode = mode) : s.goto mode = s := by
  rw [← h]
  rfl

/-- Where a comment opens, no character waits, so what has been read of the text is the same. -/
theorem InStep.opening (h : InStep false s s' ('{' :: '{' :: t)) :
    Skipping ((s.acceptPlain '{').acceptPlain '{') s' t := by
  obtain ⟨hstate, ⟨w, hreads⟩, hnext⟩ := h
  have hmode' : s'.mode = .text := by
    have hmode := hreads.mode
    cases hs : s'.mode with
    | text => rfl
    | angle =>
      rw [hs] at hnext
      exact absurd (hnext '<' (List.mem_singleton_self _)).1 (by decide)
    | brace =>
      rw [hs] at hnext
      exact absurd rfl (hnext '{' (List.mem_singleton_self _)).2
    | _ =>
      rw [hs] at hmode
      cases hmode
  have hmode : s.unlined.mode = .text := by rw [hstate]; exact hmode'
  have hfirst : s.unlined.step ⟨'{', false⟩ = s.unlined.goto .brace := by rw [step, hmode]; rfl
  have hread : ((s.acceptPlain '{').acceptPlain '{').unlined = s.unlined.goto .comment := by
    rw [unlined_acceptPlain _ (by decide), unlined_acceptPlain _ (by decide), hfirst]
    rfl
  refine ⟨?_, ⟨w, hreads⟩, .inl (congrArg Lexer.mode hread)⟩
  calc ((s.acceptPlain '{').acceptPlain '{').unlined.goto .text
      = s.unlined.goto .text := by rw [hread]; rfl
    _ = s'.unlined := by rw [hstate]; exact goto_mode hmode'

/-- A character inside a comment is passed over. -/
theorem Skipping.accept (h : Skipping s s' (c :: t)) (hc : ¬ (c = '}' ∧ t.head? = some '}')) :
    Skipping (s.acceptPlain c) s' t := by
  obtain ⟨hstate, hreads, hmode⟩ := h
  have hstep : ((s.step ⟨c, false⟩).goto .text).unlined = (s.goto .text).unlined ∧
      ((s.step ⟨c, false⟩).mode = .comment ∨
        (s.step ⟨c, false⟩).mode = .commentBrace ∧ t.head? ≠ some '}') := by
    rcases hmode with hmode | ⟨hmode, hhead⟩
    · rw [step, hmode]
      simp only
      split
      · rename_i hclose
        have hclose : c = '}' := by simpa [Glyph.isPlain] using hclose
        exact ⟨rfl, .inr ⟨rfl, fun hhead => hc ⟨hclose, hhead⟩⟩⟩
      · exact ⟨rfl, .inl hmode⟩
    · have hother : Glyph.isPlain ⟨c, false⟩ '}' = false := by
        simpa [Glyph.isPlain] using hhead
      rw [step, hmode, hother]
      exact ⟨rfl, .inl rfl⟩
  exact ⟨hstep.1.trans hstate, hreads, hstep.2⟩

/-- Where a comment closes, both readings go on in running text. -/
theorem Skipping.closing (h : Skipping s s' ('}' :: '}' :: t)) :
    InStep false ((s.acceptPlain '}').acceptPlain '}') s' t := by
  obtain ⟨hstate, hreads, hmode⟩ := h
  have hmode : s.unlined.mode = .comment := hmode.resolve_right fun hbrace => hbrace.2 rfl
  have hfirst : s.unlined.step ⟨'}', false⟩ = s.unlined.goto .commentBrace := by
    rw [step, hmode]
    rfl
  have hread : ((s.acceptPlain '}').acceptPlain '}').unlined = s.unlined.goto .text := by
    rw [unlined_acceptPlain _ (by decide), unlined_acceptPlain _ (by decide), hfirst]
    rfl
  refine ⟨hread.trans hstate, hreads, fun d hd => ?_⟩
  -- No character waits in running text
  have hmode' : s'.mode = .text := (congrArg Lexer.mode hstate).symm
  rw [hmode'] at hd
  cases hd

/-- At the end of the text, what is read in a comment is left out. -/
theorem Skipping.events_eq (h : Skipping s s' []) :
    s.close.flush.events = s'.close.flush.events := by
  have hclose : s.close = s := by
    rcases h.mode with hmode | ⟨hmode, -⟩ <;> rw [close, hmode]
  have hclose' : (s.goto .text).close = s.goto .text := rfl
  have hflush : (s.goto .text).flush.events = s.flush.events := by
    unfold flush
    show (if s.pending = [] then _ else _ : Lexer).events = _
    split <;> rfl
  rw [hclose, ← hflush, ← hclose', ← events_close_unlined, h.state, events_close_unlined]

/-- Reading a text ends with the same events as reading what is left of it without its comments. -/
theorem foldl_strip (commentOpen : Bool) (t : Text) (hlink : '<' ∉ t) (hat : '@' ∉ t)
    (hbrackets : bracketed inside t = true)
    (h : if commentOpen then Skipping s s' t else InStep inside s s' t) :
    (t.foldl acceptPlain s).close.flush.events =
      ((Comment.strip commentOpen t).1.foldl acceptPlain s').close.flush.events := by
  induction commentOpen, t using Comment.stripInduction generalizing inside s s' with
  | nil commentOpen =>
    cases commentOpen with
    | true => exact Skipping.events_eq h
    | false =>
      have hstate : s.unlined = s'.unlined := InStep.state h
      show s.close.flush.events = s'.close.flush.events
      rw [← events_close_unlined, hstate, events_close_unlined]
  | opening t ih =>
    obtain ⟨rfl, hbrackets⟩ := (bracketed_brace (.inl rfl)).mp hbrackets
    obtain ⟨-, hbrackets⟩ := (bracketed_brace (.inl rfl)).mp hbrackets
    simp only [List.mem_cons, not_or] at hlink hat
    rw [Comment.strip_opening]
    exact ih hlink.2.2 hat.2.2 hbrackets (InStep.opening h)
  | closing t ih =>
    obtain ⟨-, hbrackets⟩ := (bracketed_brace (.inr rfl)).mp hbrackets
    obtain ⟨-, hbrackets⟩ := (bracketed_brace (.inr rfl)).mp hbrackets
    simp only [List.mem_cons, not_or] at hlink hat
    rw [Comment.strip_closing]
    exact ih hlink.2.2 hat.2.2 hbrackets (Skipping.closing h)
  | outside c t hc ih =>
    obtain ⟨inside', hbracket, hbrackets⟩ := bracketed_cons.mp hbrackets
    simp only [List.mem_cons, not_or] at hlink hat
    have haccept := InStep.accept h hbracket (Ne.symm hlink.1) (Ne.symm hat.1) hc
    rw [Comment.strip_outside hc]
    exact ih hlink.2 hat.2 hbrackets haccept
  | inside c t hc ih =>
    obtain ⟨inside', -, hbrackets⟩ := bracketed_cons.mp hbrackets
    simp only [List.mem_cons, not_or] at hlink hat
    rw [Comment.strip_inside hc]
    exact ih hlink.2 hat.2 hbrackets (Skipping.accept h hc)

end Lexer

/-- In a text of tags and comments, apart from one another, removing the comments first makes no
difference. -/
theorem parse_strip {t : Text} (h : Commented t) : parse t = parse (Comment.strip false t).1 := by
  have hstart : Lexer.InStep false (Lexer.start true) (Lexer.start true) t :=
    ⟨rfl, ⟨[], rfl, [], ⟨rfl, nofun⟩, rfl⟩, nofun⟩
  have hevents : events true t = events true (Comment.strip false t).1 := by
    rw [events_eq_of_unpaired true h.unpaired, events_eq_of_unpaired true h.strip.unpaired,
      Lexer.foldl_strip false t h.link h.atSign h.brackets hstart]
  rw [parse, parse, nodes_eq, nodes_eq, hevents]

/-- Comments with brackets in them, runs of braces, a comment between tags that cross, and one that is
open at the end. -/
private def tangled : Text :=
  "[t]a\x7b\x7b[b]\x7d\x7d\x7d[i]\x7b\x7b\x7b\x7d\x7d[/t]\x7bb\x7d[/i]c\x7b\x7b[m]".toList

theorem parse_strip_braces :
    Commented tangled ∧ parse tangled = parse "[t]a\x7d[i][/t]\x7bb\x7d[/i]c".toList := by
  have h : Commented tangled :=
    ⟨by decide +kernel, by decide +kernel, by decide +kernel, by decide +kernel⟩
  have hstrip : (Comment.strip false tangled).1 = "[t]a\x7d[i][/t]\x7bb\x7d[/i]c".toList := by
    decide +kernel
  exact ⟨h, (parse_strip h).trans (congrArg parse hstrip)⟩

end Lexicon.Markup
