import Lexicon.Markup.Article
import Lexicon.Proofs.Headword.Escaping
import Lexicon.Proofs.Markup.Steps

/-!
# Escaped texts in articles

An escaped text reads as itself wherever an article may hold it: as running text, as the target of a
link and as the headword of a sub-entry. The last two write the escapes back, take white space and
unsorted parts away, and read the result again; none of this finds anything to do.

The lexer reads an escaped text as one glyph for each character (`Lexer.feed_escapeChar`). By the
invariant `Lexer.Collects` it stays in its mode while it does so, outside all regions.

## Key results

- `Lexer.Collects.foldl_escape`: what a mode makes of an escaped text, given what it makes of a glyph
- `events_escape`, `events_link_escape`, `events_subEntry_escape`: the events of an escaped text in
  each place
- `escape_protects`: escaping protects any text in every context
-/

namespace Lexicon.Markup

open Headword (escape escapeChar reserved)

/-! ## Glyphs -/

/-- The glyph that an escaped character reads as. -/
def escapedGlyph (c : Char) : Glyph :=
  ⟨c, reserved.contains c⟩

/-- A reserved character never stands for itself in an escaped text. -/
theorem isPlain_escapedGlyph {d : Char} (hd : reserved.contains d = true) (c : Char) :
    (escapedGlyph c).isPlain d = false := by
  rw [Glyph.isPlain, escapedGlyph]
  by_cases h : c = d
  · subst h
    simp only [hd, Bool.not_true, Bool.false_and]
  · simp only [beq_eq_false_iff_ne.mpr h, Bool.and_false]

theorem isPlain_escapedGlyph_of_ne {c d : Char} (h : c ≠ d) : (escapedGlyph c).isPlain d = false := by
  simp only [Glyph.isPlain, escapedGlyph, beq_eq_false_iff_ne.mpr h, Bool.and_false]

/-- Written back, the glyph is the escaped character. -/
theorem sourceOnto_escapedGlyph (c : Char) (done : Text) :
    (escapedGlyph c).sourceOnto done.reverse = (done ++ escapeChar c).reverse := by
  rw [List.reverse_append]
  unfold Glyph.sourceOnto escapedGlyph escapeChar
  cases reserved.contains c with
  | true => rfl
  | false => rfl

namespace Lexer

/-- What is being read and what has been read, with nothing held back and outside all regions. -/
structure Collects (mode : Mode) (pending : Text) (events : List (Event Target)) (s : Lexer) :
    Prop where
  held : s.held = none
  regions : s.regions = .outside
  mode : s.mode = mode
  pending : s.pending = pending
  events : s.events = events

variable {mode : Mode} {pending : Text} {done : List (Event Target)} {s : Lexer}

theorem Collects.emit (h : s.Collects mode [] done) (events : List (Event Target)) :
    (s.emit events).Collects mode [] (events.reverse ++ done) := by
  rw [Lexer.emit, flush, if_pos h.pending]
  exact ⟨h.held, h.regions, h.mode, h.pending, by rw [List.reverseAux_eq, h.events]⟩

theorem Collects.goto (h : s.Collects mode pending done) (mode' : Mode) :
    (s.goto mode').Collects mode' pending done :=
  ⟨h.held, h.regions, rfl, h.pending, h.events⟩

/-- Keeping track of the line changes nothing of this. -/
theorem Collects.of_step {g : Glyph} (h : (s.step g).Collects mode pending done) :
    (s.accept g).Collects mode pending done :=
  ⟨h.held, h.regions, h.mode, h.pending, h.events⟩

/-- Outside all regions every character but a backslash is read at once. -/
theorem Collects.feed_plain (h : s.Collects mode pending done) {c : Char} (hc : c ≠ '\\') :
    s.feed c = s.accept ⟨c, false⟩ := by
  have hmust : s.regions.mustHold c = false := by
    simp [Regions.mustHold, h.regions, Regions.outside, hc]
  simp only [feed, h.held, take, hmust, Bool.false_eq_true, if_false]

/-- An escaped character is read as one glyph. -/
theorem Collects.feed_escapeChar (h : s.Collects mode pending done) (c : Char) :
    (escapeChar c).foldl feed s = s.accept (escapedGlyph c) := by
  unfold escapeChar escapedGlyph
  split
  · rename_i hreserved
    have hmust : s.regions.mustHold '\\' = true := rfl
    have hescapes : s.regions.backslashEscapes c = true := by
      simp [Regions.backslashEscapes, h.regions, Regions.outside]
    have hs : { s with held := none } = s := by
      cases s
      cases h.held
      rfl
    -- The backslash is held back until the character after it comes
    have hback : s.feed '\\' = { s with held := some '\\' } := by
      simp only [feed, h.held, take, hmust, if_true]
    rw [List.foldl_cons, List.foldl_cons, List.foldl_nil, hback, hreserved]
    simp only [feed, hs, pairs, if_true, hescapes]
  · rename_i hplain
    have hne : c ≠ '\\' := by
      rintro rfl
      exact hplain (by decide)
    rw [List.foldl_cons, List.foldl_nil, h.feed_plain hne, Bool.eq_false_iff.mpr hplain]

/-! ## One glyph -/

theorem Collects.accept_text (h : s.Collects .text pending done) (c : Char) :
    (s.accept (escapedGlyph c)).Collects .text (c :: pending) done := by
  have hchar : s.textChar (escapedGlyph c) = c := by
    -- A space is not escaped
    have hspace : ¬ (reserved.contains c = true ∧ c = ' ' ∧ s.regions.media = 0) := by
      rintro ⟨hreserved, rfl, -⟩
      exact absurd hreserved (by decide)
    rw [textChar, escapedGlyph, if_neg hspace]
  have hstep : s.step (escapedGlyph c) = s.push c := by
    rw [step_text h.mode (isPlain_escapedGlyph (by decide) c) (isPlain_escapedGlyph (by decide) c)
      (isPlain_escapedGlyph (by decide) c) (isPlain_escapedGlyph (by decide) c), hchar]
  apply Collects.of_step
  rw [hstep]
  exact ⟨h.held, h.regions, rfl, congrArg (c :: ·) h.pending, h.events⟩

private theorem Collects.readTarget (h : s.Collects mode pending done) (target : Text) (c : Char) :
    (s.readTarget target.reverse (escapedGlyph c)).Collects
      (.link (target ++ escapeChar c).reverse) pending done := by
  rw [Lexer.readTarget, isPlain_escapedGlyph (by decide), if_neg Bool.false_ne_true,
    sourceOnto_escapedGlyph]
  exact h.goto _

theorem Collects.accept_link {target : Text} (h : s.Collects (.link target.reverse) pending done)
    (c : Char) :
    (s.accept (escapedGlyph c)).Collects (.link (target ++ escapeChar c).reverse) pending done := by
  have hstep : s.step (escapedGlyph c) = s.readTarget target.reverse (escapedGlyph c) := by
    unfold step
    simp only [h.mode]
  apply Collects.of_step
  rw [hstep]
  exact h.readTarget target c

/-- The target of a link starts with its first character that is no blank. -/
theorem Collects.accept_linkStart (h : s.Collects .linkStart pending done) {c : Char}
    (hc : Text.isBlank c = false) :
    (s.accept (escapedGlyph c)).Collects (.link (escapeChar c).reverse) pending done := by
  have hblank : Text.isBlank (escapedGlyph c).char = false := hc
  have hstep : s.step (escapedGlyph c) = s.readTarget [] (escapedGlyph c) := by
    unfold step
    simp only [h.mode, hblank, Bool.false_eq_true, if_false]
  apply Collects.of_step
  rw [hstep]
  exact h.readTarget [] c

/-- The headword of a sub-entry goes on to the end of the line. -/
theorem Collects.accept_subEntry {target : Text}
    (h : s.Collects (.subEntry target.reverse) pending done) {c : Char} (hfeed : c ≠ '\n')
    (hreturn : c ≠ '\r') :
    (s.accept (escapedGlyph c)).Collects (.subEntry (target ++ escapeChar c).reverse) pending
      done := by
  have hstep : s.step (escapedGlyph c) = s.goto (.subEntry (target ++ escapeChar c).reverse) := by
    unfold step
    simp only [h.mode]
    rw [isPlain_escapedGlyph_of_ne hfeed, isPlain_escapedGlyph_of_ne hreturn,
      sourceOnto_escapedGlyph]
    rfl
  apply Collects.of_step
  rw [hstep]
  exact h.goto _

/-! ## A whole text -/

/-- What a mode makes of an escaped text, given what it makes of the glyph of each character. -/
theorem Collects.foldl_escape (mode : Text → Mode) (pending : Text → Text) {t : Text}
    (hglyph : ∀ (w : Text) (s : Lexer), ∀ c ∈ t, s.Collects (mode w) (pending w) done →
      (s.accept (escapedGlyph c)).Collects (mode (w ++ [c])) (pending (w ++ [c])) done)
    {w : Text} (h : s.Collects (mode w) (pending w) done) :
    ((escape t).foldl feed s).Collects (mode (w ++ t)) (pending (w ++ t)) done := by
  induction t generalizing w s with
  | nil => rwa [List.append_nil]
  | cons c rest ih =>
    have hrest := ih (fun w s d hd => hglyph w s d (List.mem_cons_of_mem c hd))
      (hglyph w s c List.mem_cons_self h)
    rw [escape, List.flatMap_cons, List.foldl_append, h.feed_escapeChar]
    rwa [List.append_assoc, List.singleton_append] at hrest

private theorem escape_concat (w : Text) (c : Char) : escape (w ++ [c]) = escape w ++ escapeChar c := by
  rw [escape, List.flatMap_append, List.flatMap_singleton]
  rfl

theorem Collects.foldl_escape_text (h : s.Collects .text [] done) (t : Text) :
    ((escape t).foldl feed s).Collects .text t.reverse done := by
  have hall := Collects.foldl_escape (fun _ => .text) List.reverse (t := t) (w := [])
    (fun w s c _ hs => ?_) h
  · exact hall
  · rw [List.reverse_append]
    exact hs.accept_text c

theorem Collects.foldl_escape_link {first : Text}
    (h : s.Collects (.link (escape first).reverse) pending done) (t : Text) :
    ((escape t).foldl feed s).Collects (.link (escape (first ++ t)).reverse) pending done := by
  refine Collects.foldl_escape (fun w => .link (escape w).reverse) (fun _ => pending)
    (fun w s c _ hs => ?_) h
  rw [escape_concat]
  exact hs.accept_link c

theorem Collects.foldl_escape_subEntry (blanks : Text)
    (h : s.Collects (.subEntry blanks.reverse) pending done) {t : Text} (hfeed : '\n' ∉ t)
    (hreturn : '\r' ∉ t) :
    ((escape t).foldl feed s).Collects (.subEntry (blanks ++ escape t).reverse) pending done := by
  have hstart : s.Collects (.subEntry (blanks ++ escape []).reverse) pending done := by
    rwa [show escape [] = [] from rfl, List.append_nil]
  refine Collects.foldl_escape (fun w => .subEntry (blanks ++ escape w).reverse)
    (fun _ => pending) (fun w s c hc hs => ?_) hstart
  rw [escape_concat, ← List.append_assoc]
  exact hs.accept_subEntry (fun heq => hfeed (heq ▸ hc)) (fun heq => hreturn (heq ▸ hc))

/-! ## Ends -/

/-- Two closing angle brackets end a link. -/
theorem Collects.foldl_link_end {target : Text} (h : s.Collects (.link target) [] done) :
    (['>', '>'].foldl feed s).Collects .text [] (.embed (.link (targetText target)) :: done) := by
  have hfirst : s.step ⟨'>', false⟩ = s.goto (.linkAngle target) := by
    unfold step
    simp only [h.mode]
    rfl
  have hangle : (s.feed '>').Collects (.linkAngle target) [] done := by
    rw [h.feed_plain (by decide)]
    apply Collects.of_step
    rw [hfirst]
    exact h.goto _
  have hsecond : (s.feed '>').step ⟨'>', false⟩ = (s.feed '>').finishLink target := by
    unfold step
    simp only [hangle.mode]
    rfl
  rw [List.foldl_cons, List.foldl_cons, List.foldl_nil, hangle.feed_plain (by decide)]
  apply Collects.of_step
  rw [hsecond]
  exact (hangle.emit [.embed (.link (targetText target))]).goto .text

theorem Collects.conclude_text {t : Text} (h : s.Collects .text t.reverse done) :
    s.conclude = done.reverse ++ if t = [] then [] else [.text t] := by
  simp only [conclude, release, h.held, close, h.mode, flush, h.pending, List.reverse_eq_nil_iff,
    List.reverse_reverse]
  split
  · rw [h.events, List.append_nil]
  · rw [List.reverse_cons, h.events]

/-- A sub-entry ends with the text at the latest. -/
theorem Collects.conclude_subEntry {target : Text} (h : s.Collects (.subEntry target) [] done) :
    s.conclude = done.reverse ++ (subEntryVariants target).map fun v => .embed (.subEntry v) := by
  have hend := (h.emit ((subEntryVariants target).map fun v => .embed (.subEntry v))).goto .text
  have hclose : s.release.close = s.finishSubEntry target := by
    simp only [release, h.held, close, h.mode]
  rw [conclude, hclose, finishSubEntry, flush, if_pos hend.pending, hend.events,
    List.reverse_append, List.reverse_reverse]

theorem collects_start (subEntries : Bool) : (start subEntries).Collects .text [] [] :=
  ⟨rfl, rfl, rfl, rfl, rfl⟩

end Lexer

/-! ## Events -/

theorem events_escape (subEntries : Bool) (t : Text) :
    events subEntries (escape t) = if t = [] then [] else [.text t] :=
  ((Lexer.collects_start subEntries).foldl_escape_text t).conclude_text

private theorem isBlank_eq_false {c : Char} (h : Unicode.isWhiteSpace c = false) :
    Text.isBlank c = false := by
  rw [Bool.eq_false_iff]
  intro hblank
  simp only [Text.isBlank, Bool.or_eq_true, beq_iff_eq] at hblank
  -- Both blanks are white space
  rcases hblank with rfl | rfl
  · exact absurd h (by decide +kernel)
  · exact absurd h (by decide +kernel)

/-- A link to an escaped text that white space neither starts nor ends. -/
theorem events_link_escape (subEntries : Bool) {t : Text} (hne : t ≠ []) (h : t.Trimmed) :
    events subEntries (['<', '<'] ++ escape t ++ ['>', '>']) = [.embed (.link (escape t))] := by
  obtain ⟨c, rest, rfl⟩ := List.exists_cons_of_ne_nil hne
  have hstart : (['<', '<'].foldl Lexer.feed (Lexer.start subEntries)).Collects .linkStart [] [] :=
    ⟨rfl, rfl, rfl, rfl, rfl⟩
  have hfirst := hstart.accept_linkStart (isBlank_eq_false (h.head c rfl))
  have hone : escapeChar c = escape [c] := (List.flatMap_singleton _ _).symm
  rw [← hstart.feed_escapeChar, hone] at hfirst
  have hall := (hfirst.foldl_escape_link rest).foldl_link_end.conclude_text (t := [])
  rw [Lexer.targetText, List.reverse_reverse, List.singleton_append, Headword.trim_escape h,
    Headword.resolveUnsorted_escape] at hall
  -- The lexer has gone through the brackets, the first character and the others in turn
  have hsplit : escape (c :: rest) = escape [c] ++ escape rest := by
    rw [← hone]
    rfl
  rw [events, List.foldl_append, List.foldl_append, hsplit, List.foldl_append, hall, if_pos rfl,
    hsplit]
  rfl

private theorem trim_space_cons (t : Text) : Text.trim (' ' :: t) = Text.trim t := by
  have hspace : Unicode.isWhiteSpace ' ' = true := by decide +kernel
  rw [Text.trim, Text.trim, Text.trimStart, List.dropWhile_cons, hspace]
  rfl

/-- A sub-entry with an escaped headword of one line that white space neither starts nor ends. -/
theorem events_subEntry_escape {t : Text} (hne : t ≠ []) (h : t.Trimmed) (hfeed : '\n' ∉ t)
    (hreturn : '\r' ∉ t) :
    events true (['@', ' '] ++ escape t) = [.embed (.subEntry (escape t))] := by
  have hstart : (['@', ' '].foldl Lexer.feed (Lexer.start true)).Collects (.subEntry [' ']) [] [] :=
    ⟨rfl, rfl, rfl, rfl, rfl⟩
  have hall :=
    (Lexer.Collects.foldl_escape_subEntry [' '] hstart hfeed hreturn).conclude_subEntry
  have hvariants : Lexer.subEntryVariants ([' '] ++ escape t).reverse = [escape t] := by
    have hne' : escape t ≠ [] := fun heq => hne (Headword.escape_eq_nil_iff.mp heq)
    rw [Lexer.subEntryVariants, Lexer.targetText, List.reverse_reverse, List.singleton_append,
      trim_space_cons, Headword.trim_escape h, Headword.resolveUnsorted_escape,
      Headword.variants_escape]
    simp [Headword.trim_escape h, hne']
  rw [events, List.foldl_append, hall, hvariants]
  rfl

/-! ## Trees -/

theorem nodes_escape (subEntries : Bool) (t : Text) :
    nodes subEntries (escape t) = if t = [] then [] else [.text t] := by
  rw [nodes_eq, events_escape]
  split
  · rfl
  · rfl

/-- Escaping protects any text in every context: it can be undone, no step that works on headwords
changes the escaped text, and in an article it reads as the text, also as the target of a link and as
the headword of a sub-entry. -/
theorem escape_protects (t : Text) :
    Headword.unescape (escape t) = t ∧
    (∀ strip, Headword.resolveUnsorted strip (escape t) = escape t) ∧
    Headword.variants (escape t) = [escape t] ∧
    (∀ headword, Headword.replaceTildes (escape t) headword = escape t) ∧
    (parse (escape t)).children = (if t = [] then [] else [.text t]) ∧
    (t ≠ [] → t.Trimmed →
      (parse (['<', '<'] ++ escape t ++ ['>', '>'])).children = [.tag linkName [] [.text t]] ∧
      ('\n' ∉ t → '\r' ∉ t →
        (parse (['@', ' '] ++ escape t)).children = [.tag subEntryName [] [.text t]])) := by
  refine ⟨Headword.unescape_escape t, fun strip => Headword.resolveUnsorted_escape strip t,
    Headword.variants_escape t, Headword.replaceTildes_escape t, nodes_escape true t,
    fun hne h => ⟨?_, fun hfeed hreturn => ?_⟩⟩
  · show nodes true _ = _
    rw [nodes_eq, events_link_escape true hne h]
    show [Node.tag linkName [] (nodes true (escape t))] = _
    rw [nodes_escape, if_neg hne]
  · show nodes true _ = _
    rw [nodes_eq, events_subEntry_escape hne h hfeed hreturn]
    show [Node.tag subEntryName [] (nodes false (escape t))] = _
    rw [nodes_escape, if_neg hne]

/-- Brackets that would end a link, a parenthesis and a brace without their partners, and a backslash
at the end. -/
private def unpaired : Text := "[>> )\x7b~\\".toList

theorem escape_protects_unpaired :
    unpaired ≠ [] ∧ unpaired.Trimmed ∧ '\n' ∉ unpaired ∧ '\r' ∉ unpaired ∧
      (parse (['<', '<'] ++ escape unpaired ++ ['>', '>'])).children =
        [.tag linkName [] [.text unpaired]] ∧
      (parse (['@', ' '] ++ escape unpaired)).children =
        [.tag subEntryName [] [.text unpaired]] := by
  have hne : unpaired ≠ [] := by decide
  have htrimmed : unpaired.Trimmed := by
    constructor
    · rintro c ⟨⟩
      decide +kernel
    · rintro c ⟨⟩
      decide +kernel
  have hfeed : '\n' ∉ unpaired := by decide
  have hreturn : '\r' ∉ unpaired := by decide
  obtain ⟨-, -, -, -, -, hplaces⟩ := escape_protects unpaired
  obtain ⟨hlink, hsubEntry⟩ := hplaces hne htrimmed
  exact ⟨hne, htrimmed, hfeed, hreturn, hlink, hsubEntry hfeed hreturn⟩

end Lexicon.Markup
