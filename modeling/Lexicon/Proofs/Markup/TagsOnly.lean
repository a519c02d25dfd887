import Mathlib.Data.List.Basic
import Lexicon.Proofs.Markup.Flat
import Lexicon.Proofs.Markup.Settled

/-!
# Articles of text and tags

Where the only markup of an article is tags, rendering it leaves out what stands in square brackets
and keeps all else in its place. Whether the tags are closed, cross each other, are margins or are
too many makes no difference, for none of that moves text.

The invariant is `Lexer.Reads`: what has been written so far, and whether a bracket is open.

## Key results

- `Lexer.Reads.accept_inside`, `Lexer.Reads.accept_bracket`, `Lexer.Reads.accept_outside`: what one
  character does
- `Lexer.Reads.foldl`: what a whole text does
- `render_parse_tagsOnly`: rendering removes the spans in brackets and nothing else
-/

namespace Lexicon.Markup

/-- What is left of a text without the spans from an opening bracket to the next closing one, or to
the end. `inside` says whether the text starts inside such a span. -/
def outsideTags (inside : Bool) : Text → Text
  | [] => []
  | c :: rest =>
    if inside then outsideTags (c != ']') rest
    else if c = '[' then outsideTags true rest
    else c :: outsideTags false rest

/-- A text without escapes, links, comments and sub-entries, and without doubled brackets. -/
structure TagsOnly (t : Text) : Prop extends Unpaired t where
  atSign : '@' ∉ t
  link : ¬ ['<', '<'] <:+: t
  comment : ¬ ['{', '{'] <:+: t

namespace TagsOnly

theorem tail {c : Char} {t : Text} (h : TagsOnly (c :: t)) : TagsOnly t where
  toUnpaired := h.toUnpaired.tail
  atSign := fun hmem => h.atSign (List.mem_cons_of_mem c hmem)
  link := not_infix_of_cons h.link
  comment := not_infix_of_cons h.comment

theorem head?_ne {c : Char} {t : Text} (h : TagsOnly (c :: t)) (hc : c = '<' ∨ c = '{') :
    t.head? ≠ some c := by
  rcases hc with rfl | rfl
  · exact head?_ne_of_not_infix h.link
  · exact head?_ne_of_not_infix h.comment

end TagsOnly

/-- Whether a bracket is open; `none` where something else than text and tags is read. -/
def Mode.inBracket? : Mode → Option Bool
  | .text => some false
  | .angle => some false
  | .brace => some false
  | .tagStart => some true
  | .tagName .. => some true
  | .tagGap .. => some true
  | .tagAttrs .. => some true
  | _ => none

/-- The running text that is not taken for text before the next character. -/
def Mode.unread : Mode → Text
  | .angle => ['<']
  | .brace => ['{']
  | _ => []

/-- The text of an event, apart from what it embeds. -/
def Event.running {α : Type} : Event α → Text
  | .text t => t
  | _ => []

namespace Lexer

/-! ## What has been written -/

/-- The running text of all events and of what is pending is `w`, and nothing is embedded. -/
structure Written (w : Text) (s : Lexer) : Prop where
  running : s.events.reverse.flatMap Event.running ++ s.pending.reverse = w
  plain : ∀ target, .embed target ∉ s.events

theorem Written.goto {w : Text} {s : Lexer} (h : s.Written w) (mode : Mode) :
    (s.goto mode).Written w :=
  ⟨h.running, h.plain⟩

theorem Written.push {w : Text} {s : Lexer} (h : s.Written w) (c : Char) :
    (s.push c).Written (w ++ [c]) where
  running := by rw [← h.running]; simp [Lexer.push]
  plain := h.plain

theorem Written.flush {w : Text} {s : Lexer} (h : s.Written w) :
    s.flush.Written w ∧ s.flush.pending = [] := by
  unfold Lexer.flush
  split
  · exact ⟨h, ‹_›⟩
  · refine ⟨⟨?_, ?_⟩, rfl⟩
    · rw [← h.running]; simp [Event.running]
    · intro target hmem
      exact h.plain target (by simpa using hmem)

theorem Written.finishTag {w : Text} {s : Lexer} (h : s.Written w) (closing : Bool)
    (name attrs : Text) : (s.finishTag closing name attrs).Written w := by
  -- The text before the tag becomes an event, so nothing is pending when the tag is written
  obtain ⟨hflush, hpending⟩ := h.flush
  have hrunning := hflush.running
  rw [hpending, List.reverse_nil, List.append_nil] at hrunning
  refine ⟨?_, fun target hmem => hflush.plain target ?_⟩
  · cases closing <;>
      simp [Lexer.finishTag, Lexer.emit, hpending, hrunning, Event.running]
  · cases closing <;>
      simpa [Lexer.finishTag, Lexer.emit] using hmem

/-! ## One character -/

/-- The text read so far leaves `w`, and `inside` says whether a bracket is open. -/
structure Reads (inside : Bool) (w : Text) (s : Lexer) : Prop where
  mode : s.mode.inBracket? = some inside
  written : ∃ body, s.Written body ∧ w = body ++ s.mode.unread

private theorem Written.reads {inside : Bool} {w : Text} {s : Lexer} (h : s.Written w)
    (hmode : s.mode.inBracket? = some inside) (hunread : s.mode.unread = []) : s.Reads inside w :=
  ⟨hmode, w, h, by rw [hunread, List.append_nil]⟩

/-- A bracket in running text opens a span. -/
private theorem Written.readText_bracket {w : Text} {s : Lexer} (h : s.Written w) :
    (s.readText ⟨'[', false⟩).Reads true w :=
  (h.goto .tagStart).reads rfl rfl

/-- Any other character in running text is text, even if it has to wait for the next one. -/
private theorem Written.readText {w : Text} {s : Lexer} (h : s.Written w) {c : Char}
    (hbracket : c ≠ '[') (hat : c ≠ '@') : (s.readText ⟨c, false⟩).Reads false (w ++ [c]) := by
  unfold Lexer.readText
  simp only [Glyph.isPlain, Bool.not_false, Bool.true_and, beq_iff_eq, hbracket, if_false,
    beq_eq_false_iff_ne.mpr hat, Bool.false_and, Bool.false_eq_true]
  split
  · -- This may be the start of a link: the character waits
    rename_i heq
    subst heq
    exact ⟨rfl, w, h.goto .angle, rfl⟩
  · split
    · -- This may be the start of a comment
      rename_i heq
      subst heq
      exact ⟨rfl, w, h.goto .brace, rfl⟩
    · have hpush := h.push (s.textChar ⟨c, false⟩)
      exact hpush.reads rfl rfl

private theorem Written.readAttrs {w : Text} {s : Lexer} (h : s.Written w) (closing : Bool)
    (name attrs : Text) (c : Char) :
    (s.readAttrs closing name attrs ⟨c, false⟩).Reads (c != ']') w := by
  unfold Lexer.readAttrs
  by_cases hc : c = ']'
  · subst hc
    exact (h.finishTag closing name attrs).reads rfl rfl
  · have hplain : Glyph.isPlain ⟨c, false⟩ ']' = false := by simp [Glyph.isPlain, hc]
    rw [hplain, bne_iff_ne.mpr hc]
    exact (h.goto _).reads rfl rfl

private theorem isPlainBlank_ne {c : Char} (h : Glyph.isPlainBlank ⟨c, false⟩ = true) :
    (c != ']') = true := by
  rw [bne_iff_ne]
  rintro rfl
  exact absurd h (by decide)

private theorem Written.readGap {w : Text} {s : Lexer} (h : s.Written w) (closing : Bool)
    (name : Text) (c : Char) : (s.readGap closing name ⟨c, false⟩).Reads (c != ']') w := by
  unfold Lexer.readGap
  split
  · rename_i hblank
    rw [isPlainBlank_ne hblank]
    exact (h.goto _).reads rfl rfl
  · exact h.readAttrs closing name [] c

private theorem Written.readName {w : Text} {s : Lexer} (h : s.Written w) (closing : Bool)
    (name : Text) (c : Char) : (s.readName closing name ⟨c, false⟩).Reads (c != ']') w := by
  unfold Lexer.readName
  split
  · exact h.readGap closing name c
  · rename_i hc
    have hne : (c != ']') = true := by
      rw [bne_iff_ne]
      rintro rfl
      exact hc rfl
    rw [hne]
    exact (h.goto _).reads rfl rfl

private theorem Reads.of_step {inside : Bool} {w : Text} {s : Lexer} {c : Char}
    (h : (s.step ⟨c, false⟩).Reads inside w) : (s.acceptPlain c).Reads inside w :=
  ⟨h.mode, h.written.imp fun _ hbody => ⟨⟨hbody.1.running, hbody.1.plain⟩, hbody.2⟩⟩

/-- Inside a bracket nothing is written, and the next closing bracket ends it. -/
theorem Reads.accept_inside {w : Text} {s : Lexer} (h : s.Reads true w) (c : Char) :
    (s.acceptPlain c).Reads (c != ']') w := by
  apply Reads.of_step
  have hmode := h.mode
  obtain ⟨body, hbody, hw⟩ := h.written
  unfold step
  -- Only the four modes inside a tag have an open bracket
  split <;> rename_i hs <;> rw [hs] at hmode hw <;> cases hmode <;>
    simp only [Mode.unread, List.append_nil] at hw <;> subst hw
  case h_4 =>
    split
    · -- A blank at the start of a tag
      rename_i hblank
      have hne : (c != ']') = true := isPlainBlank_ne (by simpa [Glyph.isPlainBlank] using hblank)
      rw [hne]
      exact hbody.reads (by rw [hs]; rfl) (by rw [hs]; rfl)
    · split
      · rename_i hslash
        have hc : c = '/' := by simpa [Glyph.isPlain] using hslash
        subst hc
        exact (hbody.goto _).reads rfl rfl
      · exact hbody.readName false [] c
  case h_5 closing name => exact hbody.readName closing name c
  case h_6 closing name => exact hbody.readGap closing name c
  case h_7 closing name attrs => exact hbody.readAttrs closing name attrs c

/-- Outside brackets a step reads running text, behind the character that has waited for it. -/
private theorem Reads.exists_step_eq {w : Text} {s : Lexer} (h : s.Reads false w) {c : Char}
    (hnext : s.mode.unread ≠ [c]) :
    ∃ s' : Lexer, s'.Written w ∧ s.step ⟨c, false⟩ = s'.readText ⟨c, false⟩ := by
  have hmode := h.mode
  obtain ⟨body, hbody, hw⟩ := h.written
  unfold step
  -- In running text, behind a `<` and behind a brace
  split <;> rename_i hs <;> rw [hs] at hmode hw hnext <;> cases hmode <;>
    simp only [Mode.unread, List.append_nil] at hw hnext <;> subst hw
  case h_1 => exact ⟨s, hbody, rfl⟩
  case h_2 =>
    have hc : Glyph.isPlain ⟨c, false⟩ '<' = false := by
      simp only [Glyph.isPlain, Bool.not_false, Bool.true_and, beq_eq_false_iff_ne]
      exact fun heq => hnext (by rw [heq])
    exact ⟨s.push '<', hbody.push '<', by rw [hc]; rfl⟩
  case h_3 =>
    have hc : Glyph.isPlain ⟨c, false⟩ '{' = false := by
      simp only [Glyph.isPlain, Bool.not_false, Bool.true_and, beq_eq_false_iff_ne]
      exact fun heq => hnext (by rw [heq])
    exact ⟨s.push '{', hbody.push '{', by rw [hc]; rfl⟩

theorem Reads.accept_bracket {w : Text} {s : Lexer} (h : s.Reads false w)
    (hnext : s.mode.unread ≠ ['[']) : (s.acceptPlain '[').Reads true w := by
  obtain ⟨s', hs', heq⟩ := h.exists_step_eq hnext
  exact Reads.of_step (heq ▸ hs'.readText_bracket)

theorem Reads.accept_outside {w : Text} {s : Lexer} (h : s.Reads false w) {c : Char}
    (hnext : s.mode.unread ≠ [c]) (hbracket : c ≠ '[') (hat : c ≠ '@') :
    (s.acceptPlain c).Reads false (w ++ [c]) := by
  obtain ⟨s', hs', heq⟩ := h.exists_step_eq hnext
  exact Reads.of_step (heq ▸ hs'.readText hbracket hat)

/-! ## What waits for the next character -/

private theorem unread_readAttrs (s : Lexer) (closing : Bool) (name attrs : Text) (g : Glyph) :
    (s.readAttrs closing name attrs g).mode.unread = [] := by
  unfold readAttrs; split <;> rfl

private theorem unread_readGap (s : Lexer) (closing : Bool) (name : Text) (g : Glyph) :
    (s.readGap closing name g).mode.unread = [] := by
  unfold readGap; split
  · rfl
  · exact unread_readAttrs s closing name [] g

private theorem unread_readName (s : Lexer) (closing : Bool) (name : Text) (g : Glyph) :
    (s.readName closing name g).mode.unread = [] := by
  unfold readName; split
  · exact unread_readGap s closing name g
  · rfl

theorem Reads.unread_accept_inside {w : Text} {s : Lexer} (h : s.Reads true w) (c : Char) :
    (s.acceptPlain c).mode.unread = [] := by
  have hmode := h.mode
  change (s.step ⟨c, false⟩).mode.unread = []
  unfold step
  split <;> rename_i hs <;> rw [hs] at hmode <;> cases hmode
  case h_4 =>
    split
    · rw [hs]; rfl
    · split
      · rfl
      · exact unread_readName s false [] _
  case h_5 closing name => exact unread_readName s closing name _
  case h_6 closing name => exact unread_readGap s closing name _
  case h_7 closing name attrs => exact unread_readAttrs s closing name attrs _

/-- Outside brackets only the start of a link or a comment waits for the next character. -/
theorem Reads.unread_accept_outside {w : Text} {s : Lexer} (h : s.Reads false w) {c d : Char}
    (hnext : s.mode.unread ≠ [c]) (hd : d ∈ (s.acceptPlain c).mode.unread) :
    d = c ∧ (c = '<' ∨ c = '{') := by
  obtain ⟨s', -, heq⟩ := h.exists_step_eq hnext
  change d ∈ (s.step ⟨c, false⟩).mode.unread at hd
  rw [heq] at hd
  unfold Lexer.readText at hd
  split at hd
  · cases hd
  · split at hd
    · rename_i hc
      have hc : c = '<' := by simpa [Glyph.isPlain] using hc
      exact ⟨by rw [hc]; exact List.mem_singleton.mp hd, .inl hc⟩
    · split at hd
      · rename_i hc
        have hc : c = '{' := by simpa [Glyph.isPlain] using hc
        exact ⟨by rw [hc]; exact List.mem_singleton.mp hd, .inr hc⟩
      · split at hd <;> cases hd

/-! ## A whole text -/

/-- Reading a text writes what stands outside brackets. -/
theorem Reads.foldl {t : Text} (ht : TagsOnly t) {inside : Bool} {w : Text} {s : Lexer}
    (h : s.Reads inside w) (hnext : ∀ c ∈ s.mode.unread, t.head? ≠ some c) :
    ∃ inside', (t.foldl acceptPlain s).Reads inside' (w ++ outsideTags inside t) := by
  -- A character that waits is not followed by itself, so no link and no comment starts
  induction t generalizing inside w s with
  | nil => exact ⟨inside, by rwa [outsideTags, List.append_nil]⟩
  | cons c rest ih =>
    rw [List.foldl_cons]
    have hwait : s.mode.unread ≠ [c] := fun heq => hnext c (by rw [heq]; simp) rfl
    cases inside with
    | true =>
      rw [outsideTags, if_pos rfl]
      apply ih ht.tail (h.accept_inside c)
      intro d hd
      rw [h.unread_accept_inside c] at hd
      cases hd
    | false =>
      have hrest : ∀ d ∈ (s.acceptPlain c).mode.unread, rest.head? ≠ some d := by
        intro d hd
        obtain ⟨rfl, hc⟩ := h.unread_accept_outside hwait hd
        exact ht.head?_ne hc
      rw [outsideTags, if_neg Bool.false_ne_true]
      by_cases hbracket : c = '['
      · subst hbracket
        rw [if_pos rfl]
        exact ih ht.tail (h.accept_bracket hwait) hrest
      · have hat : c ≠ '@' := fun heq => ht.atSign (heq ▸ List.mem_cons_self)
        rw [if_neg hbracket, ← List.singleton_append, ← List.append_assoc]
        exact ih ht.tail (h.accept_outside hwait hbracket hat) hrest

/-- When the text has ended, all that was read is written in events. -/
theorem Reads.conclude {inside : Bool} {w : Text} {s : Lexer} (h : s.Reads inside w) :
    s.close.flush.events.reverse.flatMap Event.running = w ∧
      ∀ target, .embed target ∉ s.close.flush.events := by
  have hclose : s.close.Written w := by
    have hmode := h.mode
    obtain ⟨body, hbody, hw⟩ := h.written
    unfold close
    split <;> rename_i hs
    · rw [hw, hs]; exact hbody.push '<'
    · rw [hw, hs]; exact hbody.push '{'
    · rw [hs] at hmode; cases hmode
    · -- In all other modes nothing waits
      have hunread : s.mode.unread = [] := by
        unfold Mode.unread
        split <;> simp_all
      rw [hw, hunread, List.append_nil]
      exact hbody
  obtain ⟨hflush, hpending⟩ := hclose.flush
  have hrunning := hflush.running
  rw [hpending, List.reverse_nil, List.append_nil] at hrunning
  exact ⟨hrunning, hflush.plain⟩

end Lexer

/-- The events of an article of text and tags hold the text outside its brackets, and no link and no
sub-entry. -/
theorem running_events {t : Text} (ht : TagsOnly t) (subEntries : Bool) :
    (events subEntries t).flatMap Event.running = outsideTags false t ∧
      ∀ target, .embed target ∉ events subEntries t := by
  have hstart : (Lexer.start subEntries).Reads false [] :=
    ⟨rfl, [], ⟨rfl, fun _ h => by cases h⟩, rfl⟩
  obtain ⟨inside, hreads⟩ := hstart.foldl ht (by rintro c ⟨⟩)
  obtain ⟨hrunning, hplain⟩ := hreads.conclude
  rw [events_eq_of_unpaired subEntries ht.toUnpaired]
  exact ⟨hrunning, fun target hmem => hplain target (List.mem_reverse.mp hmem)⟩

/-- Rendering an article of text and tags removes the spans from an opening bracket to the next
closing one, and nothing else. -/
theorem render_parse_tagsOnly (t : Text) (ht : TagsOnly t) :
    (parse t).render false = outsideTags false t := by
  obtain ⟨hrunning, hplain⟩ := running_events ht true
  rw [render_parse_eq, List.flatMap_map, ← hrunning]
  refine List.flatMap_congr fun e he => ?_
  cases e with
  | embed target => exact absurd he (hplain target)
  | _ => rfl

/-- Crossing tags, two margins, a stray closing bracket and an unfinished tag. -/
theorem render_parse_crossing :
    TagsOnly "[m1]a[b]b[i]c[/b]d]\x7be<[m2]f[u".toList ∧
      (parse "[m1]a[b]b[i]c[/b]d]\x7be<[m2]f[u".toList).render false = "abcd]\x7be<f".toList := by
  have ht : TagsOnly "[m1]a[b]b[i]c[/b]d]\x7be<[m2]f[u".toList :=
    ⟨⟨by decide +kernel, by decide +kernel, by decide +kernel⟩,
      by decide +kernel, by decide +kernel, by decide +kernel⟩
  refine ⟨ht, ?_⟩
  rw [render_parse_tagsOnly _ ht]
  decide +kernel

end Lexicon.Markup
