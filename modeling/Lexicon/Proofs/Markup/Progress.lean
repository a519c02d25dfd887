import Lexicon.Markup.Article
import Lexicon.Proofs.Markup.Steps
import Mathlib.Data.List.Chain

/-!
# Reading an article comes to an end

An article can be read from a cursor. Each round takes the next glyph off the text, whatever is being
read, and with it at least one character; reading ends where there is no further glyph. Links and
sub-entries are read in turn. Their texts are no parts of the article: escapes and doubled brackets
are written back as escapes, unsorted parts are resolved and optional parts expanded. They still are
shorter than the article by the characters that mark them.

## Key results

- `Regions.nextGlyph?`, `Regions.exists_append_of_nextGlyph?`: what a round takes off the text
- `Lexer.readFrom`, `Lexer.readFrom_left`: reading from a cursor, and what is left over
- `Lexer.release_foldl_feed`, `events_eq_readFrom`: the lexer reads what the cursor reads
- `Calls.length_lt`, `length_le_of_isChain`: texts read in turn
- `nested_reading_ends`: all of this for one article
-/

namespace Lexicon.Markup

/-! ## Rounds -/

namespace Regions

/-- Whether a character and the one after it are one escaped glyph. -/
def pairs (r : Regions) (c next : Char) : Bool :=
  if c = '\\' then r.backslashEscapes next else r.mustHold c && next == c

/-- The next glyph of a text and what follows it. A backslash that would escape is no glyph at the
end of the text. -/
def nextGlyph? (r : Regions) : Text → Option (Glyph × Text)
  | [] => none
  | [c] => if c = '\\' ∧ r.media = 0 then none else some (⟨c, false⟩, [])
  | c :: next :: rest =>
    if r.pairs c next then some (⟨next, true⟩, rest) else some (⟨c, false⟩, next :: rest)

variable {r : Regions} {t rest : Text} {g : Glyph}

/-- A backslash cannot be read before the next character is known. -/
theorem ne_backslash {c : Char} (h : r.mustHold c = false) : c ≠ '\\' := by
  rintro rfl
  cases h

/-- A glyph is written with as many characters as it spans. -/
theorem exists_append_of_nextGlyph? (h : r.nextGlyph? t = some (g, rest)) :
    ∃ taken : Text, taken.length = g.span ∧ t = taken ++ rest := by
  unfold nextGlyph? at h
  split at h
  · cases h
  · rename_i c
    split at h
    · cases h
    · cases h
      exact ⟨[c], rfl, rfl⟩
  · rename_i c next _
    split at h
    · cases h
      exact ⟨[c, next], rfl, rfl⟩
    · cases h
      exact ⟨[c], rfl, rfl⟩

theorem length_lt_of_nextGlyph? (h : r.nextGlyph? t = some (g, rest)) : rest.length < t.length := by
  obtain ⟨taken, htaken, rfl⟩ := exists_append_of_nextGlyph? h
  have hpos := g.span_pos
  rw [List.length_append]
  omega

/-- There is no glyph at the end of a text and behind a last backslash that would escape. -/
theorem nextGlyph?_eq_none_iff :
    r.nextGlyph? t = none ↔ t = [] ∨ t = ['\\'] ∧ r.media = 0 := by
  constructor
  · intro h
    unfold nextGlyph? at h
    split at h
    · exact .inl rfl
    · split at h
      · rename_i hback
        exact .inr ⟨by rw [hback.1], hback.2⟩
      · cases h
    · split at h
      · cases h
      · cases h
  · rintro (rfl | ⟨rfl, hmedia⟩)
    · rfl
    · exact if_pos ⟨rfl, hmedia⟩

end Regions

namespace Lexer

/-- Reads a text from a cursor, one glyph in each round. With the last state comes the text that is
left when there is no further glyph. -/
def readFrom (s : Lexer) (t : Text) : Lexer × Text :=
  match _h : s.regions.nextGlyph? t with
  | none => (s, t)
  | some (g, rest) => readFrom (s.accept g) rest
termination_by t.length
decreasing_by exact Regions.length_lt_of_nextGlyph? _h

/-- The whole text is read, except for a last backslash that would escape. -/
theorem readFrom_left (s : Lexer) (t : Text) :
    (s.readFrom t).2 = [] ∨ (s.readFrom t).2 = ['\\'] ∧ (s.readFrom t).1.regions.media = 0 := by
  fun_induction readFrom s t with
  | case1 s t hnone => exact Regions.nextGlyph?_eq_none_iff.mp hnone
  | case2 s t g rest hsome ih => exact ih

/-! ## The lexer -/

variable {s : Lexer}

private theorem release_of_held_none (hheld : s.held = none) : s.release = s := by
  unfold release
  rw [hheld]

/-- The last character of a text is read as itself, unless it is a backslash that would escape. -/
private theorem release_feed (hheld : s.held = none) (c : Char) :
    (s.feed c).release =
      if c = '\\' ∧ s.regions.media = 0 then s else s.accept ⟨c, false⟩ := by
  cases hhold : s.regions.mustHold c with
  | true =>
    have hback : { s with held := none } = s := by
      rw [← hheld]
    rw [feed_of_mustHold hheld hhold]
    show (if c = '\\' ∧ s.regions.media = 0 then { s with held := none }
      else Lexer.accept { s with held := none } ⟨c, false⟩) = _
    rw [hback]
  | false =>
    have hne := Regions.ne_backslash hhold
    rw [feed_at_once hheld hhold, release_of_held_none (by rw [held_accept, hheld]),
      if_neg fun h => hne h.1]

/-- A round of the cursor is what the lexer makes of the characters that it takes. -/
private theorem release_foldl_of_nextGlyph? (hheld : s.held = none) {t rest : Text} {g : Glyph}
    (h : s.regions.nextGlyph? t = some (g, rest)) :
    (t.foldl feed s).release = (rest.foldl feed (s.accept g)).release := by
  unfold Regions.nextGlyph? at h
  split at h
  · cases h
  · rename_i c
    split at h
    · cases h
    · rename_i hback
      cases h
      have hfree : (s.accept ⟨c, false⟩).held = none := by rw [held_accept, hheld]
      rw [List.foldl_cons, List.foldl_nil, List.foldl_nil, release_feed hheld, if_neg hback,
        release_of_held_none hfree]
  · -- The lexer knows the glyph one character later if it has to hold the first one back
    rename_i c next rest'
    have hfree : (s.accept ⟨c, false⟩).held = none := by rw [held_accept, hheld]
    have htake : (s.accept ⟨c, false⟩).take next = (s.accept ⟨c, false⟩).feed next := by
      rw [feed, hfree]
    cases hhold : s.regions.mustHold c with
    | true =>
      have hpairs : s.regions.pairs c next = s.pairs c next := by
        rw [Regions.pairs, Lexer.pairs, hhold, Bool.true_and]
      rw [hpairs] at h
      rw [List.foldl_cons, List.foldl_cons, feed_feed hheld hhold]
      split at h
      · rename_i hpair
        cases h
        rw [if_pos hpair]
      · rename_i hpair
        cases h
        rw [if_neg hpair, htake, List.foldl_cons]
    | false =>
      have hne := Regions.ne_backslash hhold
      rw [Regions.pairs, if_neg hne, hhold] at h
      cases h
      rw [List.foldl_cons, feed_at_once hheld hhold]

/-- The lexer reads what the cursor reads. -/
theorem release_foldl_feed (hheld : s.held = none) (t : Text) :
    (t.foldl feed s).release = (s.readFrom t).1 := by
  fun_induction readFrom s t with
  | case1 s t hnone =>
    rcases Regions.nextGlyph?_eq_none_iff.mp hnone with rfl | ⟨rfl, hmedia⟩
    · exact release_of_held_none hheld
    · exact (release_feed hheld '\\').trans (if_pos ⟨rfl, hmedia⟩)
  | case2 s t g rest hsome ih =>
    rw [release_foldl_of_nextGlyph? hheld hsome]
    exact ih (by rw [held_accept, hheld])

end Lexer

/-- The events of an article are those that the cursor comes across. -/
theorem events_eq_readFrom (subEntries : Bool) (t : Text) :
    events subEntries t = ((Lexer.start subEntries).readFrom t).1.close.flush.events.reverse := by
  rw [← Lexer.release_foldl_feed rfl]
  rfl

/-! ## Texts read in turn -/

/-- A text to be read, together with whether sub-entries are recognised in it. -/
structure Reading where
  subEntries : Bool
  text : Text
  deriving DecidableEq, Repr

/-- Reading the first text calls for reading the second one. In the headword of a sub-entry no
further sub-entry starts. -/
inductive Calls : Reading → Reading → Prop
  | link {subEntries : Bool} {t target : Text} :
    .embed (.link target) ∈ events subEntries t → Calls ⟨subEntries, t⟩ ⟨subEntries, target⟩
  | subEntry {subEntries : Bool} {t headword : Text} :
    .embed (.subEntry headword) ∈ events subEntries t → Calls ⟨subEntries, t⟩ ⟨false, headword⟩

theorem Calls.length_lt {a b : Reading} (h : Calls a b) : b.text.length < a.text.length := by
  cases h with
  | link hmem => exact Nat.le_trans (Nat.le_add_right _ 3) (span_le_of_mem_events hmem)
  | subEntry hmem => exact span_le_of_mem_events hmem

/-- Reading texts in turn goes no deeper than the first text is long. -/
theorem length_le_of_isChain {a : Reading} {calls : List Reading}
    (h : List.IsChain Calls (a :: calls)) : calls.length ≤ a.text.length := by
  induction calls generalizing a with
  | nil => exact Nat.zero_le _
  | cons b calls ih =>
    obtain ⟨hcall, hrest⟩ := List.isChain_cons_cons.mp h
    have hlt := hcall.length_lt
    have hle := ih hrest
    rw [List.length_cons]
    omega

/-- The texts that an article has read in turn are shorter than it by the characters that mark them,
so reading in turn comes to an end. Each round of reading takes at least one character, and in the end
nothing is left but a backslash that would escape. -/
theorem nested_reading_ends (subEntries : Bool) (t : Text) :
    (∀ target, .embed (.link target) ∈ events subEntries t → target.length + 4 ≤ t.length) ∧
    (∀ headword, .embed (.subEntry headword) ∈ events subEntries t →
      headword.length + 1 ≤ t.length) ∧
    (∀ calls, List.IsChain Calls (⟨subEntries, t⟩ :: calls) → calls.length ≤ t.length) ∧
    (∀ r u g rest, Regions.nextGlyph? r u = some (g, rest) →
      ∃ taken, taken ≠ [] ∧ u = taken ++ rest) ∧
    ∃ s left, (Lexer.start subEntries).readFrom t = (s, left) ∧
      events subEntries t = s.close.flush.events.reverse ∧ (left = [] ∨ left = ['\\']) := by
  refine ⟨fun _ => span_le_of_mem_events, fun _ => span_le_of_mem_events,
    fun _ => length_le_of_isChain, ?_, ?_⟩
  · intro r u g rest hnext
    obtain ⟨taken, htaken, hsplit⟩ := Regions.exists_append_of_nextGlyph? hnext
    exact ⟨taken, List.ne_nil_of_length_pos (htaken ▸ g.span_pos), hsplit⟩
  · exact ⟨_, _, rfl, events_eq_readFrom subEntries t,
      (Lexer.readFrom_left _ t).imp_right And.left⟩

/-- Behind the link, which holds an escape, a doubled bracket and an unsorted part, a sub-entry has
read another link. -/
theorem nested_reading_ends_rewritten :
    let t := "[t]<< [[a\\>\x7bb\x7d >>\n@\x7bc\x7dd<<e>>\n\\".toList
    (.embed (.link "\\[a\\>".toList) ∈ events true t ∧ "\\[a\\>".toList.length + 4 ≤ t.length) ∧
    (.embed (.subEntry "d<<e>>".toList) ∈ events true t ∧
      "d<<e>>".toList.length + 1 ≤ t.length) ∧
    (List.IsChain Calls [⟨true, t⟩, ⟨false, "d<<e>>".toList⟩, ⟨false, "e".toList⟩] ∧
      2 ≤ t.length) ∧
    Regions.nextGlyph? ⟨1, 0⟩ "[[a".toList = some (⟨'[', true⟩, "a".toList) ∧
    ∃ taken, taken ≠ [] ∧ "[[a".toList = taken ++ "a".toList := by
  intro t
  have hevents : events true t = [.opening "t".toList [], .embed (.link "\\[a\\>".toList),
      .text "\n".toList, .embed (.subEntry "d<<e>>".toList)] := by
    decide +kernel
  have hlink : .embed (.link "\\[a\\>".toList) ∈ events true t := by
    rw [hevents]
    exact .tail _ (.head _)
  have hentry : .embed (.subEntry "d<<e>>".toList) ∈ events true t := by
    rw [hevents]
    exact .tail _ (.tail _ (.tail _ (.head _)))
  have hinner : .embed (.link "e".toList) ∈ events false "d<<e>>".toList := by decide +kernel
  have hchain : List.IsChain Calls
      [⟨true, t⟩, ⟨false, "d<<e>>".toList⟩, ⟨false, "e".toList⟩] :=
    .cons_cons (.subEntry hentry) (.cons_cons (.link hinner) (.singleton _))
  have hnext : Regions.nextGlyph? ⟨1, 0⟩ "[[a".toList = some (⟨'[', true⟩, "a".toList) := rfl
  obtain ⟨hlinks, hentries, hcalls, hrounds, -⟩ := nested_reading_ends true t
  exact ⟨⟨hlink, hlinks _ hlink⟩, ⟨hentry, hentries _ hentry⟩, ⟨hchain, hcalls _ hchain⟩, hnext,
    hrounds _ _ _ _ hnext⟩

end Lexicon.Markup
