import Lexicon.Proofs.Markup.RegionCounts
import Lexicon.Proofs.Text.Pieces

/-!
# Literal text inside regions

Inside a transcription a bracket stands for itself when it is doubled, and inside a media name it does
behind a backslash, as does a backslash. So each kind of region has its own way to write a text that is
read as it is. A backslash in a media name may even stand alone where none of these characters follows.

By the invariant `Lexer.Within` the lexer stays in running text and in its region while it reads such a
text, and each character is added to what is pending. The closing tag of the region ends it.

## Key results

- `Lexer.Within.feed_ordinary`, `Lexer.Within.feed_doubled`, `Lexer.Within.feed_escaped`,
  `Lexer.Within.feed_kept`: the ways in which a character is read as itself
- `Lexer.Within.foldl_doubled`, `Lexer.Within.foldl_allEscaped`, `Lexer.Within.foldl_bracketsEscaped`:
  what the lexer makes of a text written for its region
- `literal_in_regions`: such a text is all that the region holds
-/

namespace Lexicon.Markup

/-! ## Writing literal text -/

/-- Whether a character is a square bracket. -/
def isBracket (c : Char) : Bool :=
  c = '[' ∨ c = ']'

/-- The text with a mark before each character that needs one. -/
def marked (mark : Char → Char) (needs : Char → Bool) (t : Text) : Text :=
  t.flatMap fun c => if needs c then [mark c, c] else [c]

/-- The text with every bracket doubled. -/
def doubled (t : Text) : Text :=
  marked id isBracket t

/-- The text with a backslash before every bracket. -/
def bracketsEscaped (t : Text) : Text :=
  marked (fun _ => '\\') isBracket t

theorem bracketsEscaped_cons (c : Char) (t : Text) :
    bracketsEscaped (c :: t) =
      (if isBracket c then ['\\', c] else [c]) ++ bracketsEscaped t := by
  rw [bracketsEscaped, marked, List.flatMap_cons]
  rfl

/-- The text with a backslash before every bracket and every backslash. -/
def allEscaped (t : Text) : Text :=
  marked (fun _ => '\\') (fun c => isBracket c || c == '\\') t

/-- The text has no character that starts links, comments or sub-entries. -/
structure Literal (t : Text) : Prop where
  link : '<' ∉ t
  comment : '{' ∉ t
  atSign : '@' ∉ t

/-- No backslash of the text is followed by a bracket, another backslash or the end. -/
structure BackslashesApart (t : Text) : Prop where
  opening : ¬ ['\\', '['] <:+: t
  closing : ¬ ['\\', ']'] <:+: t
  backslash : ¬ ['\\', '\\'] <:+: t
  last : t.getLast? ≠ some '\\'

theorem Literal.of_mem {t : Text} (h : Literal t) {c : Char} (hc : c ∈ t) : Literal [c] where
  link := fun hmem => h.link (List.mem_singleton.mp hmem ▸ hc)
  comment := fun hmem => h.comment (List.mem_singleton.mp hmem ▸ hc)
  atSign := fun hmem => h.atSign (List.mem_singleton.mp hmem ▸ hc)

theorem Literal.tail {c : Char} {t : Text} (h : Literal (c :: t)) : Literal t where
  link := fun hmem => h.link (List.mem_cons_of_mem c hmem)
  comment := fun hmem => h.comment (List.mem_cons_of_mem c hmem)
  atSign := fun hmem => h.atSign (List.mem_cons_of_mem c hmem)

theorem BackslashesApart.tail {c : Char} {t : Text} (h : BackslashesApart (c :: t)) :
    BackslashesApart t where
  opening := not_infix_of_cons h.opening
  closing := not_infix_of_cons h.closing
  backslash := not_infix_of_cons h.backslash
  last := fun hlast => h.last (by rw [List.getLast?_cons, hlast]; rfl)

theorem isBracket_iff {c : Char} : isBracket c = true ↔ c = '[' ∨ c = ']' :=
  decide_eq_true_iff

theorem BackslashesApart.next {c : Char} {t : Text} (h : BackslashesApart ('\\' :: c :: t)) :
    isBracket c = false ∧ c ≠ '\\' := by
  rw [Bool.eq_false_iff, ne_eq, isBracket_iff]
  refine ⟨?_, ?_⟩
  · rintro (rfl | rfl)
    · exact h.opening (List.prefix_append ['\\', '['] t).isInfix
    · exact h.closing (List.prefix_append ['\\', ']'] t).isInfix
  · rintro rfl
    exact h.backslash (List.prefix_append ['\\', '\\'] t).isInfix

namespace Lexer

/-- Running text is read in the given regions, with nothing held back. -/
structure Within (regions : Regions) (pending : Text) (events : List (Event Target)) (s : Lexer) :
    Prop where
  held : s.held = none
  regions : s.regions = regions
  mode : s.mode = .text
  pending : s.pending = pending
  events : s.events = events

variable {r : Regions} {pending : Text} {done : List (Event Target)} {s : Lexer} {c : Char}

/-! ## One character -/

/-- A bracket is running text only if it is escaped, and no space is. -/
theorem Within.accept (h : s.Within r pending done) {escaped : Bool}
    (hbracket : c = '[' → escaped = true) (hspace : escaped = true → c ≠ ' ') (hc : Literal [c]) :
    (s.accept ⟨c, escaped⟩).Within r (c :: pending) done := by
  have hne : ∀ {d}, d ∉ [c] → Glyph.isPlain ⟨c, escaped⟩ d = false := by
    intro d hd
    have hcd : c ≠ d := fun heq => hd (by rw [heq]; exact List.mem_cons_self)
    rw [Glyph.isPlain, beq_eq_false_iff_ne.mpr hcd, Bool.and_false]
  have hplain : Glyph.isPlain ⟨c, escaped⟩ '[' = false := by
    by_cases heq : c = '['
    · rw [Glyph.isPlain, hbracket heq]
      rfl
    · exact hne (by simpa using Ne.symm heq)
  have hchar : s.textChar ⟨c, escaped⟩ = c := if_neg fun hnbsp => hspace hnbsp.1 hnbsp.2.1
  have hstep : s.step ⟨c, escaped⟩ = s.push c := by
    rw [step_text h.mode hplain (hne hc.link) (hne hc.comment) (hne hc.atSign), hchar]
  refine ⟨?_, ?_, ?_, ?_, ?_⟩
  · exact (held_accept s _).trans h.held
  · exact (congrArg Lexer.regions hstep).trans h.regions
  · exact congrArg Lexer.mode hstep
  · exact (congrArg Lexer.pending hstep).trans (congrArg (c :: ·) h.pending)
  · exact (congrArg Lexer.events hstep).trans h.events

/-- A character that has no meaning at this place. -/
theorem Within.feed_ordinary (h : s.Within r pending done) (hbracket : isBracket c = false)
    (hback : c ≠ '\\') (hc : Literal [c]) : (s.feed c).Within r (c :: pending) done := by
  rw [Bool.eq_false_iff, ne_eq, isBracket_iff, not_or] at hbracket
  rw [feed_at_once h.held (mustHold_of_ne hbracket.1 hbracket.2 hback _)]
  exact h.accept (fun heq => absurd heq hbracket.1) (fun h => absurd h Bool.false_ne_true) hc

/-- A doubled bracket inside a transcription. -/
theorem Within.feed_doubled (h : s.Within r pending done) (hregion : 0 < r.transcription)
    (hbracket : isBracket c = true) (hc : Literal [c]) :
    ((s.feed c).feed c).Within r (c :: pending) done := by
  rw [isBracket_iff] at hbracket
  rw [feed_bracket_inside h.held (by rwa [h.regions]) hbracket]
  refine h.accept (fun _ => rfl) (fun _ heq => ?_) hc
  subst heq
  exact absurd hbracket (by decide)

/-- A bracket or a backslash behind a backslash, inside a region or not. -/
theorem Within.feed_escaped (h : s.Within r pending done)
    (hmark : (isBracket c || c == '\\') = true) (hc : Literal [c]) :
    ((s.feed '\\').feed c).Within r (c :: pending) done := by
  rw [Bool.or_eq_true, isBracket_iff, beq_iff_eq] at hmark
  have hpairs : s.pairs '\\' c = true := by
    rcases hmark with (rfl | rfl) | rfl <;> simp [pairs, Regions.backslashEscapes]
  rw [feed_feed h.held rfl, if_pos hpairs]
  refine h.accept (fun _ => rfl) (fun _ heq => ?_) hc
  subst heq
  exact absurd hmark (by decide)

/-- Another character behind a backslash that belongs to a media name. -/
theorem Within.feed_kept (h : s.Within r pending done) (hregion : 0 < r.media)
    (hbracket : isBracket c = false) (hback : c ≠ '\\') (hc : Literal [c]) :
    ((s.feed '\\').feed c).Within r (c :: '\\' :: pending) done := by
  rw [Bool.eq_false_iff, ne_eq, isBracket_iff, not_or] at hbracket
  rw [feed_backslash_inside h.held (by rwa [h.regions]) ⟨hbracket.1, hbracket.2, hback⟩]
  have hfirst : (s.accept ⟨'\\', false⟩).Within r ('\\' :: pending) done :=
    h.accept (by decide) nofun ⟨by decide, by decide, by decide⟩
  exact hfirst.accept (fun heq => absurd heq hbracket.1) nofun hc

/-! ## A whole text -/

/-- A text is read as itself if each of its characters is, with its mark where it needs one. -/
theorem Within.foldl_marked {mark : Char → Char} {needs : Char → Bool} {t : Text}
    (hread : ∀ (s : Lexer) (pending : Text), ∀ c ∈ t, s.Within r pending done →
      ((if needs c then [mark c, c] else [c]).foldl feed s).Within r (c :: pending) done)
    (h : s.Within r pending done) :
    ((marked mark needs t).foldl feed s).Within r (t.reverse ++ pending) done := by
  induction t generalizing s pending with
  | nil => exact h
  | cons c rest ih =>
    have hrest := ih (fun s pending d hd => hread s pending d (List.mem_cons_of_mem c hd))
      (hread s pending c List.mem_cons_self h)
    rw [marked, List.flatMap_cons, List.foldl_append, List.reverse_cons, List.append_assoc]
    exact hrest

theorem Within.foldl_doubled (h : s.Within r pending done) (hregion : 0 < r.transcription)
    {t : Text} (ht : Literal t) (hback : '\\' ∉ t) :
    ((doubled t).foldl feed s).Within r (t.reverse ++ pending) done := by
  refine Within.foldl_marked (fun s pending c hc hs => ?_) h
  have hliteral : Literal [c] := ht.of_mem hc
  split
  · rename_i hbracket
    exact hs.feed_doubled hregion hbracket hliteral
  · rename_i hbracket
    exact hs.feed_ordinary (Bool.eq_false_iff.mpr hbracket) (fun heq => hback (heq ▸ hc)) hliteral

theorem Within.foldl_allEscaped (h : s.Within r pending done) {t : Text} (ht : Literal t) :
    ((allEscaped t).foldl feed s).Within r (t.reverse ++ pending) done := by
  refine Within.foldl_marked (fun s pending c hc hs => ?_) h
  have hliteral : Literal [c] := ht.of_mem hc
  split
  · rename_i hmark
    exact hs.feed_escaped hmark hliteral
  · rename_i hmark
    rw [Bool.or_eq_true, not_or, beq_iff_eq] at hmark
    exact hs.feed_ordinary (Bool.eq_false_iff.mpr hmark.1) hmark.2 hliteral

theorem Within.foldl_bracketsEscaped (h : s.Within r pending done) (hregion : 0 < r.media)
    {t : Text} (ht : Literal t) (hapart : BackslashesApart t) :
    ((bracketsEscaped t).foldl feed s).Within r (t.reverse ++ pending) done := by
  induction t using Text.pieceInduction generalizing s pending with
  | nil => exact h
  | lone => exact absurd rfl hapart.last
  | escaped c rest ih =>
    -- The backslash is kept, and the character behind it has none before it
    obtain ⟨hbracket, hback⟩ := hapart.next
    have hpair := h.feed_kept hregion hbracket hback (ht.of_mem (by simp))
    have hrest := ih hpair ht.tail.tail hapart.tail.tail
    rw [bracketsEscaped_cons, bracketsEscaped_cons, hbracket, List.reverse_cons,
      List.reverse_cons, List.append_assoc, List.append_assoc]
    exact hrest
  | plain c rest hback ih =>
    have hliteral : Literal [c] := ht.of_mem List.mem_cons_self
    have hfirst : ((if isBracket c then ['\\', c] else [c]).foldl feed s).Within r (c :: pending)
        done := by
      split
      · rename_i hbracket
        exact h.feed_escaped (by rw [hbracket]; rfl) hliteral
      · rename_i hbracket
        exact h.feed_ordinary (Bool.eq_false_iff.mpr hbracket) hback hliteral
    rw [bracketsEscaped_cons, List.foldl_append, List.reverse_cons, List.append_assoc]
    exact ih hfirst ht.tail hapart.tail

/-! ## The region around it -/

/-- Behind its opening tag a region starts with nothing pending. -/
theorem within_opening {name : Char} (hname : name = 't' ∨ name = 's') (subEntries : Bool) :
    (['[', name, ']'].foldl feed (start subEntries)).Within (.after .outside false [name]) []
      [.opening [name] []] := by
  rcases hname with rfl | rfl
  · exact ⟨rfl, rfl, rfl, rfl, rfl⟩
  · exact ⟨rfl, rfl, rfl, rfl, rfl⟩

/-- The closing tag of a region makes what is pending a text. -/
theorem Within.conclude_closing (h : s.Within r pending done) (hne : pending ≠ []) {name : Char}
    (hname : name = 't' ∨ name = 's') :
    (['[', '/', name, ']'].foldl feed s).conclude =
      done.reverse ++ [.text pending.reverse, .closing [name]] := by
  have hunpaired : Unpaired ['[', '/', name, ']'] := by
    rcases hname with rfl | rfl
    · exact ⟨by decide, by decide, by decide⟩
    · exact ⟨by decide, by decide, by decide⟩
  rw [conclude_of_unpaired hunpaired h.held]
  obtain ⟨c, rest, rfl⟩ := List.exists_cons_of_ne_nil hne
  obtain ⟨subEntries, held, lineBlank, regions, mode, pending, events⟩ := s
  obtain ⟨rfl, rfl, rfl, rfl, rfl⟩ := h
  -- The tag is read character by character, whatever is pending
  rcases hname with rfl | rfl
  · show List.reverse (.closing ['t'] :: .text (c :: rest).reverse :: events) = _
    simp
  · show List.reverse (.closing ['s'] :: .text (c :: rest).reverse :: events) = _
    simp

end Lexer

/-- What is read as a text inside a region is all that the region holds. -/
theorem children_of_region {name : Char} (hname : name = 't' ∨ name = 's') {source t : Text}
    (hne : t ≠ [])
    (hread : ∀ s : Lexer, s.Within (.after .outside false [name]) [] [.opening [name] []] →
      (source.foldl Lexer.feed s).Within (.after .outside false [name]) (t.reverse ++ [])
        [.opening [name] []]) :
    (parse (['[', name, ']'] ++ source ++ ['[', '/', name, ']'])).children =
      [.tag [name] [] [.text t]] := by
  have hevents : events true (['[', name, ']'] ++ source ++ ['[', '/', name, ']']) =
      [.opening [name] [], .text t, .closing [name]] := by
    have hwithin := hread _ (Lexer.within_opening hname true)
    rw [List.append_nil] at hwithin
    rw [events, List.foldl_append, List.foldl_append,
      hwithin.conclude_closing (fun hnil => hne (List.reverse_eq_nil_iff.mp hnil)) hname,
      List.reverse_reverse]
    rfl
  show nodes true _ = _
  rw [nodes_eq, hevents]
  rcases hname with rfl | rfl
  · rfl
  · rfl

/-- A text without the characters that start links, comments and sub-entries is read as it is inside a
region, if it is written for the region: without backslashes and with doubled brackets inside a transcription, and with a
backslash before each bracket and each backslash inside a media name. There the backslashes of the text
need none before them unless they stand before one of these characters or at the end. -/
theorem literal_in_regions (t : Text) (hne : t ≠ []) (ht : Literal t) :
    ('\\' ∉ t →
      (parse (['[', 't', ']'] ++ doubled t ++ ['[', '/', 't', ']'])).children =
        [.tag ['t'] [] [.text t]]) ∧
    (parse (['[', 's', ']'] ++ allEscaped t ++ ['[', '/', 's', ']'])).children =
      [.tag ['s'] [] [.text t]] ∧
    (BackslashesApart t →
      (parse (['[', 's', ']'] ++ bracketsEscaped t ++ ['[', '/', 's', ']'])).children =
        [.tag ['s'] [] [.text t]]) := by
  refine ⟨fun hback => ?_, ?_, fun hapart => ?_⟩
  · exact children_of_region (.inl rfl) hne fun s hs => hs.foldl_doubled (by decide) ht hback
  · exact children_of_region (.inr rfl) hne fun s hs => hs.foldl_allEscaped ht
  · exact children_of_region (.inr rfl) hne fun s hs =>
      hs.foldl_bracketsEscaped (by decide) ht hapart

/-- Runs of brackets next to the tags, brackets and backslashes in turns, and a backslash that is kept. -/
theorem literal_in_regions_runs :
    (parse (['[', 't', ']'] ++ doubled "]][".toList ++ ['[', '/', 't', ']'])).children =
        [.tag ['t'] [] [.text "]][".toList]] ∧
      (parse (['[', 's', ']'] ++ allEscaped "[\\]\\".toList ++ ['[', '/', 's', ']'])).children =
        [.tag ['s'] [] [.text "[\\]\\".toList]] ∧
      (parse (['[', 's', ']'] ++ bracketsEscaped "[\\x]".toList ++ ['[', '/', 's', ']'])).children =
        [.tag ['s'] [] [.text "[\\x]".toList]] := by
  obtain ⟨hdoubled, -, -⟩ := literal_in_regions "]][".toList (by decide)
    ⟨by decide, by decide, by decide⟩
  obtain ⟨-, hescaped, -⟩ := literal_in_regions "[\\]\\".toList (by decide)
    ⟨by decide, by decide, by decide⟩
  obtain ⟨-, -, hkept⟩ := literal_in_regions "[\\x]".toList (by decide)
    ⟨by decide, by decide, by decide⟩
  exact ⟨hdoubled (by decide), hescaped,
    hkept ⟨by decide +kernel, by decide +kernel, by decide +kernel, by decide⟩⟩

end Lexicon.Markup
