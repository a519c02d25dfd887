import Lexicon.Proofs.Markup.Steps

/-!
# What the lexer collects

Of what is being read, the lexer keeps the target of a link and the headword of a sub-entry, to be
read on their own. A glyph that belongs to a target is added to it as it is written; any other glyph
leaves nothing collected, or starts anew.

## Key results

- `Lexer.collecting_step`: what reading a glyph can do to what is collected
- `Lexer.link_accept`: the target of a link after a glyph
- `Lexer.inSubEntry_step`: where sub-entries are read
-/

namespace Lexicon.Markup

/-! ## Glyphs -/

namespace Glyph

/-- The glyph written as text that reads as the same glyph outside all regions. -/
def source (g : Glyph) : Text :=
  (g.sourceOnto []).reverse

theorem reverse_sourceOnto (g : Glyph) (done : Text) :
    (g.sourceOnto done).reverse = done.reverse ++ g.source := by
  unfold source sourceOnto
  split
  · rw [List.reverse_cons, List.reverse_cons, List.append_assoc]
    rfl
  · exact List.reverse_cons

theorem eq_of_isPlain {g : Glyph} {c : Char} (h : g.isPlain c = true) : g = ⟨c, false⟩ := by
  obtain ⟨char, escaped⟩ := g
  obtain ⟨hplain, hchar⟩ := Bool.and_eq_true_iff.mp h
  obtain rfl : char = c := eq_of_beq hchar
  obtain rfl : escaped = false := (Bool.not_eq_true' escaped).mp hplain
  rfl

end Glyph

/-! ## What is collected -/

namespace Mode

/-- The target of a link as far as it has been read, and whether a closing angle bracket is read that
may be the first of the two at its end. -/
def link? : Mode → Option (Text × Bool)
  | linkStart => some ([], false)
  | link target => some (target.reverse, false)
  | linkAngle target => some (target.reverse ++ ['>'], true)
  | _ => none

/-- Whether a sub-entry is being read. -/
def inSubEntry : Mode → Bool
  | subEntry _ => true
  | _ => false

end Mode

namespace Lexer

/-- What reading a glyph can do to what is collected. -/
inductive Collecting (s : Lexer) (g : Glyph) (s' : Lexer) : Prop
  /-- Nothing is collected. -/
  | idle : s'.mode.link? = none → s'.mode.inSubEntry = false → Collecting s g s'
  /-- The target of a link will start. -/
  | start : g.char ≠ '\\' → s'.mode = .linkStart → Collecting s g s'
  /-- The glyph becomes part of the target of a link. -/
  | link {t : Text} {angle : Bool} : s.mode.link? = some (t, angle) →
    (angle && g.isPlain '>') = false → s'.regions = s.regions →
    s'.mode.link? = some (t ++ g.source, g.isPlain '>') → s'.mode.inSubEntry = false →
    Collecting s g s'
  /-- A sub-entry is read. -/
  | subEntry : s.subEntries = true ∨ s.mode.inSubEntry = true → s'.mode.link? = none →
    Collecting s g s'

variable {s : Lexer}

private theorem collecting_readText {s' : Lexer} (hsub : s'.subEntries = s.subEntries)
    (g : Glyph) : s.Collecting g (s'.readText g) := by
  unfold readText
  split
  · exact .idle rfl rfl
  split
  · exact .idle rfl rfl
  split
  · exact .idle rfl rfl
  split
  · rename_i hat
    rw [Bool.and_eq_true, Bool.and_eq_true] at hat
    exact .subEntry (.inl (hsub ▸ hat.1.2)) rfl
  · exact .idle rfl rfl

private theorem collecting_readAttrs (closing : Bool) (name attrs : Text) (g : Glyph) :
    s.Collecting g (s.readAttrs closing name attrs g) := by
  unfold readAttrs
  split
  · exact .idle rfl rfl
  · exact .idle rfl rfl

private theorem collecting_readGap (closing : Bool) (name : Text) (g : Glyph) :
    s.Collecting g (s.readGap closing name g) := by
  unfold readGap
  split
  · exact .idle rfl rfl
  · exact collecting_readAttrs closing name [] g

private theorem collecting_readName (closing : Bool) (name : Text) (g : Glyph) :
    s.Collecting g (s.readName closing name g) := by
  unfold readName
  split
  · exact collecting_readGap closing name g
  · exact .idle rfl rfl

private theorem collecting_readTarget {target : Text}
    (hlink : s.mode.link? = some (target.reverse, false)) (g : Glyph) :
    s.Collecting g (s.readTarget target g) := by
  unfold readTarget
  split
  · rename_i hclose
    refine .link hlink rfl rfl ?_ rfl
    rw [hclose, Glyph.eq_of_isPlain hclose]
    rfl
  · rename_i hclose
    refine .link hlink rfl rfl ?_ rfl
    rw [← Glyph.reverse_sourceOnto, Bool.eq_false_iff.mpr hclose]
    rfl

theorem collecting_step (s : Lexer) (g : Glyph) : s.Collecting g (s.step g) := by
  unfold step
  split
  case h_1 => exact collecting_readText rfl g
  case h_2 =>
    split
    · rename_i hopen
      refine .start ?_ rfl
      rw [Glyph.eq_of_isPlain hopen]
      decide
    · have hsub : (s.push '<').subEntries = s.subEntries := rfl
      exact collecting_readText hsub g
  case h_3 =>
    split
    · exact .idle rfl rfl
    · have hsub : (s.push '{').subEntries = s.subEntries := rfl
      exact collecting_readText hsub g
  case h_4 hmode =>
    split
    · exact .idle (by rw [hmode]; rfl) (by rw [hmode]; rfl)
    split
    · exact .idle rfl rfl
    · exact collecting_readName false [] g
  case h_5 => exact collecting_readName _ _ g
  case h_6 => exact collecting_readGap _ _ g
  case h_7 => exact collecting_readAttrs _ _ _ g
  case h_8 hmode =>
    split
    · rename_i hblank
      refine .start ?_ hmode
      intro hback
      rw [hback] at hblank
      exact absurd hblank (by decide)
    · exact collecting_readTarget (by rw [hmode]; rfl) g
  case h_9 hmode => exact collecting_readTarget (by rw [hmode]; rfl) g
  case h_10 target hmode =>
    split
    · exact .idle rfl rfl
    · rename_i hclose
      have hclose := Bool.eq_false_iff.mpr hclose
      have hlink : s.mode.link? = some (target.reverse ++ ['>'], true) := by rw [hmode]; rfl
      refine .link hlink hclose rfl ?_ rfl
      rw [← List.reverse_cons, ← Glyph.reverse_sourceOnto, hclose]
      rfl
  case h_11 hmode =>
    split
    · exact .idle rfl rfl
    · exact .idle (by rw [hmode]; rfl) (by rw [hmode]; rfl)
  case h_12 =>
    split
    · exact .idle rfl rfl
    · exact .idle rfl rfl
  case h_13 hmode =>
    split
    · exact .idle rfl rfl
    split
    · exact .subEntry (.inr (by rw [hmode]; rfl)) (by rw [hmode]; rfl)
    · exact .subEntry (.inr (by rw [hmode]; rfl)) rfl

/-- The target of a link after a glyph: none has been read yet, or the glyph has been added. -/
theorem link_accept {g : Glyph} {t : Text} {angle : Bool}
    (h : (s.accept g).mode.link? = some (t, angle)) :
    (g.char ≠ '\\' ∧ t = [] ∧ angle = false) ∨
      ∃ before angled, s.mode.link? = some (before, angled) ∧ (angled && g.isPlain '>') = false ∧
        (s.accept g).regions = s.regions ∧ t = before ++ g.source ∧ angle = g.isPlain '>' := by
  have h : (s.step g).mode.link? = some (t, angle) := h
  cases collecting_step s g with
  | idle hlink =>
    rw [hlink] at h
    cases h
  | start hback hmode =>
    rw [hmode] at h
    cases h
    exact .inl ⟨hback, rfl, rfl⟩
  | link hbefore hopen hregions hlink =>
    rw [hlink] at h
    cases h
    exact .inr ⟨_, _, hbefore, hopen, hregions, rfl, rfl⟩
  | subEntry _ hlink =>
    rw [hlink] at h
    cases h

/-- Only a closing angle bracket can be the first of the two at the end of a link. -/
theorem isPlain_of_link_accept {g : Glyph} {t : Text}
    (h : (s.accept g).mode.link? = some (t, true)) : g.isPlain '>' = true := by
  rcases link_accept h with ⟨-, -, hangle⟩ | ⟨_, _, _, _, _, _, hangle⟩
  · cases hangle
  · exact hangle.symm

/-- The target of a link after a backslash that is read as itself and the character behind it. -/
theorem link_accept_kept {c : Char} {t : Text} {angle : Bool}
    (h : ((s.accept ⟨'\\', false⟩).accept ⟨c, false⟩).mode.link? = some (t, angle)) :
    (t = [] ∧ angle = false) ∨
      ∃ before angled, s.mode.link? = some (before, angled) ∧
        ((s.accept ⟨'\\', false⟩).accept ⟨c, false⟩).regions = s.regions ∧
        t = before ++ ['\\', c] ∧ angle = (c == '>') := by
  rcases link_accept h with ⟨-, rfl, rfl⟩ | ⟨mid, _, hmid, -, hregions, rfl, rfl⟩
  · exact .inl ⟨rfl, rfl⟩
  -- No target starts with the backslash
  rcases link_accept hmid with ⟨hback, -, -⟩ | ⟨before, angled, hbefore, -, hregions', rfl, -⟩
  · exact absurd rfl hback
  · refine .inr ⟨before, angled, hbefore, hregions.trans hregions', ?_, rfl⟩
    rw [List.append_assoc]
    rfl

theorem inSubEntry_step {g : Glyph} (h : (s.step g).mode.inSubEntry = true) :
    s.subEntries = true ∨ s.mode.inSubEntry = true := by
  cases collecting_step s g with
  | idle _ hsub =>
    rw [hsub] at h
    cases h
  | start _ hmode =>
    rw [hmode] at h
    cases h
  | link _ _ _ _ hsub =>
    rw [hsub] at h
    cases h
  | subEntry hsub => exact hsub

/-- No glyph changes whether sub-entries may start. -/
theorem subEntries_step (s : Lexer) (g : Glyph) : (s.step g).subEntries = s.subEntries := by
  have hflush : s.flush.subEntries = s.subEntries := by
    unfold flush
    split
    · rfl
    · rfl
  have houtcome := outcome_step s g
  generalize s.step g = s' at houtcome
  cases houtcome with
  | quiet hevents hregions hsub => exact hsub
  | tag closing name attrs => exact hflush
  | link hmode hclose => exact hflush
  | subEntry hmode hbreak => exact hflush

end Lexer

end Lexicon.Markup
