import Lexicon.Proofs.Headword.Braces
import Lexicon.Proofs.Markup.Collecting

/-!
# Links inside link targets

A link ends at the first two closing angle brackets in a row, so one would expect no other link in
its target. But a target is not read again as it was first read. Unsorted parts are left out of it,
which may bring brackets together; and in a media name a backslash is a character of its own, so that
a bracket behind it counts there and is escaped in the target.

Each of these happens only so often, which gives texts their levels. On the first level, in a link
target or a sub-entry, no brace stands for itself, so nothing more is left out. On the second, no two
closing angle brackets that stand for themselves are in a row, so a link can only end in a media name,
at a bracket that is escaped elsewhere. On the third, no two closing angle brackets are in a row at
all, and there are no links.

## Key results

- `Lexer.Guarded`: what reading a text without braces keeps
- `braceless_of_mem_events`: the first level, and where there are sub-entries
- `restrained_of_mem_events`: a link target is one level above its text, and the third level is
  without links
-/

namespace Lexicon

open Headword (Braceless)
open Text (Whole)

/-! ## Two in a row -/

section Rows

variable {α : Type} {a x : α} {l : List α}

private theorem row_concat (h : ¬ [a, a] <:+: l) (hx : x = a → l.getLast? ≠ some a) :
    ¬ [a, a] <:+: l ++ [x] := by
  intro hrow
  rcases List.infix_concat_iff.mp hrow with ⟨before, hend⟩ | hin
  · have hsplit : before ++ [a] ++ [a] = l ++ [x] := by
      rw [List.append_assoc]
      exact hend
    obtain ⟨rfl, hlast⟩ := List.append_inj' hsplit rfl
    exact hx (List.head_eq_of_cons_eq hlast).symm List.getLast?_concat
  · exact h hin

end Rows

namespace Markup

/-! ## Levels -/

/-- What is known of a text inside `k` link targets. -/
structure Restrained (k : Nat) (t : Text) : Prop where
  /-- No unsorted part is left out of what is inside it. -/
  braceless : 1 ≤ k → Braceless t
  /-- No link ends in it outside media names. -/
  apart : 2 ≤ k → ¬ [.plain '>', .plain '>'] <:+: t.pieces
  /-- No link ends in it at all. -/
  bare : 3 ≤ k → ¬ ['>', '>'] <:+: t

namespace Restrained

variable {k : Nat} {t : Text}

theorem zero (t : Text) : Restrained 0 t :=
  ⟨nofun, nofun, nofun⟩

theorem one (h : Braceless t) : Restrained 1 t :=
  ⟨fun _ => h, nofun, nofun⟩

private theorem of_suffix {t' : Text} (h : Restrained k t) (hpieces : t'.pieces <:+ t.pieces)
    (ht : t' <:+ t) : Restrained k t' where
  braceless := fun hk => (h.braceless hk).of_pieces fun _ hc => hpieces.subset hc
  apart := fun hk hrow => h.apart hk (hrow.trans hpieces.isInfix)
  bare := fun hk hrow => h.bare hk (hrow.trans ht.isInfix)

theorem of_plain {c : Char} (hc : c ≠ '\\') (h : Restrained k (c :: t)) : Restrained k t := by
  refine h.of_suffix ?_ (List.suffix_cons c t)
  rw [Text.pieces_plain hc]
  exact List.suffix_cons _ _

theorem of_pair {c : Char} (h : Restrained k ('\\' :: c :: t)) : Restrained k t := by
  refine h.of_suffix ?_ ((List.suffix_cons c t).trans (List.suffix_cons _ _))
  rw [Text.pieces_escaped]
  exact List.suffix_cons _ _

/-- Behind a closing angle bracket that stands for itself there is no other one. -/
theorem head?_of_plain (hk : 2 ≤ k) (h : Restrained k ('>' :: t)) : t.head? ≠ some '>' := by
  intro hhead
  obtain ⟨rest, rfl⟩ := List.head?_eq_some_iff.mp hhead
  apply h.apart hk
  rw [Text.pieces_plain (by decide), Text.pieces_plain (by decide)]
  exact (List.prefix_append [Piece.plain '>', .plain '>'] _).isInfix

theorem head?_of_pair (hk : 3 ≤ k) (h : Restrained k ('\\' :: '>' :: t)) : t.head? ≠ some '>' :=
  head?_ne_of_not_infix (not_infix_of_cons (h.bare hk))

end Restrained

/-! ## Reading a text without braces -/

/-- What has been collected of the target of a link in a text without braces, and whether it ends in
a closing angle bracket. -/
structure Collected (r : Regions) (t : Text) (angle : Bool) : Prop where
  whole : Whole t
  braceless : Braceless t
  apart : ¬ [.plain '>', .plain '>'] <:+: t.pieces
  bare : r.media ≠ 0 → ¬ ['>', '>'] <:+: t
  last : angle = false → t.pieces.getLast? ≠ some (.plain '>')
  lastBare : angle = false → r.media ≠ 0 → t.getLast? ≠ some '>'

namespace Collected

variable {r : Regions} {t : Text} {angle : Bool}

theorem nil (r : Regions) : Collected r [] false where
  whole := Text.whole_nil
  braceless := ⟨List.not_mem_nil, List.not_mem_nil⟩
  apart := fun h => nomatch List.infix_nil.mp h
  bare := fun _ h => nomatch List.infix_nil.mp h
  last := nofun
  lastBare := nofun

private theorem concat_piece (h : Collected r t angle) (p : Piece)
    (hpieces : p.source.pieces = [p]) (hp : p ≠ .loneBackslash ∧ p ≠ .plain '{' ∧ p ≠ .plain '}') :
    (t ++ p.source).pieces = t.pieces ++ [p] ∧ Whole (t ++ p.source) ∧
      Braceless (t ++ p.source) := by
  have happend : (t ++ p.source).pieces = t.pieces ++ [p] := by
    rw [Text.pieces_append h.whole, hpieces]
  refine ⟨happend, ?_, ?_, ?_⟩
  · rw [Whole, happend, List.mem_append, List.mem_singleton, not_or]
    exact ⟨h.whole, hp.1.symm⟩
  · rw [happend, List.mem_append, List.mem_singleton, not_or]
    exact ⟨h.braceless.opening, hp.2.1.symm⟩
  · rw [happend, List.mem_append, List.mem_singleton, not_or]
    exact ⟨h.braceless.closing, hp.2.2.symm⟩

theorem plain {c : Char} (h : Collected r t angle) (hback : c ≠ '\\')
    (hbrace : c ≠ '{' ∧ c ≠ '}') (hopen : c = '>' → angle = false) :
    Collected r (t ++ [c]) (c == '>') := by
  have hp : Piece.plain c ≠ .loneBackslash ∧ Piece.plain c ≠ .plain '{' ∧
      Piece.plain c ≠ .plain '}' :=
    ⟨nofun, fun h => hbrace.1 (Piece.plain.inj h), fun h => hbrace.2 (Piece.plain.inj h)⟩
  obtain ⟨hpieces, hwhole, hbraceless⟩ := h.concat_piece (.plain c) (Text.pieces_plain hback []) hp
  have hpieces : (t ++ [c]).pieces = t.pieces ++ [.plain c] := hpieces
  refine ⟨hwhole, hbraceless, ?_, fun hmedia => ?_, fun hne => ?_, fun hne _ => ?_⟩
  · rw [hpieces]
    exact row_concat h.apart fun hc => h.last (hopen (Piece.plain.inj hc))
  · exact row_concat (h.bare hmedia) fun hc => h.lastBare (hopen hc) hmedia
  · rw [hpieces, List.getLast?_concat]
    intro hc
    exact beq_eq_false_iff_ne.mp hne (Piece.plain.inj (Option.some.inj hc))
  · rw [List.getLast?_concat]
    intro hc
    exact beq_eq_false_iff_ne.mp hne (Option.some.inj hc)

theorem pair {c : Char} {angled : Bool} (h : Collected r t angle)
    (hc : angled = false → r.media ≠ 0 → c ≠ '>') : Collected r (t ++ ['\\', c]) angled := by
  have hp : Piece.escaped c ≠ .loneBackslash ∧ Piece.escaped c ≠ .plain '{' ∧
      Piece.escaped c ≠ .plain '}' := ⟨nofun, nofun, nofun⟩
  obtain ⟨hpieces, hwhole, hbraceless⟩ := h.concat_piece (.escaped c) (Text.pieces_escaped c []) hp
  have hpieces : (t ++ ['\\', c]).pieces = t.pieces ++ [.escaped c] := hpieces
  have hsplit : t ++ ['\\', c] = t ++ ['\\'] ++ [c] := List.append_cons t '\\' [c]
  refine ⟨hwhole, hbraceless, ?_, fun hmedia => ?_, fun _ => ?_, fun hne hmedia => ?_⟩
  · rw [hpieces]
    exact row_concat h.apart nofun
  · -- Neither the backslash nor what is behind it comes after a closing angle bracket
    rw [hsplit]
    refine row_concat (row_concat (h.bare hmedia) (fun hback => absurd hback (by decide))) ?_
    intro _
    rw [List.getLast?_concat]
    decide
  · rw [hpieces, List.getLast?_concat]
    nofun
  · rw [hsplit, List.getLast?_concat]
    intro heq
    exact hc hne hmedia (Option.some.inj heq)

/-- Any part of the target that ends a link is read at the next level. -/
theorem restrained {k : Nat} (h : Collected r t angle) (hk : 3 ≤ k → r.media ≠ 0) {a : Text}
    (ha : a <+: t) : Restrained k (Text.trim a) := by
  have hpart : Text.PartOf a t := .of_isPrefix ha
  have hbraceless : Braceless a := h.braceless.of_part hpart
  have htrim : Text.PartOf (Text.trim a) a := Text.partOf_trim a
  refine ⟨fun _ => hbraceless.trim, fun _ hrow => ?_, fun hk' hrow => ?_⟩
  · have hcs : ['>', '>'].map Piece.plain <:+: (Text.trim a).pieces := hrow
    exact h.apart (hpart.row (htrim.row hcs))
  · exact h.bare (hk hk') ((hrow.trans (Text.trim_isInfix a)).trans ha.isInfix)

end Collected

namespace Lexer

/-- Whether no link ends in a text of level `k`. -/
def Unending (k : Nat) (r : Regions) : Prop :=
  3 ≤ k ∨ 2 ≤ k ∧ r.media = 0

/-- The state of reading a text of level `k`, of which `t` is left. -/
structure Guarded (k : Nat) (s : Lexer) (t : Text) : Prop where
  rest : Restrained k t
  target : ∀ {target angle}, s.mode.link? = some (target, angle) →
    Collected s.regions target angle
  next : ∀ {target}, s.mode.link? = some (target, true) → Unending k s.regions →
    t.head? ≠ some '>'
  links : ∀ {v}, .embed (.link v) ∈ s.events → k < 3 ∧ Restrained (k + 1) v

section Guarded

variable {k : Nat} {s : Lexer} {t : Text} {c : Char}

/-- What ends a link is read at the next level. -/
private theorem Guarded.links_accept (h : Guarded k s t) {g : Glyph}
    (hhead : g.isPlain '>' = true → t.head? = some '>') {v : Text}
    (hv : .embed (.link v) ∈ (s.accept g).events) : k < 3 ∧ Restrained (k + 1) v := by
  rcases mem_step_embed hv with hv | ⟨target, hmode, hclose, hv⟩ | ⟨_, _, _, _, hv⟩
  · exact h.links hv
  · have hlink : s.mode.link? = some (target.reverse ++ ['>'], true) := by rw [hmode]; rfl
    have hcollected := h.target hlink
    have hends : ¬ Unending k s.regions := fun hend => h.next hlink hend (hhead hclose)
    rw [Unending, not_or, not_and] at hends
    have hprefix : target.reverse <+: target.reverse ++ ['>'] := List.prefix_append _ _
    have hbraceless : Braceless (Text.trim target.reverse) :=
      (hcollected.braceless.of_part (.of_isPrefix hprefix)).trim
    cases hv
    rw [targetText, hbraceless.resolveUnsorted_eq]
    exact ⟨Nat.lt_of_not_le hends.1,
      hcollected.restrained (fun hk => hends.2 (Nat.le_of_succ_le_succ hk)) hprefix⟩
  · cases hv

theorem Guarded.plain (hk : 1 ≤ k) (hc : c ≠ '\\') (h : Guarded k s (c :: t)) :
    Guarded k (s.accept ⟨c, false⟩) t := by
  have hclose : (⟨c, false⟩ : Glyph).isPlain '>' = true → c = '>' :=
    fun hclose => (Glyph.mk.inj (Glyph.eq_of_isPlain hclose)).1
  have hbrace : c ≠ '{' ∧ c ≠ '}' := by
    obtain ⟨hopening, hclosing⟩ := h.rest.braceless hk
    rw [Text.pieces_plain hc, List.mem_cons, not_or] at hopening hclosing
    exact ⟨fun hc => hopening.1 (hc ▸ rfl), fun hc => hclosing.1 (hc ▸ rfl)⟩
  refine ⟨h.rest.of_plain hc, fun hlink => ?_, fun hlink hend => ?_, fun hv => ?_⟩
  · rcases link_accept hlink with
      ⟨-, rfl, rfl⟩ | ⟨before, angled, hbefore, hopen, hregions, rfl, rfl⟩
    · exact .nil _
    · rw [hregions]
      refine (h.target hbefore).plain hc hbrace ?_
      rintro rfl
      exact (Bool.and_eq_false_iff.mp hopen).resolve_right (by decide)
  · obtain rfl := hclose (isPlain_of_link_accept hlink)
    have hk : 2 ≤ k := hend.elim (fun hk => Nat.le_of_succ_le hk) And.left
    exact h.rest.head?_of_plain hk
  · exact h.links_accept (fun hplain => congrArg some (hclose hplain)) hv

/-- Reading an escaped character. -/
private theorem Guarded.escaped {t' : Text} (h : Guarded k s t) (hrest : Restrained k t')
    (hc : s.regions.media ≠ 0 → c ≠ '>') : Guarded k (s.accept ⟨c, true⟩) t' := by
  have hopen : ¬ (⟨c, true⟩ : Glyph).isPlain '>' = true := Bool.false_ne_true
  refine ⟨hrest, fun hlink => ?_, fun hlink => ?_, fun hv => ?_⟩
  · rcases link_accept hlink with ⟨-, rfl, rfl⟩ | ⟨before, angled, hbefore, -, hregions, rfl, rfl⟩
    · exact .nil _
    · rw [hregions]
      exact (h.target hbefore).pair fun _ => hc
  · exact absurd (isPlain_of_link_accept hlink) hopen
  · exact h.links_accept (fun hclose => absurd hclose hopen) hv

/-- Reading a backslash that is kept, and the character behind it. -/
private theorem Guarded.kept (hc : s.regions.backslashEscapes c = false)
    (h : Guarded k s ('\\' :: c :: t)) :
    Guarded k ((s.accept ⟨'\\', false⟩).accept ⟨c, false⟩) t := by
  have hopen : ¬ (⟨'\\', false⟩ : Glyph).isPlain '>' = true := by decide
  have hmedia : s.regions.media ≠ 0 := by
    simp only [Regions.backslashEscapes, Bool.or_eq_false_iff, beq_eq_false_iff_ne] at hc
    exact hc.1.1.1
  refine ⟨h.rest.of_pair, fun hlink => ?_, fun hlink hend => ?_, fun hv => ?_⟩
  · rcases link_accept_kept hlink with ⟨rfl, rfl⟩ | ⟨before, angled, hbefore, hregions, rfl, rfl⟩
    · exact .nil _
    · rw [hregions]
      exact (h.target hbefore).pair fun hne _ => beq_eq_false_iff_ne.mp hne
  · rcases link_accept_kept hlink with ⟨-, hangle⟩ | ⟨_, _, _, hregions, _, hangle⟩
    · cases hangle
    · rw [hregions] at hend
      obtain rfl : c = '>' := eq_of_beq hangle.symm
      have hk : 3 ≤ k := hend.resolve_right fun hend => hmedia hend.2
      exact h.rest.head?_of_pair hk
  · -- The backslash is no part of what ends a link
    rcases mem_step_embed hv with hv | ⟨target, hmode, -, -⟩ | ⟨_, _, _, _, hv⟩
    · exact h.links_accept (fun hclose => absurd hclose hopen) hv
    · have hlink : (s.accept ⟨'\\', false⟩).mode.link? =
          some (target.reverse ++ ['>'], true) := by rw [hmode]; rfl
      exact absurd (isPlain_of_link_accept hlink) hopen
    · cases hv

/-- Reading a text of level `k` keeps it guarded to its end. -/
theorem guarded_foldl (hk : 1 ≤ k) (ht : Restrained k t) (subEntries : Bool) :
    Guarded k (t.foldl feed (start subEntries)).unheld
      (t.foldl feed (start subEntries)).held.toList := by
  apply foldl_feed_pieces
  · exact fun s c t hc h => h.plain hk hc
  · intro s c t hescapes h
    refine h.escaped h.rest.of_pair fun hmedia => ?_
    rintro rfl
    rw [Regions.backslashEscapes, beq_eq_false_iff_ne.mpr hmedia] at hescapes
    exact absurd hescapes (by decide)
  · exact fun s c t hescapes h => h.kept hescapes
  · intro s c t hc h
    have hback : c ≠ '\\' := by rcases hc with rfl | rfl <;> decide
    refine h.escaped ((h.rest.of_plain hback).of_plain hback) fun _ => ?_
    rcases hc with rfl | rfl <;> decide
  · intro held hheld
    cases hheld
  · -- Nothing has been collected or embedded
    refine ⟨ht, fun hlink => ?_, fun hlink => ?_, fun hv => ?_⟩
    · cases hlink
    · cases hlink
    · cases hv

/-- A closing angle bracket is never held back. -/
theorem held_ne_angle (subEntries : Bool) (t : Text) :
    (t.foldl feed (start subEntries)).held ≠ some '>' := by
  intro hheld
  exact absurd (held_foldl subEntries t hheld) (by decide)

end Guarded

end Lexer

/-! ## Any text -/

/-- The text that is read on its own. -/
def Target.text : Target → Text
  | .link t => t
  | .subEntry t => t

/-- Whether something may be embedded in an article with or without sub-entries. -/
def Target.allowed (subEntries : Bool) : Target → Bool
  | .link _ => true
  | .subEntry _ => subEntries

theorem braceless_targetText (target : Text) : Braceless (Lexer.targetText target) :=
  .resolveUnsorted true _

theorem braceless_of_mem_subEntryVariants {target v : Text}
    (h : v ∈ Lexer.subEntryVariants target) : Braceless v := by
  obtain ⟨u, hu, rfl⟩ := List.mem_map.mp (List.mem_filter.mp h).1
  exact ((braceless_targetText target).of_mem_variants hu).trim

namespace Lexer

/-- What is embedded has no braces, and sub-entries are read only where they may be. -/
structure Resolved (subEntries : Bool) (s : Lexer) : Prop where
  flag : s.subEntries = subEntries
  mode : s.mode.inSubEntry = true → subEntries = true
  embeds : ∀ {x}, .embed x ∈ s.events → Braceless x.text ∧ x.allowed subEntries = true

variable {s : Lexer} {subEntries : Bool}

private theorem Resolved.variant (h : s.Resolved subEntries) {target v : Text}
    (hmode : s.mode = .subEntry target) (hv : v ∈ subEntryVariants target) :
    Braceless v ∧ subEntries = true :=
  ⟨braceless_of_mem_subEntryVariants hv, h.mode (by rw [hmode]; rfl)⟩

private theorem Resolved.step (h : s.Resolved subEntries) (g : Glyph) :
    (s.step g).Resolved subEntries := by
  refine ⟨(subEntries_step s g).trans h.flag, fun hmode => ?_, fun hx => ?_⟩
  · rcases inSubEntry_step hmode with hsub | hmode
    · exact h.flag.symm.trans hsub
    · exact h.mode hmode
  · rcases mem_step_embed hx with hx | ⟨target, -, -, rfl⟩ | ⟨target, hmode, v, hv, rfl⟩
    · exact h.embeds hx
    · exact ⟨braceless_targetText target, rfl⟩
    · exact h.variant hmode hv

private theorem Resolved.release (h : s.Resolved subEntries) : s.release.Resolved subEntries := by
  have hfree : s.unheld.Resolved subEntries := ⟨h.flag, h.mode, h.embeds⟩
  unfold Lexer.release
  split
  · exact h
  · rename_i held _
    extract_lets s'
    split
    · exact hfree
    · obtain ⟨hsub, hmode, hembeds⟩ := hfree.step ⟨held, false⟩
      exact ⟨hsub, hmode, hembeds⟩

theorem resolved_foldl (subEntries : Bool) (t : Text) :
    (t.foldl feed (start subEntries)).Resolved subEntries := by
  apply foldl_feed
  · exact fun s held lineBlank h => ⟨h.flag, h.mode, h.embeds⟩
  · exact fun s g h => h.step g
  · exact ⟨rfl, nofun, nofun⟩

end Lexer

/-- What is embedded in an article has no brace that stands for itself; and there are sub-entries only
where they are recognised. -/
theorem braceless_of_mem_events {subEntries : Bool} {t : Text} {x : Target}
    (h : .embed x ∈ events subEntries t) : Braceless x.text ∧ x.allowed subEntries = true := by
  have hresolved := Lexer.resolved_foldl subEntries t
  rcases Lexer.mem_conclude_embed (Lexer.held_ne_angle subEntries t) h with
    h | ⟨target, hmode, v, hv, rfl⟩
  · exact hresolved.embeds h
  · rcases hmode with hmode | hmode
    · exact hresolved.variant hmode hv
    · exact hresolved.release.variant hmode hv

/-- A link target is one level above the text that it stands in, and on the third level there are no
links. -/
theorem restrained_of_mem_events {k : Nat} {subEntries : Bool} {t v : Text}
    (ht : Restrained k t) (hv : .embed (.link v) ∈ events subEntries t) :
    k < 3 ∧ Restrained (k + 1) v := by
  by_cases hk : 1 ≤ k
  · rcases Lexer.mem_conclude_embed (Lexer.held_ne_angle subEntries t) hv with
      hv | ⟨_, _, _, _, hv⟩
    · exact (Lexer.guarded_foldl hk ht subEntries).links hv
    · cases hv
  · obtain rfl : k = 0 := Nat.lt_one_iff.mp (Nat.lt_of_not_le hk)
    exact ⟨by decide, .one (braceless_of_mem_events hv).1⟩

end Markup

end Lexicon
