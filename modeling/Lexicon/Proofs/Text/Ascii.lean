import Mathlib.Data.List.TakeWhile
import Lexicon.Text.Basic

/-!
# The characters of ASCII in a text

Two texts have the same characters of ASCII if they differ only in what stands between them, and
nothing stands there in one of them where nothing stands there in the other. Such texts stay so when both
are cut at a character of ASCII or reversed, and if one of them is all ASCII, they are equal.

## Key results

- `Text.SameAscii`: texts that differ only in characters outside ASCII
- `Text.SameAscii.takeWhile`, `Text.SameAscii.dropWhile`: cutting such texts
- `Text.SameAscii.agree`: such texts are equal, or neither is all ASCII
-/

namespace Lexicon

namespace Text

/-- Whether a character belongs to ASCII. -/
def isAscii (c : Char) : Bool :=
  c.toNat < 128

/-- Characters outside ASCII, at least one. -/
structure Foreign (u : Text) : Prop where
  ne_nil : u ≠ []
  outside : ∀ c ∈ u, isAscii c = false

/-- The texts have the same characters of ASCII, and other characters in the same places between them,
though not as many. -/
inductive SameAscii : Text → Text → Prop where
  | nil : SameAscii [] []
  | ascii {c : Char} {s t : Text} (hc : isAscii c = true) (h : SameAscii s t) :
      SameAscii (c :: s) (c :: t)
  | foreign {u v s t : Text} (hu : Foreign u) (hv : Foreign v) (h : SameAscii s t) :
      SameAscii (u ++ s) (v ++ t)

/-- The texts are the same and all ASCII, or neither is all ASCII. -/
def AgreeInAscii (s t : Text) : Prop :=
  (s.all isAscii = true ∧ s = t) ∨ (s.all isAscii = false ∧ t.all isAscii = false)

theorem AgreeInAscii.eq {s t : Text} (h : AgreeInAscii s t) (hs : s.all isAscii = true) : s = t := by
  rcases h with ⟨-, heq⟩ | ⟨hforeign, -⟩
  · exact heq
  · rw [hs] at hforeign
    cases hforeign

namespace Foreign

variable {u v : Text}

theorem singleton {c : Char} (h : isAscii c = false) : Foreign [c] where
  ne_nil := List.cons_ne_nil c []
  outside := fun d hd => by rwa [List.mem_singleton.mp hd]

theorem append (hu : Foreign u) (hv : Foreign v) : Foreign (u ++ v) where
  ne_nil := fun h => hu.ne_nil (List.append_eq_nil_iff.mp h).1
  outside := fun c hc => (List.mem_append.mp hc).elim (hu.outside c) (hv.outside c)

theorem reverse (hu : Foreign u) : Foreign u.reverse where
  ne_nil := fun h => hu.ne_nil (List.reverse_eq_nil_iff.mp h)
  outside := fun c hc => hu.outside c (List.mem_reverse.mp hc)

theorem head?_append_ne {c : Char} (hu : Foreign u) (t : Text) (hc : isAscii c = true) :
    (u ++ t).head? ≠ some c := by
  obtain ⟨d, rest, rfl⟩ := List.exists_cons_of_ne_nil hu.ne_nil
  intro h
  cases h
  cases hc.symm.trans (hu.outside c List.mem_cons_self)

theorem all_append (hu : Foreign u) (t : Text) : (u ++ t).all isAscii = false := by
  obtain ⟨c, rest, rfl⟩ := List.exists_cons_of_ne_nil hu.ne_nil
  rw [List.cons_append, List.all_cons, hu.outside c List.mem_cons_self, Bool.false_and]

theorem sameAscii (hu : Foreign u) (hv : Foreign v) : SameAscii u v := by
  have h := SameAscii.foreign hu hv .nil
  rwa [List.append_nil, List.append_nil] at h

end Foreign

namespace SameAscii

variable {s t : Text}

theorem append {a b : Text} (h : SameAscii a b) (hrest : SameAscii s t) :
    SameAscii (a ++ s) (b ++ t) := by
  induction h with
  | nil => exact hrest
  | ascii hc h ih => exact .ascii hc ih
  | foreign hu hv h ih =>
    rw [List.append_assoc, List.append_assoc]
    exact .foreign hu hv ih

theorem reverse (h : SameAscii s t) : SameAscii s.reverse t.reverse := by
  induction h with
  | nil => exact .nil
  | ascii hc h ih =>
    rw [List.reverse_cons, List.reverse_cons]
    exact ih.append (.ascii hc .nil)
  | foreign hu hv h ih =>
    rw [List.reverse_append, List.reverse_append]
    exact ih.append (hu.reverse.sameAscii hv.reverse)

/-- Such texts are equal, unless both have characters outside ASCII. -/
theorem agree (h : SameAscii s t) : AgreeInAscii s t := by
  induction h with
  | nil => exact .inl ⟨rfl, rfl⟩
  | ascii hc h ih =>
    rw [AgreeInAscii, List.all_cons, List.all_cons, hc, Bool.true_and, Bool.true_and]
    exact ih.imp (fun h => ⟨h.1, congrArg _ h.2⟩) id
  | foreign hu hv h ih => exact .inr ⟨hu.all_append _, hv.all_append _⟩

theorem cons_left {c : Char} (hc : isAscii c = true) (h : SameAscii (c :: s) t) :
    ∃ t', t = c :: t' ∧ SameAscii s t' := by
  generalize hs : c :: s = s' at h
  cases h with
  | nil => cases hs
  | ascii _ h =>
    cases hs
    exact ⟨_, rfl, h⟩
  | foreign hu hv h =>
    exact absurd (congrArg List.head? hs.symm) (hu.head?_append_ne _ hc)

theorem eq_nil (h : SameAscii [] t) : t = [] :=
  (h.agree.eq rfl).symm

section

variable {p : Char → Bool} {k : Bool} (hp : ∀ c, isAscii c = false → p c = k)
include hp

private theorem dropWhile_foreign {u : Text} (hu : Foreign u) (s : Text) :
    (u ++ s).dropWhile p = if k then s.dropWhile p else u ++ s := by
  cases k with
  | true => exact List.dropWhile_append_of_pos fun c hc => hp c (hu.outside c hc)
  | false =>
    obtain ⟨c, rest, rfl⟩ := List.exists_cons_of_ne_nil hu.ne_nil
    exact List.dropWhile_cons_of_neg (Bool.eq_false_iff.mp (hp c (hu.outside c List.mem_cons_self)))

private theorem takeWhile_foreign {u : Text} (hu : Foreign u) (s : Text) :
    (u ++ s).takeWhile p = if k then u ++ s.takeWhile p else [] := by
  cases k with
  | true => exact List.takeWhile_append_of_pos fun c hc => hp c (hu.outside c hc)
  | false =>
    obtain ⟨c, rest, rfl⟩ := List.exists_cons_of_ne_nil hu.ne_nil
    exact List.takeWhile_cons_of_neg (Bool.eq_false_iff.mp (hp c (hu.outside c List.mem_cons_self)))

/-- A test that does not tell characters outside ASCII apart cuts both texts at the same place. -/
theorem dropWhile (h : SameAscii s t) : SameAscii (s.dropWhile p) (t.dropWhile p) := by
  induction h with
  | nil => exact .nil
  | @ascii c s t hc h ih =>
    rw [List.dropWhile_cons, List.dropWhile_cons]
    split
    · exact ih
    · exact .ascii hc h
  | foreign hu hv h ih =>
    rw [dropWhile_foreign hp hu, dropWhile_foreign hp hv]
    split
    · exact ih
    · exact .foreign hu hv h

theorem takeWhile (h : SameAscii s t) : SameAscii (s.takeWhile p) (t.takeWhile p) := by
  induction h with
  | nil => exact .nil
  | @ascii c s t hc h ih =>
    rw [List.takeWhile_cons, List.takeWhile_cons]
    split
    · exact .ascii hc ih
    · exact .nil
  | foreign hu hv h ih =>
    rw [takeWhile_foreign hp hu, takeWhile_foreign hp hv]
    split
    · exact .foreign hu hv ih
    · exact .nil

end

end SameAscii

end Text

end Lexicon
