import Lexicon.Comment

/-!
# Removing comments

Removing comments reads a text from the left, and all that it remembers is whether a comment is open.
So a text may be cut at any character that is no brace: what follows is treated as a text of its own
that starts inside a comment or outside.

## Key results

- `stripAfter_eq`: what has been kept does not matter for what follows
- `stripInduction`: a text is made of pairs of braces that open or close a comment and of other
  characters, each with its equation (`strip_opening`, `strip_closing`, `strip_outside`, `strip_inside`)
- `strip_append_cons`: a text may be cut at a character that is no brace
- `strip_sublist`: nothing is added
- `not_infix_strip`, `strip_eq_self`: what remains has no comment, and such a text remains as it is
- `strip_parts`: comments may be removed part by part, and are removed once and for all
-/

namespace Lexicon.Comment

private theorem stripAfter_append (done more : Text) (inside : Bool) (t : Text) :
    stripAfter (done ++ more) inside t =
      (more.reverse ++ (stripAfter done inside t).1, (stripAfter done inside t).2) := by
  fun_induction stripAfter done inside t with
  | case1 done inside =>
    rw [stripAfter, List.reverse_append]
  | case2 done c =>
    rw [stripAfter, if_pos rfl, List.reverse_append]
  | case3 done inside c hinside =>
    rw [stripAfter, if_neg hinside, ← List.cons_append, List.reverse_append]
  | case4 done c d rest hpair ih =>
    rw [stripAfter, if_pos rfl, if_pos hpair, ih]
  | case5 done c d rest hpair ih =>
    rw [stripAfter, if_pos rfl, if_neg hpair, ih]
  | case6 done inside c d rest hinside hpair ih =>
    rw [stripAfter, if_neg hinside, if_pos hpair, ih]
  | case7 done inside c d rest hinside hpair ih =>
    rw [stripAfter, if_neg hinside, if_neg hpair, ← List.cons_append, ih]

/-- What has been kept does not matter for what follows. -/
theorem stripAfter_eq (done : Text) (inside : Bool) (t : Text) :
    stripAfter done inside t = (done.reverse ++ (strip inside t).1, (strip inside t).2) :=
  stripAfter_append [] done inside t

/-! ## One step -/

@[simp]
theorem strip_nil (inside : Bool) : strip inside [] = ([], inside) := rfl

theorem strip_opening (t : Text) : strip false ('{' :: '{' :: t) = strip true t := by
  rw [strip, stripAfter, if_neg Bool.false_ne_true, if_pos ⟨rfl, rfl⟩, strip]

theorem strip_closing (t : Text) : strip true ('}' :: '}' :: t) = strip false t := by
  rw [strip, stripAfter, if_pos rfl, if_pos ⟨rfl, rfl⟩, strip]

/-- Outside comments a character is kept unless it opens one with the character behind it. -/
theorem strip_outside {c : Char} {t : Text} (h : ¬ (c = '{' ∧ t.head? = some '{')) :
    strip false (c :: t) = (c :: (strip false t).1, (strip false t).2) := by
  cases t with
  | nil => rfl
  | cons d rest =>
    have hpair : ¬ (c = '{' ∧ d = '{') := fun hcd => h ⟨hcd.1, congrArg some hcd.2⟩
    rw [strip, stripAfter, if_neg Bool.false_ne_true, if_neg hpair, stripAfter_eq]
    rfl

/-- Inside a comment a character is dropped, and the comment goes on unless the character closes it
with the one behind it. -/
theorem strip_inside {c : Char} {t : Text} (h : ¬ (c = '}' ∧ t.head? = some '}')) :
    strip true (c :: t) = strip true t := by
  cases t with
  | nil => rfl
  | cons d rest =>
    have hpair : ¬ (c = '}' ∧ d = '}') := fun hcd => h ⟨hcd.1, congrArg some hcd.2⟩
    rw [strip, stripAfter, if_pos rfl, if_neg hpair, strip]

/-- A text is made of pairs of braces that open or close a comment and of other characters. -/
@[elab_as_elim]
theorem stripInduction {motive : Bool → Text → Prop} (nil : ∀ inside, motive inside [])
    (opening : ∀ t, motive true t → motive false ('{' :: '{' :: t))
    (closing : ∀ t, motive false t → motive true ('}' :: '}' :: t))
    (outside : ∀ c t, ¬ (c = '{' ∧ t.head? = some '{') → motive false t → motive false (c :: t))
    (inside : ∀ c t, ¬ (c = '}' ∧ t.head? = some '}') → motive true t → motive true (c :: t))
    (commentOpen : Bool) (t : Text) : motive commentOpen t := by
  induction hn : t.length using Nat.strongRecOn generalizing commentOpen t with
  | _ n ih =>
    subst hn
    cases t with
    | nil => exact nil commentOpen
    | cons c rest =>
      have hrest : ∀ b, motive b rest := fun b => ih rest.length (Nat.lt_add_one _) b rest rfl
      have hpair : ∀ d, rest.head? = some d → ∀ b, motive b rest.tail := by
        intro d hd b
        obtain ⟨tail, rfl⟩ := List.head?_eq_some_iff.mp hd
        exact ih tail.length (by simp only [List.length_cons]; omega) b tail rfl
      cases commentOpen with
      | false =>
        by_cases h : c = '{' ∧ rest.head? = some '{'
        · obtain ⟨tail, rfl⟩ := List.head?_eq_some_iff.mp h.2
          rw [h.1]
          exact opening tail (hpair _ h.2 true)
        · exact outside c rest h (hrest false)
      | true =>
        by_cases h : c = '}' ∧ rest.head? = some '}'
        · obtain ⟨tail, rfl⟩ := List.head?_eq_some_iff.mp h.2
          rw [h.1]
          exact closing tail (hpair _ h.2 false)
        · exact inside c rest h (hrest true)

/-- Removing comments adds nothing. -/
theorem strip_sublist (inside : Bool) (t : Text) : (strip inside t).1.Sublist t := by
  induction inside, t using stripInduction with
  | nil inside => exact List.Sublist.refl []
  | opening t ih =>
    rw [strip_opening]
    exact (ih.cons _).cons _
  | closing t ih =>
    rw [strip_closing]
    exact (ih.cons _).cons _
  | outside c t h ih =>
    rw [strip_outside h]
    exact ih.cons_cons c
  | inside c t h ih =>
    rw [strip_inside h]
    exact ih.cons _

/-! ## Cutting a text -/

private theorem stripAfter_cons {c : Char} (hopen : c ≠ '{') (hclose : c ≠ '}') (done : Text)
    (inside : Bool) (t : Text) :
    stripAfter done inside (c :: t) = stripAfter (if inside then done else c :: done) inside t := by
  cases t with
  | nil => cases inside <;> rfl
  | cons d rest =>
    cases inside with
    | true =>
      have hpair : ¬ (c = '}' ∧ d = '}') := fun h => hclose h.1
      rw [stripAfter, if_pos rfl, if_neg hpair, if_pos rfl]
    | false =>
      have hpair : ¬ (c = '{' ∧ d = '{') := fun h => hopen h.1
      rw [stripAfter, if_neg Bool.false_ne_true, if_neg hpair, if_neg Bool.false_ne_true]

/-- No pair of braces goes across a character that is no brace. -/
private theorem stripAfter_append_cons {c : Char} (hopen : c ≠ '{') (hclose : c ≠ '}')
    (done : Text) (inside : Bool) (a b : Text) :
    stripAfter done inside (a ++ c :: b) =
      stripAfter (stripAfter done inside a).1.reverse (stripAfter done inside a).2 (c :: b) := by
  fun_induction stripAfter done inside a with
  | case1 done inside =>
    rw [List.nil_append, List.reverse_reverse]
  | case2 done x =>
    -- The last character of `a` does not close a comment with the one behind it
    have hpair : ¬ (x = '}' ∧ c = '}') := fun h => hclose h.2
    rw [List.cons_append, List.nil_append, stripAfter, if_pos rfl, if_neg hpair,
      List.reverse_reverse]
  | case3 done inside x hinside =>
    have hpair : ¬ (x = '{' ∧ c = '{') := fun h => hopen h.2
    rw [List.cons_append, List.nil_append, stripAfter, if_neg hinside, if_neg hpair,
      List.reverse_reverse]
  | case4 done x y rest hpair ih =>
    rw [List.cons_append, List.cons_append, stripAfter, if_pos rfl, if_pos hpair, ih]
  | case5 done x y rest hpair ih =>
    rw [List.cons_append, List.cons_append, stripAfter, if_pos rfl, if_neg hpair,
      ← List.cons_append, ih]
  | case6 done inside x y rest hinside hpair ih =>
    rw [List.cons_append, List.cons_append, stripAfter, if_neg hinside, if_pos hpair, ih]
  | case7 done inside x y rest hinside hpair ih =>
    rw [List.cons_append, List.cons_append, stripAfter, if_neg hinside, if_neg hpair,
      ← List.cons_append, ih]

/-- A text may be cut at a character that is no brace. -/
theorem strip_append_cons {c : Char} (hopen : c ≠ '{') (hclose : c ≠ '}') (inside : Bool)
    (a b : Text) :
    strip inside (a ++ c :: b) =
      ((strip inside a).1 ++ (if (strip inside a).2 then [] else [c]) ++
          (strip (strip inside a).2 b).1,
        (strip (strip inside a).2 b).2) := by
  rw [strip, stripAfter_append_cons hopen hclose, stripAfter_cons hopen hclose, stripAfter_eq]
  show (List.reverse (if (strip inside a).2 then _ else c :: (strip inside a).1.reverse) ++ _, _) = _
  split
  · rw [List.reverse_reverse, List.append_nil]
    rfl
  · rw [List.reverse_cons, List.reverse_reverse]
    rfl

/-! ## What remains -/

/-- A first character that opens no comment remains. -/
theorem head?_strip {t : Text} (h : t.head? ≠ some '{') : (strip false t).1.head? = t.head? := by
  cases t with
  | nil => rfl
  | cons c rest =>
    have hc : ¬ (c = '{' ∧ rest.head? = some '{') := fun hpair => h (congrArg some hpair.1)
    rw [strip_outside hc]
    rfl

/-- No two braces that remain come together to open a comment. -/
theorem not_infix_strip (inside : Bool) (t : Text) : ¬ ['{', '{'] <:+: (strip inside t).1 := by
  induction inside, t using stripInduction with
  | nil inside => simp
  | opening t ih => rwa [strip_opening]
  | closing t ih => rwa [strip_closing]
  | outside c t h ih =>
    rw [strip_outside h, List.infix_cons_iff]
    rintro (hfront | hin)
    · -- A brace that remains is not followed by another one, and the next character remains as well
      obtain ⟨rfl, hnext⟩ := List.cons_prefix_cons.mp hfront
      obtain ⟨rest, hrest⟩ := hnext
      have hhead : t.head? ≠ some '{' := fun heq => h ⟨rfl, heq⟩
      have hkept := head?_strip hhead
      rw [← hrest] at hkept
      exact hhead hkept.symm
    · exact ih hin
  | inside c t h ih => rwa [strip_inside h]

/-- Where no comment opens, all remains. -/
theorem strip_eq_self {t : Text} (h : ¬ ['{', '{'] <:+: t) : strip false t = (t, false) := by
  induction t with
  | nil => rfl
  | cons c rest ih =>
    have hc : ¬ (c = '{' ∧ rest.head? = some '{') := by
      rintro ⟨rfl, hhead⟩
      obtain ⟨tail, rfl⟩ := List.head?_eq_some_iff.mp hhead
      exact h (List.prefix_append ['{', '{'] tail).isInfix
    rw [strip_outside hc, ih fun hin => h (List.infix_cons hin)]

/-- Comments may be removed part by part: what remains of two parts with a character between them that is
no brace is what remains of the parts, with the character if it stands in no comment. And they are removed
once and for all: in what remains no comment opens, and removing comments again changes nothing. -/
theorem strip_parts :
    (∀ (inside fa fb : Bool) (a b ta tb : Text) (c : Char), c ≠ '{' → c ≠ '}' →
      strip inside a = (ta, fa) → strip fa b = (tb, fb) →
      strip inside (a ++ c :: b) = (ta ++ (if fa then [] else [c]) ++ tb, fb)) ∧
    ∀ (inside : Bool) (t : Text),
      ¬ ['{', '{'] <:+: (strip inside t).1 ∧
        strip false (strip inside t).1 = ((strip inside t).1, false) := by
  refine ⟨fun inside fa fb a b ta tb c hopen hclose ha hb => ?_, fun inside t => ?_⟩
  · rw [strip_append_cons hopen hclose, ha, hb]
  · exact ⟨not_infix_strip inside t, strip_eq_self (not_infix_strip inside t)⟩

/-- Three braces in a row, and a comment from one line to the next. -/
theorem strip_parts_acrossLines :
    strip false "a\x7b\x7b\x7bb".toList = ("a".toList, true) ∧
      strip true "c\x7d\x7d\x7bd".toList = ("\x7bd".toList, false) ∧
      strip false "a\x7b\x7b\x7bb\nc\x7d\x7d\x7bd".toList = ("a\x7bd".toList, false) := by
  have ha : strip false "a\x7b\x7b\x7bb".toList = ("a".toList, true) := by decide +kernel
  have hb : strip true "c\x7d\x7d\x7bd".toList = ("\x7bd".toList, false) := by decide +kernel
  exact ⟨ha, hb, strip_parts.1 _ _ _ _ _ _ _ '\n' (by decide) (by decide) ha hb⟩

end Lexicon.Comment
