import Lexicon.Proofs.Dictionary.HeadwordLines
import Lexicon.Proofs.Dictionary.LogicalLines

/-!
# Headword lines of a run without comments

Comments are removed from what is decoded of a line. A reader of headwords decodes only the first
token of a line in an article body, so it misses what opens or closes a comment behind that token: a
run for headwords only gives the logical lines of the cut lines. These have the headword lines of the
whole ones if comments are in step. It is not enough that every line can be decoded: a comment that
opens behind the first token of a body line hides the next line from a reader of whole lines and not
from a reader of headwords.

## Key results

- `Dictionary.run_headwordsOnly`: a run of physical lines for headwords only
- `Alike.add`: what one more line does to a group of lines and to the group of their headword parts
- `Dictionary.headwordLines_run`: the headword lines of a run without comments
- `Dictionary.headwordLines_lateComments`: lines out of step
-/

namespace Lexicon

/-! ## Headword lines -/

/-- Whether a line has text and does not start with a blank. -/
def Line.isHeadword (l : Line) : Bool :=
  l.text.head?.any (!Text.isBlank ·)

/-- The headword lines in the outcome of a run. -/
def headwordLines (items : List (Except Failure Line)) : List Line :=
  (items.filterMap Except.toOption).filter Line.isHeadword

theorem headwordLines_append (a b : List (Except Failure Line)) :
    headwordLines (a ++ b) = headwordLines a ++ headwordLines b := by
  rw [headwordLines, List.filterMap_append, List.filter_append]
  rfl

theorem Text.exists_cons_of_head? {p : Char → Bool} {t : Text} (h : t.head?.any p = true) :
    ∃ c rest, t = c :: rest ∧ p c = true := by
  cases t with
  | nil => cases h
  | cons c rest => exact ⟨c, rest, rfl, h⟩

theorem Text.head?_headwordPart (t : Text) : t.headwordPart.head? = t.head? := by
  unfold headwordPart
  split
  · rename_i hblank
    obtain ⟨c, rest, rfl, hc⟩ := exists_cons_of_head? hblank
    rw [throughToken, List.takeWhile_cons_of_pos hc]
    rfl
  · rfl

theorem Text.headwordPart_of_not_blank {t : Text} (h : t.head?.any isBlank = false) :
    t.headwordPart = t :=
  if_neg (Bool.eq_false_iff.mp h)

/-! ## Lines in step -/

/-- Whether comments are in step in lines and in their headword parts. `inside` and `insideCut` say
whether a comment is open before the lines, and `headword` whether it has been open since a line that
does not start with a blank. If so, nothing may be cut off that is outside comments or changes what
is; and at each line that does not start with a blank, a comment must be open in both or in
neither. -/
def inStep (inside insideCut headword : Bool) : List Text → Bool
  | [] => true
  | t :: rest =>
    let blank := t.head?.any Text.isBlank
    (if blank then !headword || Comment.strip inside t.headwordPart == Comment.strip inside t
      else insideCut == inside) &&
    inStep (Comment.strip inside t).2 (Comment.strip insideCut t.headwordPart).2
      ((Comment.strip inside t).2 && if inside then headword else !blank) rest

/-! ## Groups of lines -/

/-- A line behind what remains of the lines before it. -/
def Line.behind (line : Line) (inside : Bool) (before : Option Line) : Line :=
  match before with
  | some before => { before with text := before.text ++ (Comment.strip inside line.text).1 }
  | none => { line with text := (Comment.strip inside line.text).1 }

variable {inside insideCut headword : Bool} {group groupCut : List Line}

theorem GroupOpen.logicalLine?_append (h : GroupOpen inside group) (line : Line) :
    logicalLine? (group ++ [line]) = some (line.behind inside (logicalLine? group)) := by
  unfold logicalLine?
  rw [h.strip_append]
  cases group with
  | nil => rfl
  | cons first rest => rfl

theorem GroupOpen.eq_nil (h : GroupOpen false group) : group = [] := by
  by_contra hne
  cases h.inside_of_ne_nil hne

/-- The lines that are carried over to the next one. -/
def carried (inside : Bool) (group : List Line) (line : Line) : List Line :=
  if (Comment.strip inside line.text).2 then group ++ [line] else []

theorem GroupOpen.carried (h : GroupOpen inside group) (line : Line) :
    GroupOpen (Comment.strip inside line.text).2 (carried inside group line) := by
  unfold Lexicon.carried
  split
  · rename_i hopen
    rw [hopen]
    exact h.append hopen
  · rename_i hopen
    rw [Bool.eq_false_iff.mpr hopen]
    exact groupOpen_nil

theorem logicalLines_cons (inside : Bool) (group : List Line) (line : Line)
    (rest : List (Except Failure Line)) :
    logicalLines inside group (.ok line :: rest) =
      (if (Comment.strip inside line.text).2 then []
        else (logicalLine? (group ++ [line])).toList.map .ok) ++
      logicalLines (Comment.strip inside line.text).2 (carried inside group line) rest := by
  rw [logicalLines, carried]
  split
  · rename_i hopen
    rw [hopen]
    rfl
  · rename_i hopen
    rw [Bool.eq_false_iff.mpr hopen]

/-- What remains of a group starts with a blank, so it is no headword line. -/
def InBody (group : List Line) : Prop :=
  ∀ line ∈ logicalLine? group, line.text.head?.any Text.isBlank = true

theorem inBody_nil : InBody [] := by
  rintro line ⟨⟩

theorem InBody.headwordLines_eq (h : InBody group) :
    headwordLines ((logicalLine? group).toList.map .ok) = [] := by
  cases hline : logicalLine? group with
  | none => rfl
  | some line =>
    obtain ⟨c, rest, hc, hblank⟩ := Text.exists_cons_of_head? (h line hline)
    have hbody : line.isHeadword = false := by
      rw [Line.isHeadword, hc, List.head?_cons, Option.any_some, hblank]
      rfl
    show List.filter Line.isHeadword [line] = []
    rw [List.filter_cons_of_neg (Bool.eq_false_iff.mp hbody), List.filter_nil]

theorem InBody.headwordLines_ite (h : InBody group) (p : Prop) [Decidable p] :
    headwordLines (if p then [] else (logicalLine? group).toList.map .ok) = [] := by
  split
  · rfl
  · exact h.headwordLines_eq

private theorem strip_blank {t : Text} (h : t.head?.any Text.isBlank = true) :
    (Comment.strip false t).1.head?.any Text.isBlank = true := by
  obtain ⟨c, rest, rfl, hblank⟩ := Text.exists_cons_of_head? h
  have hopen : c ≠ '{' := by
    rintro rfl
    exact absurd hblank (by decide)
  have hclose : c ≠ '}' := by
    rintro rfl
    exact absurd hblank (by decide)
  have hstrip := Comment.strip_append_cons hopen hclose false [] rest
  rw [List.nil_append] at hstrip
  rw [hstrip]
  exact hblank

/-- A group in an article body stays in it, and one that starts with a blank is in it. -/
theorem InBody.append (h : InBody group) (hgroup : GroupOpen inside group) {line : Line}
    (hline : inside = false → line.text.head?.any Text.isBlank = true) :
    InBody (group ++ [line]) := by
  intro joined hjoined
  rw [hgroup.logicalLine?_append] at hjoined
  obtain rfl := Option.some.inj hjoined
  cases hbefore : logicalLine? group with
  | none =>
    have hnil : group = [] := List.head?_eq_none_iff.mp (Option.map_eq_none_iff.mp hbefore)
    subst hnil
    obtain rfl : inside = false := hgroup.inside_eq
    exact strip_blank (hline rfl)
  | some before =>
    obtain ⟨c, rest, hc, hblank⟩ := Text.exists_cons_of_head? (h before hbefore)
    show (before.text ++ _).head?.any Text.isBlank = true
    rw [hc]
    exact hblank

theorem InBody.carried {line : Line} (h : InBody (group ++ [line])) :
    InBody (carried inside group line) := by
  unfold Lexicon.carried
  split
  · exact h
  · exact inBody_nil

/-- What a group of lines and the group of their headword parts have in common: they belong to the
same headword, or both to the body of an article. -/
inductive Alike : Bool → Bool → Bool → List Line → List Line → Prop
  | headword {group groupCut : List Line} :
    logicalLine? groupCut = logicalLine? group → Alike true true true group groupCut
  | body {inside insideCut : Bool} {group groupCut : List Line} :
    InBody group → InBody groupCut → Alike false inside insideCut group groupCut

/-- One more line keeps a group and the group of headword parts alike, or leaves them alike with a
comment that is open in both or in neither. -/
theorem Alike.add (hgroup : GroupOpen inside group) (hcut : GroupOpen insideCut groupCut)
    (halike : Alike headword inside insideCut group groupCut) {line : Line}
    (hstep : (if line.text.head?.any Text.isBlank then
        !headword || Comment.strip inside line.text.headwordPart == Comment.strip inside line.text
      else insideCut == inside) = true) :
    if (if inside then headword else !line.text.head?.any Text.isBlank) then
      (Comment.strip insideCut line.headwordPart.text).2 = (Comment.strip inside line.text).2 ∧
        logicalLine? (groupCut ++ [line.headwordPart]) = logicalLine? (group ++ [line])
    else InBody (group ++ [line]) ∧ InBody (groupCut ++ [line.headwordPart]) := by
  by_cases hblank : line.text.head?.any Text.isBlank = true
  · rw [if_pos hblank] at hstep
    cases halike with
    | headword hsame =>
      -- Nothing may be cut off behind a headword
      have hstrip : Comment.strip true line.headwordPart.text = Comment.strip true line.text :=
        eq_of_beq hstep
      have hbehind : ∀ before, line.headwordPart.behind true before = line.behind true before := by
        intro before
        unfold Line.behind
        rw [hstrip]
        rfl
      rw [if_pos rfl, if_pos rfl, hgroup.logicalLine?_append, hcut.logicalLine?_append, hsame,
        hbehind, hstrip]
      exact ⟨rfl, rfl⟩
    | body hbody hbodyCut =>
      have hcutBlank : line.headwordPart.text.head?.any Text.isBlank = true := by
        show line.text.headwordPart.head?.any Text.isBlank = true
        rw [Text.head?_headwordPart, hblank]
      have hheadword : ¬ (if inside then false else !line.text.head?.any Text.isBlank) = true := by
        rw [hblank]
        cases inside <;> exact Bool.false_ne_true
      rw [if_neg hheadword]
      exact ⟨hbody.append hgroup fun _ => hblank, hbodyCut.append hcut fun _ => hcutBlank⟩
  · have hwhole : line.headwordPart = line := by
      rw [Line.headwordPart, Text.headwordPart_of_not_blank (Bool.eq_false_iff.mpr hblank)]
    rw [if_neg hblank] at hstep
    obtain rfl : insideCut = inside := eq_of_beq hstep
    rw [hwhole, Bool.eq_false_iff.mpr hblank, hgroup.logicalLine?_append, hcut.logicalLine?_append]
    cases halike with
    | headword hsame =>
      rw [if_pos rfl, if_pos rfl, hsame]
      exact ⟨rfl, rfl⟩
    | body hbody hbodyCut =>
      cases insideCut with
      | true =>
        rw [if_pos rfl, if_neg Bool.false_ne_true]
        exact ⟨hbody.append hgroup nofun, hbodyCut.append hcut nofun⟩
      | false =>
        -- A headword starts here
        rw [if_neg Bool.false_ne_true, hgroup.eq_nil, hcut.eq_nil]
        exact ⟨rfl, rfl⟩

/-- The headword lines among the logical lines are those among the logical lines of the headword
parts, as long as comments are in step. -/
theorem headwordLines_logicalLines (lines : List Line) (hgroup : GroupOpen inside group)
    (hcut : GroupOpen insideCut groupCut) (halike : Alike headword inside insideCut group groupCut)
    (h : inStep inside insideCut headword (lines.map Line.text) = true) :
    headwordLines (logicalLines insideCut groupCut (lines.map fun l => .ok l.headwordPart)) =
      headwordLines (logicalLines inside group (lines.map .ok)) := by
  induction lines generalizing inside insideCut headword group groupCut with
  | nil =>
    show headwordLines ((logicalLine? groupCut).toList.map .ok) =
      headwordLines ((logicalLine? group).toList.map .ok)
    cases halike with
    | headword hsame => rw [hsame]
    | body hbody hbodyCut => rw [hbody.headwordLines_eq, hbodyCut.headwordLines_eq]
  | cons line lines ih =>
    obtain ⟨hstep, hrest⟩ := Bool.and_eq_true_iff.mp h
    have hadd := halike.add hgroup hcut hstep
    have hgroup' := hgroup.carried line
    have hcut' := hcut.carried line.headwordPart
    rw [List.map_cons, List.map_cons, logicalLines_cons, logicalLines_cons, headwordLines_append,
      headwordLines_append]
    generalize (if inside then headword else !line.text.head?.any Text.isBlank) = starts
      at hadd hrest
    cases starts with
    | true =>
      obtain ⟨hopen, hsame⟩ := hadd
      have halike' : Alike ((Comment.strip inside line.text).2 && true)
          (Comment.strip inside line.text).2 (Comment.strip insideCut line.headwordPart.text).2
          (carried inside group line) (carried insideCut groupCut line.headwordPart) := by
        unfold carried
        rw [hopen]
        cases (Comment.strip inside line.text).2 with
        | true => exact .headword hsame
        | false => exact .body inBody_nil inBody_nil
      rw [ih hgroup' hcut' halike' hrest, hopen, hsame]
    | false =>
      obtain ⟨hbody, hbodyCut⟩ := hadd
      rw [Bool.and_false] at hrest
      rw [ih hgroup' hcut' (.body hbody.carried hbodyCut.carried) hrest, hbody.headwordLines_ite,
        hbodyCut.headwordLines_ite]

namespace Dictionary

/-! ## Runs -/

variable {d : Dictionary}

private theorem exists_run_of_error {mode : ReadMode} {failure : Failure} {d' : Dictionary}
    (h : d.read mode = (.error failure, d')) : ∃ rest, d.run mode = .error failure :: rest := by
  by_cases hline : ∃ n e, failure = .undecodable n e
  · obtain ⟨n, e, rfl⟩ := hline
    exact ⟨_, run_of_undecodable h⟩
  · refine ⟨[], ?_⟩
    rw [run, runAfter, h]
    split
    · rename_i heq; cases heq
    · rename_i heq; cases heq
    · rename_i heq; cases heq; exact absurd ⟨_, _, rfl⟩ hline
    · rename_i heq; cases heq; rfl

/-- A run of physical lines for headwords only gives the headword parts, if all lines can be
decoded. -/
theorem run_headwordsOnly {lines : List Line} (h : d.run ⟨false, false⟩ = lines.map .ok) :
    d.run ⟨true, false⟩ = lines.map fun l => .ok l.headwordPart := by
  induction lines generalizing d with
  | nil =>
    obtain ⟨hbehind, hresult⟩ := next_shortens true d
    rcases hread : d.read ⟨false, false⟩ with ⟨failure | _ | line, d'⟩
    · obtain ⟨rest, hrun⟩ := exists_run_of_error hread
      rw [h] at hrun
      cases hrun
    · have hnext : d.next false = (.ok none, d') := hread
      rw [hnext] at hresult hbehind
      exact run_of_end (Prod.ext hresult hbehind)
    · rw [run_of_line hread] at h
      cases h
  | cons line lines ih =>
    obtain ⟨hbehind, hresult⟩ := next_shortens true d
    rcases hread : d.read ⟨false, false⟩ with ⟨failure | _ | line', d'⟩
    · obtain ⟨rest, hrun⟩ := exists_run_of_error hread
      rw [h] at hrun
      cases hrun
    · rw [run_of_end hread] at h
      cases h
    · have hnext : d.next false = (.ok (some line'), d') := hread
      rw [run_of_line hread] at h
      obtain ⟨hline, hlines⟩ := List.cons.inj h
      obtain rfl := Except.ok.inj hline
      rw [hnext] at hresult hbehind
      have hshort : d.read ⟨true, false⟩ = (.ok (some line'.headwordPart), d') :=
        Prod.ext hresult hbehind
      rw [run_of_line hshort, ih hlines]
      rfl

/-- If all lines can be decoded, a run for headwords only without comments gives the logical lines of
the headword parts. Its headword lines are those of a run of whole lines as long as comments are in
step. -/
theorem headwordLines_run {label : Option Text} {source : Source} {lines : List Line}
    (h : ofSource label source = .ok d) (hlines : d.run ⟨false, false⟩ = lines.map .ok) :
    d.run ⟨true, true⟩ = logicalLines false [] (lines.map fun l => .ok l.headwordPart) ∧
      (inStep false false false (lines.map Line.text) = true →
        headwordLines (d.run ⟨true, true⟩) = headwordLines (d.run ⟨false, true⟩)) := by
  have hshort := run_headwordsOnly hlines
  have hfull : d.run ⟨false, true⟩ = logicalLines false [] (lines.map .ok) := by
    rw [run_withoutComments false h, hlines]
    intro fault hfault
    rw [hlines] at hfault
    simp at hfault
  have hcut : d.run ⟨true, true⟩ =
      logicalLines false [] (lines.map fun l => .ok l.headwordPart) := by
    rw [run_withoutComments true h, hshort]
    intro fault hfault
    rw [hshort] at hfault
    simp at hfault
  refine ⟨hcut, fun hstep => ?_⟩
  rw [hcut, hfull]
  exact headwordLines_logicalLines lines groupOpen_nil groupOpen_nil (.body inBody_nil inBody_nil)
    hstep

private def utf8Source (lines : List String) : Source :=
  [.bytes (UnicodeForm.utf8.encode ("\n".intercalate lines).toList)]

/-- A comment that opens in a headword and closes in a first token, and one that stands between two
lines of a body. -/
private def commentsInStep : Source :=
  utf8Source ["cat\x7b\x7bc", "\ty\x7d\x7d", "\ta \x7b\x7bx", "\ty \x7d\x7d b", "dog"]

theorem headwordLines_commentsInStep :
    ∃ (d : Dictionary) (lines : List Line),
      ofSource none commentsInStep = .ok d ∧ d.run ⟨false, false⟩ = lines.map .ok ∧
      inStep false false false (lines.map Line.text) = true ∧
      d.run ⟨true, true⟩ =
        [.ok ⟨"cat".toList, 0⟩, .ok ⟨"\ta".toList, 12⟩, .ok ⟨"\ty".toList, 19⟩,
          .ok ⟨"dog".toList, 27⟩] ∧
      headwordLines (d.run ⟨false, true⟩) = [⟨"cat".toList, 0⟩, ⟨"dog".toList, 27⟩] := by
  have hphysical : (ofSource none commentsInStep).map (run ⟨false, false⟩) =
      .ok ([⟨"cat\x7b\x7bc".toList, 0⟩, ⟨"\ty\x7d\x7d".toList, 7⟩,
        ⟨"\ta \x7b\x7bx".toList, 12⟩, ⟨"\ty \x7d\x7d b".toList, 19⟩,
        ⟨"dog".toList, 27⟩].map .ok) := by
    decide +kernel
  cases hd : ofSource none commentsInStep with
  | error failure => rw [hd] at hphysical; cases hphysical
  | ok d =>
    rw [hd] at hphysical
    have hlines := Except.ok.inj hphysical
    obtain ⟨hrun, hheadwords⟩ := headwordLines_run hd hlines
    refine ⟨d, _, rfl, hlines, by decide +kernel, ?_, ?_⟩
    · rw [hrun]
      decide +kernel
    · rw [← hheadwords (by decide +kernel), hrun]
      decide +kernel

/-- A comment that opens behind the first token of a body line, and one that closes there. -/
private def lateComments : Source :=
  utf8Source ["cat", "\ta \x7b\x7bx", "y\x7d\x7d c", "\t\x7b\x7bb \x7d\x7d", "dog"]

/-- Out of step, the rest of a comment is taken for a headword, and a headword for the rest of a
comment. -/
theorem headwordLines_lateComments :
    ∃ (d : Dictionary) (lines : List Line),
      ofSource none lateComments = .ok d ∧ d.run ⟨false, false⟩ = lines.map .ok ∧
      headwordLines (d.run ⟨true, true⟩) =
        [⟨"cat".toList, 0⟩, ⟨"y\x7d\x7d c".toList, 11⟩] ∧
      headwordLines (d.run ⟨false, true⟩) = [⟨"cat".toList, 0⟩, ⟨"dog".toList, 25⟩] := by
  have hruns : (ofSource none lateComments).map (fun d => (d.run ⟨false, false⟩,
      headwordLines (d.run ⟨true, true⟩), headwordLines (d.run ⟨false, true⟩))) =
      .ok ([⟨"cat".toList, 0⟩, ⟨"\ta \x7b\x7bx".toList, 4⟩, ⟨"y\x7d\x7d c".toList, 11⟩,
          ⟨"\t\x7b\x7bb \x7d\x7d".toList, 17⟩, ⟨"dog".toList, 25⟩].map .ok,
        [⟨"cat".toList, 0⟩, ⟨"y\x7d\x7d c".toList, 11⟩],
        [⟨"cat".toList, 0⟩, ⟨"dog".toList, 25⟩]) := by
    decide +kernel
  cases hd : ofSource none lateComments with
  | error failure => rw [hd] at hruns; cases hruns
  | ok d =>
    rw [hd] at hruns
    obtain ⟨hlines, hheadwords⟩ := Prod.mk.inj (Except.ok.inj hruns)
    obtain ⟨hshort, hfull⟩ := Prod.mk.inj hheadwords
    exact ⟨d, _, rfl, hlines, hshort, hfull⟩

end Dictionary

end Lexicon
