import Lexicon.Proofs.Comment
import Lexicon.Proofs.Dictionary.Opening
import Lexicon.Proofs.Dictionary.Runs
import Mathlib.Data.List.Basic

/-!
# Reading logical lines

A run that removes comments gives the physical lines in groups: a group ends with the first line
after which no comment is open, and is given as one line. Errors come where they come in a run of
physical lines, and leave the group that they fall into as it is.

The dictionary does not keep the lines of an open group but only what remains of them without their
comments. By the invariant `GroupOpen` a comment is open behind such a group, so the line feeds
between its lines stand in comments, and removing comments line by line comes to the same as removing
those of the joined lines.

## Key results

- `GroupOpen.strip_append`: what one more line adds to a group
- `Dictionary.read_of_open`, `Dictionary.read_of_closed`, `Dictionary.read_holding_error`,
  `Dictionary.read_holding_end`: what one read does to a group
- `Dictionary.run_of_open`, `Dictionary.run_of_closed`, `Dictionary.run_holding_undecodable`,
  `Dictionary.run_holding_end`: what one step of a run does to a group
- `Dictionary.run_holding`: a run from the middle of a group
- `Dictionary.run_withoutComments`: a whole run without comments
-/

namespace Lexicon

/-! ## Groups of lines -/

/-- The texts of lines, joined by line feeds. -/
def joinedText (group : List Line) : Text :=
  ['\n'].intercalate (group.map Line.text)

/-- The logical line of a group: the joined lines without their comments, at the offset of the first
one. Without lines there is none. -/
def logicalLine? (group : List Line) : Option Line :=
  group.head?.map fun first => ⟨(Comment.strip false (joinedText group)).1, first.offset⟩

/-- The logical lines of physical ones, of which those in `group` are already there; `inside` says
whether a comment is open behind them. -/
def logicalLines (inside : Bool) (group : List Line) :
    List (Except Failure Line) → List (Except Failure Line)
  | [] => (logicalLine? group).toList.map .ok
  | .error failure :: rest => .error failure :: logicalLines inside group rest
  | .ok line :: rest =>
    if (Comment.strip inside line.text).2 then logicalLines true (group ++ [line]) rest
    else (logicalLine? (group ++ [line])).toList.map .ok ++ logicalLines false [] rest

/-- A comment is open behind a group as far as it goes, unless there is no line in it. -/
structure GroupOpen (inside : Bool) (group : List Line) : Prop where
  inside_eq : inside = (Comment.strip false (joinedText group)).2
  inside_of_ne_nil : group ≠ [] → inside = true

theorem groupOpen_nil : GroupOpen false [] := ⟨rfl, fun h => absurd rfl h⟩

theorem joinedText_append {group : List Line} (h : group ≠ []) (line : Line) :
    joinedText (group ++ [line]) = joinedText group ++ '\n' :: line.text := by
  unfold joinedText
  -- The first line has the line feed behind it only if there is a second one
  induction group with
  | nil => exact absurd rfl h
  | cons first rest ih =>
    cases rest with
    | nil => simp [List.intercalate_cons_cons]
    | cons second rest =>
      have hrest := ih (List.cons_ne_nil second rest)
      simp only [List.cons_append, List.map_cons, List.intercalate_cons_cons] at hrest ⊢
      rw [hrest]
      simp only [List.append_assoc]

/-- Removing the comments of one more line is removing those of the joined lines: the line feed
before the line stands inside a comment. -/
theorem GroupOpen.strip_append {inside : Bool} {group : List Line} (h : GroupOpen inside group)
    (line : Line) :
    Comment.strip false (joinedText (group ++ [line])) =
      ((Comment.strip false (joinedText group)).1 ++ (Comment.strip inside line.text).1,
        (Comment.strip inside line.text).2) := by
  by_cases hnil : group = []
  · -- The first line of a group stands alone
    rw [h.inside_eq, hnil]
    show Comment.strip false (['\n'].intercalate [line.text]) = _
    rw [List.intercalate_singleton]
    rfl
  · have hinside := h.inside_eq
    rw [h.inside_of_ne_nil hnil] at hinside
    rw [joinedText_append hnil, Comment.strip_append_cons (by decide) (by decide), ← hinside,
      h.inside_of_ne_nil hnil, if_pos rfl, List.append_nil]

theorem GroupOpen.append {inside : Bool} {group : List Line} (h : GroupOpen inside group)
    {line : Line} (hopen : (Comment.strip inside line.text).2 = true) :
    GroupOpen true (group ++ [line]) := by
  refine ⟨?_, fun _ => rfl⟩
  rw [h.strip_append, hopen]

namespace Dictionary

theorem join_eq {d : Dictionary} {inside : Bool} {group : List Line} (h : GroupOpen inside group)
    (line : Line) :
    logicalLine? (group ++ [line]) = some ((d.holding inside (logicalLine? group)).join line) := by
  unfold logicalLine?
  rw [h.strip_append]
  cases group with
  | nil => rfl
  | cons first rest => rfl

/-! ## Reading a group -/

variable {headwordsOnly : Bool} {d d' : Dictionary} {inside : Bool} {group : List Line}

theorem read_holding (hended : d.ended = false) (inside : Bool) (joined : Option Line) :
    (d.holding inside joined).read ⟨headwordsOnly, true⟩ =
      (d.holding inside joined).advanceJoined headwordsOnly :=
  read_withoutComments hended

theorem holding_running (hended : d.ended = false) (inside : Bool) (joined : Option Line) :
    ({ d.holding inside joined with ended := false } : Dictionary) = d.holding inside joined :=
  congrArg (fun b => ({ d.holding inside joined with ended := b } : Dictionary)) hended.symm

theorem read_of_open (hended : d.ended = false) (hgroup : GroupOpen inside group) {line : Line}
    (h : d.advance headwordsOnly = (.ok (some line), d'))
    (hline : (Comment.strip inside line.text).2 = true) :
    (d.holding inside (logicalLine? group)).read ⟨headwordsOnly, true⟩ =
      (d'.holding true (logicalLine? (group ++ [line]))).read ⟨headwordsOnly, true⟩ := by
  have hended' : d'.ended = false := (ended_of_advance h).trans hended
  rw [read_holding hended, read_holding hended', advanceJoined_of_line (advance_holding h _ _)]
  have hline' : (Comment.strip (d'.holding inside (logicalLine? group)).commentOpen line.text).2 =
      true := hline
  rw [if_pos hline', join_eq hgroup]
  rfl

theorem read_of_closed (hended : d.ended = false) (hgroup : GroupOpen inside group) {line : Line}
    (h : d.advance headwordsOnly = (.ok (some line), d'))
    (hline : (Comment.strip inside line.text).2 = false) :
    (d.holding inside (logicalLine? group)).read ⟨headwordsOnly, true⟩ =
      (.ok (logicalLine? (group ++ [line])), d'.holding false none) := by
  have hline' : ¬ (Comment.strip (d'.holding inside (logicalLine? group)).commentOpen line.text).2 =
      true := Bool.eq_false_iff.mp hline
  rw [join_eq hgroup, read_holding hended, advanceJoined_of_line (advance_holding h _ _),
    if_neg hline']
  rfl

theorem read_holding_error (hended : d.ended = false) {failure : Failure}
    (h : d.advance headwordsOnly = (.error failure, d')) (inside : Bool) (joined : Option Line) :
    (d.holding inside joined).read ⟨headwordsOnly, true⟩ =
      (.error failure, d'.holding inside joined) := by
  rw [read_holding hended, advanceJoined_of_error (advance_holding h _ _)]

theorem read_holding_end (hended : d.ended = false)
    (h : d.advance headwordsOnly = (.ok none, d')) (inside : Bool) (joined : Option Line) :
    (d.holding inside joined).read ⟨headwordsOnly, true⟩ =
      (.ok joined, { d'.holding false none with ended := joined.isNone }) := by
  rw [read_holding hended, advanceJoined_of_end (advance_holding h _ _)]
  rfl

theorem run_of_open (hended : d.ended = false) (hgroup : GroupOpen inside group) {line : Line}
    (h : d.advance headwordsOnly = (.ok (some line), d'))
    (hline : (Comment.strip inside line.text).2 = true) :
    (d.holding inside (logicalLine? group)).run ⟨headwordsOnly, true⟩ =
      (d'.holding true (logicalLine? (group ++ [line]))).run ⟨headwordsOnly, true⟩ :=
  run_congr (read_of_open hended hgroup h hline)

theorem run_of_closed (hended : d.ended = false) (hgroup : GroupOpen inside group) {line : Line}
    (h : d.advance headwordsOnly = (.ok (some line), d'))
    (hline : (Comment.strip inside line.text).2 = false) :
    (d.holding inside (logicalLine? group)).run ⟨headwordsOnly, true⟩ =
      (logicalLine? (group ++ [line])).toList.map .ok ++
        (d'.holding false none).run ⟨headwordsOnly, true⟩ := by
  have hread := read_of_closed hended hgroup h hline
  rw [join_eq (d := d) hgroup] at hread ⊢
  exact run_of_line hread

/-- At the end of the source an open group is given as far as it goes; then there is the end. -/
theorem run_holding_end (hended : d.ended = false) (h : d.advance headwordsOnly = (.ok none, d'))
    (inside : Bool) (joined : Option Line) :
    (d.holding inside joined).run ⟨headwordsOnly, true⟩ = joined.toList.map .ok := by
  have hread := read_holding_end hended h inside joined
  cases joined with
  | none => exact run_of_end hread
  | some line =>
    have hended' : d'.ended = false := (ended_of_advance h).trans hended
    -- The end is met once more
    obtain ⟨d'', hagain⟩ := advance_again h headwordsOnly
    rw [Option.isNone_some, holding_running hended'] at hread
    rw [run_of_line hread, run_of_end (read_holding_end hended' hagain false none)]
    rfl

theorem run_holding_undecodable (hended : d.ended = false) {n : Nat} {e : Encoding}
    (h : d.advance headwordsOnly = (.error (.undecodable n e), d')) (inside : Bool)
    (joined : Option Line) :
    (d.holding inside joined).run ⟨headwordsOnly, true⟩ =
      .error (.undecodable n e) :: (d'.holding inside joined).run ⟨headwordsOnly, true⟩ :=
  run_of_undecodable (read_holding_error hended h inside joined)

/-! ## Runs -/

/-- In the middle of a group, a run without comments gives the logical lines of a run of physical
lines, if the source does not fail. -/
theorem run_holding (hended : d.ended = false) (hgroup : GroupOpen inside group)
    (hcalm : ∀ fault, .error (.unreadable fault) ∉ d.run ⟨headwordsOnly, false⟩) :
    (d.holding inside (logicalLine? group)).run ⟨headwordsOnly, true⟩ =
      logicalLines inside group (d.run ⟨headwordsOnly, false⟩) := by
  -- Every step that gives something uses something up
  induction hsize : d.size using Nat.strongRecOn generalizing d inside group with
  | _ size ih =>
    subst hsize
    obtain ⟨d', ⟨line, h⟩ | ⟨n, e, h⟩ | ⟨fault, h⟩ | h⟩ := advance_cases headwordsOnly d
    · -- A line is added to the group
      have hended' : d'.ended = false := (ended_of_advance h).trans hended
      rw [run_of_advance_line hended h] at hcalm ⊢
      have hcalm' : ∀ fault, .error (.unreadable fault) ∉ d'.run ⟨headwordsOnly, false⟩ :=
        fun fault hmem => hcalm fault (List.mem_cons_of_mem _ hmem)
      rw [logicalLines]
      split
      · rename_i hline
        rw [run_of_open hended hgroup h hline]
        exact ih _ (size_lt_of_advance h rfl) hended' (hgroup.append hline) hcalm' rfl
      · rename_i hline
        rw [run_of_closed hended hgroup h (Bool.eq_false_iff.mpr hline)]
        rw [← ih _ (size_lt_of_advance h rfl) hended' groupOpen_nil hcalm' rfl]
        rfl
    · -- An error leaves the group as it is
      have hended' : d'.ended = false := (ended_of_advance h).trans hended
      rw [run_of_advance_undecodable hended h] at hcalm ⊢
      have hcalm' : ∀ fault, .error (.unreadable fault) ∉ d'.run ⟨headwordsOnly, false⟩ :=
        fun fault hmem => hcalm fault (List.mem_cons_of_mem _ hmem)
      rw [run_holding_undecodable hended h, ih _ (size_lt_of_advance h rfl) hended' hgroup hcalm' rfl]
      rfl
    · -- The source does not fail
      rw [run_of_advance_unreadable hended h] at hcalm
      exact absurd List.mem_cons_self (hcalm fault)
    · rw [run_of_advance_end hended h]
      exact run_holding_end hended h inside _

/-- A run without comments gives the logical lines of a run of physical lines, if the source does
not fail. -/
theorem run_withoutComments {label : Option Text} {source : Source} {d : Dictionary}
    (headwordsOnly : Bool) (h : ofSource label source = .ok d)
    (hcalm : ∀ fault, .error (.unreadable fault) ∉ d.run ⟨headwordsOnly, false⟩) :
    d.run ⟨headwordsOnly, true⟩ = logicalLines false [] (d.run ⟨headwordsOnly, false⟩) := by
  obtain ⟨hopen, hjoined, hended⟩ := fresh_of_ofSource h
  have hfresh : d.holding false (logicalLine? []) = d := by
    show d.holding false none = d
    rw [← hopen, ← hjoined]
    rfl
  rw [← run_holding hended groupOpen_nil hcalm, hfresh]

/-- A comment that is open over a line that cannot be decoded, and one that is open at the end. -/
private def brokenComment : Source :=
  [.bytes [0x61, 0x7B, 0x7B, 0x62, 0x0A, 0xFF, 0x0A, 0x63, 0x7D, 0x7D, 0x64, 0x0A, 0x65, 0x7B, 0x7B]]

theorem run_brokenComment :
    ∃ d, ofSource none brokenComment = .ok d ∧
      d.run ⟨false, true⟩ =
        [.error (.undecodable 2 .utf8), .ok ⟨['a', 'd'], 0⟩, .ok ⟨['e'], 12⟩] := by
  have hphysical : (ofSource none brokenComment).map (run ⟨false, false⟩) =
      .ok [.ok ⟨"a\x7b\x7bb".toList, 0⟩, .error (.undecodable 2 .utf8),
        .ok ⟨"c\x7d\x7dd".toList, 7⟩, .ok ⟨"e\x7b\x7b".toList, 12⟩] := by
    decide +kernel
  cases hd : ofSource none brokenComment with
  | error failure => rw [hd] at hphysical; cases hphysical
  | ok d =>
    rw [hd] at hphysical
    have hrun := Except.ok.inj hphysical
    have hcalm : ∀ fault, .error (.unreadable fault) ∉ d.run ⟨false, false⟩ := by
      intro fault
      rw [hrun]
      simp
    refine ⟨d, rfl, ?_⟩
    rw [run_withoutComments false hd hcalm, hrun]
    decide +kernel

end Dictionary

end Lexicon
