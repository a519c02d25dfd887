import Lexicon.Proofs.Dictionary.LogicalLines
import Lexicon.Proofs.Dictionary.Retries

/-!
# The end of the source

The end is reported once. Until then no read is an error for having come too late; from then on every
read is, and nothing changes any more. That holds of direct reads of physical and of logical lines
and of those that iterators make, in any order: whether the end has been reported is kept in one
place, and each read that reports it leaves its mark there.

A read of a logical line that meets the end inside a comment does not report it but gives out what
has been joined. So a use of a dictionary that reads only logical lines gives all of them, one with a
comment that is open at the end included, before it reports the end.

## Key results

- `Dictionary.read_cases`, `Dictionary.read_of_ended`: what one read can do
- `Dictionary.take_eq_iterate`: what an iterator yields
- `Dictionary.outcomes_eq_reads`, `Dictionary.outcomes_keeps`: sequences of uses as reads
- `Dictionary.endsOnce_outcomes`, `Dictionary.outcomes_of_ended`: reads before and after the end
- `Dictionary.outcomes_holding`: reads of logical lines from the middle of a group to the end
- `Dictionary.end_ofSource`: any sequence of reads
-/

namespace Lexicon.Dictionary

/-! ## Single reads -/

section Reads

variable {headwordsOnly : Bool} {d d' : Dictionary}

/-- After the end every read is an error, and nothing changes. -/
theorem read_of_ended (h : d.ended = true) (mode : ReadMode) :
    d.read mode = (.error .pastEnd, d) := by
  simp [read, next, nextJoined, h]

/-- The outcomes of a read before the end has been reported, of which only the last one reports it. -/
inductive ReadsTo (d' : Dictionary) : LineResult → Prop where
  | line (line : Line) (running : d'.ended = false) : ReadsTo d' (.ok (some line))
  | undecodable (n : Nat) (e : Encoding) (running : d'.ended = false) :
    ReadsTo d' (.error (.undecodable n e))
  | unreadable (fault : ReadFault) (running : d'.ended = false) :
    ReadsTo d' (.error (.unreadable fault))
  | finished (ended : d'.ended = true) : ReadsTo d' (.ok none)

private theorem advanceJoined_cases {r : LineResult} (hended : d.ended = false)
    (h : d.advanceJoined headwordsOnly = (r, d')) : ReadsTo d' r := by
  -- On the physical lines that the read goes through
  fun_induction advanceJoined headwordsOnly d with
  | case1 d failure t hstep =>
    cases h
    have hended' : d'.ended = false := (ended_of_advance hstep).trans hended
    obtain ⟨_, ⟨_, hcase⟩ | ⟨n, e, hcase⟩ | ⟨fault, hcase⟩ | hcase⟩ := advance_cases headwordsOnly d
    all_goals
      rw [hstep] at hcase
      cases hcase
    · exact .undecodable n e hended'
    · exact .unreadable fault hended'
  | case2 d t hstep =>
    cases h
    -- What has been joined comes first
    cases hjoined : t.joined with
    | none => exact .finished rfl
    | some line => exact .line line rfl
  | case3 d line t hstep joined hopen ih =>
    exact ih ((ended_of_advance hstep).trans hended) h
  | case4 d line t hstep joined hclosed =>
    cases h
    exact .line joined ((ended_of_advance hstep).trans hended)

/-- What one read can do before the end has been reported. -/
theorem read_cases {mode : ReadMode} {r : LineResult} (hended : d.ended = false)
    (h : d.read mode = (r, d')) : ReadsTo d' r := by
  obtain ⟨headwordsOnly, _ | _⟩ := mode
  · obtain ⟨t, ⟨line, ht⟩ | ⟨n, e, ht⟩ | ⟨fault, ht⟩ | ht⟩ := advance_cases headwordsOnly d
    · rw [read_of_advance hended ht nofun] at h
      cases h
      exact .line line ((ended_of_advance ht).trans hended)
    · rw [read_of_advance hended ht nofun] at h
      cases h
      exact .undecodable n e ((ended_of_advance ht).trans hended)
    · rw [read_of_advance hended ht nofun] at h
      cases h
      exact .unreadable fault ((ended_of_advance ht).trans hended)
    · rw [read_of_advance_end hended ht] at h
      cases h
      exact .finished rfl
  · rw [read_withoutComments hended] at h
    exact advanceJoined_cases hended h

/-- A run ends before a read would come too late. If the source does not fail, only lines that cannot
be decoded are errors in it. -/
theorem undecodable_of_mem_run {mode : ReadMode} {failure : Failure} (hended : d.ended = false)
    (hcalm : ∀ fault, .error (.unreadable fault) ∉ d.run mode) (h : .error failure ∈ d.run mode) :
    ∃ n e, failure = .undecodable n e := by
  -- On how many more lines can be given out
  induction hsize : d.remaining using Nat.strongRecOn generalizing d with
  | _ size ih =>
    subst hsize
    rcases hread : d.read mode with ⟨r, d'⟩
    cases read_cases hended hread with
    | line line hrunning =>
      rw [run_of_line hread] at h hcalm
      have hrest := (List.mem_cons.mp h).resolve_left nofun
      exact ih _ (remaining_lt_of_read hread rfl) hrunning
        (fun fault => List.not_mem_of_not_mem_cons (hcalm fault)) hrest rfl
    | undecodable n e hrunning =>
      rw [run_of_undecodable hread] at h hcalm
      rcases List.mem_cons.mp h with hfirst | hrest
      · cases hfirst
        exact ⟨n, e, rfl⟩
      · exact ih _ (remaining_lt_of_read hread rfl) hrunning
          (fun fault => List.not_mem_of_not_mem_cons (hcalm fault)) hrest rfl
    | unreadable fault _ =>
      rw [run_of_unreadable hread] at hcalm
      exact absurd List.mem_cons_self (hcalm fault)
    | finished _ =>
      rw [run_of_end hread] at h
      exact absurd h List.not_mem_nil

end Reads

/-! ## Iterators -/

/-- What an iterator yields for the outcome of a read. -/
def itemOf? : LineResult → Option (Except Failure Line)
  | .ok (some line) => some (.ok line)
  | .ok none => none
  | .error .pastEnd => none
  | .error failure => some (.error failure)

/-- The outcomes of the reads that `n` advances of a fresh iterator make. When there is nothing to
yield it makes no more. -/
def iterate (mode : ReadMode) : Nat → Dictionary → List LineResult × Dictionary
  | 0, d => ([], d)
  | n + 1, d =>
    let (r, d) := d.read mode
    if (itemOf? r).isNone then ([r], d)
    else
      let (rs, d) := iterate mode n d
      (r :: rs, d)

private theorem takeAfter_eq_iterate (mode : ReadMode) (done : List (Except Failure Line)) (n : Nat)
    (d : Dictionary) :
    takeAfter mode done n d =
      (done.reverse ++ (d.iterate mode n).1.filterMap itemOf?, (d.iterate mode n).2) := by
  induction n generalizing done d with
  | zero => simp [takeAfter, iterate]
  | succ n ih =>
    rw [takeAfter, iterate]
    rcases d.read mode with ⟨⟨failure⟩ | ⟨_ | line⟩, d'⟩
    · cases failure <;> simp [ih, itemOf?]
    · simp [itemOf?]
    · simp [ih, itemOf?]

/-- An iterator yields the outcomes of its reads, without the end. -/
theorem take_eq_iterate (mode : ReadMode) (n : Nat) (d : Dictionary) :
    d.take mode n = ((d.iterate mode n).1.filterMap itemOf?, (d.iterate mode n).2) :=
  takeAfter_eq_iterate mode [] n d

/-! ## Sequences of reads -/

/-- A use of a dictionary: a read, or a fresh iterator that is advanced some number of times. -/
inductive Use where
  | read (mode : ReadMode)
  | lines (withoutComments : Bool) (advances : Nat)

namespace Use

/-- How lines are read. -/
def mode : Use → ReadMode
  | read mode => mode
  | lines withoutComments _ => ⟨false, withoutComments⟩

/-- The outcomes of all the reads, those of an iterator included. -/
def outcomes : Use → Dictionary → List LineResult × Dictionary
  | read mode, d => ([(d.read mode).1], (d.read mode).2)
  | lines withoutComments advances, d => d.iterate ⟨false, withoutComments⟩ advances

end Use

/-- The outcomes of the reads in a sequence of uses, and what the dictionary is behind them. -/
def outcomes : List Use → Dictionary → List LineResult × Dictionary
  | [], d => ([], d)
  | use :: uses, d =>
    let (rs, d) := use.outcomes d
    let (rest, d) := outcomes uses d
    (rs ++ rest, d)

/-- Reads of physical lines. -/
def physicalReads (headwordsOnly : List Bool) : List Use :=
  headwordsOnly.map fun headwordsOnly => .read ⟨headwordsOnly, false⟩

section Sequences

variable {d d' : Dictionary} {mode : ReadMode} {modes : List ReadMode} {r : LineResult}

theorem outcomes_append (uses more : List Use) (d : Dictionary) :
    d.outcomes (uses ++ more) =
      ((d.outcomes uses).1 ++ ((d.outcomes uses).2.outcomes more).1,
        ((d.outcomes uses).2.outcomes more).2) := by
  induction uses generalizing d with
  | nil => rfl
  | cons use uses ih => simp [outcomes, ih]

theorem outcomes_read (h : d.read mode = (r, d')) (uses : List Use) :
    d.outcomes (.read mode :: uses) = (r :: (d'.outcomes uses).1, (d'.outcomes uses).2) := by
  simp [outcomes, Use.outcomes, h]

private theorem iterate_eq_outcomes (mode : ReadMode) (n : Nat) (d : Dictionary) :
    ∃ k, d.iterate mode n = d.outcomes ((List.replicate k mode).map .read) := by
  induction n generalizing d with
  | zero => exact ⟨0, rfl⟩
  | succ n ih =>
    rcases hread : d.read mode with ⟨r, d'⟩
    rw [iterate, hread]
    dsimp only
    split
    · -- The iterator stops here
      exact ⟨1, (outcomes_read hread []).symm⟩
    · obtain ⟨k, hk⟩ := ih d'
      refine ⟨k + 1, ?_⟩
      rw [List.replicate_succ, List.map_cons, outcomes_read hread, hk]

/-- Iterators only read, so any sequence of uses comes to a sequence of reads. -/
theorem outcomes_eq_reads (uses : List Use) (d : Dictionary) :
    ∃ modes ⊆ uses.map Use.mode, d.outcomes uses = d.outcomes (modes.map .read) := by
  induction uses generalizing d with
  | nil => exact ⟨[], List.Subset.refl _, rfl⟩
  | cons use uses ih =>
    obtain ⟨rest, hrest, heq⟩ := ih (use.outcomes d).2
    have huse : ∃ k, use.outcomes d = d.outcomes ((List.replicate k use.mode).map .read) := by
      cases use with
      | read mode => exact ⟨1, (outcomes_read rfl []).symm⟩
      | lines withoutComments n => exact iterate_eq_outcomes _ n d
    obtain ⟨k, hk⟩ := huse
    refine ⟨List.replicate k use.mode ++ rest, ?_, ?_⟩
    · rw [List.map_cons, List.append_subset]
      refine ⟨fun mode hmode => ?_, List.subset_cons_of_subset _ hrest⟩
      rw [List.eq_of_mem_replicate hmode]
      exact List.mem_cons_self
    · rw [List.map_append, outcomes_append, ← hk, ← heq]
      rfl

/-- What every read keeps is kept in any sequence of uses. -/
theorem outcomes_keeps {P : Dictionary → Prop}
    (hread : ∀ {mode : ReadMode} {d d' : Dictionary} {r : LineResult}, P d →
      d.read mode = (r, d') → P d')
    (hd : P d) (uses : List Use) : P (d.outcomes uses).2 := by
  obtain ⟨modes, -, heq⟩ := outcomes_eq_reads uses d
  rw [heq]
  clear heq
  induction modes generalizing d with
  | nil => exact hd
  | cons mode modes ih =>
    rcases hnext : d.read mode with ⟨r, d'⟩
    rw [List.map_cons, outcomes_read hnext]
    exact ih (hread hd hnext)

/-! ## Reads before and after the end -/

private theorem outcomes_reads_of_ended (h : d.ended = true) (modes : List ReadMode) :
    d.outcomes (modes.map .read) = (List.replicate modes.length (.error .pastEnd), d) := by
  induction modes with
  | nil => rfl
  | cons mode modes ih =>
    rw [List.map_cons, outcomes_read (read_of_ended h mode), ih]
    rfl

/-- After the end every read is an error, and nothing changes. -/
theorem outcomes_of_ended (h : d.ended = true) (uses : List Use) :
    (∀ r ∈ (d.outcomes uses).1, r = .error .pastEnd) ∧ (d.outcomes uses).2 = d := by
  obtain ⟨modes, -, heq⟩ := outcomes_eq_reads uses d
  rw [heq, outcomes_reads_of_ended h]
  exact ⟨fun r => List.eq_of_mem_replicate, rfl⟩

/-- Neither the end nor an error for having come too late. -/
def BeforeEnd (rs : List LineResult) : Prop :=
  .ok none ∉ rs ∧ .error .pastEnd ∉ rs

private theorem BeforeEnd.cons {rs : List LineResult} (h : BeforeEnd rs) (hend : r ≠ .ok none)
    (hlate : r ≠ .error .pastEnd) : BeforeEnd (r :: rs) :=
  ⟨List.not_mem_cons_of_ne_of_not_mem hend.symm h.1,
    List.not_mem_cons_of_ne_of_not_mem hlate.symm h.2⟩

/-- The outcomes in a row: those before the end, then the end, then errors for having come too late.
Whether the end is among them is marked by `ended`. -/
inductive EndsOnce : Bool → List LineResult → Prop
  | running {rs : List LineResult} (before : BeforeEnd rs) : EndsOnce false rs
  | ended {rs : List LineResult} (before : BeforeEnd rs) (late : Nat) :
    EndsOnce true (rs ++ .ok none :: List.replicate late (.error .pastEnd))

private theorem EndsOnce.cons {ended : Bool} {rs : List LineResult} (h : EndsOnce ended rs)
    (hend : r ≠ .ok none) (hlate : r ≠ .error .pastEnd) : EndsOnce ended (r :: rs) := by
  cases h with
  | running before => exact .running (before.cons hend hlate)
  | ended before late => exact .ended (before.cons hend hlate) late

theorem EndsOnce.ended_iff {ended : Bool} {rs : List LineResult} (h : EndsOnce ended rs) :
    ended = true ↔ .ok none ∈ rs := by
  cases h with
  | running before => simp [before.1]
  | ended before late => simp

theorem EndsOnce.exists_given {ended : Bool} {rs : List LineResult} (h : EndsOnce ended rs)
    (hend : .ok none ∈ rs) :
    ∃ given late, BeforeEnd given ∧
      rs = given ++ .ok none :: List.replicate late (.error .pastEnd) := by
  cases h with
  | running before => exact absurd hend before.1
  | ended before late => exact ⟨_, late, before, rfl⟩

theorem EndsOnce.count_le {ended : Bool} {rs : List LineResult} (h : EndsOnce ended rs) :
    rs.count (.ok none) ≤ 1 := by
  cases h with
  | running before => simp [List.count_eq_zero_of_not_mem before.1]
  | ended before late => simp [List.count_eq_zero_of_not_mem before.1, List.count_replicate]

private theorem endsOnce_outcomes_reads (hended : d.ended = false) (modes : List ReadMode) :
    EndsOnce (d.outcomes (modes.map .read)).2.ended (d.outcomes (modes.map .read)).1 := by
  induction modes generalizing d with
  | nil =>
    rw [List.map_nil, outcomes, hended]
    exact .running ⟨List.not_mem_nil, List.not_mem_nil⟩
  | cons mode modes ih =>
    rcases hread : d.read mode with ⟨r, d'⟩
    rw [List.map_cons, outcomes_read hread]
    -- Either the end is still to come, or it has been reported by this very read
    cases read_cases hended hread with
    | line _ hrunning => exact (ih hrunning).cons nofun nofun
    | undecodable _ _ hrunning => exact (ih hrunning).cons nofun nofun
    | unreadable _ hrunning => exact (ih hrunning).cons nofun nofun
    | finished hfinished =>
      rw [outcomes_reads_of_ended hfinished, hfinished]
      exact .ended ⟨List.not_mem_nil, List.not_mem_nil⟩ modes.length

/-- The end is reported once in any sequence of uses, and then it is marked. -/
theorem endsOnce_outcomes (hended : d.ended = false) (uses : List Use) :
    EndsOnce (d.outcomes uses).2.ended (d.outcomes uses).1 := by
  obtain ⟨modes, -, heq⟩ := outcomes_eq_reads uses d
  rw [heq]
  exact endsOnce_outcomes_reads hended modes

end Sequences

/-! ## Logical lines up to the end -/

section Logical

variable {headwordsOnly : Bool} {allowed : List Bool} {d p p' : Dictionary} {inside : Bool}
  {group : List Line} {rs : List LineResult} {modes : List ReadMode}

/-- What is given are the logical lines, up to the end, of what reads of physical lines of `p` give,
each of them in one of the allowed ways; the lines in `group` are already there, and `inside` says
whether a comment is open behind them. -/
def JoinsToEnd (allowed : List Bool) (p : Dictionary) (inside : Bool) (group : List Line)
    (rs : List LineResult) : Prop :=
  ∃ flags ⊆ allowed,
    .ok none ∈ (p.outcomes (physicalReads flags)).1 ∧
    rs.filterMap itemOf? =
      logicalLines inside group ((p.outcomes (physicalReads flags)).1.filterMap itemOf?)

namespace JoinsToEnd

theorem mono {allowed' : List Bool} (h : JoinsToEnd allowed p inside group rs)
    (hsub : allowed ⊆ allowed') : JoinsToEnd allowed' p inside group rs := by
  obtain ⟨flags, hflags, hjoins⟩ := h
  exact ⟨flags, List.Subset.trans hflags hsub, hjoins⟩

variable (hallowed : headwordsOnly ∈ allowed)
include hallowed

/-- One more item in front of the others. -/
private theorem cons {r : LineResult} {item : Except Failure Line} {inside' : Bool}
    {group' : List Line} {rs' : List LineResult} (h : JoinsToEnd allowed p' inside' group' rs')
    (hread : p.read ⟨headwordsOnly, false⟩ = (r, p')) (hitem : itemOf? r = some item)
    (hjoin : ∀ items, rs'.filterMap itemOf? = logicalLines inside' group' items →
      rs.filterMap itemOf? = logicalLines inside group (item :: items)) :
    JoinsToEnd allowed p inside group rs := by
  obtain ⟨flags, hflags, hend, hitems⟩ := h
  have hcons : (p.outcomes (physicalReads (headwordsOnly :: flags))).1 =
      r :: (p'.outcomes (physicalReads flags)).1 := congrArg Prod.fst (outcomes_read hread _)
  refine ⟨headwordsOnly :: flags, List.cons_subset.mpr ⟨hallowed, hflags⟩, ?_⟩
  rw [hcons, List.filterMap_cons_some hitem]
  exact ⟨List.mem_cons_of_mem _ hend, hjoin _ hitems⟩

variable (hended : p.ended = false)
include hended

/-- A line behind which a comment is open is added to the group. -/
theorem gather {line : Line} (hstep : p.advance headwordsOnly = (.ok (some line), p'))
    (hline : (Comment.strip inside line.text).2 = true)
    (h : JoinsToEnd allowed p' true (group ++ [line]) rs) : JoinsToEnd allowed p inside group rs := by
  refine h.cons hallowed (read_of_advance hended hstep nofun) rfl fun items hitems => ?_
  rw [logicalLines, if_pos hline]
  exact hitems

/-- A line behind which no comment is open completes the group. -/
theorem complete {line : Line} (hstep : p.advance headwordsOnly = (.ok (some line), p'))
    (hline : (Comment.strip inside line.text).2 = false)
    (h : JoinsToEnd allowed p' false [] rs) :
    JoinsToEnd allowed p inside group (.ok (logicalLine? (group ++ [line])) :: rs) := by
  refine h.cons hallowed (read_of_advance hended hstep nofun) rfl fun items hitems => ?_
  rw [logicalLines, if_neg (by simp [hline]), ← hitems]
  cases group with
  | nil => rfl
  | cons first group => rfl

/-- A failure leaves the group as it is. -/
theorem fail {failure : Failure} (hstep : p.advance headwordsOnly = (.error failure, p'))
    (hitem : itemOf? (.error failure) = some (.error failure))
    (h : JoinsToEnd allowed p' inside group rs) :
    JoinsToEnd allowed p inside group (.error failure :: rs) := by
  refine h.cons hallowed (read_of_advance hended hstep nofun) hitem fun items hitems => ?_
  rw [List.filterMap_cons_some hitem, logicalLines, hitems]

/-- At the end the group is given as far as it goes. -/
theorem finish (hstep : p.advance headwordsOnly = (.ok none, p'))
    (hrest : rs.filterMap itemOf? = []) :
    JoinsToEnd allowed p inside group (.ok (logicalLine? group) :: rs) := by
  refine ⟨[headwordsOnly], List.cons_subset.mpr ⟨hallowed, List.nil_subset _⟩, ?_⟩
  have hlast : (p.outcomes (physicalReads [headwordsOnly])).1 = [.ok none] :=
    congrArg Prod.fst (outcomes_read (read_of_advance_end hended hstep) [])
  rw [hlast]
  refine ⟨List.mem_singleton.mpr rfl, ?_⟩
  cases group with
  | nil => exact hrest
  | cons first group => exact congrArg (_ :: ·) hrest

end JoinsToEnd

/-- After the end nothing more is given. -/
private theorem items_of_ended (h : p.ended = true) (modes : List ReadMode) :
    (p.outcomes (modes.map .read)).1.filterMap itemOf? = [] := by
  rw [outcomes_reads_of_ended h, List.filterMap_replicate_of_none rfl]

/-- When the source has come to its end, and nothing is left of the lines joined, nothing more is
given. -/
private theorem items_of_drained (hended : p.ended = false)
    (hend : ∀ headwordsOnly, ∃ p', p.advance headwordsOnly = (.ok none, p'))
    (hmodes : ∀ mode ∈ modes, mode.withoutComments = true) :
    ((p.holding false none).outcomes (modes.map .read)).1.filterMap itemOf? = [] := by
  cases modes with
  | nil => rfl
  | cons mode modes =>
    obtain ⟨headwordsOnly, withoutComments⟩ := mode
    obtain rfl : withoutComments = true := hmodes _ List.mem_cons_self
    obtain ⟨p', hstep⟩ := hend headwordsOnly
    -- The first of the reads reports the end
    rw [List.map_cons, outcomes_read (read_holding_end hended hstep false none)]
    exact items_of_ended rfl modes

private theorem outcomes_congr {mode : ReadMode} (h : p.read mode = p'.read mode)
    (uses : List Use) : p.outcomes (.read mode :: uses) = p'.outcomes (.read mode :: uses) := by
  rw [outcomes_read (Prod.eta (p.read mode)).symm, h, outcomes_read (Prod.eta (p'.read mode)).symm]

/-- Reads of logical lines that come to the end give all of them, in the middle of a group as well:
those that physical reads up to the end make, failures included. -/
theorem outcomes_holding (hended : p.ended = false) (hgroup : GroupOpen inside group)
    (hmodes : ∀ mode ∈ modes, mode.withoutComments = true)
    (hend : .ok none ∈ ((p.holding inside (logicalLine? group)).outcomes (modes.map .read)).1) :
    JoinsToEnd (modes.map (·.headwordsOnly)) p inside group
      ((p.holding inside (logicalLine? group)).outcomes (modes.map .read)).1 := by
  -- On the reads to come, and then on what there is left for the first one to read
  induction modes generalizing p inside group with
  | nil => exact absurd hend List.not_mem_nil
  | cons mode modes ih =>
    obtain ⟨headwordsOnly, withoutComments⟩ := mode
    obtain rfl : withoutComments = true := hmodes _ List.mem_cons_self
    have hmodes' : ∀ mode ∈ modes, mode.withoutComments = true :=
      fun mode hmode => hmodes mode (List.mem_cons_of_mem _ hmode)
    have hallowed : headwordsOnly ∈ headwordsOnly :: modes.map (·.headwordsOnly) :=
      List.mem_cons_self
    have hmore : modes.map (·.headwordsOnly) ⊆ headwordsOnly :: modes.map (·.headwordsOnly) :=
      List.subset_cons_self _ _
    simp only [List.map_cons] at hend ⊢
    induction hsize : p.size using Nat.strongRecOn generalizing p inside group with
    | _ size ihSize =>
      subst hsize
      obtain ⟨p', hcase⟩ := advance_cases headwordsOnly p
      have hended' : p'.ended = false := by
        obtain ⟨_, h⟩ | ⟨_, _, h⟩ | ⟨_, h⟩ | h := hcase <;> exact (ended_of_advance h).trans hended
      obtain ⟨line, hstep⟩ | ⟨n, e, hstep⟩ | ⟨fault, hstep⟩ | hstep := hcase
      · cases hline : (Comment.strip inside line.text).2 with
        | true =>
          rw [outcomes_congr (read_of_open hended hgroup hstep hline)] at hend ⊢
          exact .gather hallowed hended hstep hline
            (ihSize _ (size_lt_of_advance hstep rfl) hended' (hgroup.append hline) hend rfl)
        | false =>
          rw [outcomes_read (read_of_closed hended hgroup hstep hline)] at hend ⊢
          -- The line is not the end
          have hrest := (List.mem_cons.mp hend).resolve_left
            (by simp [join_eq (d := p) hgroup line])
          exact .complete hallowed hended hstep hline
            ((ih hended' groupOpen_nil hmodes' hrest).mono hmore)
      · rw [outcomes_read (read_holding_error hended hstep inside _)] at hend ⊢
        have hrest := (List.mem_cons.mp hend).resolve_left nofun
        exact .fail hallowed hended hstep rfl ((ih hended' hgroup hmodes' hrest).mono hmore)
      · rw [outcomes_read (read_holding_error hended hstep inside _)] at hend ⊢
        have hrest := (List.mem_cons.mp hend).resolve_left nofun
        exact .fail hallowed hended hstep rfl ((ih hended' hgroup hmodes' hrest).mono hmore)
      · rw [outcomes_read (read_holding_end hended hstep inside _)]
        refine .finish hallowed hended hstep ?_
        -- An open group is given first, and the next read reports the end
        cases logicalLine? group with
        | none => exact items_of_ended rfl modes
        | some line =>
          rw [Option.isNone_some, holding_running hended']
          exact items_of_drained hended' (advance_again hstep) hmodes'

/-- The same from the start, by whatever means the lines are read. -/
theorem joinsToEnd_of_fresh (hopen : d.commentOpen = false) (hjoined : d.joined = none)
    (hended : d.ended = false) {uses : List Use}
    (huses : ∀ use ∈ uses, use.mode.withoutComments = true)
    (hend : .ok none ∈ (d.outcomes uses).1) :
    JoinsToEnd (uses.map (·.mode.headwordsOnly)) d false [] (d.outcomes uses).1 := by
  obtain ⟨modes, hmodes, heq⟩ := outcomes_eq_reads uses d
  have hfresh : d.holding false (logicalLine? []) = d := by
    show d.holding false none = d
    rw [← hopen, ← hjoined]
    rfl
  have hwithout : ∀ mode ∈ modes, mode.withoutComments = true := by
    intro mode hmode
    obtain ⟨use, huse, rfl⟩ := List.mem_map.mp (hmodes hmode)
    exact huses use huse
  have hflags := List.map_subset (·.headwordsOnly) hmodes
  rw [List.map_map] at hflags
  rw [heq, ← hfresh] at hend
  have hjoins := outcomes_holding hended groupOpen_nil hwithout hend
  rw [hfresh, ← heq] at hjoins
  exact hjoins.mono hflags

end Logical

/-! ## Any sequence of reads -/

/-- The end of a source is reported once, in any sequence of reads, those of iterators included. A
read is an error for having come too late just when the end has been reported before; then the line
count and the line ending stay as they are, and every iterator yields nothing. What has been given
before the end are, if all reads remove comments, the logical lines of all the physical ones, and so
also the one over which a comment is open at the end. -/
theorem end_ofSource {label : Option Text} {source : Source} {d : Dictionary}
    (h : ofSource label source = .ok d) (uses : List Use) :
    (∀ mode, ((d.outcomes uses).2.read mode).1 = .error .pastEnd ↔
      .ok none ∈ (d.outcomes uses).1) ∧
    (d.outcomes uses).1.count (.ok none) ≤ 1 ∧
    (.ok none ∈ (d.outcomes uses).1 →
      (∀ more, ((d.outcomes uses).2.outcomes more).2.lineCount = (d.outcomes uses).2.lineCount ∧
        ((d.outcomes uses).2.outcomes more).2.lineEnding = (d.outcomes uses).2.lineEnding) ∧
      (∀ mode n, ((d.outcomes uses).2.take mode n).1 = []) ∧
      ∃ given late, BeforeEnd given ∧
        (d.outcomes uses).1 = given ++ .ok none :: List.replicate late (.error .pastEnd) ∧
        ((∀ use ∈ uses, use.mode.withoutComments = true) →
          ∃ flags ⊆ uses.map (·.mode.headwordsOnly),
            .ok none ∈ (d.outcomes (physicalReads flags)).1 ∧
            given.filterMap itemOf? =
              logicalLines false [] ((d.outcomes (physicalReads flags)).1.filterMap itemOf?))) := by
  obtain ⟨hopen, hjoined, hended⟩ := fresh_of_ofSource h
  have honce := endsOnce_outcomes hended uses
  refine ⟨fun mode => ?_, honce.count_le, fun hend => ?_⟩
  · rw [← honce.ended_iff]
    cases hlate : (d.outcomes uses).2.ended with
    | true => simp [read_of_ended hlate]
    | false =>
      rcases hread : (d.outcomes uses).2.read mode with ⟨r, d'⟩
      cases read_cases hlate hread <;> simp
  have hmarked := honce.ended_iff.mpr hend
  refine ⟨fun more => ?_, fun mode n => ?_, ?_⟩
  · obtain ⟨-, hsame⟩ := outcomes_of_ended hmarked more
    rw [hsame]
    exact ⟨rfl, rfl⟩
  · rw [take_eq_iterate]
    obtain ⟨k, hk⟩ := iterate_eq_outcomes mode n (d.outcomes uses).2
    rw [hk, items_of_ended hmarked]
  · obtain ⟨given, late, hbefore, hgiven⟩ := honce.exists_given hend
    refine ⟨given, late, hbefore, hgiven, fun huses => ?_⟩
    have hitems : (d.outcomes uses).1.filterMap itemOf? = given.filterMap itemOf? := by
      rw [hgiven, List.filterMap_append, List.filterMap_cons_none rfl,
        List.filterMap_replicate_of_none rfl, List.append_nil]
    rw [← hitems]
    exact joinsToEnd_of_fresh hopen hjoined hended huses hend

/-- A comment that is open over a line that cannot be decoded and over a failure of the source, and
one that is open at the end. -/
private def leftOpen : Source :=
  [.bytes [0x61, 0x7B, 0x7B, 0x62, 0x0A, 0xFF, 0x0A], .failed .source,
    .bytes [0x63, 0x7D, 0x7D, 0x64, 0x0A, 0x65, 0x7B, 0x7B]]

/-- Direct reads between two iterators, the second of which meets the end. -/
private def leftOpenUses : List Use :=
  [.lines true 2, .read ⟨true, true⟩, .lines true 3, .read ⟨false, true⟩]

theorem outcomes_leftOpen :
    ∃ d, ofSource none leftOpen = .ok d ∧
      (d.outcomes leftOpenUses).1 =
        [.error (.undecodable 2 .utf8), .error (.unreadable .source), .ok (some ⟨['a', 'd'], 0⟩),
          .ok (some ⟨['e'], 12⟩), .ok none, .error .pastEnd] ∧
      (∀ mode, ((d.outcomes leftOpenUses).2.read mode).1 = .error .pastEnd) ∧
      ∀ mode n, ((d.outcomes leftOpenUses).2.take mode n).1 = [] := by
  have hseen : (ofSource none leftOpen).map (fun d => (d.outcomes leftOpenUses).1) =
      .ok [.error (.undecodable 2 .utf8), .error (.unreadable .source),
        .ok (some ⟨['a', 'd'], 0⟩), .ok (some ⟨['e'], 12⟩), .ok none, .error .pastEnd] := by
    decide +kernel
  cases hd : ofSource none leftOpen with
  | error failure => rw [hd] at hseen; cases hseen
  | ok d =>
    rw [hd] at hseen
    have houtcomes := Except.ok.inj hseen
    obtain ⟨hlate, -, hafter⟩ := end_ofSource hd leftOpenUses
    have hend : .ok none ∈ (d.outcomes leftOpenUses).1 := by simp [houtcomes]
    exact ⟨d, rfl, houtcomes, fun mode => (hlate mode).mpr hend, (hafter hend).2.1⟩

end Lexicon.Dictionary
