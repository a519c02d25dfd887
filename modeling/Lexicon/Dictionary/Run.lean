import Lexicon.Dictionary.Read

/-!
# Reading to the end

A run reads lines until the end has been reached or a failure comes that reading further would not
pass. Lines that cannot be decoded are in its outcome, and the run goes on behind them.
-/

namespace Lexicon.Dictionary

/-! ## Progress -/

/-- How many more lines can be given out at most: two for each thing left to read, and one for lines
already joined. -/
def remaining (d : Dictionary) : Nat :=
  2 * d.size + d.joined.toList.length

private theorem advance_joined (headwordsOnly : Bool) (d : Dictionary) :
    (d.advance headwordsOnly).2.joined = d.joined := by
  unfold advance
  split
  · rfl
  · split <;> rfl

private theorem advance_size_le (headwordsOnly : Bool) (d : Dictionary) :
    (d.advance headwordsOnly).2.size ≤ d.size := by
  unfold advance
  cases hp : d.firstLine with
  | some raw => simp [size, hp]
  | none =>
    have := d.stream.readLine_size_le d.encoding
    simp only
    split <;> simp_all [size]

/-- Reading a physical line uses something up. -/
theorem next_remaining_lt {headwordsOnly : Bool} {d : Dictionary}
    (h : usedLine (d.next headwordsOnly).1 = true) :
    (d.next headwordsOnly).2.remaining < d.remaining := by
  have hjoined := advance_joined headwordsOnly d
  unfold next at h ⊢
  split at h
  · simp [usedLine] at h
  · rename_i hended
    rw [if_neg hended]
    split at h
    · simp [usedLine] at h
    · have := advance_size_lt h
      simp only [remaining, hjoined]
      omega

/-- Reading logical lines uses something up, as long as they do not end. -/
theorem advanceJoined_remaining_lt {headwordsOnly : Bool} {d : Dictionary}
    (h : usedLine (d.advanceJoined headwordsOnly).1 = true) :
    (d.advanceJoined headwordsOnly).2.remaining < d.remaining := by
  fun_induction advanceJoined headwordsOnly d with
  | case1 d failure d' hr =>
    -- A failure that used a line up is an undecodable physical line
    have hjoined := advance_joined headwordsOnly d
    have hlt : usedLine (d.advance headwordsOnly).1 = true → _ := advance_size_lt
    simp only [hr] at hjoined hlt
    have := hlt h
    simp only [remaining, hjoined]
    omega
  | case2 d d' hr =>
    -- The source has ended: only lines already joined can be given out
    have hjoined := advance_joined headwordsOnly d
    have hle := advance_size_le headwordsOnly d
    simp only [hr] at hjoined hle
    cases hsome : d'.joined with
    | none => simp [usedLine, hsome] at h
    | some line =>
      rw [hsome] at hjoined
      simp only [remaining, ← hjoined, size, Option.toList_none, Option.toList_some,
        List.length_nil, List.length_singleton] at hle ⊢
      omega
  | case3 d line d' hr joined hopen ih =>
    -- A line was joined to those before it; what it used up pays for it
    have hlt : usedLine (d.advance headwordsOnly).1 = true → _ := advance_size_lt
    simp only [hr] at hlt
    have := hlt rfl
    refine Nat.lt_of_lt_of_le (ih h) ?_
    simp only [remaining, size, Option.toList_some, List.length_singleton] at this ⊢
    omega
  | case4 d line d' hr joined hopen =>
    -- No comment is open any more: the joined line is given out
    have hlt : usedLine (d.advance headwordsOnly).1 = true → _ := advance_size_lt
    simp only [hr] at hlt
    have := hlt rfl
    simp only [remaining, size, Option.toList_none, List.length_nil] at this ⊢
    omega

/-- Reading a line uses something up. -/
theorem read_remaining_lt {mode : ReadMode} {d : Dictionary}
    (h : usedLine (d.read mode).1 = true) : (d.read mode).2.remaining < d.remaining := by
  unfold read at h ⊢
  split at h
  · rename_i hmode
    rw [if_pos hmode]
    unfold nextJoined at h ⊢
    split at h
    · simp [usedLine] at h
    · rename_i hended
      rw [if_neg hended]
      exact advanceJoined_remaining_lt h
  · rename_i hmode
    rw [if_neg hmode]
    exact next_remaining_lt h

/-! ## Runs -/

/-- The lines and errors up to the end, after those in `done` (last first). A failure other than an
undecodable line is the last item. -/
def runAfter (mode : ReadMode) (done : List (Except Failure Line)) (d : Dictionary) :
    List (Except Failure Line) :=
  match _h : d.read mode with
  | (.ok (some line), d') => runAfter mode (.ok line :: done) d'
  | (.ok none, _) => done.reverse
  | (.error (.undecodable n e), d') => runAfter mode (.error (.undecodable n e) :: done) d'
  | (.error failure, _) => (.error failure :: done).reverse
termination_by d.remaining
decreasing_by
  all_goals
    have : usedLine (d.read mode).1 = true := by rw [_h]; rfl
    have := read_remaining_lt this
    rwa [_h] at this

/-- The lines and errors up to the end. -/
def run (mode : ReadMode) (d : Dictionary) : List (Except Failure Line) :=
  runAfter mode [] d

end Lexicon.Dictionary
