import Lexicon.Proofs.Source.FaultyLines

/-!
# Resumed searches

The search for a code unit finds the first place, among those where a unit starts, at which the unit
has the value looked for; bytes at the end that do not fill a unit are no place. So a search that is
resumed behind whole units finds what a search of everything finds, and a line stream may go on with
a search after each read, from the last unit that was complete: it finds the line feed that it would
find by searching all unused bytes anew.

## Key results

- `Encoding.firstUnitAt_iff`: the first place of a unit, by the unit at the start
- `Encoding.indexOfUnit?_eq_some_iff`: what the search finds
- `fetch_eq_fetchAnew`: searching on after each read, or anew
- `search_resumes`: all of it
-/

namespace Lexicon

namespace Encoding

/-! ## The place that is found -/

/-- A whole unit with the value `target` starts at the index `i`, and at no earlier one where a unit
starts. -/
structure FirstUnitAt (e : Encoding) (target : Nat) (bytes : List UInt8) (i : Nat) : Prop where
  aligned : i % e.unitWidth = 0
  whole : i + e.unitWidth ≤ bytes.length
  unit : e.unitFrom? bytes i = some target
  first : ∀ j < i, j % e.unitWidth = 0 → e.unitFrom? bytes j ≠ some target

variable {e : Encoding} {target i : Nat} {bytes : List UInt8}

theorem unitFrom?_add (e : Encoding) (bytes : List UInt8) (n i : Nat) :
    e.unitFrom? bytes (i + n) = e.unitFrom? (bytes.drop n) i := by
  rw [unitFrom?, unitFrom?, List.drop_drop, Nat.add_comm]

/-- A place of a unit is the start, or a place behind the first unit. -/
theorem eq_zero_or_of_aligned (h : i % e.unitWidth = 0) :
    i = 0 ∨ ∃ j, i = j + e.unitWidth ∧ j % e.unitWidth = 0 := by
  rcases Nat.lt_or_ge i e.unitWidth with hlt | hle
  · exact .inl (by rwa [Nat.mod_eq_of_lt hlt] at h)
  · exact .inr ⟨i - e.unitWidth, by omega, by rwa [← Nat.mod_eq_sub_mod hle]⟩

/-- The first place of a unit is the start if the unit stands there, else the first place behind the
first unit. -/
theorem firstUnitAt_iff (h : e.unitWidth ≤ bytes.length) :
    e.FirstUnitAt target bytes i ↔
      if e.firstUnit? bytes = some target then i = 0
      else ∃ j, i = j + e.unitWidth ∧ e.FirstUnitAt target (bytes.drop e.unitWidth) j := by
  have hpos := e.unitWidth_pos
  split
  · rename_i hstart
    constructor
    · intro hi
      rcases Nat.eq_zero_or_pos i with hzero | hlater
      · exact hzero
      · exact absurd hstart (hi.first 0 hlater (Nat.zero_mod _))
    · rintro rfl
      exact ⟨Nat.zero_mod _, by omega, hstart, nofun⟩
  · rename_i hstart
    -- All other places are behind the first unit, and are counted from there
    constructor
    · rintro ⟨haligned, hwhole, hunit, hfirst⟩
      rcases eq_zero_or_of_aligned haligned with rfl | ⟨j, rfl, hj⟩
      · exact absurd hunit hstart
      · refine ⟨j, rfl, hj, by rw [List.length_drop]; omega, by rwa [← unitFrom?_add], ?_⟩
        intro k hk hkaligned
        rw [← unitFrom?_add]
        exact hfirst _ (by omega) (by rwa [Nat.add_mod_right])
    · rintro ⟨j, rfl, haligned, hwhole, hunit, hfirst⟩
      rw [List.length_drop] at hwhole
      refine ⟨by rwa [Nat.add_mod_right], by omega, by rwa [unitFrom?_add], ?_⟩
      intro k hk hkaligned
      rcases eq_zero_or_of_aligned hkaligned with rfl | ⟨k, rfl, hbehind⟩
      · exact hstart
      · rw [unitFrom?_add]
        exact hfirst k (by omega) hbehind

/-- The search finds the first place of a unit, if there is one. -/
theorem indexOfUnit?_eq_some_iff :
    e.indexOfUnit? target bytes = some i ↔ e.FirstUnitAt target bytes i := by
  induction bytes using unitInduction e generalizing i with
  | short bytes hlt =>
    rw [indexOfUnit?_eq_none_of_lt hlt]
    constructor
    · nofun
    · intro h
      have hwhole := h.whole
      omega
  | unit bytes hle ih =>
    rw [indexOfUnit?_eq hle, firstUnitAt_iff hle]
    split
    · exact Option.some_inj.trans eq_comm
    · rw [Option.map_eq_some_iff]
      constructor
      · rintro ⟨j, hj, rfl⟩
        exact ⟨j, rfl, ih.mp hj⟩
      · rintro ⟨j, rfl, hj⟩
        exact ⟨j, ih.mpr hj, rfl⟩

end Encoding

/-! ## Searching on -/

/-- Searches for a line feed in the bytes `unread` and in the stream after them. After each read all
unused bytes are searched from their start. -/
def fetchAnew (e : Encoding) (refilled : Bool) (unread : List UInt8) (stream : Stream) : Fetch :=
  match e.indexOfUnit? Encoding.lineFeedUnit unread with
  | some i => ⟨.terminated (unread.take i), refilled, unread.drop (i + e.unitWidth), stream⟩
  | none =>
    match _h : stream.read unread.length with
    | (.error fault, stream) => ⟨.failed fault, true, unread, stream⟩
    | (.ok [], _) => .atEnd unread
    | (.ok (b :: chunk), rest) => fetchAnew e true (unread ++ b :: chunk) rest
termination_by stream.size
decreasing_by
  have := Stream.size_of_read _h
  simp only [Delivery.length, List.length_cons] at this
  omega

/-- Whatever the stream, and whether or not it fails: searching on after each read from the last
whole unit finds what searching anew finds. -/
theorem fetch_eq_fetchAnew (e : Encoding) (refilled : Bool) (unread : List UInt8)
    (stream : Stream) :
    fetch e refilled 0 [] unread stream = fetchAnew e refilled unread stream := by
  fun_induction fetchAnew e refilled unread stream with
  | case1 refilled unread stream i hi => exact fetch_of_found hi
  | case2 refilled unread stream hnone fault rest hr =>
    rw [fetch_of_not_found hnone, Nat.zero_add, hr]
    rfl
  | case3 refilled unread stream hnone rest hr =>
    rw [fetch_of_not_found hnone, Nat.zero_add, hr]
    rfl
  | case4 refilled unread stream hnone b chunk rest hr ih =>
    -- The whole units have been searched; a search that starts anew goes through them once more
    have hsearched := (Searched.nil e).grow hnone
    have hlength := Searched.length_grow e [] unread
    rw [List.length_nil] at hlength
    rw [fetch_of_not_found hnone, Nat.zero_add, hr]
    simp only
    rw [← hlength, fetch_restart hsearched, List.reverseAux_eq, List.append_nil,
      List.reverse_reverse, ← List.append_assoc, List.take_append_drop]
    exact ih

/-- A search behind whole units goes on where the search in them ended. What is found is the first
place of the unit. So a line stream finds the same line feed whether it searches on after each read or
searches all unused bytes anew. -/
theorem search_resumes (e : Encoding) :
    (∀ (target : Nat) (a b : List UInt8), a.length % e.unitWidth = 0 →
      e.indexOfUnit? target (a ++ b) =
        (e.indexOfUnit? target a).or ((e.indexOfUnit? target b).map (· + a.length))) ∧
    (∀ (target : Nat) (bytes : List UInt8) (i : Nat),
      e.indexOfUnit? target bytes = some i ↔ e.FirstUnitAt target bytes i) ∧
    ∀ s : LineStream, s.readLine e = s.receive e (fetchAnew e false s.buffered s.stream) := by
  refine ⟨fun target a b ha => Encoding.indexOfUnit?_append ha target b,
    fun _ _ _ => Encoding.indexOfUnit?_eq_some_iff, fun s => ?_⟩
  rw [LineStream.readLine, fetch_eq_fetchAnew]

/-- Across the two parts, and inside the second one, stand bytes like a line feed that is not aligned
to a unit. -/
theorem search_resumes_misaligned :
    ([0x61, 0x0A] : List UInt8).length % (Encoding.utf16 .little).unitWidth = 0 ∧
      (Encoding.utf16 .little).indexOfUnit? Encoding.lineFeedUnit
        ([0x61, 0x0A] ++ [0x00, 0x0A, 0x00, 0x0A, 0x0A, 0x00, 0x0A]) = some 6 := by
  have hwhole : ([0x61, 0x0A] : List UInt8).length % (Encoding.utf16 .little).unitWidth = 0 := by
    decide
  refine ⟨hwhole, ?_⟩
  rw [(search_resumes (.utf16 .little)).1 _ _ _ hwhole]
  decide

end Lexicon
