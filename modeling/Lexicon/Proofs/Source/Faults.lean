import Lexicon.Proofs.Encoding.UnitSearch
import Lexicon.Source.Lines

/-!
# Failed reads

A failed read loses nothing: the next read goes on where it stopped, and gives what it would have
given. So an uncompressed source with faults among its reads delivers the same bytes as the source
without them, to whoever reads again after each fault.

`Resumes` says this of one kind of read; it is shown of the reads of a source, of a buffer and of a
stream in turn, each from the one before it.

## Key results

- `Source.resumes_next`, `Source.resumes_read`: reads of a source
- `Buffered.resumes_fill`, `Buffered.resumes_take`: reads of a buffer
- `Stream.resumes_read`: reads of an uncompressed stream into a buffer
-/

namespace Lexicon

/-- A read does without the faults what it does with them, or, if it fails, what the next read does.
Every failure uses a fault up. -/
structure Resumes {α ρ : Type} (failed : ρ → Bool) (withoutFaults : α → α) (faults : α → Nat)
    (read : α → ρ × α) (s : α) : Prop where
  pass : ∀ {r s'}, read s = (r, s') → failed r = false →
    read (withoutFaults s) = (r, withoutFaults s') ∧ faults s' ≤ faults s
  again : ∀ {r s'}, read s = (r, s') → failed r = true →
    read (withoutFaults s) = read (withoutFaults s') ∧ faults s' < faults s

namespace Resumes

variable {α ρ : Type} {failed : ρ → Bool} {withoutFaults : α → α} {faults : α → Nat}
  {read : α → ρ × α} {s t : α} {r : ρ}

theorem of_pass (h : read s = (r, t)) (hr : failed r = false)
    (hsame : read (withoutFaults s) = (r, withoutFaults t)) (hle : faults t ≤ faults s) :
    Resumes failed withoutFaults faults read s where
  pass := by
    intro _ _ h' _
    rw [h] at h'
    cases h'
    exact ⟨hsame, hle⟩
  again := by
    intro _ _ h' hr'
    rw [h] at h'
    cases h'
    rw [hr] at hr'
    cases hr'

theorem of_again (h : read s = (r, t)) (hr : failed r = true)
    (hsame : read (withoutFaults s) = read (withoutFaults t)) (hlt : faults t < faults s) :
    Resumes failed withoutFaults faults read s where
  pass := by
    intro _ _ h' hr'
    rw [h] at h'
    cases h'
    rw [hr] at hr'
    cases hr'
  again := by
    intro _ _ h' _
    rw [h] at h'
    cases h'
    exact ⟨hsame, hlt⟩

/-- Reads that do the same resume alike. -/
theorem of_eq (ht : Resumes failed withoutFaults faults read t) (h : read s = read t)
    (hsame : read (withoutFaults s) = read (withoutFaults t)) (hle : faults t ≤ faults s) :
    Resumes failed withoutFaults faults read s where
  pass := by
    intro _ _ hread hr
    rw [h] at hread
    obtain ⟨hpass, hle'⟩ := ht.pass hread hr
    exact ⟨hsame.trans hpass, Nat.le_trans hle' hle⟩
  again := by
    intro _ _ hread hr
    rw [h] at hread
    obtain ⟨hagain, hlt⟩ := ht.again hread hr
    exact ⟨hsame.trans hagain, Nat.lt_of_lt_of_le hlt hle⟩

end Resumes

/-- Whether reading the source has failed. -/
def readFailed {β : Type} : Except ReadFault β → Bool
  | .ok _ => false
  | .error _ => true

/-! ## Sources -/

def Read.isFault : Read → Bool
  | .failed _ => true
  | _ => false

namespace Source

/-- The source with its failing reads left out. -/
def withoutFaults (s : Source) : Source :=
  s.filter (!·.isFault)

/-- How many reads fail. -/
def faults (s : Source) : Nat :=
  s.countP Read.isFault

theorem resumes_next (s : Source) : Resumes readFailed withoutFaults faults next s := by
  fun_induction next s with
  | case1 => exact .of_pass rfl rfl rfl (Nat.le_refl _)
  | case2 rest ih =>
    -- An interrupted read is repeated, with faults behind it or not
    have hcount : faults (.interrupted :: rest) = faults rest :=
      List.countP_cons_of_neg Bool.false_ne_true
    exact ih.of_eq rfl rfl (by omega)
  | case3 fault rest =>
    have hcount : faults (.failed fault :: rest) = faults rest + 1 := List.countP_cons_of_pos rfl
    exact .of_again rfl rfl rfl (by omega)
  | case4 chunk rest =>
    have hcount : faults (.bytes chunk :: rest) = faults rest :=
      List.countP_cons_of_neg Bool.false_ne_true
    exact .of_pass rfl rfl rfl (by omega)

theorem resumes_read (limit : Nat) (s : Source) :
    Resumes readFailed withoutFaults faults (read limit) s := by
  rcases hs : s.next with ⟨fault | chunk, rest⟩
  · obtain ⟨hsame, hlt⟩ := s.resumes_next.again hs rfl
    refine .of_again (t := rest) (r := .error fault) ?_ rfl ?_ hlt
    · rw [read, hs]
    · rw [read, read, hsame]
  · obtain ⟨hsame, hle⟩ := s.resumes_next.pass hs rfl
    cases hmore : chunk.drop limit with
    | nil =>
      refine .of_pass (t := rest) (r := .ok chunk) ?_ rfl ?_ hle
      · simp only [read, hs, hmore]
      · simp only [read, hsame, hmore]
    | cons b more =>
      -- What is cut off becomes a read of its own, which is no fault
      have hcount : faults (.bytes (b :: more) :: rest) = faults rest :=
        List.countP_cons_of_neg Bool.false_ne_true
      refine .of_pass (t := .bytes (b :: more) :: rest) (r := .ok (chunk.take limit)) ?_ rfl ?_
        (by omega)
      · simp only [read, hs, hmore]
      · simp only [read, hsame, hmore]
        rfl

/-- A read of bytes does not fail. -/
theorem readFailed_read_bytes (limit : Nat) (chunk : List UInt8) (rest : Source) :
    readFailed (read limit (.bytes chunk :: rest)).1 = false := by
  unfold read next
  simp only
  split <;> rfl

theorem length_le_of_read {limit : Nat} {s rest : Source} {chunk : List UInt8}
    (h : s.read limit = (.ok chunk, rest)) : chunk.length ≤ limit := by
  unfold read at h
  split at h
  · split at h
    · rename_i hdrop
      cases h
      exact List.drop_eq_nil_iff.mp hdrop
    · cases h
      exact List.length_take_le _ _
  · cases h

end Source

/-! ## Buffered sources -/

namespace Buffered

def withoutFaults (b : Buffered) : Buffered :=
  { b with source := b.source.withoutFaults }

def faults (b : Buffered) : Nat :=
  b.source.faults

theorem fill_of_empty {b : Buffered} (h : b.buffer = []) :
    b.fill =
      match b.source.read capacity with
      | (.ok chunk, source) => (.ok chunk, ⟨chunk, source⟩)
      | (.error fault, source) => (.error fault, ⟨[], source⟩) := by
  rw [fill, h]
  rfl

theorem fill_of_nonempty {b : Buffered} (h : b.buffer ≠ []) : b.fill = (.ok b.buffer, b) :=
  if_neg fun hempty => h (List.isEmpty_iff.mp hempty)

theorem readFailed_fill {b : Buffered} (h : b.buffer = []) :
    readFailed b.fill.1 = readFailed (b.source.read capacity).1 := by
  rw [fill_of_empty h]
  split
  · rename_i hread
    rw [hread]
  · rename_i hread
    rw [hread]

theorem resumes_fill (b : Buffered) : Resumes readFailed withoutFaults faults fill b := by
  by_cases hempty : b.buffer = []
  · have hempty' : b.withoutFaults.buffer = [] := hempty
    rcases hread : b.source.read capacity with ⟨fault | chunk, source⟩
    · obtain ⟨hsame, hlt⟩ := (b.source.resumes_read capacity).again hread rfl
      refine .of_again (t := ⟨[], source⟩) (r := .error fault) ?_ rfl ?_ hlt
      · rw [fill_of_empty hempty, hread]
      · rw [fill_of_empty hempty', fill_of_empty rfl, withoutFaults, hsame]
        rfl
    · obtain ⟨hsame, hle⟩ := (b.source.resumes_read capacity).pass hread rfl
      refine .of_pass (t := ⟨chunk, source⟩) (r := .ok chunk) ?_ rfl ?_ hle
      · rw [fill_of_empty hempty, hread]
      · rw [fill_of_empty hempty', withoutFaults, hsame]
        rfl
  · -- What is in the buffer is given without a read
    exact .of_pass (fill_of_nonempty hempty) rfl (fill_of_nonempty (b := b.withoutFaults) hempty)
      (Nat.le_refl _)

/-- Only an empty buffer is filled from the source. -/
theorem buffer_of_fill_error {b b' : Buffered} {fault : ReadFault} (h : b.fill = (.error fault, b')) :
    b.buffer = [] ∧ b'.buffer = [] := by
  by_cases hempty : b.buffer = []
  · rw [fill_of_empty hempty] at h
    split at h
    · cases h
    · cases h
      exact ⟨hempty, rfl⟩
  · rw [fill_of_nonempty hempty] at h
    cases h

/-- Whether a read of at most `n` bytes goes past the buffer. -/
private def passes (n : Nat) (b : Buffered) : Prop :=
  b.buffer = [] ∧ capacity ≤ n

private theorem take_of_passes {n : Nat} {b : Buffered} (h : passes n b) :
    b.take n = ((b.source.read n).1, ⟨[], (b.source.read n).2⟩) :=
  if_pos (by simp [h.1, h.2])

private theorem take_of_not_passes {n : Nat} {b : Buffered} (h : ¬ passes n b) :
    b.take n =
      match b.fill with
      | (.ok buffer, b) => (.ok (buffer.take n), { b with buffer := buffer.drop n })
      | (.error fault, b) => (.error fault, b) :=
  if_neg (by simpa [passes] using h)

theorem resumes_take (n : Nat) (b : Buffered) : Resumes readFailed withoutFaults faults (take n) b := by
  by_cases hpass : passes n b
  · have hpass' : passes n b.withoutFaults := hpass
    rcases hread : b.source.read n with ⟨fault | chunk, source⟩
    · obtain ⟨hsame, hlt⟩ := (b.source.resumes_read n).again hread rfl
      have hpass'' : passes n (withoutFaults ⟨[], source⟩) := ⟨rfl, hpass.2⟩
      refine .of_again (t := ⟨[], source⟩) (r := .error fault) ?_ rfl ?_ hlt
      · rw [take_of_passes hpass, hread]
      · rw [take_of_passes hpass', take_of_passes hpass'', withoutFaults, hsame]
        rfl
    · obtain ⟨hsame, hle⟩ := (b.source.resumes_read n).pass hread rfl
      refine .of_pass (t := ⟨[], source⟩) (r := .ok chunk) ?_ rfl ?_ hle
      · rw [take_of_passes hpass, hread]
      · rw [take_of_passes hpass', withoutFaults, hsame]
        rfl
  · have hpass' : ¬ passes n b.withoutFaults := hpass
    rcases hfill : b.fill with ⟨fault | bytes, b'⟩
    · obtain ⟨hsame, hlt⟩ := b.resumes_fill.again hfill rfl
      -- The buffer was empty and is still so, so the next read goes the same way
      obtain ⟨hempty, hempty'⟩ := buffer_of_fill_error hfill
      have hpass'' : ¬ passes n b'.withoutFaults := fun h => hpass ⟨hempty, h.2⟩
      refine .of_again (t := b') (r := .error fault) ?_ rfl ?_ hlt
      · rw [take_of_not_passes hpass, hfill]
      · rw [take_of_not_passes hpass', take_of_not_passes hpass'', hsame]
    · obtain ⟨hsame, hle⟩ := b.resumes_fill.pass hfill rfl
      refine .of_pass (t := { b' with buffer := bytes.drop n }) (r := .ok (bytes.take n)) ?_ rfl ?_ hle
      · rw [take_of_not_passes hpass, hfill]
      · rw [take_of_not_passes hpass', hsame]
        rfl

theorem length_le_of_take {n : Nat} {b b' : Buffered} {chunk : List UInt8}
    (h : b.take n = (.ok chunk, b')) : chunk.length ≤ n := by
  by_cases hpass : passes n b
  · rw [take_of_passes hpass] at h
    have hchunk : (b.source.read n).1 = .ok chunk := congrArg Prod.fst h
    exact Source.length_le_of_read (Prod.ext hchunk rfl)
  · rw [take_of_not_passes hpass] at h
    split at h
    · cases h
      exact List.length_take_le _ _
    · cases h

end Buffered

/-! ## Streams -/

namespace Stream

/-- The stream is uncompressed. -/
def IsPlain (s : Stream) : Prop :=
  ∃ b, s.origin = .plain b

/-- The same stream, without the faults of an uncompressed source. -/
def withoutFaults (s : Stream) : Stream :=
  match s.origin with
  | .plain b => { s with origin := .plain b.withoutFaults }
  | .packed _ => s

def faults (s : Stream) : Nat :=
  match s.origin with
  | .plain b => b.faults
  | .packed _ => 0

/-- The size of the buffer when there is room for more than the `held` bytes in it. -/
def roomFor (held : Nat) (s : Stream) : Nat :=
  if s.capacity ≤ held then s.capacity + bufferStep else s.capacity

theorem read_plain {held : Nat} {s : Stream} {b : Buffered} (h : s.origin = .plain b) :
    s.read held =
      ((b.take (s.roomFor held - held)).1,
        ⟨.plain (b.take (s.roomFor held - held)).2, s.roomFor held⟩) := by
  rw [read, h]
  rfl

theorem lt_roomFor {held : Nat} {s : Stream} (h : held ≤ s.capacity) : held < s.roomFor held := by
  unfold roomFor bufferStep
  split <;> omega

/-- A buffer that has been read into is not enlarged again before it is full. -/
theorem roomFor_eq {held : Nat} {s s' : Stream} (h : held ≤ s.capacity)
    (hcapacity : s'.capacity = s.roomFor held) : s'.roomFor held = s.roomFor held := by
  have hlt := lt_roomFor h
  rw [roomFor, hcapacity, if_neg (by omega)]

theorem resumes_read {held : Nat} {s : Stream} (hplain : s.IsPlain) (hheld : held ≤ s.capacity) :
    Resumes readFailed withoutFaults faults (read held) s := by
  obtain ⟨b, hb⟩ := hplain
  have hfaults : s.faults = b.faults := by rw [faults, hb]
  have hwithout : s.withoutFaults = ⟨.plain b.withoutFaults, s.capacity⟩ := by
    rw [withoutFaults, hb]
  have hread := @read_plain held s b hb
  have hread' := @read_plain held s.withoutFaults b.withoutFaults (congrArg origin hwithout)
  have hroom' : s.withoutFaults.roomFor held = s.roomFor held := by rw [hwithout]; rfl
  rw [hroom'] at hread'
  rcases htake : b.take (s.roomFor held - held) with ⟨fault | chunk, b'⟩
  · obtain ⟨hsame, hlt⟩ := (b.resumes_take _).again htake rfl
    rw [htake] at hread
    refine .of_again hread rfl ?_ (by rw [hfaults]; exact hlt)
    -- The buffer has its new size already when it is read into again
    have hroom : roomFor held (withoutFaults ⟨.plain b', s.roomFor held⟩) = s.roomFor held :=
      roomFor_eq hheld rfl
    rw [hread', read_plain (b := b'.withoutFaults) rfl, hroom, hsame]
  · obtain ⟨hsame, hle⟩ := (b.resumes_take _).pass htake rfl
    rw [htake] at hread
    refine .of_pass hread rfl ?_ (by rw [hfaults]; exact hle)
    rw [hread', hsame]
    rfl

/-- A stream remains uncompressed, and has room for what is read from it. -/
theorem room_of_read {held : Nat} {s s' : Stream} {delivery : Delivery} (hplain : s.IsPlain)
    (hheld : held ≤ s.capacity) (h : s.read held = (delivery, s')) :
    s'.IsPlain ∧ held + delivery.length ≤ s'.capacity := by
  obtain ⟨b, hb⟩ := hplain
  have hlt := lt_roomFor hheld
  rw [read_plain hb] at h
  obtain ⟨rfl, rfl⟩ := Prod.mk.inj h
  refine ⟨⟨_, rfl⟩, ?_⟩
  show held + Delivery.length (b.take _).1 ≤ s.roomFor held
  rcases htake : b.take (s.roomFor held - held) with ⟨fault | chunk, b'⟩
  · exact Nat.le_of_lt hlt
  · have hle := Buffered.length_le_of_take htake
    show held + chunk.length ≤ _
    omega

end Stream

end Lexicon
