import Lexicon.Source.Stream

/-!
# What a source delivers

A calm source never fails. However its bytes are spread over reads, and however often a read has to
be repeated, whoever reads it gets all its bytes in order and then the end. The same holds of a
buffer filled from it and of an uncompressed stream over it, as long as every read has room for at
least one byte.

## Key results

- `Source.Calm.read`, `Buffered.Calm.take`: a read with room delivers some of the bytes that are left
- `Stream.delivering_calm`: so does a read into a buffer, which never takes in more than it has room
  for
- `Stream.carries_ofSource`, `Stream.exists_carries`: an uncompressed stream carries the bytes of its
  source
-/

namespace Lexicon

/-- A read of at most `limit` of the bytes `all` gave `chunk` and left `left`; it gave nothing only
where nothing was left. -/
structure Portion (all : List UInt8) (limit : Nat) (chunk left : List UInt8) : Prop where
  split : all = chunk ++ left
  length_le : chunk.length ≤ limit
  eq_nil : chunk = [] → all = []

/-! ## Sources -/

/-- Whether a read does not fail and is not the end. -/
def Read.isCalm : Read → Bool
  | .bytes chunk => !chunk.isEmpty
  | .interrupted => true
  | .failed _ => false

def Read.chunk : Read → List UInt8
  | .bytes chunk => chunk
  | _ => []

namespace Source

/-- The bytes that a source still has. -/
def bytes (s : Source) : List UInt8 :=
  s.flatMap Read.chunk

/-- No read fails, and each delivers at least one byte or has to be repeated. -/
def Calm (s : Source) : Prop :=
  ∀ r ∈ s, r.isCalm = true

instance (s : Source) : Decidable s.Calm :=
  inferInstanceAs (Decidable (∀ r ∈ s, r.isCalm = true))

@[simp]
theorem bytes_cons (r : Read) (rest : Source) : bytes (r :: rest) = r.chunk ++ bytes rest := rfl

theorem Calm.of_cons {r : Read} {rest : Source} (h : Calm (r :: rest)) : Calm rest :=
  fun r' hr' => h r' (List.mem_cons_of_mem r hr')

/-- Reads are repeated until one delivers bytes, or nothing is left. -/
theorem Calm.next {s : Source} (h : s.Calm) :
    ∃ chunk rest, s.next = (.ok chunk, rest) ∧ Calm rest ∧ s.bytes = chunk ++ bytes rest ∧
      (chunk = [] → s.bytes = []) := by
  -- An interrupted read is repeated
  fun_induction Source.next s with
  | case1 => exact ⟨[], [], rfl, h, rfl, fun _ => rfl⟩
  | case2 rest ih => exact ih h.of_cons
  | case3 fault rest => exact absurd (h _ List.mem_cons_self) Bool.false_ne_true
  | case4 chunk rest =>
    refine ⟨chunk, rest, rfl, h.of_cons, rfl, fun hnil => ?_⟩
    -- A calm read of bytes is not empty
    have hcalm := h _ List.mem_cons_self
    rw [hnil] at hcalm
    cases hcalm

/-- A read with room delivers some of the bytes that are left. -/
theorem Calm.read {s : Source} (h : s.Calm) {limit : Nat} (hlimit : 0 < limit) :
    ∃ chunk rest, s.read limit = (.ok chunk, rest) ∧ Calm rest ∧
      Portion s.bytes limit chunk (bytes rest) := by
  obtain ⟨chunk, rest, hnext, hrest, hsplit, hnil⟩ := h.next
  unfold Source.read
  rw [hnext]
  simp only
  split
  · rename_i hdrop
    have hle : chunk.length ≤ limit := List.drop_eq_nil_iff.mp hdrop
    exact ⟨chunk, rest, rfl, hrest, hsplit, hle, hnil⟩
  · rename_i more hmore
    -- What is cut off is a read of its own, and not empty
    have hlt : limit < chunk.length :=
      Nat.lt_of_not_le fun hle => hmore (List.drop_eq_nil_of_le hle)
    refine ⟨chunk.take limit, .bytes (chunk.drop limit) :: rest, rfl, ?_, ?_, ?_, ?_⟩
    · intro r hr
      cases hr with
      | head => simp only [Read.isCalm, Bool.not_eq_true', List.isEmpty_eq_false_iff]; exact hmore
      | tail _ hr => exact hrest r hr
    · rw [bytes_cons, Read.chunk, ← List.append_assoc, List.take_append_drop, hsplit]
    · exact List.length_take_le _ _
    · intro htake
      have hlen := congrArg List.length htake
      simp only [List.length_take, List.length_nil] at hlen
      omega

end Source

/-! ## Buffered sources -/

namespace Buffered

/-- The bytes in the buffer and those still in the source. -/
def bytes (b : Buffered) : List UInt8 :=
  b.buffer ++ b.source.bytes

/-- The source of the buffer is calm. -/
def Calm (b : Buffered) : Prop :=
  b.source.Calm

/-- Filling the buffer moves bytes into it, and leaves it empty only at the end. -/
theorem Calm.fill {b : Buffered} (h : b.Calm) :
    ∃ b', b.fill = (.ok b'.buffer, b') ∧ b'.Calm ∧ b'.bytes = b.bytes ∧
      (b'.buffer = [] → b.bytes = []) := by
  unfold Buffered.fill
  split
  · rename_i hempty
    have hbuffer : b.buffer = [] := List.isEmpty_iff.mp hempty
    obtain ⟨chunk, rest, hread, hrest, hportion⟩ := Source.Calm.read h (show 0 < capacity by decide)
    rw [hread]
    refine ⟨⟨chunk, rest⟩, rfl, hrest, ?_, fun hnil => ?_⟩
    · rw [bytes, bytes, hbuffer, hportion.split]; rfl
    · rw [bytes, hbuffer, hportion.eq_nil hnil]; rfl
  · rename_i hempty
    exact ⟨b, rfl, h, rfl, fun hnil => absurd (List.isEmpty_iff.mpr hnil) hempty⟩

theorem Calm.take {b : Buffered} (h : b.Calm) {n : Nat} (hn : 0 < n) :
    ∃ chunk b', b.take n = (.ok chunk, b') ∧ b'.Calm ∧ Portion b.bytes n chunk b'.bytes := by
  unfold Buffered.take
  split
  · -- An empty buffer is passed by
    rename_i hempty
    have hbuffer : b.buffer = [] := by
      simp only [Bool.and_eq_true] at hempty
      exact List.isEmpty_iff.mp hempty.1
    obtain ⟨chunk, rest, hread, hrest, hportion⟩ := Source.Calm.read h hn
    rw [hread]
    refine ⟨chunk, ⟨[], rest⟩, rfl, hrest, ?_⟩
    rw [bytes, bytes, hbuffer]
    exact hportion
  · obtain ⟨b', hfill, hcalm, hbytes, hnil⟩ := h.fill
    rw [hfill]
    refine ⟨b'.buffer.take n, { b' with buffer := b'.buffer.drop n }, rfl, hcalm, ?_, ?_, ?_⟩
    · rw [← hbytes, bytes, bytes, ← List.append_assoc, List.take_append_drop]
    · exact List.length_take_le _ _
    · intro htake
      have hlen := congrArg List.length htake
      simp only [List.length_take, List.length_nil] at hlen
      exact hnil (List.length_eq_zero_iff.mp (by omega))

end Buffered

/-! ## Streams -/

namespace Stream

/-- In the states in `P`, each with the bytes that are left, a read into a buffer that holds `held`
bytes delivers some of the bytes, for which the buffer has room, and nothing only where nothing is
left. The state is in `P` again. -/
def Delivering (P : Stream → List UInt8 → Prop) : Prop :=
  ∀ {s : Stream} {bytes : List UInt8}, P s bytes → ∀ {held : Nat}, held ≤ s.capacity →
    ∃ chunk s' left, s.read held = (.ok chunk, s') ∧ P s' left ∧ bytes = chunk ++ left ∧
      held + chunk.length ≤ s'.capacity ∧ (chunk = [] → bytes = [])

/-- The stream still delivers `bytes` without failing, however much room there is in each read. They
are the bytes behind the compression, if there is one. -/
def Carries (s : Stream) (bytes : List UInt8) : Prop :=
  ∃ P, Delivering P ∧ P s bytes

theorem Carries.read {s : Stream} {bytes : List UInt8} (h : s.Carries bytes) {held : Nat}
    (hheld : held ≤ s.capacity) :
    ∃ chunk s' left, s.read held = (.ok chunk, s') ∧ s'.Carries left ∧ bytes = chunk ++ left ∧
      held + chunk.length ≤ s'.capacity ∧ (chunk = [] → bytes = []) := by
  obtain ⟨P, hdelivers, hs⟩ := h
  obtain ⟨chunk, s', left, hread, hs', hrest⟩ := hdelivers hs hheld
  exact ⟨chunk, s', left, hread, ⟨P, hdelivers, hs'⟩, hrest⟩

/-- The stream is uncompressed, and has a calm source with the bytes left. -/
def Calm (s : Stream) (bytes : List UInt8) : Prop :=
  ∃ b, s.origin = .plain b ∧ b.Calm ∧ b.bytes = bytes

/-- The buffer grows when it is full, so there is always room for one byte. -/
theorem delivering_calm : Delivering Calm := by
  rintro s _ ⟨b, horigin, hcalm, rfl⟩ held hheld
  unfold Stream.read
  extract_lets capacity
  have hroom : held < capacity := by
    simp only [capacity, bufferStep]
    split <;> omega
  obtain ⟨chunk, b', htake, hcalm', hportion⟩ := hcalm.take (Nat.sub_pos_of_lt hroom)
  rw [horigin]
  simp only [htake]
  refine ⟨chunk, ⟨.plain b', capacity⟩, b'.bytes, rfl, ⟨b', rfl, hcalm', rfl⟩, hportion.split, ?_,
    hportion.eq_nil⟩
  have hlen := hportion.length_le
  simp only
  omega

theorem Calm.carries {s : Stream} {bytes : List UInt8} (h : s.Calm bytes) : s.Carries bytes :=
  ⟨Calm, delivering_calm, h⟩

theorem carries_exhausted : exhausted.Carries [] := by
  refine Calm.carries ⟨⟨[], []⟩, rfl, ?_, rfl⟩
  intro r hr
  cases hr

/-- An uncompressed stream carries the bytes of its source. -/
theorem carries_ofSource {source : Source} {s : Stream} (hcalm : source.Calm)
    (hplain : ¬ Gzip.MemberHeader.magic <+: source.bytes) (h : ofSource source = .ok s) :
    s.Carries source.bytes ∧ s.capacity = bufferStep := by
  unfold ofSource at h
  split at h
  · cases h
    exact ⟨carries_exhausted, rfl⟩
  · cases h
  · cases h
  · rename_i chunk rest
    -- The first read does not start a compressed member, for the bytes of the source do not
    have hmagic : ¬ Gzip.MemberHeader.magic.isPrefixOf chunk = true := by
      rw [List.isPrefixOf_iff_prefix]
      exact fun hstart => hplain (hstart.trans (List.prefix_append _ _))
    rw [if_neg hmagic] at h
    cases h
    obtain ⟨b', hfill, hcalm', hbytes, -⟩ :=
      Buffered.Calm.fill (show Buffered.Calm ⟨[], .bytes chunk :: rest⟩ from hcalm)
    refine ⟨Calm.carries ⟨b', ?_, hcalm', hbytes⟩, rfl⟩
    rw [hfill]

/-- Only an interruption at the very start keeps a calm source from being read. -/
theorem exists_carries {source : Source} (hcalm : source.Calm)
    (hplain : ¬ Gzip.MemberHeader.magic <+: source.bytes)
    (hstart : source.head? ≠ some .interrupted) :
    ∃ s, ofSource source = .ok s ∧ s.Carries source.bytes := by
  have hok : ∃ s, ofSource source = .ok s := by
    unfold ofSource
    split
    · exact ⟨_, rfl⟩
    · exact absurd rfl hstart
    · exact absurd (hcalm _ List.mem_cons_self) Bool.false_ne_true
    · rename_i chunk rest
      have hmagic : ¬ Gzip.MemberHeader.magic.isPrefixOf chunk = true := by
        rw [List.isPrefixOf_iff_prefix]
        exact fun hmagic => hplain (hmagic.trans (List.prefix_append _ _))
      rw [if_neg hmagic]
      exact ⟨_, rfl⟩
  obtain ⟨s, hs⟩ := hok
  exact ⟨s, hs, (carries_ofSource hcalm hplain hs).1⟩

end Stream

end Lexicon
