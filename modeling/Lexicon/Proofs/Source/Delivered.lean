import Lexicon.Proofs.Source.Faults
import Lexicon.Proofs.Source.ResumedSearch

/-!
# Bytes that have been delivered

What a stream will deliver need not be known, nor whether it will fail: at any time it has delivered
some bytes, and a search for a line feed goes on in them. Of an uncompressed source these bytes are
the first ones of those in its reads, for a read takes bytes from those that are left, and a failed
one takes none.

## Key results

- `Source.bytes_read`, `Buffered.bytes_take`: what a read gives and what it leaves
- `Stream.Delivers`, `Source.Delivers`: bytes that may have been delivered
- `Source.Delivers.isPrefix`: those of an uncompressed source
- `Fetch.Follows`, `follows_fetch`: what a search makes of the bytes delivered to it
-/

namespace Lexicon

/-! ## Bytes that are left -/

/-- The bytes that a read has given. -/
def Delivery.bytes : Delivery → List UInt8
  | .ok chunk => chunk
  | .error _ => []

theorem Source.bytes_next (s : Source) : s.bytes = s.next.1.bytes ++ s.next.2.bytes := by
  fun_induction Source.next s with
  | case1 => rfl
  | case2 rest ih => exact ih
  | case3 fault rest => rfl
  | case4 chunk rest => rfl

theorem Source.bytes_read (limit : Nat) (s : Source) :
    s.bytes = (s.read limit).1.bytes ++ (s.read limit).2.bytes := by
  rw [s.bytes_next]
  unfold Source.read
  split
  · rename_i chunk rest hnext
    rw [hnext]
    split
    · rfl
    · -- The bytes cut off are a read again
      show chunk ++ bytes rest = chunk.take limit ++ (chunk.drop limit ++ bytes rest)
      rw [← List.append_assoc, List.take_append_drop]
  · rename_i fault rest hnext
    rw [hnext]

namespace Buffered

theorem bytes_fill (b : Buffered) : b.fill.2.bytes = b.bytes := by
  by_cases hempty : b.buffer = []
  · have hread := b.source.bytes_read capacity
    rw [fill_of_empty hempty, bytes, bytes, hempty]
    split
    · rename_i hsource
      rw [hsource] at hread
      exact hread.symm
    · rename_i hsource
      rw [hsource] at hread
      exact hread.symm
  · rw [fill_of_nonempty hempty]

theorem bytes_take (n : Nat) (b : Buffered) :
    b.bytes = (b.take n).1.bytes ++ (b.take n).2.bytes := by
  unfold take
  split
  · -- An empty buffer is passed by
    rename_i hpass
    have hempty : b.buffer = [] := List.isEmpty_iff.mp (Bool.and_eq_true_iff.mp hpass).1
    rw [bytes, hempty]
    exact b.source.bytes_read n
  · rw [← b.bytes_fill]
    split
    · rename_i buffer b' hfill
      obtain ⟨hbuffer, -⟩ := buffer_of_fill hfill
      rw [hfill, bytes, hbuffer]
      show buffer ++ b'.source.bytes = buffer.take n ++ (buffer.drop n ++ b'.source.bytes)
      rw [← List.append_assoc, List.take_append_drop]
    · rename_i fault b' hfill
      rw [hfill]
      rfl

end Buffered

/-! ## Bytes that have been delivered -/

/-- Some reads of the first stream, each into a buffer that holds however many bytes, have delivered
the bytes and have left the second stream. A read that fails delivers none. A read of no bytes is the
end, behind which nothing is left. -/
inductive Stream.Delivers : Stream → List UInt8 → Stream → Prop
  | nothing (s : Stream) : Delivers s [] s
  | chunk {s s' s'' : Stream} {held : Nat} {b : UInt8} {chunk more : List UInt8} :
    s.read held = (.ok (b :: chunk), s') → Delivers s' more s'' → Delivers s (b :: chunk ++ more) s''
  | failed {s s' s'' : Stream} {held : Nat} {fault : ReadFault} {more : List UInt8} :
    s.read held = (.error fault, s') → Delivers s' more s'' → Delivers s more s''
  | ended {s s' s'' : Stream} {held : Nat} {more : List UInt8} :
    s.read held = (.ok [], s') → Delivers .exhausted more s'' → Delivers s more s''

/-- Reads of the source have delivered the bytes, without its compression if it has one. -/
def Source.Delivers (source : Source) (bytes : List UInt8) (s : Stream) : Prop :=
  ∃ start, Stream.ofSource source = .ok start ∧ start.Delivers bytes s

namespace Stream.Delivers

variable {s s' s'' : Stream} {bytes more : List UInt8}

theorem trans (h : s.Delivers bytes s') (h' : s'.Delivers more s'') :
    s.Delivers (bytes ++ more) s'' := by
  induction h with
  | nothing => exact h'
  | chunk hread _ ih =>
    rw [List.append_assoc]
    exact .chunk hread (ih h')
  | failed hread _ ih => exact .failed hread (ih h')
  | ended hread _ ih => exact .ended hread (ih h')

/-- An uncompressed stream delivers the first of the bytes that are left. -/
theorem isPrefix {b : Buffered} (hplain : s.origin = .plain b) (h : s.Delivers bytes s') :
    bytes <+: b.bytes := by
  have hread : ∀ {s s' : Stream} {held : Nat} {delivery : Delivery} {b : Buffered},
      s.origin = .plain b → s.read held = (delivery, s') →
        ∃ b', s'.origin = .plain b' ∧ b.bytes = delivery.bytes ++ b'.bytes := by
    intro s s' held delivery b hplain hread
    rw [read_plain hplain] at hread
    obtain ⟨rfl, rfl⟩ := Prod.mk.inj hread
    exact ⟨_, rfl, b.bytes_take _⟩
  induction h generalizing b with
  | nothing => exact List.nil_prefix
  | chunk hchunk _ ih =>
    obtain ⟨b', hplain', hbytes⟩ := hread hplain hchunk
    rw [hbytes]
    exact (List.prefix_append_right_inj _).mpr (ih hplain')
  | failed hfailed _ ih =>
    obtain ⟨b', hplain', hbytes⟩ := hread hplain hfailed
    rw [hbytes]
    exact ih hplain'
  | ended _ _ ih =>
    -- Nothing comes after the end
    have hnil : _ <+: Buffered.bytes ⟨[], []⟩ := ih rfl
    rw [List.prefix_nil.mp hnil]
    exact List.nil_prefix

theorem of_exhausted (h : exhausted.Delivers bytes s) : bytes = [] := by
  have hpre : bytes <+: Buffered.bytes ⟨[], []⟩ := h.isPrefix rfl
  exact List.prefix_nil.mp hpre

end Stream.Delivers

/-- An uncompressed source delivers the first of the bytes in its reads. -/
theorem Source.Delivers.isPrefix {source : Source} {bytes : List UInt8} {s : Stream}
    (hplain : ¬ Gzip.MemberHeader.magic <+: source.bytes) (h : source.Delivers bytes s) :
    bytes <+: source.bytes := by
  obtain ⟨start, hstart, hdelivers⟩ := h
  unfold Stream.ofSource at hstart
  split at hstart
  · cases hstart
    rw [hdelivers.of_exhausted]
    exact List.nil_prefix
  · cases hstart
  · cases hstart
  · rename_i chunk rest
    have hmagic : ¬ Gzip.MemberHeader.magic.isPrefixOf chunk = true := by
      rw [List.isPrefixOf_iff_prefix]
      exact fun hmagic => hplain (hmagic.trans (List.prefix_append _ _))
    rw [if_neg hmagic] at hstart
    cases hstart
    have hpre := hdelivers.isPrefix rfl
    rwa [Buffered.bytes_fill] at hpre

/-! ## Searches -/

/-- What a search for a line feed in the bytes `unread` and in the stream after them can come to. -/
inductive Fetch.Follows (e : Encoding) (unread : List UInt8) (stream : Stream) : Fetch → Prop
  | line {chunk : List UInt8} {rest : Stream} {i : Nat} (refilled : Bool) :
    stream.Delivers chunk rest →
    e.indexOfUnit? Encoding.lineFeedUnit (unread ++ chunk) = some i →
    Follows e unread stream
      ⟨.terminated ((unread ++ chunk).take i), refilled, (unread ++ chunk).drop (i + e.unitWidth),
        rest⟩
  | failed {chunk : List UInt8} {rest : Stream} (fault : ReadFault) :
    stream.Delivers chunk rest →
    Follows e unread stream ⟨.failed fault, true, unread ++ chunk, rest⟩
  | ended (all : List UInt8) : Follows e unread stream (.atEnd all)

private theorem Fetch.Follows.of_chunk {e : Encoding} {unread chunk : List UInt8} {b : UInt8}
    {stream rest : Stream} {held : Nat} {f : Fetch} (hread : stream.read held = (.ok (b :: chunk), rest))
    (h : Follows e (unread ++ b :: chunk) rest f) : Follows e unread stream f := by
  cases h with
  | line refilled hmore hi =>
    rw [List.append_assoc] at hi ⊢
    exact .line refilled (.chunk hread hmore) hi
  | failed fault hmore =>
    rw [List.append_assoc]
    exact .failed fault (.chunk hread hmore)
  | ended all => exact .ended all

/-- A search goes on in the bytes that the stream delivers to it. -/
theorem follows_fetch (e : Encoding) (refilled : Bool) (unread : List UInt8) (stream : Stream) :
    (fetch e refilled 0 [] unread stream).Follows e unread stream := by
  rw [fetch_eq_fetchAnew]
  fun_induction fetchAnew e refilled unread stream with
  | case1 refilled unread stream i hi =>
    have hline : Fetch.Follows e unread stream ⟨.terminated ((unread ++ []).take i), refilled,
        (unread ++ []).drop (i + e.unitWidth), stream⟩ :=
      .line refilled (.nothing stream) (by rwa [List.append_nil])
    rwa [List.append_nil] at hline
  | case2 refilled unread stream hnone fault rest hr =>
    have hfailed : Fetch.Follows e unread stream ⟨.failed fault, true, unread ++ [], rest⟩ :=
      .failed fault (.failed hr (.nothing rest))
    rwa [List.append_nil] at hfailed
  | case3 refilled unread stream hnone rest hr => exact .ended unread
  | case4 refilled unread stream hnone b chunk rest hr ih => exact ih.of_chunk hr

end Lexicon
