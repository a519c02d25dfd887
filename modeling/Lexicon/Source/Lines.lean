import Lexicon.Encoding.Unit
import Lexicon.Source.Stream

/-!
# Physical lines

A line stream cuts the bytes of a stream into lines. A line ends at a line feed, which must be
aligned to the unit width; a carriage return before it belongs to the terminator. Bytes after the
last line feed are a line of their own. How the bytes are spread over reads makes no difference,
except that a failed read comes up when the bytes before it are used up, and loses none of them.

`readLine_size_lt` says that reading a line uses something up, so every loop over lines ends.
-/

namespace Lexicon

/-! ## Searching the stream -/

/-- What stands before the next line feed. -/
inductive Found where
  /-- The bytes before a line feed. -/
  | terminated (bytes : List UInt8)
  /-- The bytes at the end of the stream; never none. -/
  | unterminated (bytes : List UInt8)
  /-- Nothing is left. -/
  | nothing
  /-- A read failed before a line feed was found. -/
  | failed (fault : ReadFault)
  deriving DecidableEq, Repr

/-- The outcome of a search for a line feed, with the bytes read but not used and the stream after
them. -/
structure Fetch where
  found : Found
  /-- Whether the stream was read, or asked to. -/
  refilled : Bool
  buffered : List UInt8
  stream : Stream

namespace Fetch

/-- The stream has ended after some unused bytes. -/
def atEnd (unread : List UInt8) : Fetch :=
  ⟨if unread = [] then .nothing else .unterminated unread, true, [], .exhausted⟩

end Fetch

/-- Searches for a line feed in the bytes `fresh` and in the stream after them. `seen` holds the
`searched` bytes of the line already searched, last first; they are whole units. `refilled` says
whether the stream has been read for this line before. -/
def fetch (e : Encoding) (refilled : Bool) (searched : Nat) (seen fresh : List UInt8)
    (stream : Stream) : Fetch :=
  match e.indexOfUnit? Encoding.lineFeedUnit fresh with
  | some i =>
    ⟨.terminated (seen.reverseAux (fresh.take i)), refilled, fresh.drop (i + e.unitWidth), stream⟩
  | none =>
    match _h : stream.read (searched + fresh.length) with
    | (.error fault, stream) => ⟨.failed fault, true, seen.reverseAux fresh, stream⟩
    | (.ok [], _) => .atEnd (seen.reverseAux fresh)
    | (.ok (b :: chunk), rest) =>
      -- Half a unit at the end is searched again with the bytes that complete it
      let whole := fresh.length - fresh.length % e.unitWidth
      fetch e true (searched + whole) ((fresh.take whole).reverseAux seen)
        (fresh.drop whole ++ b :: chunk) rest
termination_by stream.size
decreasing_by
  have := Stream.size_of_read _h
  simp only [Delivery.length, List.length_cons] at this
  omega

/-! ## Lines -/

/-- The bytes of a physical line without its terminator, and where the line starts. -/
structure PhysicalLine where
  bytes : List UInt8
  offset : Nat
  deriving DecidableEq, Repr

/-- A stream that is read line by line. -/
structure LineStream where
  /-- Bytes read from the stream but not used yet. -/
  buffered : List UInt8
  stream : Stream
  /-- How many bytes have been used and stand in the read buffer before those not used yet. -/
  used : Nat
  /-- How many bytes have left the read buffer: the position of its first byte in the stream. -/
  base : Nat
  lineCount : Nat
  /-- The terminator of the first line that had one. -/
  lineEnding : Option LineEnding

namespace LineStream

/-- The position of the first byte not used yet in the stream. -/
def offset (s : LineStream) : Nat :=
  s.base + s.used

/-- How much there is left to use: bytes and reads. -/
def size (s : LineStream) : Nat :=
  s.buffered.length + s.stream.size

/-- Whether the last unit of some bytes is a carriage return. -/
def endsWithReturn (e : Encoding) (bytes : List UInt8) : Bool :=
  e.unitWidth ≤ bytes.length &&
    e.unitFrom? bytes (bytes.length - e.unitWidth) == some Encoding.carriageReturnUnit

/-- The bytes of a line without a carriage return at their end. -/
def content (e : Encoding) (bytes : List UInt8) : List UInt8 :=
  if endsWithReturn e bytes then bytes.take (bytes.length - e.unitWidth) else bytes

/-- The terminator of a line of which the bytes before the line feed are given. -/
def terminatorOf (e : Encoding) (bytes : List UInt8) : LineEnding :=
  if endsWithReturn e bytes then .crlf else .lf

/-- Moves the bytes not used yet to the start of the read buffer. -/
def compact (s : LineStream) : LineStream :=
  { s with used := 0, base := s.base + s.used }

/-- The state after a search that has taken the first `taken` bytes. -/
def consume (s : LineStream) (f : Fetch) (taken : Nat) : LineStream :=
  -- The used bytes leave the buffer whenever it is read into
  let s := if f.refilled then s.compact else s
  { s with buffered := f.buffered, stream := f.stream, used := s.used + taken }

/-- Takes what a search has found as the next line. -/
def receive (e : Encoding) (s : LineStream) (f : Fetch) :
    Except ReadFault (Option PhysicalLine) × LineStream :=
  match f.found with
  | .terminated bytes =>
    (.ok (some ⟨content e bytes, s.offset⟩),
      { s.consume f (bytes.length + e.unitWidth) with
        lineCount := s.lineCount + 1
        lineEnding := s.lineEnding.or (some (terminatorOf e bytes)) })
  | .unterminated bytes =>
    (.ok (some ⟨content e bytes, s.offset⟩),
      { s.consume f bytes.length with lineCount := s.lineCount + 1 })
  | .nothing => (.ok none, s.consume f 0)
  | .failed fault => (.error fault, s.consume f 0)

/-- Reads the next line; `none` at the end of the stream. -/
def readLine (e : Encoding) (s : LineStream) : Except ReadFault (Option PhysicalLine) × LineStream :=
  s.receive e (fetch e false 0 [] s.buffered s.stream)

end LineStream

/-! ## Progress -/

namespace Encoding

private theorem indexOfByte_lt {target index i : Nat} {bytes : List UInt8}
    (h : indexOfByte? target index bytes = some i) : i < index + bytes.length := by
  fun_induction indexOfByte? target index bytes with
  | case1 => cases h
  | case2 => simp at h ⊢; omega
  | case3 index a rest _ ih => have := ih h; simp; omega

private theorem indexOfPair_lt {order : ByteOrder} {target index i : Nat} {bytes : List UInt8}
    (h : indexOfPair? order target index bytes = some i) : i + 1 < index + bytes.length := by
  fun_induction indexOfPair? order target index bytes with
  | case1 => simp at h ⊢; omega
  | case2 index a b rest _ ih => have := ih h; simp; omega
  | case3 => cases h

/-- The unit that is found lies inside the bytes. -/
theorem indexOfUnit_le {e : Encoding} {target i : Nat} {bytes : List UInt8}
    (h : e.indexOfUnit? target bytes = some i) : i + e.unitWidth ≤ bytes.length := by
  cases e with
  | singleByte page => have := indexOfByte_lt h; simp only [unitWidth]; omega
  | utf8 => have := indexOfByte_lt h; simp only [unitWidth]; omega
  | utf16 order => have := indexOfPair_lt h; simp only [unitWidth]; omega

end Encoding

namespace Found

/-- Whether there are bytes of a line. -/
def isLine : Found → Bool
  | terminated _ => true
  | unterminated _ => true
  | _ => false

end Found

/-- What a search leaves is no more than there was, and less if it found a line. -/
theorem size_fetch (e : Encoding) (refilled : Bool) (searched : Nat) (seen fresh : List UInt8)
    (stream : Stream) :
    (fetch e refilled searched seen fresh stream).buffered.length +
        (fetch e refilled searched seen fresh stream).stream.size +
        (if (fetch e refilled searched seen fresh stream).found.isLine then 1 else 0) ≤
      seen.length + fresh.length + stream.size := by
  have hpos := e.unitWidth_pos
  fun_induction fetch e refilled searched seen fresh stream with
  | case1 refilled searched seen fresh stream i hi =>
    -- The line feed itself is used up
    have := Encoding.indexOfUnit_le hi
    simp [Found.isLine]
    omega
  | case2 refilled searched seen fresh stream _ fault rest hr =>
    have := Stream.size_of_read hr
    simp only [Delivery.length] at this
    simp [Found.isLine]
    omega
  | case3 refilled searched seen fresh stream _ rest hr =>
    simp only [Fetch.atEnd, Stream.size_exhausted, List.reverseAux_eq, List.length_nil]
    split
    · simp [Found.isLine]
    · have := List.length_pos_iff.mpr ‹_›
      simp [Found.isLine] at this ⊢
      omega
  | case4 refilled searched seen fresh stream _ b chunk rest hr whole ih =>
    -- Whole units move from `fresh` to `seen`, and the read from the stream to `fresh`
    have hread := Stream.size_of_read hr
    have : fresh.length % e.unitWidth ≤ fresh.length := Nat.mod_le _ _
    simp [whole, List.reverseAux_eq, Delivery.length] at ih hread ⊢
    omega

namespace LineStream

private theorem size_receive (e : Encoding) (s : LineStream) (f : Fetch) :
    (s.receive e f).2.size = f.buffered.length + f.stream.size := by
  unfold receive
  cases f.found <;> simp only [size, consume]

private theorem isLine_of_receive {e : Encoding} {s : LineStream} {f : Fetch} {line : PhysicalLine}
    (h : (s.receive e f).1 = .ok (some line)) : f.found.isLine = true := by
  unfold receive at h
  cases hf : f.found <;> simp_all [Found.isLine]

private theorem size_fetch_stream (e : Encoding) (s : LineStream) :
    (s.readLine e).2.size +
        (if (fetch e false 0 [] s.buffered s.stream).found.isLine then 1 else 0) ≤
      s.size := by
  rw [readLine, size_receive]
  refine Nat.le_trans (size_fetch e false 0 [] s.buffered s.stream) ?_
  simp [size]

/-- Reading never adds to what is left. -/
theorem readLine_size_le (e : Encoding) (s : LineStream) : (s.readLine e).2.size ≤ s.size :=
  Nat.le_trans (Nat.le_add_right _ _) (size_fetch_stream e s)

/-- Reading a line uses something up. -/
theorem readLine_size_lt {e : Encoding} {s : LineStream} {line : PhysicalLine}
    (h : (s.readLine e).1 = .ok (some line)) : (s.readLine e).2.size < s.size := by
  have hle := size_fetch_stream e s
  rw [if_pos (isLine_of_receive h)] at hle
  exact hle

end LineStream

end Lexicon
