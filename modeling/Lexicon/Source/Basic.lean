import Lexicon.Failure

/-!
# Sources

A source delivers its bytes in reads of any length. A read may also be interrupted, which means
nothing but that it has to be repeated, or fail; after a failure the next read goes on where the
source stands. A read of no bytes is the end of the source at that moment.

`size_next` and `size_read` say that what has been read comes out of what there was to read.
-/

namespace Lexicon

/-- The outcome of one read. -/
inductive Read where
  | bytes (chunk : List UInt8)
  | interrupted
  | failed (fault : ReadFault)
  deriving DecidableEq, Repr

namespace Read

/-- The number of bytes of a read. -/
def length : Read → Nat
  | bytes chunk => chunk.length
  | _ => 0

end Read

/-- The bytes that were read, or why there are none. No bytes are the end at that moment. -/
abbrev Delivery := Except ReadFault (List UInt8)

namespace Delivery

/-- The number of bytes delivered. -/
def length : Delivery → Nat
  | .ok chunk => chunk.length
  | .error _ => 0

end Delivery

/-- The reads that a source still gives. After them it is at its end. -/
abbrev Source := List Read

namespace Source

/-- Reads until a read is not interrupted. -/
def next : Source → Delivery × Source
  | [] => (.ok [], [])
  | .interrupted :: rest => next rest
  | .failed fault :: rest => (.error fault, rest)
  | .bytes chunk :: rest => (.ok chunk, rest)

/-- Reads at most `limit` bytes; the others of the same read are left for the next one. -/
def read (limit : Nat) (s : Source) : Delivery × Source :=
  match s.next with
  | (.ok chunk, rest) =>
    match chunk.drop limit with
    | [] => (.ok chunk, rest)
    | more => (.ok (chunk.take limit), .bytes more :: rest)
  | (.error fault, rest) => (.error fault, rest)

/-- The bytes in `chunk` (last first) and those after it, in chunks of `n` after the chunks in `done`
(last first); `room` is how many more bytes `chunk` takes. -/
def chunksAfter (n : Nat) (done : List (List UInt8)) (chunk : List UInt8) (room : Nat) :
    List UInt8 → List (List UInt8)
  | [] => (if chunk = [] then done else chunk.reverse :: done).reverse
  | b :: rest =>
    if room ≤ 1 then chunksAfter n ((b :: chunk).reverse :: done) [] n rest
    else chunksAfter n done (b :: chunk) (room - 1) rest

/-- Bytes cut into chunks of `n`, the last one as long as it comes; one byte each if `n` is zero. -/
def chunks (n : Nat) (bytes : List UInt8) : List (List UInt8) :=
  chunksAfter n [] [] n bytes

/-- A source that delivers bytes in reads of at most `n`. -/
def ofBytes (n : Nat) (bytes : List UInt8) : Source :=
  (chunks n bytes).map .bytes

/-! ## Progress -/

/-- How much there is left to read: the bytes and the reads. -/
def size (s : Source) : Nat :=
  s.foldr (fun r n => r.length + 1 + n) 0

@[simp]
theorem size_nil : size [] = 0 := rfl

@[simp]
theorem size_cons (r : Read) (rest : Source) : size (r :: rest) = r.length + 1 + size rest := rfl

/-- A read of bytes uses up the bytes and itself. -/
theorem size_next (s : Source) :
    s.next.2.size + s.next.1.length + min 1 s.next.1.length ≤ s.size := by
  fun_induction next s with
  | case1 => simp [Delivery.length]
  | case2 rest ih => exact Nat.le_trans ih (by simp)
  | case3 fault rest => simp [Delivery.length]
  | case4 chunk rest =>
    simp only [Delivery.length, size_cons, Read.length]
    omega

/-- The bytes that were read come out of those that were left. -/
theorem size_read (limit : Nat) (s : Source) :
    (s.read limit).2.size + (s.read limit).1.length ≤ s.size := by
  have hnext := s.size_next
  unfold read
  split
  · rename_i chunk rest hs
    simp only [hs, Delivery.length] at hnext
    split
    · simp only [Delivery.length]
      omega
    · rename_i hmore
      -- The bytes cut off are a read again, which the one used up makes up for
      have hcut : limit < chunk.length :=
        Nat.lt_of_not_le fun hle => hmore (List.drop_eq_nil_of_le hle)
      simp only [size_cons, Read.length, Delivery.length, List.length_drop, List.length_take]
      omega
  · rename_i fault rest hs
    simp only [hs, Delivery.length] at hnext ⊢
    omega

end Source

end Lexicon
