import Lexicon.Gzip.PrefixCode

/-!
# The codes of a block

A compressed block has two prefix codes. Symbols of the first one are bytes, the end of the block, and
the lengths of repetitions; symbols of the second one are distances. Symbols for lengths and distances
are followed by extra bits. A block either uses the fixed codes or describes its own, by the lengths of
their words, which are themselves in a prefix code.
-/

namespace Lexicon.Gzip

/-! ## Lengths and distances -/

/-- The smallest length and the number of extra bits of each length symbol, from symbol 257 on. -/
def lengthSymbols : List (Nat × Nat) :=
  [(3, 0), (4, 0), (5, 0), (6, 0), (7, 0), (8, 0), (9, 0), (10, 0), (11, 1), (13, 1), (15, 1),
   (17, 1), (19, 2), (23, 2), (27, 2), (31, 2), (35, 3), (43, 3), (51, 3), (59, 3), (67, 4),
   (83, 4), (99, 4), (115, 4), (131, 5), (163, 5), (195, 5), (227, 5), (258, 0)]

/-- The smallest distance and the number of extra bits of each distance symbol. -/
def distanceSymbols : List (Nat × Nat) :=
  [(1, 0), (2, 0), (3, 0), (4, 0), (5, 1), (7, 1), (9, 2), (13, 2), (17, 3), (25, 3), (33, 4),
   (49, 4), (65, 5), (97, 5), (129, 6), (193, 6), (257, 7), (385, 7), (513, 8), (769, 8),
   (1025, 9), (1537, 9), (2049, 10), (3073, 10), (4097, 11), (6145, 11), (8193, 12), (12289, 12),
   (16385, 13), (24577, 13)]

/-- Reads the extra bits of a symbol of a table. -/
def readExtra (table : List (Nat × Nat)) (s : Nat) : BitReader Nat :=
  match table[s]? with
  | some (base, extra) => do return base + (← BitReader.number extra)
  | none => BitReader.corrupt

/-! ## Codes -/

/-- The codes of a block: one for bytes, the end and lengths, and one for distances. -/
structure BlockCodes where
  literals : PrefixCode
  distances : PrefixCode

/-- The lengths of the fixed code for literals. -/
def fixedLiteralLengths : List Nat :=
  List.replicate 144 8 ++ List.replicate 112 9 ++ List.replicate 24 7 ++ List.replicate 8 8

/-- The codes of a block that describes none. -/
def fixedCodes : BlockCodes where
  literals := (PrefixCode.ofLengths? true fixedLiteralLengths).getD .empty
  distances := (PrefixCode.ofLengths? true (List.replicate 32 5)).getD .empty

/-- Reads a prefix code out of its lengths. -/
def readCode (mayBeSparse : Bool) (lengths : List Nat) : BitReader PrefixCode :=
  match PrefixCode.ofLengths? mayBeSparse lengths with
  | some code => pure code
  | none => BitReader.corrupt

/-- The order in which the lengths of the code for lengths are given. -/
def lengthOrder : List Nat :=
  [16, 17, 18, 0, 8, 7, 9, 6, 10, 5, 11, 4, 12, 3, 13, 2, 14, 1, 15]

/-- Reads `n` numbers of three bits. -/
def readTriples : Nat → BitReader (List Nat)
  | 0 => pure []
  | n + 1 => do
    let first ← BitReader.number 3
    return first :: (← readTriples n)

/-- Reads code lengths until there are `total`, after those in `done` (last first). A symbol is a
length, or repeats the length before it or zero. At most `fuel` symbols are read. -/
def readLengths (code : PrefixCode) (total : Nat) : (fuel : Nat) → List Nat → BitReader (List Nat)
  | 0, _ => BitReader.corrupt
  | fuel + 1, done =>
    if total ≤ done.length then
      if done.length = total then pure done.reverse else BitReader.corrupt
    else do
      -- 16 repeats the length before it, 17 and 18 repeat zero
      match ← code.read, done with
      | 16, [] => BitReader.corrupt
      | 16, last :: _ =>
        let n ← BitReader.number 2
        readLengths code total fuel (List.replicate (n + 3) last ++ done)
      | 17, _ =>
        let n ← BitReader.number 3
        readLengths code total fuel (List.replicate (n + 3) 0 ++ done)
      | 18, _ =>
        let n ← BitReader.number 7
        readLengths code total fuel (List.replicate (n + 11) 0 ++ done)
      | length, _ => readLengths code total fuel (length :: done)

/-- Reads the codes that a block describes. -/
def readCodes : BitReader BlockCodes := do
  let literalCount := (← BitReader.number 5) + 257
  let distanceCount := (← BitReader.number 5) + 1
  let lengthCount := (← BitReader.number 4) + 4
  -- The counts have room for more symbols than there are
  BitReader.require (literalCount ≤ 286 && distanceCount ≤ 30)
  let triples ← readTriples lengthCount
  let given := lengthOrder.zip triples
  let lengthCode ← readCode false ((List.range 19).map fun s => (given.lookup s).getD 0)
  -- The lengths of both codes are one list, so a repetition may reach from one into the other
  let total := literalCount + distanceCount
  let lengths ← readLengths lengthCode total (total + 1) []
  let distances ← readCode true (lengths.drop literalCount)
  let literals ← readCode true (lengths.take literalCount)
  return ⟨literals, distances⟩

/-! ## Progress -/

/-- The number that a symbol of a table stands for is below any bound of the table. -/
theorem uses_readExtra {table : List (Nat × Nat)} (bound : Nat)
    (h : ∀ entry ∈ table, entry.1 + (1 <<< entry.2) ≤ bound) (s : Nat) :
    BitReader.Uses 0 (· < bound) (readExtra table s) := by
  unfold readExtra
  split
  · rename_i base extra hentry
    have hbound : base + (1 <<< extra) ≤ bound := h _ (List.mem_of_getElem? hentry)
    exact BitReader.uses_bind (BitReader.uses_number extra).none fun n hn =>
      BitReader.uses_pure (by omega)
  · exact BitReader.uses_corrupt _ _

/-- Reading code lengths gives no bits back. -/
theorem uses_readLengths (code : PrefixCode) (total fuel : Nat) (done : List Nat) :
    BitReader.Uses 0 (fun _ => True) (readLengths code total fuel done) := by
  induction fuel generalizing done with
  | zero => exact BitReader.uses_corrupt _ _
  | succ fuel ih =>
    unfold readLengths
    split
    · split
      · exact BitReader.uses_pure trivial
      · exact BitReader.uses_corrupt _ _
    · refine BitReader.uses_bind code.uses_read.none fun s _ => ?_
      split
      · exact BitReader.uses_corrupt _ _
      · exact BitReader.uses_bind (BitReader.uses_number 2).none fun n _ => ih _
      · exact BitReader.uses_bind (BitReader.uses_number 3).none fun n _ => ih _
      · exact BitReader.uses_bind (BitReader.uses_number 7).none fun n _ => ih _
      · exact ih _

/-- Reading numbers of three bits gives no bits back. -/
theorem uses_readTriples (n : Nat) : BitReader.Uses 0 (fun _ => True) (readTriples n) := by
  induction n with
  | zero => exact BitReader.uses_pure trivial
  | succ n ih =>
    refine BitReader.uses_bind (BitReader.uses_number 3).none fun first _ => ?_
    exact BitReader.uses_bind ih fun rest _ => BitReader.uses_pure trivial

/-- A code that lengths give costs no bits. -/
theorem uses_readCode (mayBeSparse : Bool) (lengths : List Nat) :
    BitReader.Uses 0 (fun _ => True) (readCode mayBeSparse lengths) := by
  unfold readCode
  split
  · exact BitReader.uses_pure trivial
  · exact BitReader.uses_corrupt _ _

/-- Reading codes gives no bits back. -/
theorem uses_readCodes : BitReader.Uses 0 (fun _ => True) readCodes := by
  refine BitReader.uses_bind (BitReader.uses_number 5).none fun literalCount _ => ?_
  refine BitReader.uses_bind (BitReader.uses_number 5).none fun distanceCount _ => ?_
  refine BitReader.uses_bind (BitReader.uses_number 4).none fun lengthCount _ => ?_
  refine BitReader.uses_bind (BitReader.uses_require _) fun _ _ => ?_
  refine BitReader.uses_bind (uses_readTriples _) fun triples _ => ?_
  refine BitReader.uses_bind (uses_readCode _ _) fun lengthCode _ => ?_
  refine BitReader.uses_bind (uses_readLengths _ _ _ _) fun lengths _ => ?_
  refine BitReader.uses_bind (uses_readCode _ _) fun distances _ => ?_
  refine BitReader.uses_bind (uses_readCode _ _) fun literals _ => ?_
  exact BitReader.uses_pure trivial

end Lexicon.Gzip
