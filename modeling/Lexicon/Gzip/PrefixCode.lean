import Lexicon.Gzip.Bits

/-!
# Prefix codes

Compressed data spell symbols in a prefix code, which is given by the length of the code word of
each symbol: the words are handed out in order, shorter ones first and symbols in order within a
length.

`uses_read` says that reading a symbol uses up a bit.
-/

namespace Lexicon.Gzip

/-- The words that go on from some bits; more bits say which branches to take. -/
inductive Words where
  /-- No word starts like this. -/
  | unused
  | symbol (s : Nat)
  | branch (zero one : Words)

/-- A prefix code: its words that start with a zero and those that start with a one. No word is
empty. -/
structure PrefixCode where
  zero : Words
  one : Words

namespace Words

/-- Hands out words that go on from one of length `depth`, with at most `levels` more bits, to symbols
after the length of their words. Gives the words and the symbols left over. -/
def build : (levels depth : Nat) → List (Nat × Nat) → Words × List (Nat × Nat)
  | _, _, [] => (unused, [])
  | 0, _, (_, s) :: rest => (symbol s, rest)
  | levels + 1, depth, (length, s) :: rest =>
    if length = depth then (symbol s, rest)
    else
      let (zero, left) := build levels (depth + 1) ((length, s) :: rest)
      let (one, left) := build levels (depth + 1) left
      (branch zero one, left)

/-- Reads the rest of a word. A word that is not used is found out at once. -/
def read : Words → BitReader Nat
  | symbol s, bits => .done s bits
  | unused, _ => .corrupt
  | branch _ _, [] => .starved
  | branch zero one, b :: bits => if b then one.read bits else zero.read bits

theorem uses_read (w : Words) : BitReader.Uses 0 (fun _ => True) w.read := by
  intro bits a rest h
  fun_induction read w bits with
  | case1 => cases h; simp
  | case2 => cases h
  | case3 => cases h
  | case4 zero one bits ih => exact ⟨by have := (ih h).1; simp; omega, trivial⟩
  | case5 zero one b bits _ ih => exact ⟨by have := (ih h).1; simp; omega, trivial⟩

end Words

namespace PrefixCode

/-- The longest code word. -/
def maxLength : Nat := 15

/-- A code without words. -/
def empty : PrefixCode := ⟨.unused, .unused⟩

/-- The symbols with a word, each after the length of its word, in the order in which words are
handed out. A length of zero means no word. -/
def ordered (lengths : List Nat) : List (Nat × Nat) :=
  (List.range maxLength).flatMap fun n =>
    (lengths.zipIdx.filter fun (length, _) => length == n + 1)

/-- How many words of the greatest length start with some word of the given length. -/
def share (length : Nat) : Nat :=
  if length = 0 then 0 else 1 <<< (maxLength - length)

/-- How many words of the greatest length start with some word of a code. -/
def weight (lengths : List Nat) : Nat :=
  lengths.foldr (fun length n => share length + n) 0

/-- Whether symbols after the length of their words need not use up all words: none need not, nor a
single one with a word of one bit. -/
def isSparse : List (Nat × Nat) → Bool
  | [] => true
  | [(length, _)] => length == 1
  | _ => false

/-- The code with the given lengths. They must use up all words, unless `mayBeSparse` allows a code of
hardly any. -/
def ofLengths? (mayBeSparse : Bool) (lengths : List Nat) : Option PrefixCode :=
  let used := ordered lengths
  if weight lengths = 1 <<< maxLength ∨ (mayBeSparse ∧ isSparse used) then
    let (zero, left) := Words.build (maxLength - 1) 1 used
    some ⟨zero, (Words.build (maxLength - 1) 1 left).1⟩
  else none

/-- Reads a symbol. -/
def read (code : PrefixCode) : BitReader Nat
  | [] => .starved
  | b :: bits => (if b then code.one else code.zero).read bits

theorem uses_read (code : PrefixCode) : BitReader.Uses 1 (fun _ => True) code.read := by
  intro bits a rest h
  cases bits with
  | nil => cases h
  | cons b bits =>
    obtain ⟨hlength, _⟩ := Words.uses_read _ _ _ _ h
    exact ⟨by simp; omega, trivial⟩

end PrefixCode

end Lexicon.Gzip
