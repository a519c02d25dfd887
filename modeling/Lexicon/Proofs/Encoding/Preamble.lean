import Lexicon.Dictionary.Open

/-!
# Marks, labels and guesses

Before the header of a source is read, three things can settle its encoding: a byte-order mark, the
label that a user gives, and a zero byte that gives UTF-16 away, in this order. If nothing does, the
lines of the header are told apart as in UTF-8.

## Key results

- `Preamble.ofBytes_eq`: what the preamble of some bytes says
- `Preamble.ofBytes_append`: three bytes are enough to tell
- `Preamble.override_eq`: what the label of a user adds
- `Preamble.settle_override`: what the name of a code page adds to both
-/

namespace Lexicon

/-- The number of bytes of the byte-order mark at the start of some bytes. -/
def markLength (bytes : List UInt8) : Nat :=
  if [0xFF, 0xFE] <+: bytes ∨ [0xFE, 0xFF] <+: bytes then 2
  else if [0xEF, 0xBB, 0xBF] <+: bytes then 3
  else 0

theorem markLength_le (bytes : List UInt8) : markLength bytes ≤ bytes.length := by
  unfold markLength
  split
  · rename_i h
    rcases h with h | h
    · exact h.length_le
    · exact h.length_le
  · split
    · rename_i h
      exact h.length_le
    · exact Nat.zero_le _

/-- The encoding that the byte-order mark at the start of some bytes stands for. -/
def markEncoding? (bytes : List UInt8) : Option Encoding :=
  if [0xFF, 0xFE] <+: bytes then some (.utf16 .little)
  else if [0xFE, 0xFF] <+: bytes then some (.utf16 .big)
  else if [0xEF, 0xBB, 0xBF] <+: bytes then some .utf8
  else none

/-- Bytes start with the first two bytes of the UTF-8 byte-order mark but not with the third one. -/
def MarkTruncated (bytes : List UInt8) : Prop :=
  [0xEF, 0xBB] <+: bytes ∧ ¬ [0xEF, 0xBB, 0xBF] <+: bytes

instance (bytes : List UInt8) : Decidable (MarkTruncated bytes) :=
  inferInstanceAs (Decidable (_ ∧ _))

/-- UTF-16, if one of the first two bytes is zero and the other is not. -/
def guessedEncoding? : List UInt8 → Option Encoding
  | a :: b :: _ =>
    if a ≠ 0 ∧ b = 0 then some (.utf16 .little)
    else if a = 0 ∧ b ≠ 0 then some (.utf16 .big)
    else none
  | _ => none

/-- The encoding that a byte-order mark settles, else the label of the user, else a zero byte. -/
def settledEncoding? (label : Option Text) (bytes : List UInt8) : Option Encoding :=
  (markEncoding? bytes).or ((label.bind Encoding.ofLabel?).or (guessedEncoding? bytes))

/-- The encoding of the lines of a source, if the header names the code page `name`. -/
def finalEncoding (label : Option Text) (name : Option Text) (bytes : List UInt8) :
    Except Failure Encoding :=
  match settledEncoding? label bytes, name with
  | some e, _ => .ok e
  | none, none => .ok .utf8
  | none, some name =>
    match CodePage.ofLabel? name with
    | some page => .ok (.singleByte page)
    | none => .error (.unknownCodePage name)

/-- The encoding in which the lines of a source are told apart. -/
def workingEncoding (label : Option Text) (bytes : List UInt8) : Encoding :=
  (settledEncoding? label bytes).getD .utf8

theorem markLength_eq_zero_iff (bytes : List UInt8) :
    markLength bytes = 0 ↔ markEncoding? bytes = none := by
  unfold markLength markEncoding?
  grind

namespace Preamble

/-- What the preamble says: a mark counts more than a zero byte. -/
def found? (bytes : List UInt8) : Option Encoding :=
  (markEncoding? bytes).or (guessedEncoding? bytes)

theorem ofBytes_nil : ofBytes [] = .error .empty := rfl

theorem ofBytes_truncated {bytes : List UInt8} (h : MarkTruncated bytes) :
    ofBytes bytes = .error .truncatedMark := by
  obtain ⟨⟨rest, rfl⟩, hthird⟩ := h
  unfold ofBytes
  split
  · rename_i heq; cases heq
  · rename_i heq; cases heq
  · rename_i heq; cases heq
  · rename_i heq
    cases heq
    exact absurd ⟨_, rfl⟩ hthird
  · rfl
  · rename_i hno heq
    cases heq
    exact (hno rfl rfl).elim
  · rename_i heq; cases heq

theorem ofBytes_eq {bytes : List UInt8} (hne : bytes ≠ []) (hmark : ¬ MarkTruncated bytes) :
    ofBytes bytes =
      .ok ⟨(found? bytes).getD .utf8, Lexicon.markLength bytes, (found? bytes).isNone⟩ := by
  unfold MarkTruncated at hmark
  unfold found? markEncoding? Lexicon.markLength
  match bytes with
  | [a] => simp [ofBytes, guessedEncoding?]
  | a :: b :: rest =>
    simp only [List.cons_prefix_cons, List.nil_prefix, and_true] at hmark ⊢
    unfold ofBytes guessedEncoding?
    split
    · rename_i heq; cases heq
    · grind
    · grind
    · grind
    · -- The third byte of the mark would have been read
      rename_i hno heq
      cases heq
      refine absurd ⟨⟨rfl, rfl⟩, ?_⟩ hmark
      rintro ⟨-, -, rest, rfl⟩
      exact hno rest rfl
    · grind
    · rename_i heq; cases heq

theorem markLength_of_ofBytes {bytes : List UInt8} {p : Preamble} (h : ofBytes bytes = .ok p) :
    p.markLength = Lexicon.markLength bytes := by
  by_cases hne : bytes = []
  · subst hne
    cases h
  by_cases hmark : MarkTruncated bytes
  · rw [ofBytes_truncated hmark] at h
    cases h
  rw [ofBytes_eq hne hmark] at h
  cases h
  rfl

theorem ofBytes_append {a : List UInt8} (h : 3 ≤ a.length) (b : List UInt8) :
    ofBytes (a ++ b) = ofBytes a := by
  -- No mark is longer than three bytes
  match a, h with
  | x :: y :: z :: rest, _ =>
    simp only [List.cons_append]
    unfold ofBytes
    grind

variable {label : Option Text} {bytes : List UInt8} {p : Preamble}

/-- The label counts where there is no mark. -/
theorem override_eq (hne : bytes ≠ []) (hmark : ¬ MarkTruncated bytes)
    (h : ofBytes bytes = .ok p) :
    p.override label = ⟨workingEncoding label bytes, Lexicon.markLength bytes,
      (settledEncoding? label bytes).isNone⟩ := by
  rw [ofBytes_eq hne hmark] at h
  cases h
  unfold override workingEncoding settledEncoding? found?
  cases hlabel : label.bind Encoding.ofLabel? with
  | none => simp only [Option.none_or]
  | some e =>
    simp only [markLength_eq_zero_iff]
    cases hfound : markEncoding? bytes with
    | none => simp
    | some e' => simp

/-- A code page counts where nothing else does. -/
theorem settle_override (hne : bytes ≠ []) (hmark : ¬ MarkTruncated bytes)
    (h : ofBytes bytes = .ok p) (name : Option Text) :
    (p.override label).settle name = finalEncoding label name bytes := by
  rw [override_eq hne hmark h]
  unfold settle finalEncoding workingEncoding
  cases settledEncoding? label bytes with
  | some e => cases name <;> rfl
  | none =>
    cases name with
    | none => rfl
    | some name => rfl

end Preamble

end Lexicon
