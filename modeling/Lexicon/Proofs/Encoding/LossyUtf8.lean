import Lexicon.Proofs.Encoding.Spelled
import Lexicon.Proofs.Text.Ascii

/-!
# Bytes of a code page read as UTF-8

In a code page every byte is a character. In UTF-8 several bytes may be one, and bytes that spell nothing
give a replacement character for each malformed sequence. But a byte of ASCII is the same character in
both, as no sequence goes on with it, and bytes outside ASCII give only characters outside ASCII in both,
at least one for all that follow each other.

## Key results

- `Utf8State.Beyond.three`, `Utf8State.Beyond.four`: longer sequences do not spell characters of ASCII
- `Utf8State.first_cases`: what the first byte of a character gives
- `Utf8State.Pending.step`: one byte in UTF-8 and in a code page
- `Encoding.sameAscii_decodeLossy`: all bytes in UTF-8 and in a code page
-/

namespace Lexicon

open Text (Foreign SameAscii isAscii)

/-! ## Items and their characters -/

namespace Encoding

/-- The text of items, with U+FFFD for each malformed sequence. -/
def lossy (items : List (Option Char)) : Text :=
  items.map (·.getD '\uFFFD')

@[simp]
theorem lossy_nil : lossy [] = [] := rfl

@[simp]
theorem lossy_some (c : Char) (items : List (Option Char)) :
    lossy (some c :: items) = c :: lossy items := rfl

@[simp]
theorem lossy_none (items : List (Option Char)) : lossy (none :: items) = '\uFFFD' :: lossy items :=
  rfl

@[simp]
theorem lossy_append (items items' : List (Option Char)) :
    lossy (items ++ items') = lossy items ++ lossy items' :=
  List.map_append

end Encoding

open Encoding (lossy lossy_nil lossy_some lossy_none lossy_append)

theorem Text.Foreign.replacement : Foreign ['\uFFFD'] :=
  .singleton (by decide)

theorem Text.Foreign.ofNat {n : Nat} (hlarge : 0x80 ≤ n) (hvalid : n.isValidChar) :
    Foreign [Char.ofNat n] := by
  refine .singleton (decide_eq_false ?_)
  rw [toNat_ofNat_of_isValidChar hvalid]
  exact Nat.not_lt.mpr hlarge

/-- Only the bytes of ASCII stand for characters of ASCII in a code page. -/
theorem CodePage.foreign_char (page : CodePage) {b : UInt8} (h : 0x80 ≤ b.toNat) :
    Foreign [page.char b] := by
  have hhigh : ∀ n ∈ page.high, isAscii (Char.ofNat n) = false := by
    cases page with
    | latin => decide +kernel
    | cyrillic => decide +kernel
    | easternEuropean => decide +kernel
  obtain ⟨n, hn, hchar⟩ := page.exists_char_of_le h
  rw [hchar]
  exact .singleton (hhigh n hn)

/-! ## Unfinished characters -/

namespace Utf8State

/-- Whatever the missing bytes are, the next of them between `low` and `high`, they complete a character
outside ASCII. -/
inductive Beyond : (missing low high bits : Nat) → Prop where
  | last {low high bits : Nat} (hlow : 0x80 ≤ low)
      (h : ∀ b, low ≤ b ∧ b ≤ high →
        0x80 ≤ bits * 64 + (b - 0x80) ∧ (bits * 64 + (b - 0x80)).isValidChar) :
      Beyond 1 low high bits
  | more {missing low high bits : Nat} (hlow : 0x80 ≤ low) (hmore : missing ≠ 1)
      (h : ∀ b, low ≤ b ∧ b ≤ high →
        Beyond (missing - 1) 0x80 0xBF (bits * 64 + (b - 0x80))) :
      Beyond missing low high bits

namespace Beyond

variable {missing low high bits b : Nat}

theorem low_ge (h : Beyond missing low high bits) : 0x80 ≤ low := by
  cases h with
  | last hlow h => exact hlow
  | more hlow hmore h => exact hlow

theorem two (hb : 0xC2 ≤ b ∧ b ≤ 0xDF) : Beyond 1 0x80 0xBF (b - 0xC0) := by
  refine .last (Nat.le_refl _) fun c hc => ?_
  unfold Nat.isValidChar
  omega

/-- The bounds of the second byte keep out forms that are too long, and surrogates. -/
theorem three (hb : 0xE0 ≤ b ∧ b ≤ 0xEF) :
    Beyond 2 (if b = 0xE0 then 0xA0 else 0x80) (if b = 0xED then 0x9F else 0xBF) (b - 0xE0) := by
  refine .more (by split <;> omega) (by decide) fun c hc =>
    .last (Nat.le_refl _) fun d hd => ?_
  obtain ⟨hrange, hlong, hsurrogate⟩ := second_bounds (by decide) (by decide) hc
  unfold Nat.isValidChar
  omega

/-- The bounds of the second byte keep out forms that are too long, and what is past the last code
point. -/
theorem four (hb : 0xF0 ≤ b ∧ b ≤ 0xF4) :
    Beyond 3 (if b = 0xF0 then 0x90 else 0x80) (if b = 0xF4 then 0x8F else 0xBF) (b - 0xF0) := by
  refine .more (by split <;> omega) (by decide) fun c hc =>
    .more (Nat.le_refl _) (by decide) fun d hd => .last (Nat.le_refl _) fun e he => ?_
  obtain ⟨hrange, hlong, hlarge⟩ := second_bounds (by decide) (by decide) hc
  unfold Nat.isValidChar
  omega

end Beyond

/-! ## Reading byte by byte -/

/-- The first byte of a character is one of ASCII, or it is malformed, or it leaves bytes missing. -/
theorem first_cases (b : Nat) :
    (b < 0x80 ∧ first b = ⟨[some (Char.ofNat b)], start⟩) ∨
    (0x80 ≤ b ∧ first b = ⟨[none], start⟩) ∨
    (0x80 ≤ b ∧ ∃ missing low high bits, first b = ⟨[], inside missing low high bits⟩ ∧
      Beyond missing low high bits) := by
  unfold first
  split
  · exact .inl ⟨‹_›, rfl⟩
  split
  · exact .inr (.inr ⟨by omega, _, _, _, _, rfl, .two ‹_›⟩)
  split
  · exact .inr (.inr ⟨by omega, _, _, _, _, rfl, .three ‹_›⟩)
  split
  · exact .inr (.inr ⟨by omega, _, _, _, _, rfl, .four ‹_›⟩)
  · exact .inr (.inl ⟨by omega, rfl⟩)

/-- The text is what the bytes of an unfinished character are in a code page. -/
inductive Pending : Utf8State → Text → Prop where
  | start : Pending .start []
  | inside {missing low high bits : Nat} {v : Text} (hv : Foreign v)
      (hbeyond : Beyond missing low high bits) : Pending (.inside missing low high bits) v

namespace Pending

variable {page : CodePage} {s : Utf8State} {v : Text}

/-- A byte is given out, or it is pending. -/
theorem first (page : CodePage) (b : UInt8) :
    ∃ w v, [page.char b] = w ++ v ∧ SameAscii (lossy (first b.toNat).items) w ∧
      Pending (first b.toNat).state v := by
  rcases first_cases b.toNat with
    ⟨hlow, hfirst⟩ | ⟨hhigh, hfirst⟩ | ⟨hhigh, missing, low, high, bits, hfirst, hbeyond⟩
  · have hascii : isAscii (Char.ofNat b.toNat) = true := by
      refine decide_eq_true ?_
      rwa [toNat_ofNat_of_isValidChar (.inl (by omega))]
    rw [hfirst, page.char_of_lt hlow, lossy_some, lossy_nil]
    exact ⟨_, [], rfl, .ascii hascii .nil, .start⟩
  · rw [hfirst, lossy_none, lossy_nil]
    exact ⟨_, [], rfl, Foreign.replacement.sameAscii (page.foreign_char hhigh), .start⟩
  · rw [hfirst]
    exact ⟨[], _, rfl, .nil, .inside (page.foreign_char hhigh) hbeyond⟩

/-- Of what is pending and the next byte, a part is given out and the rest is pending. What is given out
has the same characters of ASCII in UTF-8 and in the code page. -/
theorem step (h : Pending s v) (page : CodePage) (b : UInt8) :
    ∃ w v', v ++ [page.char b] = w ++ v' ∧ SameAscii (lossy (s.step b.toNat).items) w ∧
      Pending (s.step b.toNat).state v' := by
  cases h with
  | start => exact first page b
  | @inside missing low high bits _ hv hbeyond =>
    by_cases hcontinues : low ≤ b.toNat ∧ b.toNat ≤ high
    · have hhigh : 0x80 ≤ b.toNat := Nat.le_trans hbeyond.low_ge hcontinues.1
      have hforeign := hv.append (page.foreign_char hhigh)
      cases hbeyond with
      | last hlow hcomplete =>
        obtain ⟨hlarge, hvalid⟩ := hcomplete b.toNat hcontinues
        rw [step_last hcontinues, lossy_some, lossy_nil]
        exact ⟨_, [], (List.append_nil _).symm,
          (Foreign.ofNat hlarge hvalid).sameAscii hforeign, .start⟩
      | more hlow hmore hinside =>
        -- Nothing is given out yet, in neither text
        rw [step_more hcontinues hmore]
        exact ⟨[], _, rfl, .nil, .inside hforeign (hinside b.toNat hcontinues)⟩
    · -- The malformed sequence ends before this byte, whatever it is
      obtain ⟨w, v', hsplit, hsame, hpending⟩ := first page b
      have hstep : (Utf8State.inside missing low high bits).step b.toNat =
          ⟨none :: (Utf8State.first b.toNat).items, (Utf8State.first b.toNat).state⟩ :=
        if_neg hcontinues
      rw [hstep, lossy_none]
      refine ⟨v ++ w, v', by rw [hsplit, List.append_assoc], ?_, hpending⟩
      exact .foreign .replacement hv hsame

/-- From any state on, bytes have the same characters of ASCII in UTF-8 and in a code page. -/
theorem sameAscii (h : Pending s v) (page : CodePage) (bytes : List UInt8) :
    SameAscii (lossy (Decoder.utf8.itemsFrom s bytes)) (v ++ bytes.map page.char) := by
  induction bytes generalizing s v with
  | nil =>
    cases h with
    | start => exact .nil
    | inside hv hbeyond =>
      -- A character that is never finished is one malformed sequence
      rw [List.map_nil, List.append_nil]
      exact Foreign.replacement.sameAscii hv
  | cons b bytes ih =>
    obtain ⟨w, v', hsplit, hsame, hpending⟩ := h.step page b
    have htext : v ++ (b :: bytes).map page.char = w ++ (v' ++ bytes.map page.char) := by
      rw [List.map_cons, ← List.append_assoc, ← hsplit, List.append_assoc]
      rfl
    rw [htext, Decoder.itemsFrom, lossy_append]
    exact hsame.append (ih hpending)

end Pending

end Utf8State

/-- Bytes have the same characters of ASCII in UTF-8, well-formed or not, and in a code page. -/
theorem Encoding.sameAscii_decodeLossy (page : CodePage) (bytes : List UInt8) :
    SameAscii (utf8.decodeLossy bytes) (bytes.map page.char) := by
  have hitems : utf8.decodeLossy bytes = lossy (Decoder.utf8.itemsFrom .start bytes) :=
    congrArg lossy (Decoder.decodeAfter_eq _ [] _ _)
  rw [hitems]
  exact Utf8State.Pending.start.sameAscii page bytes

theorem Encoding.decode?_page (page : CodePage) (bytes : List UInt8) :
    (singleByte page).decode? bytes = some (bytes.map page.char) := by
  rw [decode?_eq_some_iff_items, items_page]

end Lexicon
