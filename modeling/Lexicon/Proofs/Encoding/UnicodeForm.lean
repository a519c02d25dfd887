import Lexicon.Encoding.Decode

/-!
# Writing Unicode

Texts are written in UTF-8 or in UTF-16, and the decoders read them back, character by character.

## Key results

- `Decoder.decodeAfter_utf8EncodeChar`, `Decoder.decodeAfter_utf16Units`: reading one character
- `UnicodeForm.decode?_encode`: what has been written is read back
-/

namespace Lexicon

/-- The encodings of all Unicode text. -/
inductive UnicodeForm where
  | utf8
  | utf16 (order : ByteOrder)
  deriving DecidableEq, Repr

/-- The two bytes of a code unit. -/
def ByteOrder.bytes (order : ByteOrder) (u : Nat) : List UInt8 :=
  match order with
  | little => [UInt8.ofNat u, UInt8.ofNat (u / 256)]
  | big => [UInt8.ofNat (u / 256), UInt8.ofNat u]

/-- The code units of a character in UTF-16: one, or the two halves of a surrogate pair. -/
def utf16Units (c : Char) : List Nat :=
  if c.toNat < 0x10000 then [c.toNat]
  else [0xD800 + (c.toNat - 0x10000) / 0x400, 0xDC00 + (c.toNat - 0x10000) % 0x400]

namespace UnicodeForm

def encoding : UnicodeForm → Encoding
  | utf8 => .utf8
  | utf16 order => .utf16 order

/-- The byte-order mark. -/
def mark : UnicodeForm → List UInt8
  | utf8 => [0xEF, 0xBB, 0xBF]
  | utf16 .little => [0xFF, 0xFE]
  | utf16 .big => [0xFE, 0xFF]

def encodeChar : UnicodeForm → Char → List UInt8
  | utf8, c => String.utf8EncodeChar c
  | utf16 order, c => (utf16Units c).flatMap order.bytes

/-- The bytes of a text, without a mark. -/
def encode (f : UnicodeForm) (t : Text) : List UInt8 :=
  t.flatMap f.encodeChar

end UnicodeForm

/-! ## Reading UTF-8 -/

namespace Utf8State

theorem step_ascii {b : Nat} (h : b < 0x80) :
    step start b = ⟨[some (Char.ofNat b)], start⟩ := by
  rw [step, first, if_pos h]

theorem step_two {b : Nat} (h : 0xC2 ≤ b ∧ b ≤ 0xDF) :
    step start b = ⟨[], inside 1 0x80 0xBF (b - 0xC0)⟩ := by
  rw [step, first, if_neg (by omega), if_pos h]

theorem step_three {b : Nat} (h : 0xE0 ≤ b ∧ b ≤ 0xEF) :
    step start b =
      ⟨[], inside 2 (if b = 0xE0 then 0xA0 else 0x80) (if b = 0xED then 0x9F else 0xBF)
        (b - 0xE0)⟩ := by
  rw [step, first, if_neg (by omega), if_neg (by omega), if_pos h]

theorem step_four {b : Nat} (h : 0xF0 ≤ b ∧ b ≤ 0xF4) :
    step start b =
      ⟨[], inside 3 (if b = 0xF0 then 0x90 else 0x80) (if b = 0xF4 then 0x8F else 0xBF)
        (b - 0xF0)⟩ := by
  rw [step, first, if_neg (by omega), if_neg (by omega), if_neg (by omega), if_pos h]

theorem step_last {low high bits b : Nat} (h : low ≤ b ∧ b ≤ high) :
    step (inside 1 low high bits) b = ⟨[some (Char.ofNat (bits * 64 + (b - 0x80)))], start⟩ := by
  rw [step, if_pos h]
  rfl

theorem step_more {missing low high bits b : Nat} (h : low ≤ b ∧ b ≤ high)
    (hmore : missing ≠ 1) :
    step (inside missing low high bits) b =
      ⟨[], inside (missing - 1) 0x80 0xBF (bits * 64 + (b - 0x80))⟩ := by
  rw [step, if_pos h]
  exact if_neg hmore

end Utf8State

namespace Decoder

theorem decodeAfter_cons {σ : Type} (d : Decoder σ) (done : List (Option Char)) (s : σ) (b : UInt8)
    (rest : List UInt8) :
    d.decodeAfter done s (b :: rest) =
      d.decodeAfter ((d.step s b).items.reverseAux done) (d.step s b).state rest := rfl

theorem toNat_ofNat_of_lt {n : Nat} (h : n < 256) : (UInt8.ofNat n).toNat = n := by
  rw [UInt8.toNat_ofNat']
  exact Nat.mod_eq_of_lt h

section Utf8

variable {done : List (Option Char)} {rest : List UInt8} {a b c d : Nat}

private theorem decodeAfter_utf8_cons {items : List (Option Char)} {s s' : Utf8State}
    (hn : a < 256) (h : s.step a = ⟨items, s'⟩) :
    utf8.decodeAfter done s (UInt8.ofNat a :: rest) =
      utf8.decodeAfter (items.reverseAux done) s' rest := by
  have hstep : utf8.step s (UInt8.ofNat a) = ⟨items, s'⟩ := by
    show s.step (UInt8.ofNat a).toNat = _
    rw [toNat_ofNat_of_lt hn, h]
  rw [decodeAfter_cons, hstep]

theorem decodeAfter_one (ha : a < 0x80) :
    utf8.decodeAfter done .start (UInt8.ofNat a :: rest) =
      utf8.decodeAfter (some (Char.ofNat a) :: done) .start rest :=
  decodeAfter_utf8_cons (by omega) (Utf8State.step_ascii ha)

theorem decodeAfter_two (ha : 2 ≤ a ∧ a < 32) (hb : b < 64) :
    utf8.decodeAfter done .start (UInt8.ofNat (a + 192) :: UInt8.ofNat (b + 128) :: rest) =
      utf8.decodeAfter (some (Char.ofNat (a * 64 + b)) :: done) .start rest := by
  have hfirst := Utf8State.step_two (b := a + 192) (by omega)
  have hlast := @Utf8State.step_last 0x80 0xBF a (b + 128) (by omega)
  rw [Nat.add_sub_cancel] at hfirst hlast
  rw [decodeAfter_utf8_cons (by omega) hfirst, decodeAfter_utf8_cons (by omega) hlast]
  rfl

/-- After the first byte `0xE0` there would be overlong forms, and after `0xED` surrogates. -/
theorem decodeAfter_three (ha : a < 16) (hb : b < 64) (hc : c < 64) (hlong : a = 0 → 32 ≤ b)
    (hsurrogate : a = 13 → b < 32) :
    utf8.decodeAfter done .start
        (UInt8.ofNat (a + 224) :: UInt8.ofNat (b + 128) :: UInt8.ofNat (c + 128) :: rest) =
      utf8.decodeAfter (some (Char.ofNat ((a * 64 + b) * 64 + c)) :: done) .start rest := by
  have hfirst := Utf8State.step_three (b := a + 224) (by omega)
  have hmore := @Utf8State.step_more 2 (if a + 224 = 0xE0 then 0xA0 else 0x80)
    (if a + 224 = 0xED then 0x9F else 0xBF) a (b + 128) (by split <;> split <;> omega) (by omega)
  have hlast := @Utf8State.step_last 0x80 0xBF (a * 64 + b) (c + 128) (by omega)
  rw [Nat.add_sub_cancel] at hfirst hmore hlast
  rw [decodeAfter_utf8_cons (by omega) hfirst, decodeAfter_utf8_cons (by omega) hmore,
    decodeAfter_utf8_cons (by omega) hlast]
  rfl

/-- After the first byte `0xF0` there would be overlong forms, and after `0xF4` numbers that are no
code points. -/
theorem decodeAfter_four (ha : a ≤ 4) (hb : b < 64) (hc : c < 64) (hd : d < 64)
    (hlong : a = 0 → 16 ≤ b) (hlarge : a = 4 → b < 16) :
    utf8.decodeAfter done .start
        (UInt8.ofNat (a + 240) :: UInt8.ofNat (b + 128) :: UInt8.ofNat (c + 128) ::
          UInt8.ofNat (d + 128) :: rest) =
      utf8.decodeAfter (some (Char.ofNat (((a * 64 + b) * 64 + c) * 64 + d)) :: done) .start rest := by
  have hfirst := Utf8State.step_four (b := a + 240) (by omega)
  have hmore := @Utf8State.step_more 3 (if a + 240 = 0xF0 then 0x90 else 0x80)
    (if a + 240 = 0xF4 then 0x8F else 0xBF) a (b + 128) (by split <;> split <;> omega) (by omega)
  have hmore' := @Utf8State.step_more 2 0x80 0xBF (a * 64 + b) (c + 128) (by omega) (by omega)
  have hlast := @Utf8State.step_last 0x80 0xBF ((a * 64 + b) * 64 + c) (d + 128) (by omega)
  rw [Nat.add_sub_cancel] at hfirst hmore hmore' hlast
  rw [decodeAfter_utf8_cons (by omega) hfirst, decodeAfter_utf8_cons (by omega) hmore,
    decodeAfter_utf8_cons (by omega) hmore', decodeAfter_utf8_cons (by omega) hlast]
  rfl

end Utf8

theorem decodeAfter_utf8EncodeChar (done : List (Option Char)) (c : Char) (rest : List UInt8) :
    utf8.decodeAfter done .start (String.utf8EncodeChar c ++ rest) =
      utf8.decodeAfter (some c :: done) .start rest := by
  have hvalid : c.toNat < 0xD800 ∨ (0xDFFF < c.toNat ∧ c.toNat < 0x110000) := c.valid
  have hback : Char.ofNat c.toNat = c := Char.ofNat_toNat c
  unfold String.utf8EncodeChar
  simp only [Char.toNat_val]
  split
  · rw [List.singleton_append, decodeAfter_one (by omega), hback]
  split
  · have hbits : c.toNat / 64 % 32 * 64 + c.toNat % 64 = c.toNat := by omega
    rw [List.cons_append, List.singleton_append, decodeAfter_two (by omega) (by omega), hbits, hback]
  split
  · have hbits : (c.toNat / 4096 % 16 * 64 + c.toNat / 64 % 64) * 64 + c.toNat % 64 = c.toNat := by
      omega
    rw [List.cons_append, List.cons_append, List.singleton_append,
      decodeAfter_three (by omega) (by omega) (by omega) (by omega) (by omega), hbits, hback]
  · have hbits : ((c.toNat / 262144 % 8 * 64 + c.toNat / 4096 % 64) * 64 + c.toNat / 64 % 64) * 64 +
        c.toNat % 64 = c.toNat := by omega
    rw [List.cons_append, List.cons_append, List.cons_append, List.singleton_append,
      decodeAfter_four (by omega) (by omega) (by omega) (by omega) (by omega) (by omega), hbits,
      hback]

end Decoder

/-! ## Reading UTF-16 -/

namespace ByteOrder

variable {order : ByteOrder} {u : Nat}

@[simp]
theorem length_bytes (order : ByteOrder) (u : Nat) : (order.bytes u).length = 2 := by
  cases order <;> rfl

/-- The bytes of a unit are its digits to the base 256. -/
theorem unit_bytes (order : ByteOrder) (hu : u < 0x10000) :
    ∃ a b, order.bytes u = [a, b] ∧ order.unit a b = u := by
  have hlow : (UInt8.ofNat u).toNat = u % 256 := UInt8.toNat_ofNat'
  have hhigh : (UInt8.ofNat (u / 256)).toNat = u / 256 := Decoder.toNat_ofNat_of_lt (by omega)
  cases order with
  | little =>
    refine ⟨_, _, rfl, ?_⟩
    show (UInt8.ofNat (u / 256)).toNat * 256 + (UInt8.ofNat u).toNat = u
    omega
  | big =>
    refine ⟨_, _, rfl, ?_⟩
    show (UInt8.ofNat (u / 256)).toNat * 256 + (UInt8.ofNat u).toNat = u
    omega

end ByteOrder

namespace Decoder

variable {order : ByteOrder} {done : List (Option Char)} {rest : List UInt8}

/-- A unit is read byte by byte. -/
theorem decodeAfter_unit {u : Nat} (hu : u < 0x10000) (lead : Option Nat) :
    (utf16 order.unit).decodeAfter done ⟨none, lead⟩ (order.bytes u ++ rest) =
      (utf16 order.unit).decodeAfter ((Utf16State.stepUnit lead u).items.reverseAux done)
        (Utf16State.stepUnit lead u).state rest := by
  obtain ⟨a, b, hbytes, hunit⟩ := order.unit_bytes hu
  rw [hbytes, ← hunit]
  rfl

theorem decodeAfter_utf16Units (done : List (Option Char)) (c : Char) (rest : List UInt8) :
    (utf16 order.unit).decodeAfter done .start ((utf16Units c).flatMap order.bytes ++ rest) =
      (utf16 order.unit).decodeAfter (some c :: done) .start rest := by
  have hvalid : c.toNat < 0xD800 ∨ (0xDFFF < c.toNat ∧ c.toNat < 0x110000) := c.valid
  have hback : Char.ofNat c.toNat = c := Char.ofNat_toNat c
  unfold utf16Units
  split
  · -- One unit, which is no surrogate
    have hstep : Utf16State.stepUnit none c.toNat = ⟨[some c], .start⟩ := by
      unfold Utf16State.stepUnit Utf16State.first Utf16State.isLead Utf16State.isTrail
      rw [if_neg (by simp; omega), if_neg (by simp; omega), hback]
    rw [List.flatMap_singleton, Utf16State.start, decodeAfter_unit (by omega), hstep]
    rfl
  · have hlead : Utf16State.stepUnit none (0xD800 + (c.toNat - 0x10000) / 0x400) =
        ⟨[], ⟨none, some (0xD800 + (c.toNat - 0x10000) / 0x400)⟩⟩ := by
      unfold Utf16State.stepUnit Utf16State.first Utf16State.isLead
      rw [if_pos (by simp; omega)]
    have htrail : Utf16State.stepUnit (some (0xD800 + (c.toNat - 0x10000) / 0x400))
        (0xDC00 + (c.toNat - 0x10000) % 0x400) = ⟨[some c], .start⟩ := by
      have hbits : 0x10000 + (0xD800 + (c.toNat - 0x10000) / 0x400 - 0xD800) * 0x400 +
          (0xDC00 + (c.toNat - 0x10000) % 0x400 - 0xDC00) = c.toNat := by omega
      unfold Utf16State.stepUnit Utf16State.isTrail
      simp only
      rw [if_pos (by simp; omega), hbits, hback]
    rw [List.flatMap_cons, List.flatMap_singleton, List.append_assoc, Utf16State.start,
      decodeAfter_unit (by omega), hlead]
    show (utf16 order.unit).decodeAfter done _ _ = _
    rw [decodeAfter_unit (by omega), htrail]
    rfl

end Decoder

/-! ## Reading back -/

/-- A decoder that reads each character back and is then at its start reads a text back. -/
theorem Decoder.decodeAfter_flatMap {σ : Type} {d : Decoder σ} {f : Char → List UInt8}
    (hchar : ∀ done c rest, d.decodeAfter done d.start (f c ++ rest) =
      d.decodeAfter (some c :: done) d.start rest)
    (hend : d.finish d.start = []) (done : List (Option Char)) (t : Text) :
    d.decodeAfter done d.start (t.flatMap f) = done.reverse ++ t.map some := by
  induction t generalizing done with
  | nil =>
    rw [List.flatMap_nil, decodeAfter, hend, List.map_nil, List.append_nil]
    rfl
  | cons c rest ih =>
    rw [List.flatMap_cons, hchar, ih, List.reverse_cons, List.append_assoc]
    rfl

namespace UnicodeForm

variable {f : UnicodeForm}

theorem items_encode (f : UnicodeForm) (t : Text) : f.encoding.items (f.encode t) = t.map some := by
  cases f with
  | utf8 => exact Decoder.decodeAfter_flatMap Decoder.decodeAfter_utf8EncodeChar rfl [] t
  | utf16 order => exact Decoder.decodeAfter_flatMap Decoder.decodeAfter_utf16Units rfl [] t

/-- What has been written is read back. -/
theorem decode?_encode (f : UnicodeForm) (t : Text) : f.encoding.decode? (f.encode t) = some t := by
  rw [Encoding.decode?, items_encode]
  have hall : (t.map some).all Option.isSome = true := by simp
  have hback : (t.map some).filterMap id = t := by simp
  rw [if_pos hall, hback]

end UnicodeForm

end Lexicon
