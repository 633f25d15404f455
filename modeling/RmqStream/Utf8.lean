import RmqStream.Library.BigEndian

/-! The strict UTF-8 validator of `src/utf8.cpp`, and its exact language.

`isValidUtf8` is the recursion on the bytes not yet accepted that the codec uses; the
index loop over `data[i..n)`, with every index it reads, is shown to make the same
decisions. The specification is the concatenation of the encodings of Unicode scalar
values. -/

set_option autoImplicit false

namespace RmqStream
open Library

def codePoint2 (b0 b1 : UInt8) : UInt32 :=
  (b0 &&& 0x1F).toUInt32 <<< 6 ||| (b1 &&& 0x3F).toUInt32

def codePoint3 (b0 b1 b2 : UInt8) : UInt32 :=
  (b0 &&& 0x0F).toUInt32 <<< 12 ||| (b1 &&& 0x3F).toUInt32 <<< 6 ||| (b2 &&& 0x3F).toUInt32

def codePoint4 (b0 b1 b2 b3 : UInt8) : UInt32 :=
  (b0 &&& 0x07).toUInt32 <<< 18 ||| (b1 &&& 0x3F).toUInt32 <<< 12 |||
    (b2 &&& 0x3F).toUInt32 <<< 6 ||| (b3 &&& 0x3F).toUInt32

/-- `is_valid_utf8`: no overlong forms, no surrogates, nothing above U+10FFFF. -/
def isValidUtf8 : Bytes → Bool
  | [] => true
  | b0 :: rest =>
    if b0 < 0x80 then isValidUtf8 rest
    else if b0 &&& 0xE0 = 0xC0 then
      match rest with
      | b1 :: rest =>
        if b1 &&& 0xC0 ≠ 0x80 then false
        else if codePoint2 b0 b1 < 0x80 then false
        else isValidUtf8 rest
      | _ => false
    else if b0 &&& 0xF0 = 0xE0 then
      match rest with
      | b1 :: b2 :: rest =>
        if b1 &&& 0xC0 ≠ 0x80 ∨ b2 &&& 0xC0 ≠ 0x80 then false
        else if codePoint3 b0 b1 b2 < 0x800 then false
        else if codePoint3 b0 b1 b2 ≥ 0xD800 ∧ codePoint3 b0 b1 b2 ≤ 0xDFFF then false
        else isValidUtf8 rest
      | _ => false
    else if b0 &&& 0xF8 = 0xF0 then
      match rest with
      | b1 :: b2 :: b3 :: rest =>
        if b1 &&& 0xC0 ≠ 0x80 ∨ b2 &&& 0xC0 ≠ 0x80 ∨ b3 &&& 0xC0 ≠ 0x80 then false
        else if codePoint4 b0 b1 b2 b3 < 0x10000 then false
        else if codePoint4 b0 b1 b2 b3 > 0x10FFFF then false
        else isValidUtf8 rest
      | _ => false
    else false

def encodeText (scalars : List Char) : Bytes := scalars.flatMap String.utf8EncodeChar

/-- Well-formed UTF-8: a concatenation of shortest-form scalar encodings. -/
def Utf8 (bytes : Bytes) : Prop := ∃ scalars : List Char, bytes = encodeText scalars

def text (literal : String) : Bytes := encodeText literal.toList

theorem lead_masks : ∀ n < 256, (n &&& 0xE0 = 0xC0 ↔ 0xC0 ≤ n ∧ n < 0xE0) ∧
    (n &&& 0xF0 = 0xE0 ↔ 0xE0 ≤ n ∧ n < 0xF0) ∧ (n &&& 0xF8 = 0xF0 ↔ 0xF0 ≤ n ∧ n < 0xF8) ∧
    (n &&& 0xC0 = 0x80 ↔ 0x80 ≤ n ∧ n < 0xC0) := by
  decide +kernel

theorem lead2_iff (b : UInt8) : b &&& 0xE0 = 0xC0 ↔ 0xC0 ≤ b.toNat ∧ b.toNat < 0xE0 := by
  rw [← UInt8.toNat_inj]
  exact (lead_masks _ b.toNat_lt).1

theorem lead3_iff (b : UInt8) : b &&& 0xF0 = 0xE0 ↔ 0xE0 ≤ b.toNat ∧ b.toNat < 0xF0 := by
  rw [← UInt8.toNat_inj]
  exact (lead_masks _ b.toNat_lt).2.1

theorem lead4_iff (b : UInt8) : b &&& 0xF8 = 0xF0 ↔ 0xF0 ≤ b.toNat ∧ b.toNat < 0xF8 := by
  rw [← UInt8.toNat_inj]
  exact (lead_masks _ b.toNat_lt).2.2.1

theorem continuation_iff (b : UInt8) : b &&& 0xC0 = 0x80 ↔ 0x80 ≤ b.toNat ∧ b.toNat < 0xC0 := by
  rw [← UInt8.toNat_inj]
  exact (lead_masks _ b.toNat_lt).2.2.2

theorem payload3 (b : UInt8) : (b &&& 0x07).toUInt32.toNat = b.toNat % 8 := and_low_bits b.toNat 3
theorem payload4 (b : UInt8) : (b &&& 0x0F).toUInt32.toNat = b.toNat % 16 := and_low_bits b.toNat 4
theorem payload5 (b : UInt8) : (b &&& 0x1F).toUInt32.toNat = b.toNat % 32 := and_low_bits b.toNat 5
theorem payload6 (b : UInt8) : (b &&& 0x3F).toUInt32.toNat = b.toNat % 64 := and_low_bits b.toNat 6

theorem shift6 (word : UInt32) (fits : word.toNat < 64) : (word <<< 6).toNat = word.toNat * 64 :=
  shiftLeft_toNat word 6 (by decide) (show word.toNat * 64 < _ by omega)

theorem shift12 (word : UInt32) (fits : word.toNat < 64) : (word <<< 12).toNat = word.toNat * 4096 :=
  shiftLeft_toNat word 12 (by decide) (show word.toNat * 4096 < _ by omega)

theorem shift18 (word : UInt32) (fits : word.toNat < 64) : (word <<< 18).toNat = word.toNat * 262144 :=
  shiftLeft_toNat word 18 (by decide) (show word.toNat * 262144 < _ by omega)

theorem codePoint2_toNat (b0 b1 : UInt8) :
    (codePoint2 b0 b1).toNat = b0.toNat % 32 * 64 + b1.toNat % 64 := by
  have low := payload6 b1
  rw [codePoint2, UInt32.toNat_or, shift6 _ (by rw [payload5]; omega), payload5, low]
  exact or_eq_add _ _ 6 (by omega) (by omega)

theorem codePoint3_toNat (b0 b1 b2 : UInt8) :
    (codePoint3 b0 b1 b2).toNat = b0.toNat % 16 * 4096 + b1.toNat % 64 * 64 + b2.toNat % 64 := by
  rw [codePoint3, UInt32.toNat_or, UInt32.toNat_or, shift12 _ (by rw [payload4]; omega),
    shift6 _ (by rw [payload6]; omega), payload4, payload6, payload6,
    or_eq_add _ (b1.toNat % 64 * 64) 12 (by omega) (by omega)]
  exact or_eq_add _ _ 6 (by omega) (by omega)

theorem codePoint4_toNat (b0 b1 b2 b3 : UInt8) :
    (codePoint4 b0 b1 b2 b3).toNat =
      b0.toNat % 8 * 262144 + b1.toNat % 64 * 4096 + b2.toNat % 64 * 64 + b3.toNat % 64 := by
  rw [codePoint4, UInt32.toNat_or, UInt32.toNat_or, UInt32.toNat_or,
    shift18 _ (by rw [payload3]; omega), shift12 _ (by rw [payload6]; omega),
    shift6 _ (by rw [payload6]; omega), payload3, payload6, payload6, payload6,
    or_eq_add _ (b1.toNat % 64 * 4096) 18 (by omega) (by omega),
    or_eq_add _ (b2.toNat % 64 * 64) 12 (by omega) (by omega)]
  exact or_eq_add _ _ 6 (by omega) (by omega)

theorem exists_scalar (n : Nat) (valid : n < 0xD800 ∨ 0xDFFF < n ∧ n < 0x110000) :
    ∃ c : Char, c.val.toNat = n := by
  refine ⟨⟨UInt32.ofNat n, ?_⟩, ?_⟩
  · show Nat.isValidChar (UInt32.ofNat n).toNat
    rw [UInt32.toNat_ofNat_of_lt' (by simp [UInt32.size]; omega)]
    exact valid
  · exact UInt32.toNat_ofNat_of_lt' (by simp [UInt32.size]; omega)

theorem scalar_range (c : Char) :
    c.val.toNat < 0xD800 ∨ 0xDFFF < c.val.toNat ∧ c.val.toNat < 0x110000 := c.valid

theorem encodeChar_one (c : Char) (b0 : UInt8) (value : c.val.toNat = b0.toNat) (low : b0.toNat < 0x80) :
    String.utf8EncodeChar c = [b0] := by
  simp only [String.utf8EncodeChar, value, show b0.toNat ≤ 0x7F by omega, ↓reduceIte]
  simp

theorem encodeChar_two (c : Char) (b0 b1 : UInt8)
    (value : c.val.toNat = b0.toNat % 32 * 64 + b1.toNat % 64)
    (lead : 0xC0 ≤ b0.toNat ∧ b0.toNat < 0xE0) (next : 0x80 ≤ b1.toNat ∧ b1.toNat < 0xC0)
    (shortest : 0x80 ≤ c.val.toNat) : String.utf8EncodeChar c = [b0, b1] := by
  simp only [String.utf8EncodeChar, show ¬ c.val.toNat ≤ 0x7F by omega,
    show c.val.toNat ≤ 0x7FF by omega, ↓reduceIte]
  simp only [List.cons.injEq, and_true, ← UInt8.toNat_inj, UInt8.toNat_ofNat']
  omega

theorem encodeChar_three (c : Char) (b0 b1 b2 : UInt8)
    (value : c.val.toNat = b0.toNat % 16 * 4096 + b1.toNat % 64 * 64 + b2.toNat % 64)
    (lead : 0xE0 ≤ b0.toNat ∧ b0.toNat < 0xF0) (next : 0x80 ≤ b1.toNat ∧ b1.toNat < 0xC0)
    (last : 0x80 ≤ b2.toNat ∧ b2.toNat < 0xC0)
    (shortest : 0x800 ≤ c.val.toNat) : String.utf8EncodeChar c = [b0, b1, b2] := by
  simp only [String.utf8EncodeChar, show ¬ c.val.toNat ≤ 0x7F by omega,
    show ¬ c.val.toNat ≤ 0x7FF by omega, show c.val.toNat ≤ 0xFFFF by omega, ↓reduceIte]
  simp only [List.cons.injEq, and_true, ← UInt8.toNat_inj, UInt8.toNat_ofNat']
  omega

theorem encodeChar_four (c : Char) (b0 b1 b2 b3 : UInt8)
    (value : c.val.toNat =
      b0.toNat % 8 * 262144 + b1.toNat % 64 * 4096 + b2.toNat % 64 * 64 + b3.toNat % 64)
    (lead : 0xF0 ≤ b0.toNat ∧ b0.toNat < 0xF8) (next : 0x80 ≤ b1.toNat ∧ b1.toNat < 0xC0)
    (third : 0x80 ≤ b2.toNat ∧ b2.toNat < 0xC0) (last : 0x80 ≤ b3.toNat ∧ b3.toNat < 0xC0)
    (shortest : 0x10000 ≤ c.val.toNat) : String.utf8EncodeChar c = [b0, b1, b2, b3] := by
  simp only [String.utf8EncodeChar, show ¬ c.val.toNat ≤ 0x7F by omega,
    show ¬ c.val.toNat ≤ 0x7FF by omega, show ¬ c.val.toNat ≤ 0xFFFF by omega, ↓reduceIte]
  simp only [List.cons.injEq, and_true, ← UInt8.toNat_inj, UInt8.toNat_ofNat']
  omega

/-! ## One accepted chunk -/

theorem unless_iff (bad : Prop) [Decidable bad] (rest : Bool) :
    (if bad then false else rest) = true ↔ ¬ bad ∧ rest = true := by
  split <;> simp [*]

theorem isValidUtf8_one (b0 : UInt8) (tail : Bytes) (low : b0.toNat < 0x80) :
    isValidUtf8 (b0 :: tail) = isValidUtf8 tail := by
  have small : b0 < 0x80 := by rw [UInt8.lt_iff_toNat_lt]; exact low
  rw [isValidUtf8.eq_def]
  simp only [small, ↓reduceIte]

theorem isValidUtf8_two (b0 b1 : UInt8) (tail : Bytes) (lead : 0xC0 ≤ b0.toNat ∧ b0.toNat < 0xE0) :
    isValidUtf8 (b0 :: b1 :: tail) = true ↔ (0x80 ≤ b1.toNat ∧ b1.toNat < 0xC0) ∧
      0x80 ≤ (codePoint2 b0 b1).toNat ∧ isValidUtf8 tail = true := by
  have large : ¬ b0 < 0x80 := by rw [UInt8.lt_iff_toNat_lt]; show ¬ _ < 0x80; omega
  rw [isValidUtf8.eq_def]
  simp only [large, (lead2_iff b0).mpr lead, ↓reduceIte, ne_eq, continuation_iff,
    UInt32.lt_iff_toNat_lt, unless_iff]
  generalize (codePoint2 b0 b1).toNat = cp
  show ¬ _ ∧ ¬ cp < 0x80 ∧ _ ↔ _
  rw [not_not, Nat.not_lt]

theorem isValidUtf8_three (b0 b1 b2 : UInt8) (tail : Bytes)
    (lead : 0xE0 ≤ b0.toNat ∧ b0.toNat < 0xF0) :
    isValidUtf8 (b0 :: b1 :: b2 :: tail) = true ↔ (0x80 ≤ b1.toNat ∧ b1.toNat < 0xC0) ∧
      (0x80 ≤ b2.toNat ∧ b2.toNat < 0xC0) ∧ 0x800 ≤ (codePoint3 b0 b1 b2).toNat ∧
      ((codePoint3 b0 b1 b2).toNat < 0xD800 ∨ 0xDFFF < (codePoint3 b0 b1 b2).toNat) ∧
      isValidUtf8 tail = true := by
  have large : ¬ b0 < 0x80 := by rw [UInt8.lt_iff_toNat_lt]; show ¬ _ < 0x80; omega
  have notTwo : ¬ b0 &&& 0xE0 = 0xC0 := by rw [lead2_iff]; omega
  rw [isValidUtf8.eq_def]
  simp only [large, notTwo, (lead3_iff b0).mpr lead, ↓reduceIte, ne_eq, continuation_iff,
    UInt32.lt_iff_toNat_lt, ge_iff_le, UInt32.le_iff_toNat_le]
  generalize (codePoint3 b0 b1 b2).toNat = cp
  show (if _ then false else if cp < 0x800 then false else if 0xD800 ≤ cp ∧ cp ≤ 0xDFFF then false
    else isValidUtf8 tail) = true ↔ _
  rw [unless_iff, unless_iff, unless_iff]
  by_cases valid : isValidUtf8 tail = true
  · simp only [valid, and_true]; omega
  · simp [valid]

theorem isValidUtf8_four (b0 b1 b2 b3 : UInt8) (tail : Bytes)
    (lead : 0xF0 ≤ b0.toNat ∧ b0.toNat < 0xF8) :
    isValidUtf8 (b0 :: b1 :: b2 :: b3 :: tail) = true ↔ (0x80 ≤ b1.toNat ∧ b1.toNat < 0xC0) ∧
      (0x80 ≤ b2.toNat ∧ b2.toNat < 0xC0) ∧ (0x80 ≤ b3.toNat ∧ b3.toNat < 0xC0) ∧
      0x10000 ≤ (codePoint4 b0 b1 b2 b3).toNat ∧ (codePoint4 b0 b1 b2 b3).toNat < 0x110000 ∧
      isValidUtf8 tail = true := by
  have large : ¬ b0 < 0x80 := by rw [UInt8.lt_iff_toNat_lt]; show ¬ _ < 0x80; omega
  have notTwo : ¬ b0 &&& 0xE0 = 0xC0 := by rw [lead2_iff]; omega
  have notThree : ¬ b0 &&& 0xF0 = 0xE0 := by rw [lead3_iff]; omega
  rw [isValidUtf8.eq_def]
  simp only [large, notTwo, notThree, (lead4_iff b0).mpr lead, ↓reduceIte, ne_eq, continuation_iff,
    UInt32.lt_iff_toNat_lt, gt_iff_lt]
  generalize (codePoint4 b0 b1 b2 b3).toNat = cp
  show (if _ then false else if cp < 0x10000 then false else if 0x10FFFF < cp then false
    else isValidUtf8 tail) = true ↔ _
  rw [unless_iff, unless_iff, unless_iff]
  by_cases valid : isValidUtf8 tail = true
  · simp only [valid, and_true]; omega
  · simp [valid]

theorem isValidUtf8_encodeChar (c : Char) (tail : Bytes) :
    isValidUtf8 (String.utf8EncodeChar c ++ tail) = isValidUtf8 tail := by
  have range := scalar_range c
  have iff_eq : ∀ {a b : Bool}, (a = true ↔ b = true) → a = b := fun h => Bool.eq_iff_iff.mpr h
  simp only [String.utf8EncodeChar]
  split_ifs with one two three <;> simp only [List.cons_append, List.nil_append]
  · apply isValidUtf8_one
    rw [UInt8.toNat_ofNat']
    omega
  · apply iff_eq
    rw [isValidUtf8_two _ _ _ (by simp only [UInt8.toNat_ofNat']; omega), codePoint2_toNat]
    simp only [UInt8.toNat_ofNat']
    exact ⟨fun h => h.2.2, fun h => ⟨by omega, by omega, h⟩⟩
  · apply iff_eq
    rw [isValidUtf8_three _ _ _ _ (by simp only [UInt8.toNat_ofNat']; omega), codePoint3_toNat]
    simp only [UInt8.toNat_ofNat']
    exact ⟨fun h => h.2.2.2.2, fun h => ⟨by omega, by omega, by omega, by omega, h⟩⟩
  · apply iff_eq
    rw [isValidUtf8_four _ _ _ _ _ (by simp only [UInt8.toNat_ofNat']; omega), codePoint4_toNat]
    simp only [UInt8.toNat_ofNat']
    exact ⟨fun h => h.2.2.2.2.2, fun h => ⟨by omega, by omega, by omega, by omega, by omega, h⟩⟩

theorem isValidUtf8_split (b0 : UInt8) (rest : Bytes) (valid : isValidUtf8 (b0 :: rest) = true) :
    ∃ c tail, b0 :: rest = String.utf8EncodeChar c ++ tail ∧ isValidUtf8 tail = true := by
  have byte := b0.toNat_lt
  -- The lead byte fixes the width; a missing continuation byte is a rejection.
  by_cases one : b0.toNat < 0x80
  · obtain ⟨c, value⟩ := exists_scalar b0.toNat (by omega)
    rw [isValidUtf8_one b0 rest one] at valid
    exact ⟨c, rest, by rw [encodeChar_one c b0 value one]; rfl, valid⟩
  have large : ¬ b0 < 0x80 := by rw [UInt8.lt_iff_toNat_lt]; exact one
  by_cases two : 0xC0 ≤ b0.toNat ∧ b0.toNat < 0xE0
  · match rest with
    | [] => simp [isValidUtf8, large, (lead2_iff b0).mpr two] at valid
    | b1 :: tail =>
      obtain ⟨next, shortest, valid⟩ := (isValidUtf8_two b0 b1 tail two).mp valid
      rw [codePoint2_toNat] at shortest
      obtain ⟨c, value⟩ := exists_scalar (b0.toNat % 32 * 64 + b1.toNat % 64) (by omega)
      exact ⟨c, tail, by rw [encodeChar_two c b0 b1 value two next (by omega)]; rfl, valid⟩
  have notTwo : ¬ b0 &&& 0xE0 = 0xC0 := by rw [lead2_iff]; exact two
  by_cases three : 0xE0 ≤ b0.toNat ∧ b0.toNat < 0xF0
  · match rest with
    | [] => simp [isValidUtf8, large, notTwo, (lead3_iff b0).mpr three] at valid
    | [_] => simp [isValidUtf8, large, notTwo, (lead3_iff b0).mpr three] at valid
    | b1 :: b2 :: tail =>
      obtain ⟨next, last, shortest, gap, valid⟩ := (isValidUtf8_three b0 b1 b2 tail three).mp valid
      rw [codePoint3_toNat] at shortest gap
      obtain ⟨c, value⟩ := exists_scalar
        (b0.toNat % 16 * 4096 + b1.toNat % 64 * 64 + b2.toNat % 64) (by omega)
      exact ⟨c, tail, by rw [encodeChar_three c b0 b1 b2 value three next last (by omega)]; rfl, valid⟩
  have notThree : ¬ b0 &&& 0xF0 = 0xE0 := by rw [lead3_iff]; exact three
  by_cases four : 0xF0 ≤ b0.toNat ∧ b0.toNat < 0xF8
  · match rest with
    | [] => simp [isValidUtf8, large, notTwo, notThree, (lead4_iff b0).mpr four] at valid
    | [_] => simp [isValidUtf8, large, notTwo, notThree, (lead4_iff b0).mpr four] at valid
    | [_, _] => simp [isValidUtf8, large, notTwo, notThree, (lead4_iff b0).mpr four] at valid
    | b1 :: b2 :: b3 :: tail =>
      obtain ⟨next, third, last, shortest, top, valid⟩ := (isValidUtf8_four b0 b1 b2 b3 tail four).mp valid
      rw [codePoint4_toNat] at shortest top
      obtain ⟨c, value⟩ := exists_scalar
        (b0.toNat % 8 * 262144 + b1.toNat % 64 * 4096 + b2.toNat % 64 * 64 + b3.toNat % 64) (by omega)
      exact ⟨c, tail,
        by rw [encodeChar_four c b0 b1 b2 b3 value four next third last (by omega)]; rfl, valid⟩
  have notFour : ¬ b0 &&& 0xF8 = 0xF0 := by rw [lead4_iff]; exact four
  rw [isValidUtf8.eq_def] at valid
  simp [large, notTwo, notThree, notFour] at valid

theorem isValidUtf8_iff (bytes : Bytes) : isValidUtf8 bytes = true ↔ Utf8 bytes := by
  constructor
  · -- Induction on the length: each accepted chunk is at least one byte.
    induction measured : bytes.length using Nat.strong_induction_on generalizing bytes with
    | _ size ih =>
      intro valid
      match bytes with
      | [] => exact ⟨[], rfl⟩
      | b0 :: rest =>
        obtain ⟨c, tail, split, tailValid⟩ := isValidUtf8_split b0 rest valid
        have nonempty : 0 < (String.utf8EncodeChar c).length := by
          rw [String.length_utf8EncodeChar]; exact c.utf8Size_pos
        have shorter : tail.length < size := by
          rw [← measured, split, List.length_append]; omega
        obtain ⟨scalars, rfl⟩ := ih tail.length shorter tail rfl tailValid
        exact ⟨c :: scalars, by rw [split]; simp [encodeText]⟩
  · rintro ⟨scalars, rfl⟩
    induction scalars with
    | nil => rfl
    | cons c scalars ih =>
      have chunk := isValidUtf8_encodeChar c (encodeText scalars)
      simp only [encodeText, List.flatMap_cons] at chunk ih ⊢
      rw [chunk, ih]

/-! ## The loop over the array

`data` is the pointer: it has a value at every index, also where the array has ended.
`i < n`, and no array comes within three bytes of the range of `std::size_t`, so the
sums `i + 1`, `i + 2` and `i + 3` do not wrap. -/

/-- One pass through the body of the loop: the indices it reads, and the index it goes on
with, or none where it returns false. -/
structure Pass where
  reads : List Nat
  next : Option Nat

def utf8Pass (data : Nat → UInt8) (n i : Nat) : Pass :=
  let b0 := data i
  if b0 < 0x80 then ⟨[i], some (i + 1)⟩
  else if b0 &&& 0xE0 = 0xC0 then
    if i + 1 ≥ n then ⟨[i], none⟩
    else
      let b1 := data (i + 1)
      if b1 &&& 0xC0 ≠ 0x80 then ⟨[i, i + 1], none⟩
      else if codePoint2 b0 b1 < 0x80 then ⟨[i, i + 1], none⟩
      else ⟨[i, i + 1], some (i + 2)⟩
  else if b0 &&& 0xF0 = 0xE0 then
    if i + 2 ≥ n then ⟨[i], none⟩
    else
      let b1 := data (i + 1)
      let b2 := data (i + 2)
      if b1 &&& 0xC0 ≠ 0x80 ∨ b2 &&& 0xC0 ≠ 0x80 then ⟨[i, i + 1, i + 2], none⟩
      else if codePoint3 b0 b1 b2 < 0x800 then ⟨[i, i + 1, i + 2], none⟩
      else if codePoint3 b0 b1 b2 ≥ 0xD800 ∧ codePoint3 b0 b1 b2 ≤ 0xDFFF then ⟨[i, i + 1, i + 2], none⟩
      else ⟨[i, i + 1, i + 2], some (i + 3)⟩
  else if b0 &&& 0xF8 = 0xF0 then
    if i + 3 ≥ n then ⟨[i], none⟩
    else
      let b1 := data (i + 1)
      let b2 := data (i + 2)
      let b3 := data (i + 3)
      if b1 &&& 0xC0 ≠ 0x80 ∨ b2 &&& 0xC0 ≠ 0x80 ∨ b3 &&& 0xC0 ≠ 0x80 then
        ⟨[i, i + 1, i + 2, i + 3], none⟩
      else if codePoint4 b0 b1 b2 b3 < 0x10000 then ⟨[i, i + 1, i + 2, i + 3], none⟩
      else if codePoint4 b0 b1 b2 b3 > 0x10FFFF then ⟨[i, i + 1, i + 2, i + 3], none⟩
      else ⟨[i, i + 1, i + 2, i + 3], some (i + 4)⟩
  else ⟨[i], none⟩

def Pass.Inside (n i : Nat) (pass : Pass) : Prop := (∀ k ∈ pass.reads, k < n) ∧ ∀ j, pass.next = some j → i < j

theorem Pass.inside_ite {n i : Nat} {test : Prop} [Decidable test] {yes no : Pass} (first : test → yes.Inside n i)
    (second : ¬ test → no.Inside n i) : (if test then yes else no).Inside n i := by
  by_cases holds : test
  · rw [if_pos holds]
    exact first holds
  · rw [if_neg holds]
    exact second holds

theorem utf8Pass_inside (data : Nat → UInt8) {n i : Nat} (inside : i < n) : (utf8Pass data n i).Inside n i := by
  unfold utf8Pass
  -- The tests on the length leave what the bounds need.
  repeat' refine Pass.inside_ite (fun _ => ?_) (fun _ => ?_)
  all_goals
    simp only [Pass.Inside, List.forall_mem_cons, List.not_mem_nil, false_implies, implies_true, and_true,
      Option.some.injEq, forall_eq', reduceCtorEq]
    omega

/-- The loop from index `i` on: its answer and every index it reads. -/
def utf8Loop (data : Nat → UInt8) (n i : Nat) : Bool × List Nat :=
  if inside : i < n then
    match step : (utf8Pass data n i).next with
    | none => (false, (utf8Pass data n i).reads)
    | some j =>
      have : i < j := (utf8Pass_inside data inside).2 j step
      ((utf8Loop data n j).1, (utf8Pass data n i).reads ++ (utf8Loop data n j).2)
  else (true, [])
termination_by n - i

def isValidUtf8Array (data : Nat → UInt8) (n : Nat) : Bool × List Nat := utf8Loop data n 0

def bytesFrom (data : Nat → UInt8) (n i : Nat) : Bytes := (List.range' i (n - i)).map data

theorem bytesFrom_length (data : Nat → UInt8) (n i : Nat) : (bytesFrom data n i).length = n - i := by
  simp [bytesFrom]

theorem bytesFrom_cons (data : Nat → UInt8) {n i : Nat} (inside : i < n) :
    bytesFrom data n i = data i :: bytesFrom data n (i + 1) := by
  have more : n - i = (n - (i + 1)) + 1 := by omega
  rw [bytesFrom, more, List.range'_succ, List.map_cons, bytesFrom]

/-- The recursion over the remaining bytes makes the same decision as the pass. -/
theorem isValidUtf8_pass (data : Nat → UInt8) {n i : Nat} (inside : i < n) :
    isValidUtf8 (bytesFrom data n i) =
      match (utf8Pass data n i).next with
      | none => false
      | some j => isValidUtf8 (bytesFrom data n j) := by
  have left := bytesFrom_length data n (i + 1)
  rw [bytesFrom_cons data inside, isValidUtf8.eq_def]
  unfold utf8Pass
  dsimp only
  -- By the class of the first byte. A sequence that is cut short fails on both sides.
  by_cases one : data i < 0x80
  · simp only [one, ↓reduceIte]
  by_cases two : data i &&& 0xE0 = 0xC0
  · simp only [one, two, ↓reduceIte]
    by_cases short : i + 1 ≥ n
    · rcases rest : bytesFrom data n (i + 1) with _ | ⟨b1, rest⟩
      · simp only [short, ↓reduceIte]
      · simp only [rest, List.length_cons] at left
        omega
    · rw [bytesFrom_cons data (by omega)]
      simp only [short, ↓reduceIte]
      split_ifs <;> rfl
  by_cases three : data i &&& 0xF0 = 0xE0
  · simp only [one, two, three, ↓reduceIte]
    by_cases short : i + 2 ≥ n
    · rcases rest : bytesFrom data n (i + 1) with _ | ⟨b1, _ | ⟨b2, rest⟩⟩
      · simp only [short, ↓reduceIte]
      · simp only [short, ↓reduceIte]
      · simp only [rest, List.length_cons] at left
        omega
    · rw [bytesFrom_cons data (by omega), bytesFrom_cons data (by omega)]
      simp only [short, ↓reduceIte]
      split_ifs <;> rfl
  by_cases four : data i &&& 0xF8 = 0xF0
  · simp only [one, two, three, four, ↓reduceIte]
    by_cases short : i + 3 ≥ n
    · rcases rest : bytesFrom data n (i + 1) with _ | ⟨b1, _ | ⟨b2, _ | ⟨b3, rest⟩⟩⟩
      · simp only [short, ↓reduceIte]
      · simp only [short, ↓reduceIte]
      · simp only [short, ↓reduceIte]
      · simp only [rest, List.length_cons] at left
        omega
    · rw [bytesFrom_cons data (by omega), bytesFrom_cons data (by omega), bytesFrom_cons data (by omega)]
      simp only [short, ↓reduceIte]
      split_ifs <;> rfl
  · simp only [one, two, three, four, ↓reduceIte]

theorem utf8Loop_eq (data : Nat → UInt8) (n i : Nat) :
    (utf8Loop data n i).1 = isValidUtf8 (bytesFrom data n i) := by
  fun_induction utf8Loop data n i with
  | case1 i inside stop => rw [isValidUtf8_pass data inside, stop]
  | case2 i inside j go forward ih => rw [isValidUtf8_pass data inside, go, ih]
  | case3 i past =>
    have none_left : bytesFrom data n i = [] := by
      rw [← List.length_eq_zero_iff, bytesFrom_length]
      omega
    rw [none_left]
    rfl

theorem utf8Loop_reads (data : Nat → UInt8) (n i : Nat) : ∀ k ∈ (utf8Loop data n i).2, k < n := by
  fun_induction utf8Loop data n i with
  | case1 i inside stop => exact (utf8Pass_inside data inside).1
  | case2 i inside j go forward ih =>
    intro k member
    rcases List.mem_append.mp member with here | later
    · exact (utf8Pass_inside data inside).1 k here
    · exact ih k later
  | case3 i past => simp

/-- For every array and every length, `is_valid_utf8` answers true exactly for well-formed
UTF-8, and every index it reads lies inside the array. -/
theorem isValidUtf8Array_exact (data : Nat → UInt8) (n : Nat) :
    ((isValidUtf8Array data n).1 = true ↔
      ∃ scalars : List Char, bytesFrom data n 0 = scalars.flatMap String.utf8EncodeChar) ∧
    ∀ k ∈ (isValidUtf8Array data n).2, k < n := by
  constructor
  · rw [isValidUtf8Array, utf8Loop_eq]
    exact isValidUtf8_iff _
  · exact utf8Loop_reads data n 0

theorem text_utf8 (literal : String) : Utf8 (text literal) := ⟨literal.toList, rfl⟩

end RmqStream
