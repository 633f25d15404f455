import Mathlib.Data.Nat.Bitwise
import Mathlib.Tactic

/-! Fixed-width big-endian byte strings.

A number is written most significant byte first. Width is explicit: writing
truncates to the width, and reading is exact on every byte string. -/

set_option autoImplicit false

namespace RmqStream.Library

abbrev Bytes := List UInt8

def bigEndian : (width value : Nat) → Bytes
  | 0, _ => []
  | width + 1, value => UInt8.ofNat (value / 256 ^ width) :: bigEndian width value

def ofBigEndian (bytes : Bytes) : Nat :=
  bytes.foldl (fun value byte => value * 256 + byte.toNat) 0

@[simp] theorem bigEndian_length (width value : Nat) : (bigEndian width value).length = width := by
  induction width with
  | zero => rfl
  | succ width ih => simp [bigEndian, ih]

theorem foldl_ofBigEndian (bytes : Bytes) (start : Nat) :
    bytes.foldl (fun value byte => value * 256 + byte.toNat) start =
      start * 256 ^ bytes.length + ofBigEndian bytes := by
  induction bytes generalizing start with
  | nil => simp [ofBigEndian]
  | cons byte bytes ih =>
    simp only [ofBigEndian, List.foldl_cons, List.length_cons]
    rw [ih, ih (0 * 256 + byte.toNat)]
    ring

@[simp] theorem ofBigEndian_nil : ofBigEndian [] = 0 := rfl

theorem ofBigEndian_cons (byte : UInt8) (bytes : Bytes) :
    ofBigEndian (byte :: bytes) = byte.toNat * 256 ^ bytes.length + ofBigEndian bytes := by
  simpa [ofBigEndian] using foldl_ofBigEndian bytes (0 * 256 + byte.toNat)

theorem ofBigEndian_lt (bytes : Bytes) : ofBigEndian bytes < 256 ^ bytes.length := by
  induction bytes with
  | nil => simp
  | cons byte bytes ih =>
    rw [ofBigEndian_cons, List.length_cons, Nat.pow_succ]
    have bound := byte.toNat_lt
    have scaled := Nat.mul_le_mul_right (256 ^ bytes.length) (show byte.toNat ≤ 255 by omega)
    omega

theorem bigEndian_add_mul (width value carry : Nat) :
    bigEndian width (value + carry * 256 ^ width) = bigEndian width value := by
  induction width generalizing carry with
  | zero => rfl
  | succ width ih =>
    have positive : 0 < 256 ^ width := by positivity
    have shifted : value + carry * 256 ^ (width + 1) = value + (carry * 256) * 256 ^ width := by ring
    simp only [bigEndian, List.cons.injEq]
    rw [shifted]
    refine ⟨?_, ih (carry * 256)⟩
    rw [← UInt8.toNat_inj, Nat.add_mul_div_right _ _ positive]
    simp

theorem bigEndian_ofBigEndian (bytes : Bytes) :
    bigEndian bytes.length (ofBigEndian bytes) = bytes := by
  induction bytes with
  | nil => rfl
  | cons byte bytes ih =>
    have positive : 0 < 256 ^ bytes.length := by positivity
    have below := ofBigEndian_lt bytes
    simp only [List.length_cons, bigEndian, List.cons.injEq, ofBigEndian_cons]
    constructor
    · rw [Nat.add_comm, Nat.add_mul_div_right _ _ positive, Nat.div_eq_of_lt below]
      simp
    · rw [Nat.add_comm, bigEndian_add_mul, ih]

theorem ofBigEndian_bigEndian (width value : Nat) :
    ofBigEndian (bigEndian width value) = value % 256 ^ width := by
  induction width with
  | zero => simp [bigEndian, Nat.mod_one]
  | succ width ih =>
    simp only [bigEndian, ofBigEndian_cons, bigEndian_length, ih, UInt8.toNat_ofNat']
    have split := Nat.mod_mul (x := value) (a := 256 ^ width) (b := 256)
    rw [Nat.pow_succ (n := 256), split, Nat.mul_comm, Nat.add_comm]

theorem or_eq_add (high low bits : Nat) (aligned : 2 ^ bits ∣ high) (fits : low < 2 ^ bits) :
    high ||| low = high + low := by
  obtain ⟨quotient, rfl⟩ := aligned
  rw [Nat.mul_comm, ← Nat.shiftLeft_eq, Nat.shiftLeft_add_eq_or_of_lt fits]

theorem and_low_bits (value bits : Nat) : value &&& (2 ^ bits - 1) = value % 2 ^ bits :=
  Nat.and_two_pow_sub_one_eq_mod value bits

theorem shiftLeft_toNat (word shift : UInt32) (small : shift.toNat < 32)
    (fits : word.toNat * 2 ^ shift.toNat < 2 ^ 32) :
    (word <<< shift).toNat = word.toNat * 2 ^ shift.toNat := by
  rw [UInt32.toNat_shiftLeft, Nat.mod_eq_of_lt small, Nat.shiftLeft_eq, Nat.mod_eq_of_lt fits]

end RmqStream.Library
