import RmqStream.Config
import RmqStream.Library.Cursor

/-! The primitive codec of `src/codec.cpp` over the byte buffers of `buffer.hpp`.

A writer is the byte string it appends. A reader is a cursor over a buffer whose
length fits `std::size_t`; its bounds checks all come from `require`. The copies out
of the buffer are no longer than it, and their allocation is taken as granted. -/

set_option autoImplicit false

namespace RmqStream
open Library

abbrev BufferReader := Cursor UInt8 (2 ^ 64)

/-- A function of the source taking `BufferReader& r` and returning a `Result`. -/
abbrev Decode (α : Type) := Decoder UInt8 (2 ^ 64) StreamError α

def decodeErr (message : String) : StreamError := ⟨.decodeError, text message, none⟩

/-- `read_raw` and `borrow`: both check `require(n)` and then advance by `n`. -/
def borrow (n : Nat) : Decode Bytes := Decoder.take n (decodeErr "truncated input")

def writeU16 (v : UInt16) : Bytes := [((v >>> 8) &&& 0xFF).toUInt8, (v &&& 0xFF).toUInt8]

def writeU32 (v : UInt32) : Bytes :=
  [((v >>> 24) &&& 0xFF).toUInt8, ((v >>> 16) &&& 0xFF).toUInt8,
    ((v >>> 8) &&& 0xFF).toUInt8, (v &&& 0xFF).toUInt8]

def writeU64 (v : UInt64) : Bytes :=
  [7, 6, 5, 4, 3, 2, 1, 0].map fun i : UInt64 => ((v >>> (i * 8)) &&& 0xFF).toUInt8

def writeI16 (v : Int16) : Bytes := writeU16 v.toUInt16
def writeI32 (v : Int32) : Bytes := writeU32 v.toUInt32

/-- A string longer than `INT16_MAX` is cut to its first 32767 bytes. -/
def writeString (s : Bytes) : Bytes :=
  if s.length > 32767 then writeI16 32767 ++ s.take 32767
  else writeI16 (Int16.ofNat s.length) ++ s

def writeBytesRaw (data : Bytes) : Bytes := writeI32 (Int32.ofNat data.length) ++ data

def writeBytes : Option Bytes → Bytes
  | none => writeI32 (-1)
  | some data => writeBytesRaw data

def writeArrayPrefix (count : Int32) : Bytes := writeI32 count

def readU16 : Decode UInt16 := do
  let buf ← borrow 2
  pure ((buf.getD 0 0).toUInt16 <<< 8 ||| (buf.getD 1 0).toUInt16)

def readU32 : Decode UInt32 := do
  let buf ← borrow 4
  pure ((buf.getD 0 0).toUInt32 <<< 24 ||| (buf.getD 1 0).toUInt32 <<< 16 |||
    (buf.getD 2 0).toUInt32 <<< 8 ||| (buf.getD 3 0).toUInt32)

def readU64 : Decode UInt64 := do
  let buf ← borrow 8
  pure (buf.foldl (fun v byte => v <<< 8 ||| byte.toUInt64) 0)

def readI16 : Decode Int16 := do
  let v ← readU16
  pure v.toInt16

def readI32 : Decode Int32 := do
  let v ← readU32
  pure v.toInt32

def readString : Decode (Option Bytes) := do
  let len ← readI16
  if len = -1 then pure none
  else if len < 0 then Fallible.fail (decodeErr "string length out of range")
  else
    let p ← borrow len.toInt.toNat
    if len.toInt.toNat > 0 ∧ isValidUtf8 p = false then
      Fallible.fail (decodeErr "invalid UTF-8 in string")
    else pure (some p)

def readStringRequired : Decode Bytes := do
  match ← readString with
  | none => Fallible.fail (decodeErr "expected non-null string")
  | some s => pure s

def readBytes : Decode (Option Bytes) := do
  let len ← readI32
  if len = -1 then pure none
  else if len < 0 then Fallible.fail (decodeErr "bytes length out of range")
  else
    let p ← borrow len.toInt.toNat
    pure (some p)

def readArrayPrefix : Decode Int32 := do
  let len ← readI32
  if len < 0 then Fallible.fail (decodeErr "negative array count")
  else pure len

theorem and_255 (n : Nat) : n &&& 255 = n % 256 := and_low_bits n 8

theorem writeU16_eq (v : UInt16) : writeU16 v = bigEndian 2 v.toNat := by
  simp [writeU16, bigEndian, ← UInt8.toNat_inj, Nat.shiftRight_eq_div_pow, and_255]

theorem writeU32_eq (v : UInt32) : writeU32 v = bigEndian 4 v.toNat := by
  simp [writeU32, bigEndian, ← UInt8.toNat_inj, Nat.shiftRight_eq_div_pow, and_255]

theorem writeU64_eq (v : UInt64) : writeU64 v = bigEndian 8 v.toNat := by
  simp [writeU64, bigEndian, ← UInt8.toNat_inj, Nat.shiftRight_eq_div_pow, and_255]

theorem readU16_value (b0 b1 : UInt8) :
    (b0.toUInt16 <<< 8 ||| b1.toUInt16).toNat = ofBigEndian [b0, b1] := by
  have h0 := b0.toNat_lt
  have h1 := b1.toNat_lt
  have high : (b0.toUInt16 <<< 8).toNat = b0.toNat * 256 := by
    rw [UInt16.toNat_shiftLeft, Nat.shiftLeft_eq]
    exact Nat.mod_eq_of_lt (show b0.toNat * 256 < 65536 by omega)
  rw [UInt16.toNat_or, high, UInt8.toNat_toUInt16, or_eq_add _ _ 8 (by omega) h1]
  simp [ofBigEndian]

theorem readU32_value (b0 b1 b2 b3 : UInt8) :
    (b0.toUInt32 <<< 24 ||| b1.toUInt32 <<< 16 ||| b2.toUInt32 <<< 8 ||| b3.toUInt32).toNat =
      ofBigEndian [b0, b1, b2, b3] := by
  have h0 := b0.toNat_lt
  have h1 := b1.toNat_lt
  have h2 := b2.toNat_lt
  have h3 := b3.toNat_lt
  have s0 : (b0.toUInt32 <<< 24).toNat = b0.toNat * 16777216 :=
    shiftLeft_toNat b0.toUInt32 24 (by decide) (show b0.toNat * 16777216 < 4294967296 by omega)
  have s1 : (b1.toUInt32 <<< 16).toNat = b1.toNat * 65536 :=
    shiftLeft_toNat b1.toUInt32 16 (by decide) (show b1.toNat * 65536 < 4294967296 by omega)
  have s2 : (b2.toUInt32 <<< 8).toNat = b2.toNat * 256 :=
    shiftLeft_toNat b2.toUInt32 8 (by decide) (show b2.toNat * 256 < 4294967296 by omega)
  rw [UInt32.toNat_or, UInt32.toNat_or, UInt32.toNat_or, s0, s1, s2, UInt8.toNat_toUInt32,
    or_eq_add _ (b1.toNat * 65536) 24 (by omega) (by omega),
    or_eq_add _ (b2.toNat * 256) 16 (by omega) (by omega),
    or_eq_add _ _ 8 (by omega) h3]
  simp only [ofBigEndian, List.foldl_cons, List.foldl_nil]
  omega

/-- The accumulating loop of `read_u64` on any number of bytes that fit the word. -/
theorem readU64_value (buf : Bytes) (fits : buf.length ≤ 8) :
    (List.foldl (fun (v : UInt64) byte => v <<< 8 ||| byte.toUInt64) 0 buf).toNat = ofBigEndian buf := by
  -- Induction from the last byte: the prefix is below 256^7, so the shift loses nothing.
  induction buf using List.reverseRecOn with
  | nil => rfl
  | append_singleton front byte ih =>
    rw [List.length_append, List.length_singleton] at fits
    have value := ih (by omega)
    have below := ofBigEndian_lt front
    have narrow : 256 ^ front.length ≤ 256 ^ 7 := Nat.pow_le_pow_right (by decide) (by omega)
    have last := byte.toNat_lt
    rw [List.foldl_append, List.foldl_cons, List.foldl_nil, UInt64.toNat_or, UInt64.toNat_shiftLeft,
      value, UInt8.toNat_toUInt64, Nat.shiftLeft_eq]
    have shifted : ofBigEndian front * 2 ^ (UInt64.toNat 8 % 64) % 2 ^ 64 = ofBigEndian front * 256 :=
      Nat.mod_eq_of_lt (show ofBigEndian front * 256 < 2 ^ 64 by omega)
    rw [shifted, or_eq_add _ _ 8 (by omega) last]
    simp [ofBigEndian]

/-! ## Primitive laws

Each primitive recovers what its writer wrote, and accepts nothing else. -/

def IsDecodeError (e : StreamError) : Prop := e.kind = .decodeError

theorem isDecodeError_decodeErr (message : String) : IsDecodeError (decodeErr message) := rfl

theorem borrow_reads (bytes : Bytes) {n : Nat} (length : bytes.length = n) :
    Decoder.Reads (borrow n) bytes bytes :=
  length ▸ Decoder.Reads.take bytes _

theorem borrow_sound (n : Nat) : Decoder.Sound (borrow n) IsDecodeError
    (fun bytes _ result => bytes = result ∧ result.length = n) :=
  Decoder.Sound.take (isDecodeError_decodeErr _)

section Word
variable {W : Type} {width : Nat} {toNat : W → Nat} {combine : Bytes → W}

theorem word_reads (injective : Function.Injective toNat)
    (value : ∀ buf : Bytes, buf.length = width → toNat (combine buf) = ofBigEndian buf)
    (w : W) (bound : toNat w < 256 ^ width) :
    Decoder.Reads (do let buf ← borrow width; pure (combine buf) : Decode W)
      (bigEndian width (toNat w)) w := by
  have same : combine (bigEndian width (toNat w)) = w := by
    apply injective
    rw [value _ (bigEndian_length _ _), ofBigEndian_bigEndian, Nat.mod_eq_of_lt bound]
  exact (borrow_reads _ (bigEndian_length width (toNat w))).last (congrArg pure same)

theorem word_sound
    (value : ∀ buf : Bytes, buf.length = width → toNat (combine buf) = ofBigEndian buf) :
    Decoder.Sound (do let buf ← borrow width; pure (combine buf) : Decode W) IsDecodeError
      (fun bytes _ w => bytes = bigEndian width (toNat w)) := by
  refine ((borrow_sound width).bind fun buf => Decoder.Sound.pure (combine buf)).mono ?_
  rintro _ _ _ ⟨front, back, buf, rfl, ⟨rfl, length⟩, rfl, rfl⟩
  rw [value front length, ← length, bigEndian_ofBigEndian, List.append_nil]

end Word

theorem length_two {buf : Bytes} (length : buf.length = 2) : ∃ b0 b1, buf = [b0, b1] :=
  List.length_eq_two.mp length

theorem length_four {buf : Bytes} (length : buf.length = 4) : ∃ b0 b1 b2 b3, buf = [b0, b1, b2, b3] := by
  match buf, length with
  | [b0, b1, b2, b3], _ => exact ⟨b0, b1, b2, b3, rfl⟩

theorem combineU16 (buf : Bytes) (length : buf.length = 2) :
    ((buf.getD 0 0).toUInt16 <<< 8 ||| (buf.getD 1 0).toUInt16).toNat = ofBigEndian buf := by
  obtain ⟨b0, b1, rfl⟩ := length_two length
  exact readU16_value b0 b1

theorem combineU32 (buf : Bytes) (length : buf.length = 4) :
    ((buf.getD 0 0).toUInt32 <<< 24 ||| (buf.getD 1 0).toUInt32 <<< 16 |||
      (buf.getD 2 0).toUInt32 <<< 8 ||| (buf.getD 3 0).toUInt32).toNat = ofBigEndian buf := by
  obtain ⟨b0, b1, b2, b3, rfl⟩ := length_four length
  exact readU32_value b0 b1 b2 b3

theorem word_run {W : Type} (width : Nat) (combine : Bytes → W) (c : BufferReader) :
    (do let buf ← borrow width; pure (combine buf) : Decode W).run c =
      if width > c.remaining then (.error (decodeErr "truncated input"), c)
      else (.ok (combine (c.rest.take width)), c.skip width) := by
  by_cases short : width > c.remaining
  · have stopped : (borrow width).run c = (.error (decodeErr "truncated input"), c) := by
      simp [borrow, Decoder.take, short]
    rw [Fallible.bind_error stopped, if_pos short]
  · have taken : (borrow width).run c = (.ok (c.rest.take width), c.skip width) := by
      simp [borrow, Decoder.take, short]
    rw [Fallible.bind_ok taken, if_neg short]
    rfl

theorem readU16_reads (v : UInt16) : Decoder.Reads readU16 (writeU16 v) v := by
  rw [writeU16_eq]
  exact word_reads (fun _ _ => UInt16.toNat_inj.mp) combineU16 v v.toNat_lt

theorem readU16_sound : Decoder.Sound readU16 IsDecodeError (fun bytes _ v => bytes = writeU16 v) := by
  simp only [writeU16_eq]
  exact word_sound combineU16

theorem readU32_reads (v : UInt32) : Decoder.Reads readU32 (writeU32 v) v := by
  rw [writeU32_eq]
  exact word_reads (fun _ _ => UInt32.toNat_inj.mp) combineU32 v v.toNat_lt

theorem readU32_sound : Decoder.Sound readU32 IsDecodeError (fun bytes _ v => bytes = writeU32 v) := by
  simp only [writeU32_eq]
  exact word_sound combineU32

theorem readU64_reads (v : UInt64) : Decoder.Reads readU64 (writeU64 v) v := by
  rw [writeU64_eq]
  exact word_reads (fun _ _ => UInt64.toNat_inj.mp) (fun buf length => readU64_value buf (by omega))
    v v.toNat_lt

theorem readU64_sound : Decoder.Sound readU64 IsDecodeError (fun bytes _ v => bytes = writeU64 v) := by
  simp only [writeU64_eq]
  exact word_sound (fun buf length => readU64_value buf (by omega))

theorem take_length {c : BufferReader} {n : Nat} (inside : ¬ n > c.remaining) :
    (c.rest.take n).length = n := by
  rw [List.length_take, Cursor.rest_length]
  omega

theorem readU16_run (c : BufferReader) :
    readU16.run c = if 2 > c.remaining then (.error (decodeErr "truncated input"), c)
      else (.ok (UInt16.ofNat (ofBigEndian (c.rest.take 2))), c.skip 2) := by
  unfold readU16
  rw [word_run]
  split
  · rfl
  next inside => rw [← combineU16 _ (take_length inside), UInt16.ofNat_toNat]

theorem readU32_run (c : BufferReader) :
    readU32.run c = if 4 > c.remaining then (.error (decodeErr "truncated input"), c)
      else (.ok (UInt32.ofNat (ofBigEndian (c.rest.take 4))), c.skip 4) := by
  unfold readU32
  rw [word_run]
  split
  · rfl
  next inside => rw [← combineU32 _ (take_length inside), UInt32.ofNat_toNat]

theorem readI16_reads (v : Int16) : Decoder.Reads readI16 (writeI16 v) v :=
  (readU16_reads v.toUInt16).last rfl

theorem readI16_sound : Decoder.Sound readI16 IsDecodeError (fun bytes _ v => bytes = writeI16 v) := by
  refine (readU16_sound.bind fun v => Decoder.Sound.pure v.toInt16).mono ?_
  rintro _ _ _ ⟨front, back, v, rfl, rfl, rfl, rfl⟩
  rw [List.append_nil]; rfl

theorem readI32_reads (v : Int32) : Decoder.Reads readI32 (writeI32 v) v :=
  (readU32_reads v.toUInt32).last rfl

theorem readI32_sound : Decoder.Sound readI32 IsDecodeError (fun bytes _ v => bytes = writeI32 v) := by
  refine (readU32_sound.bind fun v => Decoder.Sound.pure v.toInt32).mono ?_
  rintro _ _ _ ⟨front, back, v, rfl, rfl, rfl, rfl⟩
  rw [List.append_nil]; rfl

theorem nonnegative16 {v : Int16} (sign : ¬ v < 0) : 0 ≤ v.toInt := by
  rw [Int16.lt_iff_toInt_lt] at sign
  simpa using sign

theorem nonnegative32 {v : Int32} (sign : ¬ v < 0) : 0 ≤ v.toInt := by
  rw [Int32.lt_iff_toInt_lt] at sign
  simpa using sign

theorem length16_small {v : Int16} : v.toInt.toNat ≤ 32767 := by
  have := v.toInt_lt
  omega

theorem length32_small {v : Int32} : v.toInt.toNat < 2 ^ 31 := by
  have := v.toInt_lt
  omega

theorem ofNat_length16 {v : Int16} (sign : ¬ v < 0) : Int16.ofNat v.toInt.toNat = v := by
  have range := nonnegative16 sign
  have top := v.toInt_lt
  rw [← Int16.toInt_inj, Int16.toInt_ofNat_of_lt (by omega)]
  omega

theorem ofNat_length32 {v : Int32} (sign : ¬ v < 0) : Int32.ofNat v.toInt.toNat = v := by
  have range := nonnegative32 sign
  have top := v.toInt_lt
  rw [← Int32.toInt_inj, Int32.toInt_ofNat_of_lt (by omega)]
  omega

theorem toInt_ofNat16 {n : Nat} (small : n ≤ 32767) : (Int16.ofNat n).toInt = n :=
  Int16.toInt_ofNat_of_lt (by omega)

theorem toInt_ofNat32 {n : Nat} (small : n < 2 ^ 31) : (Int32.ofNat n).toInt = n :=
  Int32.toInt_ofNat_of_lt small

theorem ofNat16_sign {n : Nat} (small : n ≤ 32767) : ¬ Int16.ofNat n = -1 ∧ ¬ Int16.ofNat n < 0 := by
  rw [← Int16.toInt_inj, Int16.lt_iff_toInt_lt, toInt_ofNat16 small]
  constructor
  · show ¬ (n : Int) = -1; omega
  · show ¬ (n : Int) < 0; omega

theorem ofNat32_sign {n : Nat} (small : n < 2 ^ 31) : ¬ Int32.ofNat n = -1 ∧ ¬ Int32.ofNat n < 0 := by
  rw [← Int32.toInt_inj, Int32.lt_iff_toInt_lt, toInt_ofNat32 small]
  constructor
  · show ¬ (n : Int) = -1; omega
  · show ¬ (n : Int) < 0; omega

/-! ## Strings, byte blobs and array counts -/

/-- The strings the wire format can carry: UTF-8 of at most `INT16_MAX` bytes. -/
structure WireString (s : Bytes) : Prop where
  utf8 : Utf8 s
  short : s.length ≤ 32767

theorem writeString_short {s : Bytes} (short : s.length ≤ 32767) :
    writeString s = writeI16 (Int16.ofNat s.length) ++ s := by
  simp [writeString, Nat.not_lt.mpr short]

theorem readString_reads {s : Bytes} (wire : WireString s) :
    Decoder.Reads readString (writeString s) (some s) := by
  have signs := ofNat16_sign wire.short
  have length : (Int16.ofNat s.length).toInt.toNat = s.length := by rw [toInt_ofNat16 wire.short]; rfl
  have valid : isValidUtf8 s = true := (isValidUtf8_iff s).mpr wire.utf8
  rw [writeString_short wire.short]
  refine (readI16_reads (Int16.ofNat s.length)).bind ?_
  simp only [signs.1, signs.2, ↓reduceIte]
  exact (borrow_reads s length.symm).last (by simp [valid])

theorem readString_sound : Decoder.Sound readString IsDecodeError (fun bytes _ result =>
    match result with
    | none => bytes = writeI16 (-1)
    | some s => bytes = writeString s ∧ WireString s) := by
  -- The middle decoder is one of null, rejected length, or payload, by the sign of the length.
  have body : ∀ len : Int16, Decoder.Sound
      (if len = -1 then pure none
        else if len < 0 then Fallible.fail (decodeErr "string length out of range")
        else do
          let p ← borrow len.toInt.toNat
          if len.toInt.toNat > 0 ∧ isValidUtf8 p = false then
            Fallible.fail (decodeErr "invalid UTF-8 in string")
          else pure (some p) : Decode (Option Bytes)) IsDecodeError
      (fun bytes _ result => match result with
        | none => len = -1 ∧ bytes = []
        | some s => bytes = s ∧ writeString s = writeI16 len ++ s ∧ WireString s) := by
    intro len
    split
    next null =>
      refine (Decoder.Sound.pure none).mono ?_
      rintro _ _ _ ⟨rfl, rfl⟩
      exact ⟨null, rfl⟩
    split
    · exact Decoder.Sound.fail (isDecodeError_decodeErr _) _
    next sign =>
      have payload : ∀ p : Bytes, Decoder.Sound
          (if len.toInt.toNat > 0 ∧ isValidUtf8 p = false then
            Fallible.fail (decodeErr "invalid UTF-8 in string") else pure (some p) : Decode (Option Bytes))
          IsDecodeError (fun bytes _ result => bytes = [] ∧ result = some p ∧
            (len.toInt.toNat = 0 ∨ isValidUtf8 p = true)) := by
        intro p
        split
        · exact Decoder.Sound.fail (isDecodeError_decodeErr _) _
        next accepted =>
          refine (Decoder.Sound.pure (some p)).mono ?_
          rintro _ _ _ ⟨rfl, rfl⟩
          refine ⟨rfl, rfl, ?_⟩
          rcases Nat.eq_zero_or_pos len.toInt.toNat with zero | positive
          · exact .inl zero
          · exact .inr (Bool.not_eq_false _ ▸ fun invalid => accepted ⟨positive, invalid⟩)
      refine ((borrow_sound len.toInt.toNat).bind payload).mono ?_
      rintro _ _ _ ⟨front, back, p, rfl, ⟨rfl, length⟩, rfl, rfl, valid⟩
      have short : front.length ≤ 32767 := length ▸ length16_small
      refine ⟨List.append_nil _, ?_, ?_, short⟩
      · rw [writeString_short short, length, ofNat_length16 sign]
      · rcases valid with zero | valid
        · rw [zero] at length
          rw [List.length_eq_zero_iff.mp length]
          exact ⟨[], rfl⟩
        · exact (isValidUtf8_iff front).mp valid
  refine (readI16_sound.bind body).mono ?_
  rintro _ _ result ⟨front, back, len, rfl, rfl, holds⟩
  cases result with
  | none => obtain ⟨rfl, rfl⟩ := holds; exact List.append_nil _
  | some s => obtain ⟨rfl, same, wire⟩ := holds; exact ⟨same.symm, wire⟩

theorem readStringRequired_reads {s : Bytes} (wire : WireString s) :
    Decoder.Reads readStringRequired (writeString s) s :=
  (readString_reads wire).last rfl

theorem readStringRequired_sound : Decoder.Sound readStringRequired IsDecodeError
    (fun bytes _ s => bytes = writeString s ∧ WireString s) := by
  have finish : ∀ found : Option Bytes, Decoder.Sound
      (match found with
        | none => Fallible.fail (decodeErr "expected non-null string")
        | some s => pure s : Decode Bytes) IsDecodeError
      (fun bytes _ s => bytes = [] ∧ found = some s) := by
    intro found
    cases found with
    | none => exact Decoder.Sound.fail (isDecodeError_decodeErr _) _
    | some s =>
      refine (Decoder.Sound.pure s).mono ?_
      rintro _ _ _ ⟨rfl, rfl⟩
      exact ⟨rfl, rfl⟩
  refine (readString_sound.bind finish).mono ?_
  rintro _ _ _ ⟨front, back, found, rfl, holds, rfl, rfl⟩
  rw [List.append_nil]
  exact holds

theorem readBytes_reads {data : Option Bytes} (small : ∀ b ∈ data, b.length < 2 ^ 31) :
    Decoder.Reads readBytes (writeBytes data) data := by
  cases data with
  | none => exact (readI32_reads (-1)).last rfl
  | some b =>
    have bound := small b rfl
    have signs := ofNat32_sign bound
    have length : (Int32.ofNat b.length).toInt.toNat = b.length := by rw [toInt_ofNat32 bound]; rfl
    refine (readI32_reads (Int32.ofNat b.length)).bind ?_
    simp only [signs.1, signs.2, ↓reduceIte]
    exact (borrow_reads b length.symm).last rfl

theorem readBytes_sound : Decoder.Sound readBytes IsDecodeError
    (fun bytes _ data => bytes = writeBytes data ∧ ∀ b ∈ data, b.length < 2 ^ 31) := by
  have body : ∀ len : Int32, Decoder.Sound
      (if len = -1 then pure none
        else if len < 0 then Fallible.fail (decodeErr "bytes length out of range")
        else do
          let p ← borrow len.toInt.toNat
          pure (some p) : Decode (Option Bytes)) IsDecodeError
      (fun bytes _ data => writeBytes data = writeI32 len ++ bytes ∧ ∀ b ∈ data, b.length < 2 ^ 31) := by
    intro len
    split
    next null =>
      refine (Decoder.Sound.pure none).mono ?_
      rintro _ _ _ ⟨rfl, rfl⟩
      rw [null]
      exact ⟨(List.append_nil _).symm, by simp⟩
    split
    · exact Decoder.Sound.fail (isDecodeError_decodeErr _) _
    next sign =>
      refine ((borrow_sound len.toInt.toNat).bind fun p => Decoder.Sound.pure (some p)).mono ?_
      rintro _ _ _ ⟨front, back, p, rfl, ⟨rfl, length⟩, rfl, rfl⟩
      constructor
      · rw [List.append_nil, writeBytes, writeBytesRaw, length, ofNat_length32 sign]
      · rintro b ⟨rfl⟩
        exact length ▸ length32_small
  refine (readI32_sound.bind body).mono ?_
  rintro _ _ _ ⟨front, back, len, rfl, rfl, same, small⟩
  exact ⟨same.symm, small⟩

theorem readArrayPrefix_reads {n : Nat} (small : n < 2 ^ 31) :
    Decoder.Reads readArrayPrefix (writeArrayPrefix (Int32.ofNat n)) (Int32.ofNat n) :=
  (readI32_reads (Int32.ofNat n)).last (by simp [(ofNat32_sign small).2])

theorem readArrayPrefix_sound : Decoder.Sound readArrayPrefix IsDecodeError
    (fun bytes _ count => bytes = writeArrayPrefix count ∧ ¬ count < 0) := by
  have body : ∀ len : Int32, Decoder.Sound
      (if len < 0 then Fallible.fail (decodeErr "negative array count") else pure len : Decode Int32)
      IsDecodeError (fun bytes _ count => bytes = [] ∧ count = len ∧ ¬ len < 0) := by
    intro len
    split
    · exact Decoder.Sound.fail (isDecodeError_decodeErr _) _
    next sign =>
      refine (Decoder.Sound.pure len).mono ?_
      rintro _ _ _ ⟨rfl, rfl⟩
      exact ⟨rfl, rfl, sign⟩
  refine (readI32_sound.bind body).mono ?_
  rintro _ _ _ ⟨front, back, len, rfl, rfl, rfl, rfl, sign⟩
  exact ⟨List.append_nil _, sign⟩

end RmqStream
