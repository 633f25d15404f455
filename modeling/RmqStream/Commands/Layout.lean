import RmqStream.Commands.RoundTrip

/-! The primitives of `src/codec.cpp` in any order.

A body is written by a row of `write_` calls and read by the row of `read_` calls with the same
types. `Layout` is such a row. The commands are some of them; the laws hold for all. -/

set_option autoImplicit false

namespace RmqStream
open Library Commands

def writeU8 (v : UInt8) : Bytes := [v]

def writeI8 (v : Int8) : Bytes := writeU8 v.toUInt8

def writeI64 (v : Int64) : Bytes := writeU64 v.toUInt64

def writeOptionalString : Option Bytes → Bytes
  | none => writeI16 (-1)
  | some s => writeString s

def readU8 : Decode UInt8 := do
  let buf ← borrow 1
  pure (buf.getD 0 0)

def readI8 : Decode Int8 := do
  let b ← readU8
  pure b.toInt8

def readI64 : Decode Int64 := do
  let v ← readU64
  pure v.toInt64

theorem readU8_reads (v : UInt8) : Decoder.Reads readU8 (writeU8 v) v :=
  (borrow_reads [v] rfl).last rfl

theorem readU8_sound : Decoder.Sound readU8 IsDecodeError (fun bytes _ v => bytes = writeU8 v) := by
  refine ((borrow_sound 1).last fun buf => buf.getD 0 0).mono ?_
  rintro bytes _ _ ⟨buf, ⟨rfl, one⟩, rfl⟩
  obtain ⟨v, rfl⟩ := List.length_eq_one_iff.mp one
  rfl

theorem readI8_reads (v : Int8) : Decoder.Reads readI8 (writeI8 v) v :=
  (readU8_reads v.toUInt8).last rfl

theorem readI8_sound : Decoder.Sound readI8 IsDecodeError (fun bytes _ v => bytes = writeI8 v) := by
  refine (readU8_sound.last UInt8.toInt8).mono ?_
  rintro _ _ _ ⟨b, rfl, rfl⟩
  rfl

theorem readI64_reads (v : Int64) : Decoder.Reads readI64 (writeI64 v) v :=
  (readU64_reads v.toUInt64).last rfl

theorem readI64_sound : Decoder.Sound readI64 IsDecodeError (fun bytes _ v => bytes = writeI64 v) := by
  refine (readU64_sound.last UInt64.toInt64).mono ?_
  rintro _ _ _ ⟨v, rfl, rfl⟩
  rfl

/-! ## Layouts -/

inductive Primitive where
  | u8 | i8 | u16 | i16 | u32 | i32 | u64 | i64
  | string | stringRequired | bytes | arrayPrefix
  deriving DecidableEq, Repr

namespace Primitive

abbrev Value : Primitive → Type
  | u8 => UInt8
  | i8 => Int8
  | u16 => UInt16
  | i16 => Int16
  | u32 => UInt32
  | i32 => Int32
  | u64 => UInt64
  | i64 => Int64
  | string => Option Bytes
  | stringRequired => Bytes
  | bytes => Option Bytes
  | arrayPrefix => Int32

def write : (p : Primitive) → p.Value → Bytes
  | u8 => writeU8
  | i8 => writeI8
  | u16 => writeU16
  | i16 => writeI16
  | u32 => writeU32
  | i32 => writeI32
  | u64 => writeU64
  | i64 => writeI64
  | string => writeOptionalString
  | stringRequired => writeString
  | bytes => writeBytes
  | arrayPrefix => writeArrayPrefix

def read : (p : Primitive) → Decode p.Value
  | u8 => readU8
  | i8 => readI8
  | u16 => readU16
  | i16 => readI16
  | u32 => readU32
  | i32 => readI32
  | u64 => readU64
  | i64 => readI64
  | string => readString
  | stringRequired => readStringRequired
  | bytes => readBytes
  | arrayPrefix => readArrayPrefix

def Carries : (p : Primitive) → p.Value → Prop
  | string, value => ∀ s ∈ value, WireString s
  | stringRequired, value => WireString value
  | bytes, value => ∀ b ∈ value, b.length < 2 ^ 31
  | arrayPrefix, value => ¬ value < 0
  | _, _ => True

theorem reads (p : Primitive) (value : p.Value) (carries : p.Carries value) :
    Decoder.Reads p.read (p.write value) value := by
  cases p with
  | u8 => exact readU8_reads value
  | i8 => exact readI8_reads value
  | u16 => exact readU16_reads value
  | i16 => exact readI16_reads value
  | u32 => exact readU32_reads value
  | i32 => exact readI32_reads value
  | u64 => exact readU64_reads value
  | i64 => exact readI64_reads value
  | string =>
    cases value with
    | none => exact (readI16_reads (-1)).last rfl
    | some s => exact readString_reads (carries s rfl)
  | stringRequired => exact readStringRequired_reads carries
  | bytes => exact readBytes_reads carries
  | arrayPrefix => exact (readI32_reads value).last (if_neg carries)

theorem sound (p : Primitive) : Decoder.Sound p.read IsDecodeError
    (fun bytes _ value => bytes = p.write value ∧ p.Carries value) := by
  cases p with
  | u8 => exact readU8_sound.mono fun _ _ _ same => ⟨same, trivial⟩
  | i8 => exact readI8_sound.mono fun _ _ _ same => ⟨same, trivial⟩
  | u16 => exact readU16_sound.mono fun _ _ _ same => ⟨same, trivial⟩
  | i16 => exact readI16_sound.mono fun _ _ _ same => ⟨same, trivial⟩
  | u32 => exact readU32_sound.mono fun _ _ _ same => ⟨same, trivial⟩
  | i32 => exact readI32_sound.mono fun _ _ _ same => ⟨same, trivial⟩
  | u64 => exact readU64_sound.mono fun _ _ _ same => ⟨same, trivial⟩
  | i64 => exact readI64_sound.mono fun _ _ _ same => ⟨same, trivial⟩
  | string =>
    refine readString_sound.mono ?_
    intro _ _ value holds
    cases value with
    | none => exact ⟨holds, by simp [Carries]⟩
    | some s => exact ⟨holds.1, by simpa [Carries] using holds.2⟩
  | stringRequired => exact readStringRequired_sound
  | bytes => exact readBytes_sound
  | arrayPrefix => exact readArrayPrefix_sound

def field (p : Primitive) : WireField p.Value where
  encode := p.write
  decode := p.read
  Good := p.Carries
  reads := p.reads
  sound := p.sound

end Primitive

abbrev Layout := List Primitive

namespace Layout

abbrev Values : Layout → Type
  | [] => Unit
  | p :: layout => p.Value × Values layout

/-- The `write_` calls one after the other, all to one `BufferWriter`. -/
def write : (layout : Layout) → layout.Values → Bytes
  | [], _ => []
  | p :: layout, (value, values) => p.write value ++ write layout values

/-- The `read_` calls one after the other, up to the first that fails. -/
def read : (layout : Layout) → Decode layout.Values
  | [] => pure ()
  | p :: layout => do
    let value ← p.read
    let values ← read layout
    pure (value, values)

def Carries : (layout : Layout) → layout.Values → Prop
  | [], _ => True
  | p :: layout, (value, values) => p.Carries value ∧ Carries layout values

def field : (layout : Layout) → WireField layout.Values
  | [] => .empty
  | p :: layout => p.field.pair (field layout)

theorem field_encode (layout : Layout) (values : layout.Values) : layout.field.encode values = layout.write values := by
  induction layout with
  | nil => rfl
  | cons p layout ih => exact congrArg (p.write values.1 ++ ·) (ih values.2)

theorem field_decode (layout : Layout) : layout.field.decode = layout.read := by
  induction layout with
  | nil => rfl
  | cons p layout ih => simp only [field, Field.pair, ih, read, Primitive.field]

theorem field_good (layout : Layout) (values : layout.Values) : layout.field.Good values ↔ layout.Carries values := by
  induction layout with
  | nil => exact Iff.rfl
  | cons p layout ih => exact and_congr_right fun _ => ih values.2

end Layout

/-- What holds of every row of primitives. A buffer is never longer than `std::size_t` can say. -/
structure Lawful (layout : Layout) : Prop where
  /-- What was written is read back, whatever follows, to its last byte. -/
  round_trip : ∀ values, layout.Carries values → ∀ (c : BufferReader) (tail : Bytes),
    c.rest = layout.write values ++ tail → layout.read.run c = (.ok values, c.skip (layout.write values).length)
  /-- Nothing else is read, and what fails stays inside the buffer. -/
  nothing_else : ∀ c : BufferReader,
    match layout.read.run c with
    | (.error e, after) => e.kind = .decodeError ∧ ∃ n ≤ c.remaining, after = c.skip n
    | (.ok values, after) => layout.Carries values ∧ ∃ n ≤ c.remaining, after = c.skip n ∧
        c.rest.take n = layout.write values
  prefix_free : ∀ v w, layout.Carries v → layout.Carries w → (layout.write w).length < 2 ^ 64 →
    layout.write v <+: layout.write w → v = w
  cut_short : ∀ values, layout.Carries values → (layout.write values).length < 2 ^ 64 → ∀ c : BufferReader,
    c.rest <+: layout.write values → c.rest ≠ layout.write values →
      ∃ e after, layout.read.run c = (.error e, after) ∧ e.kind = .decodeError

theorem layout_lawful (layout : Layout) : Lawful layout where
  round_trip values carries c tail rest := by
    have reads := layout.field.reads values ((layout.field_good values).mpr carries)
    rw [layout.field_decode, layout.field_encode] at reads
    exact reads c tail rest
  nothing_else c := by
    have sound := layout.field.sound
    rw [layout.field_decode] at sound
    rcases run : layout.read.run c with ⟨e | values, after⟩
    · exact sound.error c e after run
    · obtain ⟨n, inside, moved, same, good⟩ := sound.ok c values after run
      rw [layout.field_encode] at same
      exact ⟨(layout.field_good values).mp good, n, inside, moved, same⟩
  prefix_free v w carries also fits initial := by
    have first := layout.field.reads v ((layout.field_good v).mpr carries)
    have second := layout.field.reads w ((layout.field_good w).mpr also)
    rw [layout.field_encode] at first second
    exact (first.prefix_free second initial fits).2
  cut_short values carries fits c initial proper := by
    have failed := layout.field.cut_short ((layout.field_good values).mpr carries)
    rw [layout.field_decode, layout.field_encode] at failed
    exact failed fits initial proper

end RmqStream
