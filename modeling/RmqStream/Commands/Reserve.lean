import RmqStream.Commands.Lifecycle

/-! What the array decoders ask of the allocator.

The three decoders that read a count reserve space for it before they read an element.
Here they run beside a record of these requests; without it they are the decoders of the
command structs. -/

set_option autoImplicit false

namespace RmqStream.Commands
open Library Fallible

/-- So many elements were asked for with so many bytes left in the buffer. -/
structure Reservation where
  count : Nat
  remaining : Nat
  deriving DecidableEq, Repr

abbrev Reserving (α : Type) := Fallible (BufferReader × List Reservation) StreamError α

def reserve (count : Nat) : Reserving Unit :=
  note fun c record => record ++ [⟨count, c.remaining⟩]

namespace Reserving
variable {α β γ : Type}

def array (lead : Decode γ) (element : Decode β) (build : γ → List β → α) : Reserving α := do
  let fields ← lift lead
  let count ← lift readArrayPrefix
  reserve count.toInt.toNat
  let elements ← lift (element.times count.toInt.toNat)
  pure (build fields elements)

/-- `detail::decode_kv_array`, which both PeerProperties bodies and OpenResponse use. -/
def decodeKvArray : Reserving (List KeyValue) := array (pure ()) decodeKeyValue fun _ kvs => kvs

def saslHandshakeResponse : Reserving SaslHandshakeResponse :=
  array readU16 readStringRequired SaslHandshakeResponse.mk

def createRequest : Reserving CreateRequest := array readStringRequired decodeKeyValue CreateRequest.mk

theorem array_erases (lead : Decode γ) (element : Decode β) (build : γ → List β → α) :
    Erases (array lead element build) (do
      let fields ← lead
      let count ← readArrayPrefix
      let elements ← element.times count.toInt.toNat
      pure (build fields elements)) :=
  (Erases.lift lead).bind fun _ => (Erases.lift readArrayPrefix).bind fun _ =>
    (Erases.note _).bind fun _ => (Erases.lift _).bind fun _ => .pure _

theorem decodeKvArray_erases : Erases decodeKvArray Commands.decodeKvArray := by
  have erases : Erases decodeKvArray (readArrayPrefix >>= fun count =>
      decodeKeyValue.times count.toInt.toNat >>= fun kvs => pure kvs) := array_erases _ _ _
  simp only [bind_pure] at erases
  exact erases

theorem saslHandshakeResponse_erases : Erases saslHandshakeResponse Command.decodeBody := array_erases _ _ _

theorem createRequest_erases : Erases createRequest Command.decodeBody := array_erases _ _ _

end Reserving

/-! ## Which counts are asked for -/

/-- Every reservation is for no more elements than the bytes left can hold, with so many
bytes for each at least; without a reservation the decoder returns a `DecodeError`. -/
structure Bounded {α : Type} (width : Nat) (decoder : Reserving α) (c : BufferReader) : Prop where
  fits : ∀ x ∈ (decoder.run (c, [])).2.2, width * x.count ≤ x.remaining
  otherwise : (decoder.run (c, [])).2.2 = [] → ∃ e, (decoder.run (c, [])).1 = .error e ∧ IsDecodeError e

def CountFits (width : Nat) (bytes : Bytes) : Prop :=
  4 ≤ bytes.length → ofBigEndian (bytes.take 4) < 2 ^ 31 →
    width * ofBigEndian (bytes.take 4) ≤ bytes.length - 4

theorem word_negative {n : Nat} (large : ¬ n < 2 ^ 31) (word : n < 2 ^ 32) : (UInt32.ofNat n).toInt32 < 0 := by
  have same : (UInt32.ofNat n).toInt32 = Int32.ofInt n := rfl
  have wraps : (n : Int).bmod Int32.size = n - 2 ^ 32 := by
    show (n : Int).bmod 4294967296 = _
    rw [Int.bmod_def]
    omega
  rw [Int32.lt_iff_toInt_lt, same, Int32.toInt_ofInt, wraps]
  show (n : Int) - 2 ^ 32 < 0
  omega

theorem readArrayPrefix_run (c : BufferReader) :
    readArrayPrefix.run c =
      if 4 > c.remaining then (.error (decodeErr "truncated input"), c)
      else if ofBigEndian (c.rest.take 4) < 2 ^ 31 then
        (.ok (Int32.ofNat (ofBigEndian (c.rest.take 4))), c.skip 4)
      else (.error (decodeErr "negative array count"), c.skip 4) := by
  have word := readU32_run c
  by_cases short : 4 > c.remaining
  · rw [if_pos short] at word ⊢
    exact bind_error (bind_error word)
  rw [if_neg short] at word ⊢
  have read : readI32.run c = (.ok (UInt32.ofNat (ofBigEndian (c.rest.take 4))).toInt32, c.skip 4) := bind_ok word
  rw [readArrayPrefix, bind_ok read]
  have bound := ofBigEndian_lt (c.rest.take 4)
  rw [take_length short] at bound
  by_cases small : ofBigEndian (c.rest.take 4) < 2 ^ 31
  · rw [if_pos small]
    have sign : ¬ (UInt32.ofNat (ofBigEndian (c.rest.take 4))).toInt32 < 0 := (ofNat32_sign small).2
    rw [if_neg sign]
    rfl
  · rw [if_neg small, if_pos (word_negative small bound)]
    rfl

section Array
variable {α β γ : Type} {lead : Decode γ} {element : Decode β} {build : γ → List β → α} {width : Nat}
variable {c after : BufferReader}

theorem bounded_of_error {decoder : Reserving α} {e : StreamError} {final : BufferReader}
    (run : decoder.run (c, []) = (.error e, final, [])) (kind : IsDecodeError e) : Bounded width decoder c where
  fits := by simp [run]
  otherwise _ := ⟨e, by rw [run], kind⟩

theorem array_reserves {fields : γ} {count : Int32} {middle : BufferReader}
    (first : lead.run c = (.ok fields, after)) (second : readArrayPrefix.run after = (.ok count, middle)) :
    ((Reserving.array lead element build).run (c, [])).2.2 = [⟨count.toInt.toNat, middle.remaining⟩] := by
  have started := lift_run first ([] : List Reservation)
  have counted := lift_run second ([] : List Reservation)
  have reserved : (reserve count.toInt.toNat).run (middle, []) =
      (.ok (), middle, [⟨count.toInt.toNat, middle.remaining⟩]) := rfl
  rw [Reserving.array, bind_ok started, bind_ok counted, bind_ok reserved, run_bind]
  rcases read : (lift (element.times count.toInt.toNat) : Reserving (List β)).run
    (middle, [⟨count.toInt.toNat, middle.remaining⟩]) with ⟨e | elements, final⟩ <;>
    exact congrArg (fun outcome => outcome.2.2) read.symm

/-- Once the fields before it are read, everything depends on the count. -/
theorem array_bounded_iff {fields : γ} (first : lead.run c = (.ok fields, after)) :
    Bounded width (Reserving.array lead element build) c ↔ CountFits width after.rest := by
  have started := lift_run first ([] : List Reservation)
  have second := readArrayPrefix_run after
  have failed : ∀ {e middle}, readArrayPrefix.run after = (.error e, middle) → IsDecodeError e →
      Bounded width (Reserving.array lead element build) c := by
    intro e middle stopped kind
    have counted := lift_run stopped ([] : List Reservation)
    exact bounded_of_error ((bind_ok started).trans (bind_error counted)) kind
  unfold CountFits
  rw [Cursor.rest_length]
  by_cases short : 4 > after.remaining
  · rw [if_pos short] at second
    exact iff_of_true (failed second rfl) (fun long => absurd short (Nat.not_lt.mpr long))
  rw [if_neg short] at second
  by_cases small : ofBigEndian (after.rest.take 4) < 2 ^ 31
  · rw [if_pos small] at second
    -- The only reservation is for this count, with the bytes behind the count.
    have reserves : ((Reserving.array lead element build).run (c, [])).2.2 = _ := array_reserves first second
    rw [toInt_ofNat32 small, Cursor.skip_remaining after (Nat.not_lt.mp short)] at reserves
    constructor
    · intro bounded _ _
      exact bounded.fits _ (by rw [reserves]; exact List.mem_singleton_self _)
    · intro fits
      refine ⟨?_, fun none => by simp [reserves] at none⟩
      rw [reserves]
      intro x member
      rw [List.mem_singleton.mp member]
      exact fits (Nat.not_lt.mp short) small
  · rw [if_neg small] at second
    exact iff_of_true (failed second rfl) (fun _ nonnegative => absurd nonnegative small)

theorem array_bounded_of_error {e : StreamError} (first : lead.run c = (.error e, after)) (kind : IsDecodeError e) :
    Bounded width (Reserving.array lead element build) c := by
  have started := lift_run first ([] : List Reservation)
  exact bounded_of_error (bind_error started) kind

end Array

/-- Exactly when the three decoders are bounded by their input: the count they come to, if
they come to one, fits. -/
theorem array_counts_bounded_iff (c : BufferReader) :
    (Bounded 4 Reserving.decodeKvArray c ↔ CountFits 4 c.rest) ∧
    (Bounded 2 Reserving.saslHandshakeResponse c ↔ CountFits 2 (c.rest.drop 2)) ∧
    (Bounded 4 Reserving.createRequest c ↔
      ∀ stream tail, WireString stream → c.rest = writeString stream ++ tail → CountFits 4 tail) := by
  refine ⟨array_bounded_iff rfl, ?_, ?_⟩
  · have word := readU16_run c
    by_cases short : 2 > c.remaining
    · rw [if_pos short] at word
      refine iff_of_true (array_bounded_of_error word rfl) fun long => ?_
      rw [List.length_drop, Cursor.rest_length] at long
      omega
    · rw [if_neg short] at word
      rw [← Cursor.skip_rest c (Nat.not_lt.mp short)]
      exact array_bounded_iff word
  · rcases read : readStringRequired.run c with ⟨e | stream, after⟩
    · obtain ⟨kind, _⟩ := readStringRequired_sound.error c e after read
      refine iff_of_true (array_bounded_of_error read kind) fun stream tail wire split => ?_
      have other := readStringRequired_reads wire c tail split
      rw [read] at other
      cases other
    · obtain ⟨n, inside, rfl, encoded, wire⟩ := readStringRequired_sound.ok c stream after read
      refine (array_bounded_iff read).trans ?_
      constructor
      · intro fits other tail otherWire split
        -- A name can be read in one way only, so the count has one place.
        have same := readStringRequired_reads otherWire c tail split
        rw [read] at same
        rw [(Prod.mk.inj same).2, Cursor.skip_rest_of_append split] at fits
        exact fits
      · intro fits
        refine fits stream _ wire ?_
        rw [← encoded, Cursor.skip_rest c inside, List.take_append_drop]

/-- A count of 2147483647 pairs, and nothing behind it. -/
theorem array_count_unbounded : ¬ ∀ c : BufferReader, Bounded 4 Reserving.decodeKvArray c ∧
    Bounded 2 Reserving.saslHandshakeResponse c ∧ Bounded 4 Reserving.createRequest c := by
  intro claimed
  let c : BufferReader := Cursor.start [0x7F, 0xFF, 0xFF, 0xFF] (by decide)
  have nothing : (pure () : Decode Unit).run c = (.ok (), c) := rfl
  have fits := (array_bounded_iff nothing).mp (claimed c).1
  rw [Cursor.start_rest] at fits
  exact absurd (fits (by decide) (by decide)) (by decide)

end RmqStream.Commands
