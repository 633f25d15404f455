import RmqStream.Commands.Reserve
import RmqStream.Commands.RoundTrip

/-! The body decoders over an allocator that may refuse what they reserve.

`reserve` is the one allocation whose size the input chooses. The strings and bytes
themselves are no longer than the buffer, and their space is always granted here. -/

set_option autoImplicit false

namespace RmqStream.Commands
open Library Fallible

/-- A decoder stops with the error it returns, or with `std::bad_alloc` out of `reserve`. -/
inductive Stop where
  | returned (e : StreamError)
  | thrown
  deriving DecidableEq, Repr

abbrev Throwing (α : Type) := Fallible BufferReader Stop α

/-- Whether a `reserve` of so many elements is granted. -/
abbrev Allocator := Nat → Bool

namespace Throwing
variable {α β γ : Type}

def of (decoder : Decode α) : Throwing α := decoder.mapError .returned

theorem of_bind (m : Decode α) (next : α → Decode β) : of (m >>= next) = of m >>= fun value => of (next value) :=
  mapError_bind _ m next

theorem of_ok {m : Decode α} {c after : BufferReader} {value : α} (run : m.run c = (.ok value, after)) :
    (of m).run c = (.ok value, after) := by
  simp only [of, mapError, run, Except.mapError]

theorem of_error {m : Decode α} {c after : BufferReader} {e : StreamError} (run : m.run c = (.error e, after)) :
    (of m).run c = (.error (.returned e), after) := by
  simp only [of, mapError, run, Except.mapError]

def reserve (grants : Allocator) (count : Nat) : Throwing Unit :=
  if grants count then pure () else fail .thrown

def elements (grants : Allocator) (element : Decode β) : Throwing (List β) := do
  let count ← of readArrayPrefix
  reserve grants count.toInt.toNat
  of (element.times count.toInt.toNat)

def decodeKvArray (grants : Allocator) : Throwing (List KeyValue) := elements grants decodeKeyValue

/-- The bodies that hold an array, and the others, which reserve nothing. -/
def decodeBody (grants : Allocator) : (tag : CommandType) → Throwing tag.Struct
  | .peerPropertiesRequest => do
    let kvs ← decodeKvArray grants
    pure (PeerPropertiesRequest.mk kvs)
  | .peerPropertiesResponse => do
    let rc ← of readU16
    let kvs ← decodeKvArray grants
    pure (PeerPropertiesResponse.mk rc kvs)
  | .saslHandshakeResponse => do
    let rc ← of readU16
    let mechanisms ← elements grants readStringRequired
    pure (SaslHandshakeResponse.mk rc mechanisms)
  | .openResponse => do
    let rc ← of readU16
    if ← of Decoder.atEnd then pure (OpenResponse.mk rc [])
    else
      let kvs ← decodeKvArray grants
      pure (OpenResponse.mk rc kvs)
  | .createRequest => do
    let s ← of readStringRequired
    let arguments ← elements grants decodeKeyValue
    pure (CreateRequest.mk s arguments)
  | .saslHandshakeRequest => of Command.decodeBody
  | .saslAuthenticateRequest => of Command.decodeBody
  | .saslAuthenticateResponse => of Command.decodeBody
  | .tune => of Command.decodeBody
  | .openRequest => of Command.decodeBody
  | .closeRequest => of Command.decodeBody
  | .closeResponse => of Command.decodeBody
  | .heartbeat => of Command.decodeBody
  | .createResponse => of Command.decodeBody
  | .deleteRequest => of Command.decodeBody
  | .deleteResponse => of Command.decodeBody
  | .storeOffset => of Command.decodeBody
  | .queryOffsetRequest => of Command.decodeBody
  | .queryOffsetResponse => of Command.decodeBody
  | .queryPublisherRequest => of Command.decodeBody
  | .queryPublisherResponse => of Command.decodeBody

end Throwing

/-- The bytes begin with a count that is granted, or with no count at all. -/
def CountGranted (grants : Allocator) (bytes : Bytes) : Prop :=
  4 ≤ bytes.length → ofBigEndian (bytes.take 4) < 2 ^ 31 → grants (ofBigEndian (bytes.take 4)) = true

/-- The count a body comes to, where it has one, is granted. -/
def ReserveGranted (grants : Allocator) : CommandType → Bytes → Prop
  | .peerPropertiesRequest, bytes => CountGranted grants bytes
  | .peerPropertiesResponse, bytes => CountGranted grants (bytes.drop 2)
  | .saslHandshakeResponse, bytes => CountGranted grants (bytes.drop 2)
  | .openResponse, bytes => CountGranted grants (bytes.drop 2)
  | .createRequest, bytes => ∀ stream tail, WireString stream → bytes = writeString stream ++ tail →
      CountGranted grants tail
  | _, _ => True

structure Guarded {α : Type} (m : Throwing α) (plain : Decode α) (granted : Bytes → Prop) : Prop where
  same : ∀ c, granted c.rest → m.run c = (Throwing.of plain).run c
  thrown : ∀ c, ¬ granted c.rest → (m.run c).1 = .error .thrown

namespace Guarded
variable {α β γ : Type} {grants : Allocator} {granted later : Bytes → Prop}

theorem of (decoder : Decode α) : Guarded (Throwing.of decoder) decoder fun _ => True where
  same _ _ := rfl
  thrown _ refused := absurd trivial refused

theorem count_split (grants : Allocator) (c : BufferReader) :
    (∃ e after, readArrayPrefix.run c = (.error e, after) ∧ CountGranted grants c.rest) ∨
      ∃ count after, readArrayPrefix.run c = (.ok count, after) ∧
        (CountGranted grants c.rest ↔ grants count.toInt.toNat = true) := by
  rw [readArrayPrefix_run]
  unfold CountGranted
  rw [Cursor.rest_length]
  by_cases short : 4 > c.remaining
  · exact .inl ⟨_, _, if_pos short, fun long => absurd short (Nat.not_lt.mpr long)⟩
  by_cases small : ofBigEndian (c.rest.take 4) < 2 ^ 31
  · refine .inr ⟨_, _, (if_neg short).trans (if_pos small), ?_⟩
    rw [toInt_ofNat32 small]
    exact ⟨fun given => given (Nat.not_lt.mp short) small, fun given _ _ => given⟩
  · exact .inl ⟨_, _, (if_neg short).trans (if_neg small), fun _ nonnegative => absurd nonnegative small⟩

theorem elements (element : Decode β) :
    Guarded (Throwing.elements grants element) (readArrayPrefix >>= fun count => element.times count.toInt.toNat)
      (CountGranted grants) := by
  constructor
  · intro c given
    rw [Throwing.of_bind]
    rcases count_split grants c with ⟨e, after, read, -⟩ | ⟨count, after, read, asked⟩
    · exact (bind_error (Throwing.of_error read)).trans (bind_error (Throwing.of_error read)).symm
    · rw [Throwing.elements, bind_ok (Throwing.of_ok read), bind_ok (Throwing.of_ok read), Throwing.reserve,
        if_pos (asked.mp given)]
      rfl
  · intro c refused
    rcases count_split grants c with ⟨e, after, read, given⟩ | ⟨count, after, read, asked⟩
    · exact absurd given refused
    · rw [Throwing.elements, bind_ok (Throwing.of_ok read), Throwing.reserve,
        if_neg fun given => refused (asked.mpr given)]
      rfl

theorem build {m : Throwing α} {plain : Decode α} (first : Guarded m plain granted) (make : α → β) :
    Guarded (m >>= fun value => pure (make value)) (plain >>= fun value => pure (make value)) granted where
  same c given := by
    rw [Throwing.of_bind, run_bind, run_bind, first.same c given]
    rfl
  thrown c refused := by
    have stops := first.thrown c refused
    rcases run : m.run c with ⟨e | value, after⟩
    all_goals
      rw [run] at stops
      cases stops
    rw [bind_error run]

theorem behind {lead : Decode γ} {next : γ → Throwing α} {plain : γ → Decode α}
    (second : ∀ fields, Guarded (next fields) (plain fields) later)
    (fails : ∀ c e after, lead.run c = (.error e, after) → granted c.rest)
    (moves : ∀ c fields after, lead.run c = (.ok fields, after) → (granted c.rest ↔ later after.rest)) :
    Guarded (Throwing.of lead >>= next) (lead >>= plain) granted := by
  constructor
  · intro c given
    rw [Throwing.of_bind]
    rcases read : lead.run c with ⟨e | fields, after⟩
    · exact (bind_error (Throwing.of_error read)).trans (bind_error (Throwing.of_error read)).symm
    · rw [bind_ok (Throwing.of_ok read), bind_ok (Throwing.of_ok read)]
      exact (second fields).same after ((moves c fields after read).mp given)
  · intro c refused
    rcases read : lead.run c with ⟨e | fields, after⟩
    · exact absurd (fails c e after read) refused
    · rw [bind_ok (Throwing.of_ok read)]
      exact (second fields).thrown after fun given => refused ((moves c fields after read).mpr given)

theorem behind_u16 {next : UInt16 → Throwing α} {plain : UInt16 → Decode α}
    (second : ∀ rc, Guarded (next rc) (plain rc) (CountGranted grants)) :
    Guarded (Throwing.of readU16 >>= next) (readU16 >>= plain) fun bytes => CountGranted grants (bytes.drop 2) := by
  refine behind second ?_ ?_
  · intro c e after read long
    have word := readU16_run c
    by_cases short : 2 > c.remaining
    · rw [List.length_drop, Cursor.rest_length] at long
      omega
    · rw [if_neg short, read] at word
      cases word
  · intro c rc after read
    have word := readU16_run c
    by_cases short : 2 > c.remaining
    · rw [if_pos short, read] at word
      cases word
    · rw [if_neg short, read] at word
      rw [(Prod.mk.inj word).2, Cursor.skip_rest c (Nat.not_lt.mp short)]

/-- A name can be read in one way only, so the count behind it has one place. -/
theorem behind_string {next : Bytes → Throwing α} {plain : Bytes → Decode α}
    (second : ∀ s, Guarded (next s) (plain s) later) :
    Guarded (Throwing.of readStringRequired >>= next) (readStringRequired >>= plain) fun bytes =>
      ∀ stream tail, WireString stream → bytes = writeString stream ++ tail → later tail := by
  refine behind second ?_ ?_
  · intro c e after read stream tail wire split
    have other := readStringRequired_reads wire c tail split
    rw [read] at other
    cases other
  · intro c s after read
    obtain ⟨n, inside, rfl, encoded, wire⟩ := readStringRequired_sound.ok c s after read
    constructor
    · intro given
      refine given s _ wire ?_
      rw [← encoded, Cursor.skip_rest c inside, List.take_append_drop]
    · intro given stream tail otherWire split
      have same := readStringRequired_reads otherWire c tail split
      rw [read] at same
      rw [(Prod.mk.inj same).2, Cursor.skip_rest_of_append split] at given
      exact given

theorem unless_atEnd {m : Throwing α} {plain : Decode α} (early : α)
    (first : Guarded m plain (CountGranted grants)) :
    Guarded (Throwing.of Decoder.atEnd >>= fun done => if done then pure early else m)
      (Decoder.atEnd >>= fun done => if done then pure early else plain) (CountGranted grants) := by
  have split : ∀ c : BufferReader, (Throwing.of Decoder.atEnd).run c = (.ok (c.remaining == 0), c) := fun _ => rfl
  constructor
  · intro c given
    rw [Throwing.of_bind, bind_ok (split c), bind_ok (split c)]
    cases c.remaining == 0
    · exact first.same c given
    · rfl
  · intro c refused
    rw [bind_ok (split c)]
    cases last : c.remaining == 0
    · exact first.thrown c refused
    · rw [beq_iff_eq] at last
      refine absurd (fun long => ?_) refused
      rw [Cursor.rest_length, last] at long
      omega

end Guarded

/-- The count field is granted when every recorded reservation is. -/
theorem countGranted_iff {α β γ : Type} {lead : Decode γ} {element : Decode β} {build : γ → List β → α}
    {grants : Allocator} {c after : BufferReader} {fields : γ} (first : lead.run c = (.ok fields, after)) :
    CountGranted grants after.rest ↔
      ∀ x ∈ ((Reserving.array lead element build).run (c, [])).2.2, grants x.count = true := by
  rcases Guarded.count_split grants after with ⟨e, middle, read, given⟩ | ⟨count, middle, read, asked⟩
  · have started := lift_run first ([] : List Reservation)
    have stopped := lift_run read ([] : List Reservation)
    have run : (Reserving.array lead element build).run (c, []) = (.error e, middle, []) :=
      (bind_ok started).trans (bind_error stopped)
    refine iff_of_true given fun x member => ?_
    rw [run] at member
    exact absurd member (List.not_mem_nil)
  · rw [asked, array_reserves first read]
    simp only [List.mem_singleton, forall_eq]

theorem decodeBody_guarded (grants : Allocator) (tag : CommandType) :
    Guarded (Throwing.decodeBody grants tag) Command.decodeBody (ReserveGranted grants tag) := by
  have kvArray : Guarded (Throwing.decodeKvArray grants) Commands.decodeKvArray (CountGranted grants) :=
    .elements decodeKeyValue
  cases tag with
  | peerPropertiesRequest => exact kvArray.build PeerPropertiesRequest.mk
  | peerPropertiesResponse => exact .behind_u16 fun rc => kvArray.build (PeerPropertiesResponse.mk rc)
  | saslHandshakeResponse =>
    have body : ∀ rc, Guarded (Throwing.elements grants readStringRequired >>= fun mechanisms =>
        pure (SaslHandshakeResponse.mk rc mechanisms)) (readArrayPrefix >>= fun count =>
          readStringRequired.times count.toInt.toNat >>= fun mechanisms =>
            pure (SaslHandshakeResponse.mk rc mechanisms)) (CountGranted grants) := by
      intro rc
      rw [← bind_assoc]
      exact (Guarded.elements readStringRequired).build (SaslHandshakeResponse.mk rc)
    exact .behind_u16 body
  | openResponse =>
    exact .behind_u16 fun rc => .unless_atEnd (OpenResponse.mk rc []) (kvArray.build (OpenResponse.mk rc))
  | createRequest =>
    have body : ∀ s, Guarded (Throwing.elements grants decodeKeyValue >>= fun arguments =>
        pure (CreateRequest.mk s arguments)) (readArrayPrefix >>= fun count =>
          decodeKeyValue.times count.toInt.toNat >>= fun arguments => pure (CreateRequest.mk s arguments))
        (CountGranted grants) := by
      intro s
      rw [← bind_assoc]
      exact (Guarded.elements decodeKeyValue).build (CreateRequest.mk s)
    exact .behind_string body
  | _ => exact .of Command.decodeBody

/-- An error inside the buffer, or a value whose strings are wire strings and whose encoding
is what was consumed, the noncanonical bodies apart. -/
def Canonical (tag : CommandType) (c : BufferReader) : Except Stop tag.Struct × BufferReader → Prop
  | (.error .thrown, _) => False
  | (.error (.returned e), after) => e.kind = .decodeError ∧ after.data = c.data ∧ after.pos ≤ c.data.length
  | (.ok v, after) => ∃ n ≤ c.remaining, after.data = c.data ∧ after.pos = c.pos + n ∧
      (∀ s ∈ WireData.strings v, WireString s) ∧
      (Command.encodeBody v = c.rest.take n ↔ ¬ tag.Noncanonical (c.rest.take n) (c.rest.drop n) v)

/-- Exactly when no exception leaves a body decoder: then decoding is undone by encoding. -/
theorem canonical_iff_granted (grants : Allocator) (tag : CommandType) (c : BufferReader) :
    Canonical tag c ((Throwing.decodeBody grants tag).run c) ↔ ReserveGranted grants tag c.rest := by
  constructor
  · intro canonical
    by_contra refused
    have stops := (decodeBody_guarded grants tag).thrown c refused
    rcases run : (Throwing.decodeBody grants tag).run c with ⟨e | v, after⟩
    all_goals
      rw [run] at stops canonical
      cases stops
    exact canonical
  · intro granted
    rw [(decodeBody_guarded grants tag).same c granted]
    have decoded := encodeBody_decodeBody tag c
    rcases run : (Command.decodeBody : Decode tag.Struct).run c with ⟨e | v, after⟩
    · rw [run] at decoded
      rw [Throwing.of_error run]
      exact decoded
    · rw [run] at decoded
      rw [Throwing.of_ok run]
      exact decoded

/-- Space for 2147483647 pairs is refused, and nothing is read behind the count. -/
theorem decodeBody_throws : ¬ ∀ (grants : Allocator) (tag : CommandType) (c : BufferReader),
    Canonical tag c ((Throwing.decodeBody grants tag).run c) := by
  intro claimed
  have canonical := claimed (· < 2147483647) .peerPropertiesRequest
    (Cursor.start [0x7F, 0xFF, 0xFF, 0xFF] (by decide))
  exact canonical

end RmqStream.Commands
