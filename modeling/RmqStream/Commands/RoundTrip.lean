import RmqStream.Commands.Lifecycle

/-! Every command body is decoded back to the value that was encoded, and every
accepted body is the encoding of the value returned.

Two commands accept a second spelling: `SaslAuthenticateRequest` reads a null
marker as empty data, and `OpenResponse` and `SaslAuthenticateResponse` accept a
body that stops after the response code. `Noncanonical` names exactly these. -/

set_option autoImplicit false

namespace RmqStream.Commands
open Library

class WireData (α : Type) where
  strings : α → List Bytes
  /-- Element counts of arrays and lengths of byte blobs. -/
  sizes : α → List Nat

/-- The values the wire format can carry. -/
structure Encodable {α : Type} [WireData α] (v : α) : Prop where
  strings : ∀ s ∈ WireData.strings v, WireString s
  sizes : ∀ n ∈ WireData.sizes v, n < 2 ^ 31

def pairStrings (kvs : List KeyValue) : List Bytes := kvs.flatMap fun kv => [kv.1, kv.2]

instance : WireData PeerPropertiesRequest := ⟨fun v => pairStrings v.properties, fun v => [v.properties.length]⟩
instance : WireData PeerPropertiesResponse := ⟨fun v => pairStrings v.properties, fun v => [v.properties.length]⟩
instance : WireData SaslHandshakeRequest := ⟨fun _ => [], fun _ => []⟩
instance : WireData SaslHandshakeResponse := ⟨fun v => v.mechanisms, fun v => [v.mechanisms.length]⟩
instance : WireData SaslAuthenticateRequest := ⟨fun v => [v.mechanism], fun v => [v.saslOpaqueData.length]⟩
instance : WireData SaslAuthenticateResponse :=
  ⟨fun _ => [], fun v => v.saslOpaqueData.toList.map List.length⟩
instance : WireData Tune := ⟨fun _ => [], fun _ => []⟩
instance : WireData OpenRequest := ⟨fun v => [v.virtualHost], fun _ => []⟩
instance : WireData OpenResponse :=
  ⟨fun v => pairStrings v.connectionProperties, fun v => [v.connectionProperties.length]⟩
instance : WireData CloseRequest := ⟨fun v => [v.closingReason], fun _ => []⟩
instance : WireData CloseResponse := ⟨fun _ => [], fun _ => []⟩
instance : WireData Heartbeat := ⟨fun _ => [], fun _ => []⟩
instance : WireData CreateRequest :=
  ⟨fun v => v.stream :: pairStrings v.arguments, fun v => [v.arguments.length]⟩
instance : WireData CreateResponse := ⟨fun _ => [], fun _ => []⟩
instance : WireData DeleteRequest := ⟨fun v => [v.stream], fun _ => []⟩
instance : WireData DeleteResponse := ⟨fun _ => [], fun _ => []⟩
instance : WireData StoreOffset := ⟨fun v => [v.reference, v.stream], fun _ => []⟩
instance : WireData QueryOffsetRequest := ⟨fun v => [v.reference, v.stream], fun _ => []⟩
instance : WireData QueryOffsetResponse := ⟨fun _ => [], fun _ => []⟩
instance : WireData QueryPublisherRequest := ⟨fun v => [v.publisherReference, v.stream], fun _ => []⟩
instance : WireData QueryPublisherResponse := ⟨fun _ => [], fun _ => []⟩

/-! ## Fields -/

abbrev WireField (β : Type) := Field UInt8 (2 ^ 64) IsDecodeError β

namespace WireField

def empty : WireField Unit where
  encode _ := []
  decode := pure ()
  Good _ := True
  reads v _ := Decoder.Reads.pure v
  sound := (Decoder.Sound.pure ()).mono fun _ _ _ holds => ⟨holds.1, trivial⟩

def u16 : WireField UInt16 where
  encode := writeU16
  decode := readU16
  Good _ := True
  reads v _ := readU16_reads v
  sound := readU16_sound.mono fun _ _ _ same => ⟨same, trivial⟩

def u32 : WireField UInt32 where
  encode := writeU32
  decode := readU32
  Good _ := True
  reads v _ := readU32_reads v
  sound := readU32_sound.mono fun _ _ _ same => ⟨same, trivial⟩

def u64 : WireField UInt64 where
  encode := writeU64
  decode := readU64
  Good _ := True
  reads v _ := readU64_reads v
  sound := readU64_sound.mono fun _ _ _ same => ⟨same, trivial⟩

def string : WireField Bytes where
  encode := writeString
  decode := readStringRequired
  Good := WireString
  reads _ wire := readStringRequired_reads wire
  sound := readStringRequired_sound

def bytes : WireField (Option Bytes) where
  encode := writeBytes
  decode := readBytes
  Good data := ∀ b ∈ data, b.length < 2 ^ 31
  reads _ small := readBytes_reads small
  sound := readBytes_sound

variable {β γ : Type}

def array (element : WireField β) : WireField (List β) where
  encode values := writeArrayPrefix (Int32.ofNat values.length) ++ values.flatMap element.encode
  decode := do
    let count ← readArrayPrefix
    element.decode.times count.toInt.toNat
  Good values := values.length < 2 ^ 31 ∧ ∀ value ∈ values, element.Good value
  reads values good := by
    have count : (Int32.ofNat values.length).toInt.toNat = values.length := by
      rw [toInt_ofNat32 good.1]
      rfl
    refine (readArrayPrefix_reads good.1).bind ?_
    rw [count]
    have each : Decoder.Reads (element.decode.times values.length) (values.flatMap element.encode)
        (values.map id) := Decoder.Reads.times fun value member => element.reads value (good.2 value member)
    rwa [List.map_id] at each
  sound := by
    refine (readArrayPrefix_sound.bind fun count =>
      Decoder.Sound.times element.sound count.toInt.toNat).mono ?_
    rintro _ _ values ⟨front, back, count, rfl, ⟨rfl, sign⟩, rfl, length, all⟩
    refine ⟨?_, length ▸ length32_small, all⟩
    rw [length, ofNat_length32 sign]

theorem array_bind (element : WireField β) (next : List β → Decode γ) :
    (array element).decode >>= next = readArrayPrefix >>= fun count =>
      element.decode.times count.toInt.toNat >>= next :=
  Fallible.bind_assoc _ _ _

def pairs : WireField (List KeyValue) := array (string.pair string)

theorem pairs_good (kvs : List KeyValue) :
    pairs.Good kvs ↔ kvs.length < 2 ^ 31 ∧ ∀ s ∈ pairStrings kvs, WireString s := by
  simp only [pairs, array, Field.pair, string, pairStrings, List.mem_flatMap, List.mem_cons,
    List.not_mem_nil, or_false]
  refine and_congr_right fun _ => ⟨?_, ?_⟩
  · rintro all s ⟨kv, member, rfl | rfl⟩
    · exact (all kv member).1
    · exact (all kv member).2
  · intro all kv member
    exact ⟨all _ ⟨kv, member, .inl rfl⟩, all _ ⟨kv, member, .inr rfl⟩⟩

end WireField

/-- The codec of a command is faithful: it recovers every encodable value, and it
accepts the encoding of an encodable value and nothing else, apart from
`noncanonical` bodies. -/
structure Faithful (α : Type) [Command α] [WireData α] (noncanonical : Bytes → Bytes → α → Prop) : Prop where
  reads : ∀ v : α, Encodable v → Decoder.Reads Command.decodeBody (Command.encodeBody v) v
  sound : Decoder.Sound (Command.decodeBody : Decode α) IsDecodeError (fun bytes tail v =>
    Encodable v ∧ (Command.encodeBody v = bytes ↔ ¬ noncanonical bytes tail v))

def never {α : Type} (_ _ : Bytes) (_ : α) : Prop := False

theorem encodable_iff {α : Type} [WireData α] {v : α} : Encodable v ↔
    (∀ s ∈ WireData.strings v, WireString s) ∧ ∀ n ∈ WireData.sizes v, n < 2 ^ 31 :=
  ⟨fun h => ⟨h.strings, h.sizes⟩, fun h => ⟨h.1, h.2⟩⟩

theorem Faithful.ofField {α β : Type} [Command α] [WireData α] (field : WireField β)
    (build : β → α) (parts : α → β) (eta : ∀ v, build (parts v) = v)
    (decode : Command.decodeBody = field.decode >>= fun value => pure (build value))
    (encode : ∀ value, Command.encodeBody (build value) = field.encode value)
    (good : ∀ value, Encodable (build value) ↔ field.Good value) : Faithful α never where
  reads v encodable := by
    rw [← eta v] at encodable ⊢
    rw [decode, encode]
    exact (field.reads _ ((good _).mp encodable)).last rfl
  sound := by
    rw [decode]
    refine (field.sound.last build).mono ?_
    rintro _ _ _ ⟨value, ⟨rfl, holds⟩, rfl⟩
    exact ⟨(good value).mpr holds, by simp [encode, never]⟩

theorem encodable_plain {α : Type} [WireData α] {v : α} (strings : WireData.strings v = [])
    (sizes : WireData.sizes v = []) : Encodable v :=
  ⟨by simp [strings], by simp [sizes]⟩

/-! ## All commands -/

section Instances
open WireField

theorem peerPropertiesRequest_faithful : Faithful PeerPropertiesRequest never :=
  .ofField pairs (fun x => ⟨x⟩) (fun v => v.properties) (fun _ => rfl) rfl (fun _ => rfl) fun x => by
    simp [encodable_iff, pairs_good, WireData.strings, WireData.sizes, and_comm]

theorem peerPropertiesResponse_faithful : Faithful PeerPropertiesResponse never :=
  .ofField (u16.pair pairs) (fun x => ⟨x.1, x.2⟩) (fun v => (v.responseCode, v.properties))
    (fun _ => rfl) (by rw [Field.pair_bind]; rfl) (fun _ => rfl) fun x => by
      simp [encodable_iff, Field.pair, pairs_good, u16, WireData.strings, WireData.sizes, and_comm]

theorem saslHandshakeResponse_faithful : Faithful SaslHandshakeResponse never :=
  .ofField (u16.pair (array string)) (fun x => ⟨x.1, x.2⟩) (fun v => (v.responseCode, v.mechanisms))
    (fun _ => rfl) (by rw [Field.pair_bind]; simp only [array_bind]; rfl) (fun _ => rfl) fun x => by
      simp [encodable_iff, Field.pair, array, string, u16, WireData.strings, WireData.sizes, and_comm]

theorem tune_faithful : Faithful Tune never :=
  .ofField (u32.pair u32) (fun x => ⟨x.1, x.2⟩) (fun v => (v.frameMax, v.heartbeat))
    (fun _ => rfl) (by rw [Field.pair_bind]; rfl) (fun _ => rfl) fun x => by
      simp [encodable_iff, Field.pair, u32, WireData.strings, WireData.sizes]

theorem openRequest_faithful : Faithful OpenRequest never :=
  .ofField string (fun x => ⟨x⟩) (fun v => v.virtualHost) (fun _ => rfl) rfl (fun _ => rfl) fun x => by
    simp [encodable_iff, string, WireData.strings, WireData.sizes]

theorem closeRequest_faithful : Faithful CloseRequest never :=
  .ofField (u16.pair string) (fun x => ⟨x.1, x.2⟩) (fun v => (v.closingCode, v.closingReason))
    (fun _ => rfl) (by rw [Field.pair_bind]; rfl) (fun _ => rfl) fun x => by
      simp [encodable_iff, Field.pair, u16, string, WireData.strings, WireData.sizes]

theorem createRequest_faithful : Faithful CreateRequest never :=
  .ofField (string.pair pairs) (fun x => ⟨x.1, x.2⟩) (fun v => (v.stream, v.arguments))
    (fun _ => rfl) (by rw [Field.pair_bind]; simp only [pairs, array_bind]; rfl) (fun _ => rfl) fun x => by
      simp [encodable_iff, Field.pair, pairs_good, string, WireData.strings, WireData.sizes, and_assoc,
        and_comm (a := x.2.length < _)]

theorem deleteRequest_faithful : Faithful DeleteRequest never :=
  .ofField string (fun x => ⟨x⟩) (fun v => v.stream) (fun _ => rfl) rfl (fun _ => rfl) fun x => by
    simp [encodable_iff, string, WireData.strings, WireData.sizes]

theorem storeOffset_faithful : Faithful StoreOffset never :=
  .ofField (string.pair (string.pair u64)) (fun x => ⟨x.1, x.2.1, x.2.2⟩)
    (fun v => (v.reference, v.stream, v.offset)) (fun _ => rfl)
    (by rw [Field.pair_bind]; simp only [Field.pair_bind]; rfl) (fun _ => rfl) fun x => by
      simp [encodable_iff, Field.pair, string, u64, WireData.strings, WireData.sizes]

theorem closeResponse_faithful : Faithful CloseResponse never :=
  .ofField u16 (fun x => ⟨x⟩) (fun v => v.responseCode) (fun _ => rfl) rfl (fun _ => rfl)
    fun _ => iff_of_true (encodable_plain rfl rfl) trivial

theorem createResponse_faithful : Faithful CreateResponse never :=
  .ofField u16 (fun x => ⟨x⟩) (fun v => v.responseCode) (fun _ => rfl) rfl (fun _ => rfl)
    fun _ => iff_of_true (encodable_plain rfl rfl) trivial

theorem deleteResponse_faithful : Faithful DeleteResponse never :=
  .ofField u16 (fun x => ⟨x⟩) (fun v => v.responseCode) (fun _ => rfl) rfl (fun _ => rfl)
    fun _ => iff_of_true (encodable_plain rfl rfl) trivial

theorem queryOffsetResponse_faithful : Faithful QueryOffsetResponse never :=
  .ofField (u16.pair u64) (fun x => ⟨x.1, x.2⟩) (fun v => (v.responseCode, v.offset)) (fun _ => rfl)
    (by rw [Field.pair_bind]; rfl) (fun _ => rfl)
    fun _ => iff_of_true (encodable_plain rfl rfl) ⟨trivial, trivial⟩

theorem queryPublisherResponse_faithful : Faithful QueryPublisherResponse never :=
  .ofField (u16.pair u64) (fun x => ⟨x.1, x.2⟩) (fun v => (v.responseCode, v.sequence)) (fun _ => rfl)
    (by rw [Field.pair_bind]; rfl) (fun _ => rfl)
    fun _ => iff_of_true (encodable_plain rfl rfl) ⟨trivial, trivial⟩

theorem queryOffsetRequest_faithful : Faithful QueryOffsetRequest never :=
  .ofField (string.pair string) (fun x => ⟨x.1, x.2⟩) (fun v => (v.reference, v.stream)) (fun _ => rfl)
    (by rw [Field.pair_bind]; rfl) (fun _ => rfl) fun x => by
      simp [encodable_iff, Field.pair, string, WireData.strings, WireData.sizes]

theorem queryPublisherRequest_faithful : Faithful QueryPublisherRequest never :=
  .ofField (string.pair string) (fun x => ⟨x.1, x.2⟩) (fun v => (v.publisherReference, v.stream)) (fun _ => rfl)
    (by rw [Field.pair_bind]; rfl) (fun _ => rfl) fun x => by
      simp [encodable_iff, Field.pair, string, WireData.strings, WireData.sizes]

theorem saslHandshakeRequest_faithful : Faithful SaslHandshakeRequest never :=
  .ofField empty (fun _ => ⟨⟩) (fun _ => ()) (fun _ => rfl) rfl (fun _ => rfl)
    fun _ => iff_of_true (encodable_plain rfl rfl) trivial

theorem heartbeat_faithful : Faithful Heartbeat never :=
  .ofField empty (fun _ => ⟨⟩) (fun _ => ()) (fun _ => rfl) rfl (fun _ => rfl)
    fun _ => iff_of_true (encodable_plain rfl rfl) trivial

/-! The three commands that accept a second spelling. -/

def NullOpaqueData (bytes _ : Bytes) (v : SaslAuthenticateRequest) : Prop :=
  bytes = writeString v.mechanism ++ writeI32 (-1)

def EndsAfterCode {α : Type} (bytes tail : Bytes) (_ : α) : Prop := bytes.length = 2 ∧ tail = []

theorem writeI32_length (v : Int32) : (writeI32 v).length = 4 := rfl

theorem writeBytesRaw_ne_null (data : Bytes) : writeBytesRaw data ≠ writeI32 (-1) := by
  intro same
  have length := congrArg List.length same
  rw [writeBytesRaw, List.length_append, writeI32_length, writeI32_length] at length
  have none_left : data = [] := List.length_eq_zero_iff.mp (by omega)
  rw [none_left] at same
  exact absurd same (by decide)

theorem saslAuthenticateRequest_faithful : Faithful SaslAuthenticateRequest NullOpaqueData where
  reads v encodable := by
    have wire : WireString v.mechanism := encodable.strings _ List.mem_cons_self
    have small : ∀ b ∈ some v.saslOpaqueData, b.length < 2 ^ 31 := by
      rintro b ⟨rfl⟩
      exact encodable.sizes _ List.mem_cons_self
    exact (readStringRequired_reads wire).bind ((readBytes_reads small).last rfl)
  sound := by
    refine (readStringRequired_sound.bind fun mech => readBytes_sound.last
      fun data : Option Bytes => (⟨mech, data.getD []⟩ : SaslAuthenticateRequest)).mono ?_
    rintro _ _ _ ⟨_, _, mech, rfl, ⟨rfl, wire⟩, data, ⟨rfl, small⟩, rfl⟩
    cases data with
    | none =>
      refine ⟨⟨by simpa [WireData.strings] using wire, by simp [WireData.sizes]⟩, ?_⟩
      refine iff_of_false (fun same => ?_) (fun canonical => canonical rfl)
      exact writeBytesRaw_ne_null [] (List.append_cancel_left same)
    | some b =>
      refine ⟨⟨by simpa [WireData.strings] using wire, by simpa [WireData.sizes] using small⟩, ?_⟩
      refine iff_of_true rfl fun null => ?_
      exact writeBytesRaw_ne_null b (List.append_cancel_left null)

theorem Faithful.ofOptionalTail {α β : Type} [Command α] [WireData α] (field : WireField β) (default : β)
    (build : UInt16 → β → α) (parts : α → UInt16 × β) (eta : ∀ v, build (parts v).1 (parts v).2 = v)
    (decode : Command.decodeBody = readU16 >>= fun rc => Decoder.atEnd >>= fun ended =>
      if ended = true then pure (build rc default)
      else field.decode >>= fun value => pure (build rc value))
    (encode : ∀ rc value, Command.encodeBody (build rc value) = writeU16 rc ++ field.encode value)
    (good : ∀ rc value, Encodable (build rc value) ↔ field.Good value)
    (goodDefault : field.Good default)
    (nonempty : ∀ value, field.encode value ≠ []) : Faithful α EndsAfterCode where
  reads v encodable := by
    rw [← eta v] at encodable ⊢
    rw [decode, encode]
    refine (readU16_reads _).bind (Decoder.Reads.atEnd (nonempty _) ?_)
    exact (field.reads _ ((good _ _).mp encodable)).last rfl
  sound := by
    have tail : ∀ rc (ended : Bool), Decoder.Sound
        (if ended = true then pure (build rc default)
          else field.decode >>= fun value => pure (build rc value) : Decode α) IsDecodeError
        (fun bytes _ v => ∃ value, v = build rc value ∧ field.Good value ∧
          if ended = true then bytes = [] else bytes = field.encode value) := by
      intro rc ended
      cases ended with
      | true =>
        refine (Decoder.Sound.pure (build rc default)).mono ?_
        rintro _ _ _ ⟨rfl, rfl⟩
        exact ⟨default, rfl, goodDefault, rfl⟩
      | false =>
        refine (field.sound.last (build rc)).mono ?_
        rintro _ _ _ ⟨value, ⟨rfl, holds⟩, rfl⟩
        exact ⟨value, rfl, holds, rfl⟩
    rw [decode]
    refine (readU16_sound.bind fun rc => Decoder.Sound.atEnd.bind (tail rc)).mono ?_
    rintro _ _ _ ⟨_, _, rc, rfl, rfl, _, back, ended, rfl, ⟨rfl, atEnd⟩, value, rfl, holds, shape⟩
    refine ⟨(good rc value).mpr holds, ?_⟩
    have codeLength : (writeU16 rc).length = 2 := rfl
    rw [encode, List.nil_append]
    cases ended with
    | true =>
      -- Nothing was left after the code, so the encoding is strictly longer.
      have stopped := List.append_eq_nil_iff.mp (atEnd.mp rfl)
      refine iff_of_false (fun same => ?_) fun canonical => canonical ⟨?_, stopped.2⟩
      · rw [stopped.1] at same
        exact nonempty value (List.append_cancel_left same)
      · rw [stopped.1, List.append_nil, codeLength]
    | false =>
      simp only [Bool.false_eq_true, ↓reduceIte] at shape
      subst shape
      refine iff_of_true rfl fun stopped => nonempty value ?_
      have length := stopped.1
      rw [List.length_append, codeLength] at length
      exact List.length_eq_zero_iff.mp (by omega)

theorem writeArrayPrefix_append_ne_nil (count : Int32) (bytes : Bytes) : writeArrayPrefix count ++ bytes ≠ [] := by
  simp [writeArrayPrefix, writeI32, writeU32]

theorem writeBytes_ne_nil (data : Option Bytes) : writeBytes data ≠ [] := by
  cases data <;> simp [writeBytes, writeBytesRaw, writeI32, writeU32]

theorem saslAuthenticateResponse_faithful : Faithful SaslAuthenticateResponse EndsAfterCode :=
  .ofOptionalTail bytes none (fun rc data => ⟨rc, data⟩) (fun v => (v.responseCode, v.saslOpaqueData))
    (fun _ => rfl) rfl (fun _ _ => rfl)
    (fun rc data => by simp [encodable_iff, bytes, WireData.strings, WireData.sizes])
    (by simp [bytes]) writeBytes_ne_nil

theorem openResponse_faithful : Faithful OpenResponse EndsAfterCode :=
  .ofOptionalTail pairs [] (fun rc kvs => ⟨rc, kvs⟩) (fun v => (v.responseCode, v.connectionProperties))
    (fun _ => rfl) rfl (fun _ _ => rfl)
    (fun rc kvs => by simp [encodable_iff, pairs_good, WireData.strings, WireData.sizes, and_comm])
    (by simp [pairs_good, pairStrings]) (fun _ => writeArrayPrefix_append_ne_nil _ _)

end Instances

/-! ## The command language -/

inductive CommandType where
  | peerPropertiesRequest | peerPropertiesResponse | saslHandshakeRequest | saslHandshakeResponse
  | saslAuthenticateRequest | saslAuthenticateResponse | tune | openRequest | openResponse
  | closeRequest | closeResponse | heartbeat
  | createRequest | createResponse | deleteRequest | deleteResponse | storeOffset
  | queryOffsetRequest | queryOffsetResponse | queryPublisherRequest | queryPublisherResponse
  deriving DecidableEq, Repr

namespace CommandType

abbrev Struct : CommandType → Type
  | peerPropertiesRequest => PeerPropertiesRequest
  | peerPropertiesResponse => PeerPropertiesResponse
  | saslHandshakeRequest => SaslHandshakeRequest
  | saslHandshakeResponse => SaslHandshakeResponse
  | saslAuthenticateRequest => SaslAuthenticateRequest
  | saslAuthenticateResponse => SaslAuthenticateResponse
  | tune => Tune
  | openRequest => OpenRequest
  | openResponse => OpenResponse
  | closeRequest => CloseRequest
  | closeResponse => CloseResponse
  | heartbeat => Heartbeat
  | createRequest => CreateRequest
  | createResponse => CreateResponse
  | deleteRequest => DeleteRequest
  | deleteResponse => DeleteResponse
  | storeOffset => StoreOffset
  | queryOffsetRequest => QueryOffsetRequest
  | queryOffsetResponse => QueryOffsetResponse
  | queryPublisherRequest => QueryPublisherRequest
  | queryPublisherResponse => QueryPublisherResponse

instance command : (tag : CommandType) → Command tag.Struct
  | peerPropertiesRequest => inferInstanceAs (Command PeerPropertiesRequest)
  | peerPropertiesResponse => inferInstanceAs (Command PeerPropertiesResponse)
  | saslHandshakeRequest => inferInstanceAs (Command SaslHandshakeRequest)
  | saslHandshakeResponse => inferInstanceAs (Command SaslHandshakeResponse)
  | saslAuthenticateRequest => inferInstanceAs (Command SaslAuthenticateRequest)
  | saslAuthenticateResponse => inferInstanceAs (Command SaslAuthenticateResponse)
  | tune => inferInstanceAs (Command Tune)
  | openRequest => inferInstanceAs (Command OpenRequest)
  | openResponse => inferInstanceAs (Command OpenResponse)
  | closeRequest => inferInstanceAs (Command CloseRequest)
  | closeResponse => inferInstanceAs (Command CloseResponse)
  | heartbeat => inferInstanceAs (Command Heartbeat)
  | createRequest => inferInstanceAs (Command CreateRequest)
  | createResponse => inferInstanceAs (Command CreateResponse)
  | deleteRequest => inferInstanceAs (Command DeleteRequest)
  | deleteResponse => inferInstanceAs (Command DeleteResponse)
  | storeOffset => inferInstanceAs (Command StoreOffset)
  | queryOffsetRequest => inferInstanceAs (Command QueryOffsetRequest)
  | queryOffsetResponse => inferInstanceAs (Command QueryOffsetResponse)
  | queryPublisherRequest => inferInstanceAs (Command QueryPublisherRequest)
  | queryPublisherResponse => inferInstanceAs (Command QueryPublisherResponse)

instance wireData : (tag : CommandType) → WireData tag.Struct
  | peerPropertiesRequest => inferInstanceAs (WireData PeerPropertiesRequest)
  | peerPropertiesResponse => inferInstanceAs (WireData PeerPropertiesResponse)
  | saslHandshakeRequest => inferInstanceAs (WireData SaslHandshakeRequest)
  | saslHandshakeResponse => inferInstanceAs (WireData SaslHandshakeResponse)
  | saslAuthenticateRequest => inferInstanceAs (WireData SaslAuthenticateRequest)
  | saslAuthenticateResponse => inferInstanceAs (WireData SaslAuthenticateResponse)
  | tune => inferInstanceAs (WireData Tune)
  | openRequest => inferInstanceAs (WireData OpenRequest)
  | openResponse => inferInstanceAs (WireData OpenResponse)
  | closeRequest => inferInstanceAs (WireData CloseRequest)
  | closeResponse => inferInstanceAs (WireData CloseResponse)
  | heartbeat => inferInstanceAs (WireData Heartbeat)
  | createRequest => inferInstanceAs (WireData CreateRequest)
  | createResponse => inferInstanceAs (WireData CreateResponse)
  | deleteRequest => inferInstanceAs (WireData DeleteRequest)
  | deleteResponse => inferInstanceAs (WireData DeleteResponse)
  | storeOffset => inferInstanceAs (WireData StoreOffset)
  | queryOffsetRequest => inferInstanceAs (WireData QueryOffsetRequest)
  | queryOffsetResponse => inferInstanceAs (WireData QueryOffsetResponse)
  | queryPublisherRequest => inferInstanceAs (WireData QueryPublisherRequest)
  | queryPublisherResponse => inferInstanceAs (WireData QueryPublisherResponse)

/-- The accepted bodies that are not the encoding of the value they decode to. -/
def Noncanonical : (tag : CommandType) → Bytes → Bytes → tag.Struct → Prop
  | saslAuthenticateRequest => NullOpaqueData
  | saslAuthenticateResponse => EndsAfterCode
  | openResponse => EndsAfterCode
  | _ => never

theorem faithful (tag : CommandType) : Faithful tag.Struct tag.Noncanonical := by
  cases tag with
  | peerPropertiesRequest => exact peerPropertiesRequest_faithful
  | peerPropertiesResponse => exact peerPropertiesResponse_faithful
  | saslHandshakeRequest => exact saslHandshakeRequest_faithful
  | saslHandshakeResponse => exact saslHandshakeResponse_faithful
  | saslAuthenticateRequest => exact saslAuthenticateRequest_faithful
  | saslAuthenticateResponse => exact saslAuthenticateResponse_faithful
  | tune => exact tune_faithful
  | openRequest => exact openRequest_faithful
  | openResponse => exact openResponse_faithful
  | closeRequest => exact closeRequest_faithful
  | closeResponse => exact closeResponse_faithful
  | heartbeat => exact heartbeat_faithful
  | createRequest => exact createRequest_faithful
  | createResponse => exact createResponse_faithful
  | deleteRequest => exact deleteRequest_faithful
  | deleteResponse => exact deleteResponse_faithful
  | storeOffset => exact storeOffset_faithful
  | queryOffsetRequest => exact queryOffsetRequest_faithful
  | queryOffsetResponse => exact queryOffsetResponse_faithful
  | queryPublisherRequest => exact queryPublisherRequest_faithful
  | queryPublisherResponse => exact queryPublisherResponse_faithful

end CommandType

/-- Decoding undoes encoding: with any bytes after the encoding, the value comes
back unchanged and the cursor stands right after the encoding. -/
theorem decodeBody_encodeBody (tag : CommandType) (v : tag.Struct) (suffix : Bytes) (c : BufferReader)
    (encodable : Encodable v) (buffer : c.rest = Command.encodeBody v ++ suffix) :
    ∃ after, Command.decodeBody.run c = (.ok v, after) ∧ after.data = c.data ∧
      after.pos = c.pos + (Command.encodeBody v).length ∧ after.rest = suffix := by
  refine ⟨_, tag.faithful.reads v encodable c suffix buffer, Cursor.skip_data c _, ?_, ?_⟩
  · exact Cursor.skip_pos c (Cursor.remaining_of_rest buffer)
  · exact Cursor.skip_rest_of_append buffer

/-- Duplicate arguments and a suffix that looks like more of them. -/
theorem decodeBody_encodeBody_create :
    let v : CreateRequest := ⟨text "s", [(text "k", text "é"), (text "k", [])]⟩
    ∃ after, Command.decodeBody.run (Cursor.start (Command.encodeBody v ++ [0, 1, 107]) (by decide)) =
        (.ok v, after) ∧ after.data = Command.encodeBody v ++ [0, 1, 107] ∧
      after.pos = 0 + (Command.encodeBody v).length ∧ after.rest = [0, 1, 107] :=
  decodeBody_encodeBody .createRequest ⟨text "s", [(text "k", text "é"), (text "k", [])]⟩ [0, 1, 107]
    (Cursor.start _ (by decide))
    ⟨by
      intro s member
      have wire : ∀ t : String, (text t).length ≤ 32767 → WireString (text t) :=
        fun t short => ⟨text_utf8 t, short⟩
      simp only [WireData.strings, pairStrings, List.flatMap_cons, List.flatMap_nil, List.mem_cons,
        List.mem_append, List.not_mem_nil, or_false] at member
      rcases member with rfl | (rfl | rfl) | (rfl | rfl)
      · exact wire "s" (by decide)
      · exact wire "k" (by decide)
      · exact wire "é" (by decide)
      · exact wire "k" (by decide)
      · exact wire "" (by decide),
    by simp [WireData.sizes]⟩
    (Cursor.start_rest _ _)

/-- Encoding undoes decoding, where every allocation is granted: decoding fails with a decode
error inside the buffer, or returns a value with wire strings whose encoding is exactly what
was consumed, the noncanonical bodies apart. -/
theorem encodeBody_decodeBody (tag : CommandType) (c : BufferReader) :
    match (Command.decodeBody : Decode tag.Struct).run c with
    | (.error e, after) => e.kind = .decodeError ∧ after.data = c.data ∧ after.pos ≤ c.data.length
    | (.ok v, after) => ∃ n ≤ c.remaining, after.data = c.data ∧ after.pos = c.pos + n ∧
        (∀ s ∈ WireData.strings v, WireString s) ∧
        (Command.encodeBody v = c.rest.take n ↔ ¬ tag.Noncanonical (c.rest.take n) (c.rest.drop n) v) := by
  rcases outcome : (Command.decodeBody : Decode tag.Struct).run c with ⟨e | v, after⟩
  · obtain ⟨kind, n, inside, rfl⟩ := tag.faithful.sound.error c e after outcome
    refine ⟨kind, Cursor.skip_data c n, ?_⟩
    rw [← Cursor.skip_data c n]
    exact (c.skip n).inBounds
  · obtain ⟨n, inside, rfl, encodable, canonical⟩ := tag.faithful.sound.ok c v after outcome
    exact ⟨n, inside, Cursor.skip_data c n, Cursor.skip_pos c inside, encodable.strings, canonical⟩

end RmqStream.Commands
