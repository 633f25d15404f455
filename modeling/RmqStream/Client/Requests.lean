import RmqStream.Client.FrameLimit

/-! What a lifecycle call puts on the wire, against what its caller asked for.

The string encoder cuts what is longer than 32767 bytes, nothing looks at UTF-8 before
sending, and the array count and the size field are casts. A frame is parsed back to the
caller's arguments exactly when none of these limits is passed. -/

set_option autoImplicit false

namespace RmqStream
open Library Commands

/-! ## Parsing one frame -/

/-- What a peer makes of one frame: the key, and the value read from the body. -/
def parseFrame {β : Type} (decode : Decode β) (bytes : Bytes) : Result (UInt16 × β) :=
  (decodeFrom readFrameAuto bytes).bind fun frame =>
    (decodeFrom decode frame.body).map fun value => (frame.key, value)

theorem decodeFrom_readFrameAuto {bytes : Bytes} (addressable : bytes.length < 2 ^ 64) (frame : IncomingFrame) :
    decodeFrom readFrameAuto bytes = .ok frame ↔ ∃ tail, nextFrame bytes = some (frame, tail) := by
  have run := readFrameAuto_nextFrame (Cursor.start bytes addressable)
  rw [Cursor.start_rest] at run
  rw [decodeFrom, dif_pos addressable]
  cases parsed : nextFrame bytes with
  | none =>
    rw [parsed] at run
    obtain ⟨e, after, failed⟩ := run
    simp [failed]
  | some found =>
    obtain ⟨other, tail⟩ := found
    rw [parsed] at run
    simp [run.1]

theorem encodeOnewayFrame_length (key version : UInt16) (payload : Bytes) :
    (encodeOnewayFrame key version payload).length = 8 + payload.length := by
  simp only [encodeOnewayFrame, sizePrefixed, List.length_append, writeU32, writeU16, List.length_cons,
    List.length_nil]
  omega

/-- A size field too small for the payload cuts it. -/
theorem nextFrame_oneway {key version : UInt16} {payload : Bytes} (request : Key.isResponse key = false) :
    nextFrame (encodeOnewayFrame key version payload) =
      if (4 + payload.length) % 2 ^ 32 < 4 then none
      else some (⟨key, version, payload.take ((4 + payload.length) % 2 ^ 32 - 4), none⟩,
        payload.drop ((4 + payload.length) % 2 ^ 32 - 4)) := by
  have size : declaredSize (encodeOnewayFrame key version payload) = (4 + payload.length) % 2 ^ 32 := by
    rw [encodeOnewayFrame, declaredSize_sizePrefixed]
    simp only [List.length_append, writeU16, List.length_cons, List.length_nil]
  have length := encodeOnewayFrame_length key version payload
  have bound : (4 + payload.length) % 2 ^ 32 ≤ 4 + payload.length := Nat.mod_le _ _
  unfold nextFrame
  rw [size, length]
  generalize (4 + payload.length) % 2 ^ 32 = d at bound
  by_cases small : d < 4
  · rw [if_pos (.inr (.inl small)), if_pos small]
  · have header : (writeU16 key ++ writeU16 version).length = 4 := rfl
    have cut : ((encodeOnewayFrame key version payload).drop 4).take d =
        writeU16 key ++ writeU16 version ++ payload.take (d - 4) := by
      rw [encodeOnewayFrame, sizePrefixed_payload, List.take_append, header,
        List.take_of_length_le (by rw [header]; omega)]
    have after : (encodeOnewayFrame key version payload).drop (4 + d) = payload.drop (d - 4) := by
      rw [← List.drop_drop, encodeOnewayFrame, sizePrefixed_payload, List.drop_append, header,
        List.drop_of_length_le (by rw [header]; omega), List.nil_append]
    rw [if_neg (by omega), if_neg small, cut, after, payloadFrame, versionOf_payload, List.append_assoc,
      keyOf_payload, request]
    simp only [Bool.false_eq_true, ↓reduceIte]
    rw [if_neg (by simp [writeU16])]
    rfl

theorem decodeFrom_take {β : Type} (field : WireField β) (value : β) (k : Nat)
    (addressable : (field.encode value).length < 2 ^ 64) :
    decodeFrom field.decode ((field.encode value).take k) = .ok value ↔
      field.Good value ∧ (field.encode value).length ≤ k := by
  have short : ((field.encode value).take k).length < 2 ^ 64 := by
    rw [List.length_take]
    omega
  rw [decodeFrom, dif_pos short]
  constructor
  · intro decoded
    rcases outcome : field.decode.run (Cursor.start _ short) with ⟨e | v, after⟩
    · rw [outcome] at decoded
      cases decoded
    · rw [outcome] at decoded
      cases decoded
      obtain ⟨n, inside, _, same, good⟩ := field.sound.ok _ _ _ outcome
      refine ⟨good, ?_⟩
      have length := congrArg List.length same
      rw [Cursor.start_rest, List.length_take, List.length_take] at length
      omega
  · rintro ⟨good, whole⟩
    have bytes : (Cursor.start _ short).rest = field.encode value ++ [] := by
      rw [Cursor.start_rest, List.take_of_length_le whole, List.append_nil]
    rw [field.reads value good _ [] bytes]

/-- A frame is parsed back to its value exactly when the value can be encoded and the
size field holds the size. -/
theorem parseFrame_oneway {β : Type} (field : WireField β) {key : UInt16} (version : UInt16) (value : β)
    (request : Key.isResponse key = false) :
    parseFrame field.decode (encodeOnewayFrame key version (field.encode value)) = .ok (key, value) ↔
      field.Good value ∧ (field.encode value).length < 2 ^ 32 - 4 := by
  have length := encodeOnewayFrame_length key version (field.encode value)
  by_cases addressable : (encodeOnewayFrame key version (field.encode value)).length < 2 ^ 64
  · have found := decodeFrom_readFrameAuto addressable
    simp only [nextFrame_oneway request] at found
    by_cases small : (4 + (field.encode value).length) % 2 ^ 32 < 4
    · -- The size field has wrapped to less than a header.
      have refused : ∀ frame,
          decodeFrom readFrameAuto (encodeOnewayFrame key version (field.encode value)) ≠ .ok frame := by
        intro frame accepted
        obtain ⟨tail, impossible⟩ := (found frame).mp accepted
        rw [if_pos small] at impossible
        cases impossible
      refine iff_of_false (fun parsed => ?_) (by omega)
      cases outcome : decodeFrom readFrameAuto (encodeOnewayFrame key version (field.encode value)) with
      | error e =>
        rw [parseFrame, outcome] at parsed
        cases parsed
      | ok frame => exact refused frame outcome
    · simp only [if_neg small] at found
      rw [parseFrame, (found _).mpr ⟨_, rfl⟩]
      have body := decodeFrom_take field value ((4 + (field.encode value).length) % 2 ^ 32 - 4) (by omega)
      have sizes : (field.encode value).length ≤ (4 + (field.encode value).length) % 2 ^ 32 - 4 ↔
          (field.encode value).length < 2 ^ 32 - 4 := by omega
      rw [← sizes, ← body]
      show Except.map _ _ = _ ↔ _
      cases decodeFrom field.decode
          ((field.encode value).take ((4 + (field.encode value).length) % 2 ^ 32 - 4)) <;>
        simp [Except.map]
  · refine iff_of_false ?_ (by omega)
    rw [parseFrame, decodeFrom, dif_neg addressable]
    simp [Except.bind]

/-! ## The command of an operation -/

def Commands.Faithful.field {α : Type} [Command α] [WireData α] (faithful : Faithful α never) : WireField α where
  encode := Command.encodeBody
  decode := Command.decodeBody
  Good := Encodable
  reads := faithful.reads
  sound := faithful.sound.mono fun _ _ _ holds => ⟨(holds.2.mpr id).symm, holds.1⟩

namespace Op

def tag : Op → CommandType
  | createStream _ _ _ => .createRequest
  | deleteStream _ _ => .deleteRequest
  | storeOffset _ _ _ => .storeOffset
  | queryOffset _ _ => .queryOffsetRequest
  | queryPublisherSequence _ _ => .queryPublisherRequest

def value : (op : Op) → op.tag.Struct
  | createStream stream arguments _ => ⟨stream, arguments⟩
  | deleteStream stream _ => ⟨stream⟩
  | storeOffset reference stream offset => ⟨reference, stream, offset⟩
  | queryOffset reference stream => ⟨reference, stream⟩
  | queryPublisherSequence reference stream => ⟨reference, stream⟩

theorem body_eq (op : Op) : op.body = Command.encodeBody op.value := by
  cases op <;> rfl

theorem faithful (op : Op) : Faithful op.tag.Struct never := by
  have all := op.tag.faithful
  cases op <;> exact all

theorem request_key (op : Op) : Key.isResponse op.key = false := by
  cases op <;> simp only [key] <;> decide

/-- The peer's parse of a frame gives back the operation's key and arguments, and for a
request also the correlation id. -/
def Recovered (op : Op) (cid : UInt32) (bytes : Bytes) : Prop :=
  if op.isOneway then
    parseFrame (Command.decodeBody : Decode op.tag.Struct) bytes = .ok (op.key, op.value)
  else
    parseFrame (do
      let cid ← readU32
      let value ← (Command.decodeBody : Decode op.tag.Struct)
      pure (cid, value)) bytes = .ok (op.key, cid, op.value)

/-- All strings are UTF-8 of at most 32767 bytes, there are fewer than 2^31 arguments,
and the size of the frame fits its size field. -/
def Carried (op : Op) : Prop := Encodable op.value ∧ (op.frame 0).length < 2 ^ 32 + 4

theorem frame_length (op : Op) (cid : UInt32) : (op.frame cid).length = (op.frame 0).length := by
  unfold Op.frame
  split
  · rfl
  · rfl

theorem recovered_iff_carried (op : Op) (cid : UInt32) : op.Recovered cid (op.frame cid) ↔ op.Carried := by
  unfold Recovered Carried
  rw [← frame_length op cid]
  unfold Op.frame
  split
  · rw [body_eq]
    refine (parseFrame_oneway op.faithful.field op.version op.value op.request_key).trans ?_
    refine and_congr_right fun _ => ?_
    rw [encodeOnewayFrame_length]
    show (Command.encodeBody op.value).length < _ ↔ _
    omega
  · have joined : encodeRequestFrame op.key op.version cid op.body =
        encodeOnewayFrame op.key op.version ((WireField.u32.pair op.faithful.field).encode (cid, op.value)) := by
      rw [body_eq, encodeRequestFrame, List.append_assoc]
      rfl
    rw [joined]
    refine (parseFrame_oneway (WireField.u32.pair op.faithful.field) op.version (cid, op.value)
      op.request_key).trans ?_
    rw [encodeOnewayFrame_length]
    refine and_congr ⟨fun good => good.2, fun good => ⟨trivial, good⟩⟩ ?_
    omega

theorem body_length_lt {op : Op} (carried : op.Carried) : (Command.encodeBody op.value).length < 2 ^ 64 := by
  have bound := carried.2
  rw [← body_eq]
  unfold Op.frame at bound
  split at bound
  · rw [encodeOnewayFrame_length] at bound
    omega
  · simp only [encodeRequestFrame, sizePrefixed, List.length_append] at bound
    omega

/-- Two operations of one kind whose arguments can be carried have different bodies
unless the arguments are the same. -/
theorem body_injective {a b : Op} (first : a.Carried) (second : b.Carried) (kind : a.tag = b.tag)
    (same : a.body = b.body) : (⟨a.tag, a.value⟩ : Σ tag : CommandType, tag.Struct) = ⟨b.tag, b.value⟩ := by
  have left := decodeFrom_encodeBody a.tag a.value first.1 (body_length_lt first)
  have right := decodeFrom_encodeBody b.tag b.value second.1 (body_length_lt second)
  rw [← body_eq] at left right
  rw [same] at left
  generalize a.value = v at left ⊢
  generalize b.value = w at right ⊢
  generalize b.body = bytes at left right
  generalize a.tag = tag at kind v left
  generalize b.tag = tag' at kind w right
  subst kind
  rw [left] at right
  rw [Except.ok.inj right]

end Op

/-! ## The wire against the calls -/

/-- A frame of a call is the frame of the operation the call performs. -/
def Authentic (s : Client) (w : WireEntry) : Prop :=
  ∀ n, w.source = .call n → ∃ op cid, (s.calls n).op = some op ∧ w.frame = op.frame cid

namespace Client
variable {cfg : ConnectionConfig} {s s' : Client} {input : Input}

/-- The wire grows by frames of the handshake, of a `close`, of the heartbeat thread,
or of a call that stands at its write. -/
theorem step_wire {a : Action} (run : step cfg s a = some s') :
    ∃ more, s'.wire = s.wire ++ more ∧ ∀ w ∈ more, ∀ n, w.source = .call n →
      ∃ op cid, s.calls n = .write op cid ∧ w.frame = op.frame cid := by
  obtain ⟨more, handover, grown⟩ := step_handover run
  refine ⟨more, grown, ?_⟩
  intro w member n source
  cases handover with
  | nothing => cases member
  | handshake =>
    rw [(handshake_entry member).1] at source
    cases source
  | call here =>
    obtain rfl := List.mem_singleton.mp member
    cases source
    exact ⟨_, _, here, rfl⟩
  | close | heartbeat =>
    obtain rfl := List.mem_singleton.mp member
    cases source

theorem step_authentic {a : Action} (authentic : ∀ w ∈ s.wire, Authentic s w) (run : step cfg s a = some s') :
    ∀ w ∈ s'.wire, Authentic s' w := by
  -- Whoever has written performs an operation, and keeps it.
  have keeps : ∀ n op, (s.calls n).op = some op → (s'.calls n).op = some op := by
    intro n op performs
    rw [step_op run, performs]
    intro idle
    rw [idle] at performs
    cases performs
  obtain ⟨more, grown, new⟩ := step_wire run
  intro w member n source
  rw [grown] at member
  rcases List.mem_append.mp member with old | fresh
  · obtain ⟨op, cid, performs, same⟩ := authentic w old n source
    exact ⟨op, cid, keeps n op performs, same⟩
  · obtain ⟨op, cid, here, same⟩ := new w fresh n source
    exact ⟨op, cid, keeps n op (by rw [here]; rfl), same⟩

end Client

theorem reach_authentic {cfg : ConnectionConfig} {allowed : Client → Action → Prop} {s : Client}
    (reach : (client cfg).Reach allowed s) : ∀ w ∈ s.wire, Authentic s w := by
  refine reach.invariant (fun s => ∀ w ∈ s.wire, Authentic s w) ?_ ?_
  · rintro _ rfl
    simp
  · intro s a s' _ authentic _ run
    exact Client.step_authentic authentic run

/-- Every frame that a call has handed to the socket belongs to the call's operation and
is parsed back to its arguments exactly when these can be carried; and arguments that
can be carried are told apart by the body. -/
theorem sent_is_asked_iff {cfg : ConnectionConfig} {s : Client} (reach : (client cfg).Reach Machine.anyStep s) :
    (∀ w ∈ s.wire, ∀ n, w.source = .call n → ∃ op cid, (s.calls n).op = some op ∧ w.frame = op.frame cid ∧
      (op.Recovered cid w.frame ↔ op.Carried)) ∧
    ∀ a b : Op, a.Carried → b.Carried → a.tag = b.tag → a.body = b.body →
      (⟨a.tag, a.value⟩ : Σ tag : CommandType, tag.Struct) = ⟨b.tag, b.value⟩ := by
  refine ⟨?_, fun a b first second => Op.body_injective first second⟩
  intro w member n source
  obtain ⟨op, cid, performs, same⟩ := reach_authentic reach w member n source
  refine ⟨op, cid, performs, same, ?_⟩
  rw [same]
  exact op.recovered_iff_carried cid

/-- A `delete_stream` with a plain name, on the wire and parsed back. -/
theorem sent_is_asked_delete : ∃ s, (client {}).Reach Machine.anyStep s ∧
    ∃ w ∈ s.wire, w.source = .call 0 ∧ ∃ op cid, (s.calls 0).op = some op ∧ w.frame = op.frame cid ∧
      (op.Recovered cid w.frame ↔ op.Carried) := by
  have ran : ((client {}).exec Machine.anyStep {} (opening (acceptingScript ⟨1048576, 60⟩) ++
      request 0 (.deleteStream (text "a") false))).any (fun s => ∃ w ∈ s.wire, w.source = .call 0) = true := by
    decide +kernel
  obtain ⟨s, reach, holds⟩ := Machine.reach_of_exec rfl ran
  obtain ⟨w, member, source⟩ := of_decide_eq_true holds
  exact ⟨s, reach, w, member, source, (sent_is_asked_iff reach).1 w member 0 source⟩

/-- The encoder cuts a name after 32767 bytes, so the request is one for another stream. -/
theorem Op.body_delete_cut {name : Bytes} (long : 32767 < name.length) (idempotent : Bool) :
    (Op.deleteStream name idempotent).body = (Op.deleteStream (name.take 32767) idempotent).body := by
  have length : (name.take 32767).length = 32767 := by
    rw [List.length_take]
    omega
  show writeString name = writeString (name.take 32767)
  rw [writeString, if_pos long, writeString_short (by omega), length]
  rfl

/-- A name that is not UTF-8 is sent and cannot be parsed back, and two names that
differ after 32767 bytes give the same request. -/
theorem sent_other_than_asked :
    (¬ ∀ (cfg : ConnectionConfig) (s : Client), (client cfg).Reach Machine.anyStep s → ∀ w ∈ s.wire, ∀ n,
      w.source = .call n → ∃ op cid, (s.calls n).op = some op ∧ w.frame = op.frame cid ∧
        op.Recovered cid w.frame) ∧
    ∃ long short : Bytes, long ≠ short ∧ (Op.deleteStream long false).body = (Op.deleteStream short false).body := by
  constructor
  · intro claimed
    have ran : ((client {}).exec Machine.anyStep {} (opening (acceptingScript ⟨1048576, 60⟩) ++
        request 0 (.deleteStream [0xFF] false))).any (fun s => (s.calls 0).op = some (.deleteStream [0xFF] false) ∧
          ∃ w ∈ s.wire, w.source = .call 0) = true := by
      decide +kernel
    obtain ⟨s, reach, holds⟩ := Machine.reach_of_exec rfl ran
    obtain ⟨performs, w, member, source⟩ := of_decide_eq_true holds
    obtain ⟨op, cid, same, frame, recovered⟩ := claimed {} s reach w member 0 source
    rw [performs] at same
    cases same
    rw [frame] at recovered
    have carried := (Op.recovered_iff_carried _ cid).mp recovered
    have wire := carried.1.strings [0xFF] List.mem_cons_self
    exact absurd ((isValidUtf8_iff _).mpr wire.utf8) (by decide)
  · refine ⟨List.replicate 32768 97, (List.replicate 32768 97).take 32767, ?_, ?_⟩
    · intro same
      have length := congrArg List.length same
      rw [List.length_take, List.length_replicate] at length
      omega
    · exact Op.body_delete_cut (by rw [List.length_replicate]; omega) false

end RmqStream
