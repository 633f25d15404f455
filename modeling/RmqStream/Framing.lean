import RmqStream.Frame

/-! The frame parser on whole buffers.

One call stays inside the frame its size field declares, and the calls that follow
each other on a concatenation give back the frames it was made from. Both rest on
what a complete frame at the cursor does to `readFrameAuto`, whatever follows it. -/

set_option autoImplicit false

namespace RmqStream
open Library

theorem writeU16_ofBigEndian {bytes : Bytes} (length : bytes.length = 2) :
    writeU16 (UInt16.ofNat (ofBigEndian bytes)) = bytes := by
  have below : ofBigEndian bytes < 2 ^ 16 := by
    have bound := ofBigEndian_lt bytes
    rw [length] at bound
    exact bound
  rw [writeU16_eq, UInt16.toNat_ofNat_of_lt' below, ← length, bigEndian_ofBigEndian]

theorem writeU32_ofBigEndian {bytes : Bytes} (length : bytes.length = 4) :
    writeU32 (UInt32.ofNat (ofBigEndian bytes)) = bytes := by
  have below : ofBigEndian bytes < 2 ^ 32 := by
    have bound := ofBigEndian_lt bytes
    rw [length] at bound
    exact bound
  rw [writeU32_eq, UInt32.toNat_ofNat_of_lt' below, ← length, bigEndian_ofBigEndian]

/-- The fields of a frame one after the other, as they stand behind the size prefix. -/
def IncomingFrame.slices (frame : IncomingFrame) : Bytes :=
  writeU16 frame.key ++ writeU16 frame.version ++ frame.correlationId.elim [] writeU32 ++ frame.body

theorem header_slices {payload : Bytes} (least : 4 ≤ payload.length) :
    writeU16 (keyOf payload) ++ writeU16 (versionOf payload) ++ payload.drop 4 = payload := by
  have key : writeU16 (keyOf payload) = payload.take 2 :=
    writeU16_ofBigEndian (by rw [List.length_take]; omega)
  have version : writeU16 (versionOf payload) = (payload.drop 2).take 2 :=
    writeU16_ofBigEndian (by rw [List.length_take, List.length_drop]; omega)
  rw [key, version, ← List.take_add, List.take_append_drop]

theorem payloadFrame_slices {payload : Bytes} {frame : IncomingFrame}
    (found : payloadFrame payload = some frame) :
    payload = frame.slices ∧ frame.correlationId.isSome = Key.isResponse frame.key := by
  unfold payloadFrame at found
  split at found
  next response =>
    split at found
    · cases found
    next long =>
      cases found
      have cid : writeU32 (correlationIdOf payload) = (payload.drop 4).take 4 :=
        writeU32_ofBigEndian (by rw [List.length_take, List.length_drop]; omega)
      constructor
      · show payload = writeU16 _ ++ writeU16 _ ++ writeU32 _ ++ payload.drop (4 + 4)
        rw [List.append_assoc, cid, ← List.drop_drop, List.take_append_drop, header_slices (by omega)]
      · exact response.symm
  next request =>
    split at found
    · cases found
    next long =>
      cases found
      constructor
      · show payload = writeU16 _ ++ writeU16 _ ++ [] ++ payload.drop 4
        rw [List.append_nil, header_slices (by omega)]
      · simpa using request

theorem payloadFrame_isSome_iff (payload : Bytes) (least : 4 ≤ payload.length) :
    (payloadFrame payload).isSome ↔ (Key.isResponse (keyOf payload) → 8 ≤ payload.length) := by
  unfold payloadFrame
  split_ifs with response short short
  · exact iff_of_false (by simp) fun enough => Nat.not_le.mpr short (enough response)
  · exact iff_of_true rfl fun _ => Nat.not_lt.mp short
  · omega
  · exact iff_of_true rfl fun impossible => absurd impossible response

/-! ## A complete frame at the cursor -/

structure Whole (bytes : Bytes) : Prop where
  sized : 4 ≤ bytes.length
  exact : bytes.length = 4 + declaredSize bytes

def parseWhole (bytes : Bytes) : Result IncomingFrame :=
  if declaredSize bytes < 4 then .error frameTooSmall
  else
    match payloadFrame (bytes.drop 4) with
    | some frame => .ok frame
    | none => .error (decodeErr "truncated input")

theorem whole_at {whole : Bytes} (complete : Whole whole) (tail : Bytes) :
    declaredSize (whole ++ tail) = declaredSize whole ∧
      ((whole ++ tail).drop 4).take (declaredSize whole) = whole.drop 4 := by
  have front : (whole ++ tail).take 4 = whole.take 4 := List.take_append_of_le_length complete.sized
  have back : (whole ++ tail).drop 4 = whole.drop 4 ++ tail := List.drop_append_of_le_length complete.sized
  have length : (whole.drop 4).length = declaredSize whole := by
    rw [List.length_drop, complete.exact]
    omega
  constructor
  · rw [declaredSize, front, declaredSize]
  · rw [back, ← length, List.take_left]

theorem readFrameAuto_whole {c : BufferReader} {whole tail : Bytes} (here : c.rest = whole ++ tail)
    (complete : Whole whole) : (readFrameAuto.run c).1 = parseWhole whole := by
  obtain ⟨size, payload⟩ := whole_at complete tail
  have room := Cursor.remaining_of_rest here
  have exactSize := complete.exact
  have sized := complete.sized
  have ways := readFrameAuto_run c
  rw [here, size, payload] at ways
  unfold parseWhole
  rcases ways with ⟨short, _⟩ | ⟨_, small, run⟩ | ⟨_, _, long, _⟩ | ⟨least, _, run⟩
  · omega
  · rw [if_pos small, run]
  · omega
  · rw [if_neg (Nat.not_lt.mpr least)]
    cases parsed : payloadFrame (whole.drop 4) with
    | none =>
      rw [parsed] at run
      obtain ⟨after, run⟩ := run
      rw [run]
    | some frame =>
      rw [parsed] at run
      rw [run]

/-- Everything `readFrameAuto` does, by the unread bytes of its cursor. -/
structure StaysInside (c : BufferReader) : Prop where
  accepts_iff : (∃ frame after, readFrameAuto.run c = (.ok frame, after)) ↔
    4 ≤ c.remaining ∧ 4 ≤ declaredSize c.rest ∧ declaredSize c.rest ≤ c.remaining - 4 ∧
      (Key.isResponse (keyOf (c.rest.drop 4)) → 8 ≤ declaredSize c.rest)
  slices : ∀ frame after, readFrameAuto.run c = (.ok frame, after) →
    after.data = c.data ∧ after.pos = c.pos + (4 + declaredSize c.rest) ∧
      (c.rest.drop 4).take (declaredSize c.rest) = frame.slices ∧
      frame.correlationId.isSome = Key.isResponse frame.key
  neighbour : ∀ (other : BufferReader) (whole tail tail' : Bytes), Whole whole →
    c.rest = whole ++ tail → other.rest = whole ++ tail' →
      (readFrameAuto.run c).1 = (readFrameAuto.run other).1
  too_small : ∀ e after, readFrameAuto.run c = (.error e, after) →
    4 ≤ c.remaining → declaredSize c.rest < 4 → e.kind = .protocolViolation
  other_error : ∀ e after, readFrameAuto.run c = (.error e, after) →
    ¬ (4 ≤ c.remaining ∧ declaredSize c.rest < 4) → e.kind = .decodeError

theorem keyOf_take (bytes : Bytes) {n : Nat} (least : 2 ≤ n) : keyOf (bytes.take n) = keyOf bytes := by
  rw [keyOf, take_take_short _ least, keyOf]

theorem readFrameAuto_accepts_iff (c : BufferReader) :
    (∃ frame after, readFrameAuto.run c = (.ok frame, after)) ↔
      4 ≤ c.remaining ∧ 4 ≤ declaredSize c.rest ∧ declaredSize c.rest ≤ c.remaining - 4 ∧
        (Key.isResponse (keyOf (c.rest.drop 4)) → 8 ≤ declaredSize c.rest) := by
  rcases readFrameAuto_run c with ⟨short, run⟩ | ⟨_, small, run⟩ | ⟨_, _, long, run⟩ | ⟨least, fits, run⟩
  · exact iff_of_false (by simp [run]) (by omega)
  · exact iff_of_false (by simp [run]) (by omega)
  · exact iff_of_false (by simp [run]) (by omega)
  · have length : ((c.rest.drop 4).take (declaredSize c.rest)).length = declaredSize c.rest := by
      rw [List.length_take, List.length_drop, Cursor.rest_length]
      omega
    have layout := payloadFrame_isSome_iff ((c.rest.drop 4).take (declaredSize c.rest)) (by omega)
    rw [length, keyOf_take _ (by omega)] at layout
    rw [← layout]
    cases parsed : payloadFrame ((c.rest.drop 4).take (declaredSize c.rest)) with
    | none =>
      rw [parsed] at run
      obtain ⟨after, run⟩ := run
      simp [run]
    | some frame =>
      rw [parsed] at run
      simp only [run, Option.isSome_some, and_true]
      exact ⟨fun _ => ⟨by omega, least, by omega⟩, fun _ => ⟨frame, _, rfl⟩⟩

theorem readFrameAuto_slices {c after : BufferReader} {frame : IncomingFrame}
    (run : readFrameAuto.run c = (.ok frame, after)) :
    after.data = c.data ∧ after.pos = c.pos + (4 + declaredSize c.rest) ∧
      (c.rest.drop 4).take (declaredSize c.rest) = frame.slices ∧
      frame.correlationId.isSome = Key.isResponse frame.key := by
  rcases readFrameAuto_run c with ⟨_, other⟩ | ⟨_, _, other⟩ | ⟨_, _, _, other⟩ | ⟨_, fits, other⟩
  · simp [other] at run
  · simp [other] at run
  · simp [other] at run
  · cases parsed : payloadFrame ((c.rest.drop 4).take (declaredSize c.rest)) with
    | none =>
      rw [parsed] at other
      obtain ⟨after', other⟩ := other
      simp [other] at run
    | some found =>
      rw [parsed] at other
      rw [other] at run
      cases run
      exact ⟨Cursor.skip_data c _, Cursor.skip_pos c fits, payloadFrame_slices parsed⟩

/-- A size below four is the one failure that is not a decode error. -/
theorem readFrameAuto_error {c after : BufferReader} {e : StreamError}
    (run : readFrameAuto.run c = (.error e, after)) :
    e.kind = if 4 ≤ c.remaining ∧ declaredSize c.rest < 4 then .protocolViolation else .decodeError := by
  rcases readFrameAuto_run c with ⟨short, other⟩ | ⟨room, small, other⟩ | ⟨_, least, _, other⟩ |
    ⟨least, _, other⟩
  · rw [other] at run
    cases run
    rw [if_neg (by omega)]
    rfl
  · rw [other] at run
    cases run
    rw [if_pos ⟨room, small⟩]
    rfl
  · rw [other] at run
    cases run
    rw [if_neg (by omega)]
    rfl
  · cases parsed : payloadFrame ((c.rest.drop 4).take (declaredSize c.rest)) with
    | none =>
      rw [parsed] at other
      obtain ⟨after', other⟩ := other
      rw [other] at run
      cases run
      rw [if_neg (by omega)]
      rfl
    | some found =>
      rw [parsed] at other
      rw [other] at run
      cases run

/-- On every buffer and from every position, a call of `readFrameAuto` stays inside the
frame that the size field at the cursor declares. -/
theorem readFrameAuto_staysInside (c : BufferReader) : StaysInside c where
  accepts_iff := readFrameAuto_accepts_iff c
  slices _ _ run := readFrameAuto_slices run
  neighbour other whole tail tail' complete here there := by
    rw [readFrameAuto_whole here complete, readFrameAuto_whole there complete]
  too_small e after run room small := by
    rw [readFrameAuto_error run, if_pos ⟨room, small⟩]
  other_error e after run elsewhere := by
    rw [readFrameAuto_error run, if_neg elsewhere]

-- A response frame of declared size 5: the correlation id is taken from the bytes of the
-- next frame, and the wrapped body length is then refused.
example : (readFrameAuto.run (Cursor.start [0, 0, 0, 5, 0x80, 0x0D, 0, 1, 7, 0, 0, 0, 4, 0, 0x17, 0, 1]
    (by decide))).1 = .error (decodeErr "truncated input") := by decide +kernel

/-! ## Concatenated frames -/

inductive Outbound where
  | request (key version : UInt16) (cid : UInt32) (body : Bytes)
  | oneway (key version : UInt16) (body : Bytes)
  deriving DecidableEq, Repr

namespace Outbound

def encode : Outbound → Bytes
  | request key version cid body => encodeRequestFrame key version cid body
  | oneway key version body => encodeOnewayFrame key version body

/-- One-way keys have the response bit clear, and the size fits the prefix. -/
def Admissible : Outbound → Prop
  | request _ _ _ body => 8 + body.length < 2 ^ 32
  | oneway key _ body => Key.isResponse key = false ∧ 4 + body.length < 2 ^ 32

/-- What the receiver is to see. The correlation id of a request key is part of its body. -/
def received : Outbound → IncomingFrame
  | request key version cid body =>
    if Key.isResponse key then ⟨key, version, body, some cid⟩
    else ⟨key, version, bigEndian 4 cid.toNat ++ body, none⟩
  | oneway key version body => ⟨key, version, body, none⟩

end Outbound

theorem payloadFrame_response {key version : UInt16} {cid : UInt32} {body : Bytes}
    (response : Key.isResponse key = true) :
    payloadFrame (writeU16 key ++ writeU16 version ++ writeU32 cid ++ body) =
      some ⟨key, version, body, some cid⟩ := by
  have cidField : correlationIdOf (writeU16 key ++ writeU16 version ++ writeU32 cid ++ body) = cid := by
    show UInt32.ofNat (ofBigEndian (writeU32 cid)) = cid
    rw [writeU32_eq, ofBigEndian_bigEndian,
      Nat.mod_eq_of_lt (show cid.toNat < 256 ^ 4 from cid.toNat_lt), UInt32.ofNat_toNat]
  have keyField : keyOf (writeU16 key ++ writeU16 version ++ writeU32 cid ++ body) = key := by
    rw [List.append_assoc, List.append_assoc, keyOf_payload]
  have versionField : versionOf (writeU16 key ++ writeU16 version ++ writeU32 cid ++ body) = version := by
    rw [List.append_assoc, versionOf_payload]
  unfold payloadFrame
  rw [keyField, versionField, cidField, response, if_pos rfl, if_neg (by simp [writeU16, writeU32])]
  rfl

theorem payloadFrame_request {key version : UInt16} {body : Bytes} (request : Key.isResponse key = false) :
    payloadFrame (writeU16 key ++ writeU16 version ++ body) = some ⟨key, version, body, none⟩ := by
  unfold payloadFrame
  rw [versionOf_payload, List.append_assoc, keyOf_payload, request, if_neg (by decide),
    if_neg (by simp [writeU16])]
  rfl

theorem readFrameAuto_reads {payload : Bytes} {frame : IncomingFrame} (least : 4 ≤ payload.length)
    (small : payload.length < 2 ^ 32) (found : payloadFrame payload = some frame) :
    Decoder.Reads readFrameAuto (sizePrefixed payload) frame := by
  intro c tail here
  have size : declaredSize (sizePrefixed payload) = payload.length := by
    rw [declaredSize_sizePrefixed, Nat.mod_eq_of_lt small]
  have length : (sizePrefixed payload).length = 4 + payload.length := by
    simp [sizePrefixed, writeU32]
    omega
  have complete : Whole (sizePrefixed payload) := ⟨by omega, by rw [length, size]⟩
  obtain ⟨declared, body⟩ := whole_at complete tail
  have room := Cursor.remaining_of_rest here
  have ways := readFrameAuto_run c
  rw [here, declared, body, size, sizePrefixed_payload, found] at ways
  rcases ways with ⟨short, _⟩ | ⟨_, tiny, _⟩ | ⟨_, _, long, _⟩ | ⟨_, _, run⟩
  · omega
  · omega
  · omega
  · rw [run, length]

theorem Outbound.reads {frame : Outbound} (admissible : frame.Admissible) :
    Decoder.Reads readFrameAuto frame.encode frame.received := by
  cases frame with
  | oneway key version body =>
    obtain ⟨request, small⟩ := admissible
    apply readFrameAuto_reads
    · simp [writeU16]
    · simp only [List.length_append, writeU16, List.length_cons, List.length_nil]
      omega
    · exact payloadFrame_request request
  | request key version cid body =>
    apply readFrameAuto_reads
    · simp [writeU16]
    · simp only [List.length_append, writeU16, writeU32, List.length_cons, List.length_nil]
      exact admissible
    · by_cases response : Key.isResponse key
      · rw [received, if_pos response]
        exact payloadFrame_response response
      · rw [received, if_neg response, List.append_assoc (writeU16 key ++ writeU16 version), ← writeU32_eq]
        exact payloadFrame_request (by simpa using response)

/-- Repeated calls of `readFrameAuto` on the concatenation of any list of encoded frames
give back that list in order and stop right behind it. -/
theorem readFrameAuto_concatenation (sent : List Outbound) (tail : Bytes) (c : BufferReader)
    (admissible : ∀ frame ∈ sent, frame.Admissible) (here : c.rest = sent.flatMap Outbound.encode ++ tail) :
    ∃ after, (readFrameAuto.times sent.length).run c = (.ok (sent.map Outbound.received), after) ∧
      after.data = c.data ∧ after.pos = c.pos + (sent.flatMap Outbound.encode).length := by
  have each : Decoder.Reads (readFrameAuto.times sent.length) (sent.flatMap Outbound.encode)
      (sent.map Outbound.received) := Decoder.Reads.times fun frame member => Outbound.reads (admissible frame member)
  exact ⟨_, each c tail here, Cursor.skip_data c _, Cursor.skip_pos c (Cursor.remaining_of_rest here)⟩

/-- A one-way frame, a request and a response in a row, before the start of a fourth frame. -/
theorem readFrameAuto_concatenation_three :
    ∃ after, (readFrameAuto.times 3).run (Cursor.start
        (encodeOnewayFrame Key.heartbeat 1 [] ++ encodeRequestFrame Key.create 1 100 [9] ++
          encodeRequestFrame (Key.responseOf Key.create) 1 100 [0, 1] ++ [0, 0]) (by decide)) =
      (.ok [⟨Key.heartbeat, 1, [], none⟩, ⟨Key.create, 1, [0, 0, 0, 100, 9], none⟩,
        ⟨Key.responseOf Key.create, 1, [0, 1], some 100⟩], after) ∧ after.pos = 35 := by
  have admissible : ∀ frame ∈ [Outbound.oneway Key.heartbeat 1 [], .request Key.create 1 100 [9],
      .request (Key.responseOf Key.create) 1 100 [0, 1]], frame.Admissible := by
    simp only [List.mem_cons, List.not_mem_nil, or_false, forall_eq_or_imp, forall_eq, Outbound.Admissible]
    decide
  obtain ⟨after, run, _, moved⟩ := readFrameAuto_concatenation _ [0, 0] (Cursor.start
    (encodeOnewayFrame Key.heartbeat 1 [] ++ encodeRequestFrame Key.create 1 100 [9] ++
      encodeRequestFrame (Key.responseOf Key.create) 1 100 [0, 1] ++ [0, 0]) (by decide)) admissible rfl
  exact ⟨after, run, moved⟩

end RmqStream
