import RmqStream.Codec

/-! The frame envelope of `src/frame.cpp`: size prefix, key, version and, for
responses, the correlation id.

`readFrameAuto` decides the layout from the response bit. The body length is a
`std::size_t` subtraction, so a response frame too short for its correlation id
wraps it to a length no buffer can satisfy. -/

set_option autoImplicit false

namespace RmqStream
open Library

namespace Key

def queryPublisherSequence : UInt16 := 0x0005
def storeOffset : UInt16 := 0x000A
def queryOffset : UInt16 := 0x000B
def create : UInt16 := 0x000D
def delete : UInt16 := 0x000E
def metadataUpdate : UInt16 := 0x0010
def peerProperties : UInt16 := 0x0011
def saslHandshake : UInt16 := 0x0012
def saslAuthenticate : UInt16 := 0x0013
def tune : UInt16 := 0x0014
def «open» : UInt16 := 0x0015
def close : UInt16 := 0x0016
def heartbeat : UInt16 := 0x0017

def responseBit : UInt16 := 0x8000
def keyMask : UInt16 := 0x7FFF

def responseOf (requestKey : UInt16) : UInt16 := requestKey ||| responseBit
def requestOf (anyKey : UInt16) : UInt16 := anyKey &&& keyMask
def isResponse (anyKey : UInt16) : Bool := anyKey &&& responseBit != 0

end Key

namespace ResponseCode

def ok : UInt16 := 0x01
def streamDoesNotExist : UInt16 := 0x02
def streamAlreadyExists : UInt16 := 0x05
def saslMechanismNotSupported : UInt16 := 0x07
def authenticationFailure : UInt16 := 0x08
def saslChallenge : UInt16 := 0x0A
def saslAuthenticationFailureLoopback : UInt16 := 0x0B
def virtualHostAccessFailure : UInt16 := 0x0C
def accessRefused : UInt16 := 0x10
def noOffset : UInt16 := 0x13

end ResponseCode

structure IncomingFrame where
  key : UInt16
  version : UInt16
  body : Bytes
  correlationId : Option UInt32
  deriving DecidableEq, Repr

/-- The size prefix is the payload length narrowed to 32 bits. -/
def sizePrefixed (inner : Bytes) : Bytes := writeU32 (UInt32.ofNat inner.length) ++ inner

def encodeRequestFrame (key version : UInt16) (correlationId : UInt32) (body : Bytes) : Bytes :=
  sizePrefixed (writeU16 key ++ writeU16 version ++ writeU32 correlationId ++ body)

def encodeOnewayFrame (key version : UInt16) (body : Bytes) : Bytes :=
  sizePrefixed (writeU16 key ++ writeU16 version ++ body)

/-- Zero means no limit. The size excludes the four bytes of the prefix. -/
def checkOutboundFrameSize (bodySize : Nat) (frameMax : UInt32) : Result Unit :=
  if frameMax = 0 then .ok ()
  else if bodySize > frameMax.toNat then
    .error ⟨.protocolViolation, text "outbound frame exceeds negotiated FrameMax", none⟩
  else .ok ()

def frameTooSmall : StreamError := ⟨.protocolViolation, text "frame Size < 4", none⟩

theorem checkOutboundFrameSize_ok_iff (bodySize : Nat) (frameMax : UInt32) :
    checkOutboundFrameSize bodySize frameMax = .ok () ↔ frameMax = 0 ∨ bodySize ≤ frameMax.toNat := by
  unfold checkOutboundFrameSize
  split_ifs with unlimited large
  · simp [unlimited]
  · simp only [unlimited, false_or, false_iff]
    omega
  · simp only [unlimited, false_or, true_iff]
    omega

def sizeSub (a b : Nat) : Nat := (a + 2 ^ 64 - b) % 2 ^ 64

def readFrameBody (declared : UInt32) : Decode IncomingFrame := do
  let start ← Decoder.position
  let key ← readU16
  let version ← readU16
  let correlationId ← (if Key.isResponse key then do
      let cid ← readU32
      pure (some cid)
    else pure none : Decode (Option UInt32))
  let stop ← Decoder.position
  let body ← borrow (sizeSub declared.toNat (stop - start))
  pure ⟨key, version, body, correlationId⟩

def readFrameAuto : Decode IncomingFrame := do
  let declared ← readU32
  if declared < 4 then Fallible.fail frameTooSmall
  else
    let remaining ← Decoder.remaining
    if declared.toNat > remaining then Fallible.fail (decodeErr "frame body truncated")
    else readFrameBody declared

/-! ## The frame inside a payload -/

def keyOf (payload : Bytes) : UInt16 := UInt16.ofNat (ofBigEndian (payload.take 2))
def versionOf (payload : Bytes) : UInt16 := UInt16.ofNat (ofBigEndian ((payload.drop 2).take 2))
def correlationIdOf (payload : Bytes) : UInt32 := UInt32.ofNat (ofBigEndian ((payload.drop 4).take 4))

theorem keyOf_payload (key : UInt16) (rest : Bytes) : keyOf (writeU16 key ++ rest) = key := by
  have taken : (writeU16 key ++ rest).take 2 = writeU16 key := rfl
  rw [keyOf, taken, writeU16_eq, ofBigEndian_bigEndian,
    Nat.mod_eq_of_lt (show key.toNat < 256 ^ 2 from key.toNat_lt), UInt16.ofNat_toNat]

theorem versionOf_payload (key version : UInt16) (rest : Bytes) :
    versionOf (writeU16 key ++ writeU16 version ++ rest) = version := by
  have taken : ((writeU16 key ++ writeU16 version ++ rest).drop 2).take 2 = writeU16 version := rfl
  rw [versionOf, taken, writeU16_eq, ofBigEndian_bigEndian,
    Nat.mod_eq_of_lt (show version.toNat < 256 ^ 2 from version.toNat_lt), UInt16.ofNat_toNat]

theorem sizePrefixed_payload (inner : Bytes) : (sizePrefixed inner).drop 4 = inner := rfl

def payloadFrame (payload : Bytes) : Option IncomingFrame :=
  if Key.isResponse (keyOf payload) then
    if payload.length < 8 then none
    else some ⟨keyOf payload, versionOf payload, payload.drop 8, some (correlationIdOf payload)⟩
  else
    if payload.length < 4 then none
    else some ⟨keyOf payload, versionOf payload, payload.drop 4, none⟩

def declaredSize (bytes : Bytes) : Nat := ofBigEndian (bytes.take 4)

/-- The first complete frame of a byte string and the bytes after it. -/
def nextFrame (bytes : Bytes) : Option (IncomingFrame × Bytes) :=
  if bytes.length < 4 ∨ declaredSize bytes < 4 ∨ bytes.length < 4 + declaredSize bytes then none
  else (payloadFrame ((bytes.drop 4).take (declaredSize bytes))).map
    fun frame => (frame, bytes.drop (4 + declaredSize bytes))

theorem declaredSize_lt (bytes : Bytes) : declaredSize bytes < 2 ^ 32 := by
  have below := ofBigEndian_lt (bytes.take 4)
  have narrow : 256 ^ (bytes.take 4).length ≤ 256 ^ 4 :=
    Nat.pow_le_pow_right (by decide) (by rw [List.length_take]; omega)
  unfold declaredSize
  omega

theorem declaredSize_sizePrefixed (inner : Bytes) : declaredSize (sizePrefixed inner) = inner.length % 2 ^ 32 := by
  have front : (sizePrefixed inner).take 4 = writeU32 (UInt32.ofNat inner.length) := rfl
  rw [declaredSize, front, writeU32_eq, ofBigEndian_bigEndian, UInt32.toNat_ofNat']
  omega

theorem take_take_short (bytes : Bytes) {m n : Nat} (le : m ≤ n) : (bytes.take n).take m = bytes.take m := by
  rw [List.take_take, Nat.min_eq_left le]

theorem drop_take_take (bytes : Bytes) {k m n : Nat} (le : k + m ≤ n) :
    ((bytes.take n).drop k).take m = (bytes.drop k).take m := by
  rw [List.drop_take, List.take_take, Nat.min_eq_left (by omega)]

theorem borrow_rest (c : BufferReader) {k n : Nat} (le : k ≤ n) (fits : n ≤ c.remaining) :
    (borrow (n - k)).run (c.skip k) = (.ok ((c.rest.take n).drop k), c.skip n) := by
  simp only [borrow, Decoder.take]
  rw [Cursor.skip_remaining c (by omega), if_neg (by omega), Cursor.skip_rest c (by omega),
    Cursor.skip_skip c (by omega) (by omega), List.drop_take, Nat.add_sub_of_le le]

theorem borrow_body (c : BufferReader) {declared : UInt32} {k : Nat} (header : k ≤ c.remaining)
    (fits : declared.toNat ≤ c.remaining) :
    (borrow (sizeSub declared.toNat ((c.skip k).pos - c.pos))).run (c.skip k) =
      if declared.toNat < k then (.error (decodeErr "truncated input"), c.skip k)
      else (.ok ((c.rest.take declared.toNat).drop k), c.skip declared.toNat) := by
  have bounded := c.addressable
  have inBounds := c.inBounds
  have remainingEq : c.remaining = c.data.length - c.pos := rfl
  have moved : (c.skip k).pos - c.pos = k := by
    rw [Cursor.skip_pos c header]
    omega
  rw [moved]
  split
  next short =>
    -- The subtraction wraps, and no buffer is that long.
    have wrapped : sizeSub declared.toNat k > (c.skip k).remaining := by
      rw [Cursor.skip_remaining c header]
      unfold sizeSub
      omega
    simp only [borrow, Decoder.take, wrapped, ↓reduceIte]
  next whole =>
    have exactSize : sizeSub declared.toNat k = declared.toNat - k := by
      have := declared.toNat_lt
      unfold sizeSub
      omega
    rw [exactSize, borrow_rest c (Nat.not_lt.mp whole) fits]

theorem readCorrelationId_run (c : BufferReader) :
    (do let cid ← readU32; pure (some cid) : Decode (Option UInt32)).run c =
      if 4 > c.remaining then (.error (decodeErr "truncated input"), c)
      else (.ok (some (UInt32.ofNat (ofBigEndian (c.rest.take 4)))), c.skip 4) := by
  have read := readU32_run c
  split
  next short =>
    rw [if_pos short] at read
    rw [Fallible.bind_error read]
  next inside =>
    rw [if_neg inside] at read
    rw [Fallible.bind_ok read]
    rfl

/-- `readFrameBody` returns the slices of its payload, or fails at some position
inside the buffer. What follows the payload has no influence on the outcome. -/
theorem readFrameBody_run (c : BufferReader) (declared : UInt32)
    (least : 4 ≤ declared.toNat) (fits : declared.toNat ≤ c.remaining) :
    match payloadFrame (c.rest.take declared.toNat) with
    | some frame => (readFrameBody declared).run c = (.ok frame, c.skip declared.toNat)
    | none => ∃ after, (readFrameBody declared).run c = (.error (decodeErr "truncated input"), after) := by
  have payloadLength : (c.rest.take declared.toNat).length = declared.toNat := take_length (by omega)
  have first : readU16.run c = (.ok (keyOf (c.rest.take declared.toNat)), c.skip 2) := by
    rw [readU16_run, if_neg (by omega), keyOf, take_take_short _ (by omega)]
  have second : readU16.run (c.skip 2) = (.ok (versionOf (c.rest.take declared.toNat)), c.skip 4) := by
    rw [readU16_run, Cursor.skip_remaining c (by omega), if_neg (by omega),
      Cursor.skip_rest c (by omega), Cursor.skip_skip c (by omega) (by omega), versionOf,
      drop_take_take _ (by omega)]
  unfold readFrameBody
  rw [Fallible.bind_ok (Decoder.run_position c), Fallible.bind_ok first,
    Fallible.bind_ok second]
  unfold payloadFrame
  by_cases response : Key.isResponse (keyOf (c.rest.take declared.toNat))
  · simp only [response, ↓reduceIte, payloadLength]
    have third := readCorrelationId_run (c.skip 4)
    rw [Cursor.skip_remaining c (by omega), Cursor.skip_rest c (by omega)] at third
    by_cases room : c.remaining < 8
    · -- Not even the neighbour's bytes can supply a correlation id.
      rw [if_pos (by omega)] at third
      rw [if_pos (by omega), Fallible.bind_error third]
      exact ⟨_, rfl⟩
    rw [if_neg (by omega), Cursor.skip_skip c (by omega) (by omega), show 4 + 4 = 8 from rfl] at third
    have body := borrow_body c (Nat.not_lt.mp room) fits
    rw [Fallible.bind_ok third, Fallible.bind_ok (Decoder.run_position _)]
    -- The id was read, but a frame this short does not contain it.
    by_cases short : declared.toNat < 8
    · rw [if_pos short] at body
      rw [if_pos short, Fallible.bind_error body]
      exact ⟨_, rfl⟩
    · rw [if_neg short] at body
      rw [if_neg short, Fallible.bind_ok body, correlationIdOf, drop_take_take _ (by omega)]
      rfl
  · simp only [response, Bool.false_eq_true, ↓reduceIte, payloadLength]
    have body := borrow_body c (least.trans fits) fits
    rw [if_neg (Nat.not_lt.mpr least)] at body ⊢
    rw [Fallible.bind_ok (Fallible.run_pure none _), Fallible.bind_ok (Decoder.run_position _),
      Fallible.bind_ok body]
    rfl

theorem readFrameAuto_run (c : BufferReader) :
    (c.remaining < 4 ∧ readFrameAuto.run c = (.error (decodeErr "truncated input"), c)) ∨
    (4 ≤ c.remaining ∧ declaredSize c.rest < 4 ∧ readFrameAuto.run c = (.error frameTooSmall, c.skip 4)) ∨
    (4 ≤ c.remaining ∧ 4 ≤ declaredSize c.rest ∧ c.remaining < 4 + declaredSize c.rest ∧
      readFrameAuto.run c = (.error (decodeErr "frame body truncated"), c.skip 4)) ∨
    (4 ≤ declaredSize c.rest ∧ 4 + declaredSize c.rest ≤ c.remaining ∧
      match payloadFrame ((c.rest.drop 4).take (declaredSize c.rest)) with
      | some frame => readFrameAuto.run c = (.ok frame, c.skip (4 + declaredSize c.rest))
      | none => ∃ after, readFrameAuto.run c = (.error (decodeErr "truncated input"), after)) := by
  -- In the order of its checks: size field, least size, whole body.
  by_cases room : 4 > c.remaining
  · exact .inl ⟨room, Fallible.bind_error (by rw [readU32_run, if_pos room])⟩
  have inside : 4 ≤ c.remaining := by omega
  have size_small := declaredSize_lt c.rest
  have size : (UInt32.ofNat (declaredSize c.rest)).toNat = declaredSize c.rest :=
    UInt32.toNat_ofNat_of_lt' size_small
  have first : readU32.run c = (.ok (UInt32.ofNat (declaredSize c.rest)), c.skip 4) := by
    rw [readU32_run, if_neg room]
    rfl
  have least : UInt32.ofNat (declaredSize c.rest) < 4 ↔ declaredSize c.rest < 4 := by
    rw [UInt32.lt_iff_toNat_lt, size]
    rfl
  unfold readFrameAuto
  rw [Fallible.bind_ok first]
  by_cases small : declaredSize c.rest < 4
  · rw [if_pos (least.mpr small)]
    exact .inr (.inl ⟨inside, small, rfl⟩)
  rw [if_neg (fun less => small (least.mp less)), Fallible.bind_ok (Decoder.run_remaining _), size,
    Cursor.skip_remaining c inside]
  by_cases long : declaredSize c.rest > c.remaining - 4
  · rw [if_pos long]
    exact .inr (.inr (.inl ⟨inside, by omega, by omega, rfl⟩))
  rw [if_neg long]
  refine .inr (.inr (.inr ⟨by omega, by omega, ?_⟩))
  have body := readFrameBody_run (c.skip 4) (UInt32.ofNat (declaredSize c.rest))
    (by rw [size]; omega) (by rw [size, Cursor.skip_remaining c inside]; omega)
  rw [size, Cursor.skip_rest c inside, Cursor.skip_skip c inside (by omega)] at body
  exact body

/-- On every buffer `readFrameAuto` accepts exactly when the bytes hold a complete
frame, and then stops at the first byte after it. -/
theorem readFrameAuto_nextFrame (c : BufferReader) :
    match nextFrame c.rest with
    | some (frame, tail) => readFrameAuto.run c = (.ok frame, c.skip (4 + declaredSize c.rest)) ∧
        4 + declaredSize c.rest ≤ c.remaining ∧ tail = c.rest.drop (4 + declaredSize c.rest)
    | none => ∃ e after, readFrameAuto.run c = (.error e, after) := by
  unfold nextFrame
  rw [Cursor.rest_length]
  rcases readFrameAuto_run c with ⟨short, run⟩ | ⟨_, small, run⟩ | ⟨_, _, long, run⟩ | ⟨least, fits, run⟩
  · rw [if_pos (.inl short)]; exact ⟨_, _, run⟩
  · rw [if_pos (.inr (.inl small))]; exact ⟨_, _, run⟩
  · rw [if_pos (.inr (.inr long))]; exact ⟨_, _, run⟩
  · rw [if_neg (by omega)]
    cases parsed : payloadFrame ((c.rest.drop 4).take (declaredSize c.rest)) with
    | none => rw [parsed] at run; exact run.elim fun after run => ⟨_, after, run⟩
    | some frame => rw [parsed] at run; exact ⟨run, fits, rfl⟩

theorem nextFrame_shorter {bytes tail : Bytes} {frame : IncomingFrame}
    (found : nextFrame bytes = some (frame, tail)) :
    8 ≤ 4 + declaredSize bytes ∧ 4 + declaredSize bytes ≤ bytes.length ∧
      tail = bytes.drop (4 + declaredSize bytes) := by
  unfold nextFrame at found
  split at found
  · simp at found
  · obtain ⟨_, _, same⟩ := Option.map_eq_some_iff.mp found
    simp only [Prod.mk.injEq] at same
    exact ⟨by omega, by omega, same.2.symm⟩

/-- Apply `readFrameAuto` until it first fails, at most `fuel` times. -/
def readFrames : Nat → BufferReader → List IncomingFrame
  | 0, _ => []
  | fuel + 1, c =>
    match readFrameAuto.run c with
    | (.ok frame, after) => frame :: readFrames fuel after
    | (.error _, _) => []

/-- The frames of the unread bytes. Each frame takes at least eight bytes, so the
number of bytes bounds the number of calls. -/
def allFrames (c : BufferReader) : List IncomingFrame := readFrames (c.remaining + 1) c

def framesIn : Nat → Bytes → List IncomingFrame
  | 0, _ => []
  | fuel + 1, bytes =>
    match nextFrame bytes with
    | some (frame, tail) => frame :: framesIn fuel tail
    | none => []

theorem readFrames_eq (fuel : Nat) (c : BufferReader) : readFrames fuel c = framesIn fuel c.rest := by
  induction fuel generalizing c with
  | zero => rfl
  | succ fuel ih =>
    have parse := readFrameAuto_nextFrame c
    unfold readFrames framesIn
    cases found : nextFrame c.rest with
    | none => rw [found] at parse; obtain ⟨e, after, run⟩ := parse; simp only [run]
    | some pair =>
      obtain ⟨frame, tail⟩ := pair
      rw [found] at parse
      obtain ⟨run, fits, rfl⟩ := parse
      simp only [run, ih, Cursor.skip_rest c fits]

theorem framesIn_fuel (fuel fuel' : Nat) (bytes : Bytes)
    (enough : bytes.length < fuel) (enough' : bytes.length < fuel') :
    framesIn fuel bytes = framesIn fuel' bytes := by
  induction fuel generalizing fuel' bytes with
  | zero => omega
  | succ fuel ih =>
    cases fuel' with
    | zero => omega
    | succ fuel' =>
      unfold framesIn
      cases found : nextFrame bytes with
      | none => rfl
      | some pair =>
        obtain ⟨frame, tail⟩ := pair
        obtain ⟨least, fits, rfl⟩ := nextFrame_shorter found
        simp only [List.cons.injEq, true_and]
        exact ih fuel' _ (by rw [List.length_drop]; omega) (by rw [List.length_drop]; omega)

def frames (bytes : Bytes) : List IncomingFrame := framesIn (bytes.length + 1) bytes

theorem allFrames_eq (c : BufferReader) : allFrames c = frames c.rest := by
  rw [allFrames, readFrames_eq, frames, Cursor.rest_length]

theorem frames_none {bytes : Bytes} (stop : nextFrame bytes = none) : frames bytes = [] := by
  simp [frames, framesIn, stop]

theorem frames_some {bytes tail : Bytes} {frame : IncomingFrame}
    (found : nextFrame bytes = some (frame, tail)) : frames bytes = frame :: frames tail := by
  obtain ⟨least, fits, rfl⟩ := nextFrame_shorter found
  unfold frames
  rw [framesIn]
  simp only [found, List.cons.injEq, true_and]
  exact framesIn_fuel _ _ _ (by rw [List.length_drop]; omega) (by omega)

end RmqStream
