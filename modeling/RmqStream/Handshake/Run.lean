import RmqStream.Commands.RoundTrip
import RmqStream.Socket

/-! `run_handshake` of `src/handshake.cpp`.

The reader is a finite script of what each `read_frame` returns; an exhausted
script is a closed connection. These are the handshakes that return: a peer that
challenges for ever, or keeps silent with no timeout set, has no script. Writes succeed.
The trace keeps sends and receipts in their real order, so that it also tells what was
known when a frame was sent. -/

set_option autoImplicit false

namespace RmqStream
open Library Commands

abbrev Reply := Result IncomingFrame

inductive Event where
  | sent (frame : Bytes)
  | received (reply : Reply)

structure Channel where
  script : List Reply
  trace : List Event

abbrev Handshake (α : Type) := Fallible Channel StreamError α

def writeFrame (frame : Bytes) : Handshake Unit :=
  Fallible.modify fun ch => { ch with trace := ch.trace ++ [.sent frame] }

def nextReply : Handshake IncomingFrame := ⟨fun ch =>
  match ch.script with
  | [] => (.error peerClosed, ch)
  | reply :: script => (reply, ⟨script, ch.trace ++ [.received reply]⟩)⟩

/-- Decode from the front of a body. The length of a `std::vector` fits
`std::size_t`, so the second branch is never taken for one. -/
def decodeFrom {α : Type} (decode : Decode α) (body : Bytes) : Result α :=
  if addressable : body.length < 2 ^ 64 then (decode.run (Cursor.start body addressable)).1
  else .error (decodeErr "truncated input")

theorem decodeFrom_encodeBody (tag : CommandType) (v : tag.Struct) (encodable : Encodable v)
    (addressable : (Command.encodeBody v).length < 2 ^ 64) :
    decodeFrom Command.decodeBody (Command.encodeBody v) = .ok v := by
  have whole := (Cursor.start_rest _ addressable).trans (List.append_nil _).symm
  rw [decodeFrom, dif_pos addressable, tag.faithful.reads v encodable _ [] whole]

theorem decodeFrom_tune (tune : Tune) : decodeFrom Command.decodeBody (Command.encodeBody tune) = .ok tune :=
  decodeFrom_encodeBody .tune tune ⟨by simp [WireData.strings], by simp [WireData.sizes]⟩
    (show 8 < 2 ^ 64 by decide)

section Commands
variable {α : Type} [Command α]

def requestFrame (cmd : α) (cid : UInt32) : Bytes :=
  encodeRequestFrame (Command.kKey α) (Command.kVersion α) cid (Command.encodeBody cmd)

def onewayFrame (cmd : α) : Bytes :=
  encodeOnewayFrame (Command.kKey α) (Command.kVersion α) (Command.encodeBody cmd)

def sendRequest (cmd : α) (cid frameMax : UInt32) : Handshake Unit := do
  Fallible.ofExcept (checkOutboundFrameSize ((requestFrame cmd cid).length - 4) frameMax)
  writeFrame (requestFrame cmd cid)

def sendOneway (cmd : α) (frameMax : UInt32) : Handshake Unit := do
  Fallible.ofExcept (checkOutboundFrameSize ((onewayFrame cmd).length - 4) frameMax)
  writeFrame (onewayFrame cmd)

def violation (message : String) : StreamError := ⟨.protocolViolation, text message, none⟩

variable (α) in
/-- An expected id of zero is not compared. -/
def recvResponse (expectedCid : UInt32) : Handshake α := do
  let fr ← nextReply
  if fr.key ≠ Command.kKey α then Fallible.fail (violation "unexpected frame key during handshake")
  else if expectedCid ≠ 0 ∧ fr.correlationId ≠ some expectedCid then
    Fallible.fail (violation "correlation id mismatch")
  else Fallible.ofExcept (decodeFrom Command.decodeBody fr.body)

variable (α) in
def recvOneway : Handshake α := do
  let fr ← nextReply
  if fr.key ≠ Command.kKey α then Fallible.fail (violation "unexpected frame key during handshake")
  else Fallible.ofExcept (decodeFrom Command.decodeBody fr.body)

end Commands

def mapResponseCode (code : UInt16) (context : Bytes) : StreamError :=
  if code = ResponseCode.authenticationFailure ∨ code = ResponseCode.saslAuthenticationFailureLoopback then
    ⟨.authenticationFailed, text "authentication failed: " ++ context, none⟩
  else if code = ResponseCode.saslMechanismNotSupported then
    ⟨.saslMechanismNotSupported, text "no supported SASL mechanism: " ++ context, none⟩
  else if code = ResponseCode.virtualHostAccessFailure ∨ code = ResponseCode.accessRefused then
    ⟨.virtualHostAccessDenied, text "virtual host access denied: " ++ context, none⟩
  else ⟨.serverError, text "server error " ++ context, some code⟩

/-! ## The five steps -/

structure HandshakeResult where
  negotiatedFrameMax : UInt32
  negotiatedHeartbeat : UInt32
  serverProperties : List KeyValue
  connectionProperties : List KeyValue
  deriving DecidableEq, Repr

def peerProperties (cfg : ConnectionConfig) : PeerPropertiesRequest :=
  ⟨[(text "product", text "rabbitmq-stream-cpp-client"), (text "version", text "0.1.0"),
    (text "platform", text "C++17/POSIX")] ++
    if cfg.connectionName = [] then [] else [(text "connection_name", cfg.connectionName)]⟩

def peerPropertiesVerdict (resp : PeerPropertiesResponse) : Result (List KeyValue) :=
  if resp.responseCode ≠ ResponseCode.ok then
    .error (mapResponseCode resp.responseCode (text "PeerProperties"))
  else .ok resp.properties

def peerPropertiesStep (cfg : ConnectionConfig) (cid : UInt32) : Handshake (List KeyValue) := do
  sendRequest (peerProperties cfg) cid 0
  let resp ← recvResponse PeerPropertiesResponse cid
  Fallible.ofExcept (peerPropertiesVerdict resp)

def plainNotOffered (mechanisms : List Bytes) : StreamError :=
  ⟨.saslMechanismNotSupported,
    text "server does not offer PLAIN; offered: " ++ mechanisms.flatMap (fun m => m ++ text " "), none⟩

def saslHandshakeVerdict (resp : SaslHandshakeResponse) : Result Unit :=
  if resp.responseCode ≠ ResponseCode.ok then
    .error (mapResponseCode resp.responseCode (text "SaslHandshake"))
  else if text "PLAIN" ∉ resp.mechanisms then .error (plainNotOffered resp.mechanisms)
  else .ok ()

def saslHandshakeStep (cid : UInt32) : Handshake Unit := do
  sendRequest (⟨⟩ : SaslHandshakeRequest) cid 0
  let resp ← recvResponse SaslHandshakeResponse cid
  Fallible.ofExcept (saslHandshakeVerdict resp)

def plainRequest (cfg : ConnectionConfig) : SaslAuthenticateRequest :=
  ⟨text "PLAIN", 0 :: cfg.username ++ 0 :: cfg.password⟩

/-- Whether the loop is left; a challenge goes around again. -/
def saslAuthenticateVerdict (resp : SaslAuthenticateResponse) : Result Bool :=
  if resp.responseCode = ResponseCode.ok then .ok true
  else if resp.responseCode = ResponseCode.saslChallenge then .ok false
  else .error (mapResponseCode resp.responseCode (text "SaslAuthenticate"))

def saslAuthenticateRound (cfg : ConnectionConfig) (cid : UInt32) : Handshake Bool := do
  sendRequest (plainRequest cfg) cid 0
  let resp ← recvResponse SaslAuthenticateResponse cid
  Fallible.ofExcept (saslAuthenticateVerdict resp)

/-- The `for (;;)` loop; returns the next correlation id. Every round takes a reply
off the script, so a round more than there are replies is never started. -/
def saslAuthenticateLoop (cfg : ConnectionConfig) : (rounds : Nat) → (cid : UInt32) → Handshake UInt32
  | 0, _ => Fallible.fail peerClosed
  | rounds + 1, cid => do
    if ← saslAuthenticateRound cfg cid then pure (cid + 1)
    else saslAuthenticateLoop cfg rounds (cid + 1)

def saslAuthenticateStep (cfg : ConnectionConfig) (cid : UInt32) : Handshake UInt32 :=
  ⟨fun ch => (saslAuthenticateLoop cfg (ch.script.length + 1) cid).run ch⟩

/-- A frame max of zero is no limit on either side; a client heartbeat of zero
leaves the server's value. -/
def negotiate (cfg : ConnectionConfig) (tune : Tune) : Tune where
  frameMax :=
    if cfg.requestedFrameMaxBytes ≠ 0 then
      if tune.frameMax = 0 then cfg.requestedFrameMaxBytes
      else min tune.frameMax cfg.requestedFrameMaxBytes
    else tune.frameMax
  heartbeat :=
    if cfg.requestedHeartbeatSeconds ≠ 0 then min tune.heartbeat cfg.requestedHeartbeatSeconds
    else tune.heartbeat

/-- The server speaks first; the reply is not checked against any limit. -/
def tuneStep (cfg : ConnectionConfig) : Handshake Tune := do
  let tune ← recvOneway Tune
  sendOneway (negotiate cfg tune) 0
  pure (negotiate cfg tune)

def openVerdict (cfg : ConnectionConfig) (resp : OpenResponse) : Result (List KeyValue) :=
  if resp.responseCode ≠ ResponseCode.ok then
    .error (mapResponseCode resp.responseCode (text "Open/" ++ cfg.virtualHost))
  else .ok resp.connectionProperties

def openStep (cfg : ConnectionConfig) (cid frameMax : UInt32) : Handshake (List KeyValue) := do
  sendRequest (⟨cfg.virtualHost⟩ : OpenRequest) cid frameMax
  let resp ← recvResponse OpenResponse cid
  Fallible.ofExcept (openVerdict cfg resp)

def runHandshake (cfg : ConnectionConfig) : Handshake HandshakeResult := do
  let serverProperties ← peerPropertiesStep cfg 1
  saslHandshakeStep 2
  let cid ← saslAuthenticateStep cfg 3
  let tune ← tuneStep cfg
  let connectionProperties ← openStep cfg cid tune.frameMax
  pure ⟨tune.frameMax, tune.heartbeat, serverProperties, connectionProperties⟩

/-! ## Every step only adds to the trace -/

def Extends {α : Type} (m : Handshake α) : Prop := ∀ ch : Channel, ch.trace <+: (m.run ch).2.trace

namespace Extends
variable {α β : Type}

theorem unchanged (result : Result α) : Extends (Fallible.ofExcept result : Handshake α) :=
  fun _ => List.prefix_rfl

theorem fail (e : StreamError) : Extends (Fallible.fail e : Handshake α) :=
  fun _ => List.prefix_rfl

theorem pure (value : α) : Extends (pure value : Handshake α) :=
  fun _ => List.prefix_rfl

theorem first_trace (m : Handshake α) {next : α → Handshake β} (second : ∀ value, Extends (next value))
    (ch : Channel) : (m.run ch).2.trace <+: ((m >>= next).run ch).2.trace := by
  rcases run : m.run ch with ⟨e | value, after⟩
  · rw [Fallible.bind_error run]
  · rw [Fallible.bind_ok run]
    exact second value after

theorem bind {m : Handshake α} {next : α → Handshake β} (first : Extends m)
    (second : ∀ value, Extends (next value)) : Extends (m >>= next) :=
  fun ch => (first ch).trans (first_trace m second ch)

theorem ite {m n : Handshake α} {p : Prop} [Decidable p] (left : Extends m) (right : Extends n) :
    Extends (if p then m else n) := by
  split
  · exact left
  · exact right

theorem writeFrame (frame : Bytes) : Extends (RmqStream.writeFrame frame) :=
  fun _ => List.prefix_append _ _

theorem nextReply : Extends RmqStream.nextReply := by
  intro ch
  unfold RmqStream.nextReply
  cases script : ch.script with
  | nil => simp [script]
  | cons reply rest => simp [script]

theorem sendRequest [Command α] (cmd : α) (cid frameMax : UInt32) :
    Extends (RmqStream.sendRequest cmd cid frameMax) :=
  (unchanged _).bind fun _ => writeFrame _

theorem sendOneway [Command α] (cmd : α) (frameMax : UInt32) :
    Extends (RmqStream.sendOneway cmd frameMax) :=
  (unchanged _).bind fun _ => writeFrame _

theorem recvResponse [Command α] (cid : UInt32) : Extends (RmqStream.recvResponse α cid) :=
  nextReply.bind fun _ => .ite (fail _) (.ite (fail _) (unchanged _))

theorem recvOneway [Command α] : Extends (RmqStream.recvOneway α) :=
  nextReply.bind fun _ => .ite (fail _) (unchanged _)

theorem tuneStep (cfg : ConnectionConfig) : Extends (RmqStream.tuneStep cfg) :=
  recvOneway.bind fun _ => (sendOneway _ _).bind fun _ => pure _

theorem openStep (cfg : ConnectionConfig) (cid frameMax : UInt32) :
    Extends (RmqStream.openStep cfg cid frameMax) :=
  (sendRequest _ _ _).bind fun _ => (recvResponse _).bind fun _ => unchanged _

theorem saslAuthenticateRound (cfg : ConnectionConfig) (cid : UInt32) :
    Extends (RmqStream.saslAuthenticateRound cfg cid) :=
  (sendRequest _ _ _).bind fun _ => (recvResponse _).bind fun _ => unchanged _

theorem saslAuthenticateLoop (cfg : ConnectionConfig) (rounds : Nat) (cid : UInt32) :
    Extends (RmqStream.saslAuthenticateLoop cfg rounds cid) := by
  induction rounds generalizing cid with
  | zero => exact fail _
  | succ rounds ih =>
    exact (saslAuthenticateRound _ _).bind fun _ => .ite (pure _) (ih _)

end Extends

/-- The shortest script of an accepting server. -/
def acceptingScript (tune : Tune) : List Reply :=
  [.ok ⟨Key.responseOf Key.peerProperties, 1,
      Command.encodeBody (⟨ResponseCode.ok, []⟩ : PeerPropertiesResponse), some 1⟩,
    .ok ⟨Key.responseOf Key.saslHandshake, 1,
      Command.encodeBody (⟨ResponseCode.ok, [text "PLAIN"]⟩ : SaslHandshakeResponse), some 2⟩,
    .ok ⟨Key.responseOf Key.saslAuthenticate, 1,
      Command.encodeBody (⟨ResponseCode.ok, none⟩ : SaslAuthenticateResponse), some 3⟩,
    .ok ⟨Key.tune, 1, Command.encodeBody tune, none⟩,
    .ok ⟨Key.responseOf Key.open, 1, Command.encodeBody (⟨ResponseCode.ok, []⟩ : OpenResponse), some 4⟩]

end RmqStream
