import RmqStream.Client.Operations

/-! How much of a response body is read before its value is used.

`read_frame` hands over exactly the bytes that the size field declares, and the decoder
of the command takes its fields from the front. Nobody compares the two: bytes behind the
last field are dropped in silence, in the handshake and in the lifecycle operations. -/

set_option autoImplicit false

namespace RmqStream
open Library Commands

/-- The five receives of `run_handshake` and the operations that wait for a response. -/
inductive Site where
  | peerProperties
  | saslHandshake
  | saslAuthenticate (cid : UInt32)
  | tune
  | «open» (cid : UInt32)
  | operation (op : Op) (waits : op.isOneway = false)

namespace Site

def tag : Site → CommandType
  | peerProperties => .peerPropertiesResponse
  | saslHandshake => .saslHandshakeResponse
  | saslAuthenticate _ => .saslAuthenticateResponse
  | tune => .tune
  | «open» _ => .openResponse
  | operation (.createStream _ _ _) _ => .createResponse
  | operation (.deleteStream _ _) _ => .deleteResponse
  | operation (.queryOffset _ _) _ => .queryOffsetResponse
  | operation (.queryPublisherSequence _ _) _ => .queryPublisherResponse

/-- What an operation does with the value it has decoded. -/
def verdict : (op : Op) → (waits : op.isOneway = false) → (operation op waits).tag.Struct → Result Value
  | .createStream stream _ idempotent, _ => createStreamResult stream idempotent
  | .deleteStream stream idempotent, _ => deleteStreamResult stream idempotent
  | .queryOffset _ stream, _ => queryOffsetResult stream
  | .queryPublisherSequence _ stream, _ => queryPublisherResult stream

theorem finish_eq (op : Op) (waits : op.isOneway = false) (frame : IncomingFrame) :
    op.finish frame = (decodeFrom Command.decodeBody frame.body).bind (verdict op waits) := by
  cases op with
  | storeOffset => cases waits
  | _ => rfl

end Site

def Accepts {α : Type} (receive : Handshake α) (frame : IncomingFrame) : Prop :=
  ∃ script trace value after, receive.run ⟨.ok frame :: script, trace⟩ = (.ok value, after)

/-- The place goes on with a value decoded from the body of the frame. -/
def Site.Uses (frame : IncomingFrame) : Site → Prop
  | .peerProperties => Accepts (recvResponse PeerPropertiesResponse 1) frame
  | .saslHandshake => Accepts (recvResponse SaslHandshakeResponse 2) frame
  | .saslAuthenticate cid => Accepts (recvResponse SaslAuthenticateResponse cid) frame
  | .tune => Accepts (recvOneway Tune) frame
  | .open cid => Accepts (recvResponse OpenResponse cid) frame
  | .operation op waits => ∃ value, decodeFrom Command.decodeBody frame.body = .ok value ∧
      op.finish frame = Site.verdict op waits value

/-- `decode_body` does not succeed before the last byte. -/
def ReadToEnd (tag : CommandType) (body : Bytes) : Prop :=
  ∀ (addressable : body.length < 2 ^ 64) (value : tag.Struct) (after : BufferReader),
    Command.decodeBody.run (Cursor.start body addressable) = (.ok value, after) → after.rest = []

def Padded (tag : CommandType) (body : Bytes) : Prop :=
  ∃ (value : tag.Struct) (padding : Bytes), Encodable value ∧ padding ≠ [] ∧
    body = Command.encodeBody value ++ padding

/-- Bodies that are no encoding of their value end with the response code. -/
theorem Site.noncanonical_end (site : Site) {bytes tail : Bytes} {value : site.tag.Struct}
    (odd : site.tag.Noncanonical bytes tail value) : tail = [] := by
  cases site with
  | saslAuthenticate | «open» => exact odd.2
  | operation op waits =>
    cases op with
    | storeOffset => cases waits
    | _ => exact odd.elim
  | _ => exact odd.elim

theorem Site.readToEnd_iff (site : Site) {body : Bytes} (addressable : body.length < 2 ^ 64) :
    ReadToEnd site.tag body ↔ ¬ Padded site.tag body := by
  constructor
  · rintro whole ⟨value, padding, encodable, more, rfl⟩
    have read := site.tag.faithful.reads value encodable (Cursor.start _ addressable) padding
      (Cursor.start_rest _ addressable)
    have rest := whole addressable value _ read
    rw [Cursor.skip_rest_of_append (Cursor.start_rest _ addressable)] at rest
    exact more rest
  · intro plain addressable value after run
    obtain ⟨n, inside, rfl, encodable, canonical⟩ := site.tag.faithful.sound.ok _ value after run
    rw [Cursor.skip_rest _ inside]
    rw [Cursor.start_rest] at canonical ⊢
    by_contra more
    have exactly := canonical.mpr fun odd => more (site.noncanonical_end odd)
    exact plain ⟨value, body.drop n, encodable, more, by rw [exactly, List.take_append_drop]⟩

/-! ## Which frames get as far as the decoder -/

/-- The checks before `decode_body`: key and correlation id in the handshake, none in an
operation. An expected id of zero is not compared. -/
def Site.Expects (frame : IncomingFrame) : Site → Prop
  | .peerProperties => frame.key = Command.kKey PeerPropertiesResponse ∧ frame.correlationId = some 1
  | .saslHandshake => frame.key = Command.kKey SaslHandshakeResponse ∧ frame.correlationId = some 2
  | .saslAuthenticate cid =>
    frame.key = Command.kKey SaslAuthenticateResponse ∧ (cid = 0 ∨ frame.correlationId = some cid)
  | .tune => frame.key = Command.kKey Tune
  | .open cid => frame.key = Command.kKey OpenResponse ∧ (cid = 0 ∨ frame.correlationId = some cid)
  | .operation _ _ => True

theorem nextReply_cons (frame : IncomingFrame) (script : List Reply) (trace : List Event) :
    nextReply.run ⟨.ok frame :: script, trace⟩ = (.ok frame, ⟨script, trace ++ [.received (.ok frame)]⟩) := rfl

section Receives
variable {α : Type} [Command α] {frame : IncomingFrame}

theorem accepts_oneway_iff : Accepts (recvOneway α) frame ↔
    frame.key = Command.kKey α ∧ ∃ value : α, decodeFrom Command.decodeBody frame.body = .ok value := by
  constructor
  · rintro ⟨script, trace, value, after, run⟩
    rw [recvOneway, Fallible.bind_ok (nextReply_cons frame script trace)] at run
    split at run
    · simp [Fallible.fail] at run
    next key =>
      exact ⟨not_not.mp key, value, congrArg Prod.fst run⟩
  · rintro ⟨key, value, decoded⟩
    refine ⟨[], [], value, ⟨[], [.received (.ok frame)]⟩, ?_⟩
    rw [recvOneway, Fallible.bind_ok (nextReply_cons frame [] []), if_neg (not_not.mpr key), decoded]
    rfl

theorem accepts_response_iff (cid : UInt32) : Accepts (recvResponse α cid) frame ↔
    (frame.key = Command.kKey α ∧ (cid = 0 ∨ frame.correlationId = some cid)) ∧
      ∃ value : α, decodeFrom Command.decodeBody frame.body = .ok value := by
  constructor
  · rintro ⟨script, trace, value, after, run⟩
    rw [recvResponse, Fallible.bind_ok (nextReply_cons frame script trace)] at run
    split at run
    · simp [Fallible.fail] at run
    next key =>
      split at run
      · simp [Fallible.fail] at run
      next same =>
        refine ⟨⟨not_not.mp key, ?_⟩, value, congrArg Prod.fst run⟩
        rw [not_and_or, not_not, not_not] at same
        exact same
  · rintro ⟨⟨key, same⟩, value, decoded⟩
    have checked : ¬ (cid ≠ 0 ∧ frame.correlationId ≠ some cid) := by
      rw [not_and_or, not_not, not_not]
      exact same
    refine ⟨[], [], value, ⟨[], [.received (.ok frame)]⟩, ?_⟩
    rw [recvResponse, Fallible.bind_ok (nextReply_cons frame [] []), if_neg (not_not.mpr key), if_neg checked,
      decoded]
    rfl

end Receives

theorem Site.uses_iff (site : Site) (frame : IncomingFrame) : site.Uses frame ↔
    site.Expects frame ∧ ∃ value : site.tag.Struct, decodeFrom Command.decodeBody frame.body = .ok value := by
  cases site with
  | peerProperties => exact (accepts_response_iff 1).trans (and_congr (by simp [Expects]) Iff.rfl)
  | saslHandshake => exact (accepts_response_iff 2).trans (and_congr (by simp [Expects]) Iff.rfl)
  | saslAuthenticate cid => exact accepts_response_iff cid
  | tune => exact accepts_oneway_iff
  | «open» cid => exact accepts_response_iff cid
  | operation op waits =>
    rw [Uses, Expects, true_and]
    constructor
    · rintro ⟨value, decoded, _⟩
      exact ⟨value, decoded⟩
    · rintro ⟨value, decoded⟩
      exact ⟨value, decoded, by rw [finish_eq op waits, decoded]; rfl⟩

/-- A place reads a response to its last byte before it uses the value exactly when the
frame is not one it expects with further bytes behind an encoding. -/
theorem response_read_to_end_iff (site : Site) (frame : IncomingFrame)
    (addressable : frame.body.length < 2 ^ 64) :
    (site.Uses frame → ReadToEnd site.tag frame.body) ↔
      ¬ (site.Expects frame ∧ Padded site.tag frame.body) := by
  rw [site.readToEnd_iff addressable, site.uses_iff]
  constructor
  · rintro careful ⟨expected, padded⟩
    refine careful ⟨expected, ?_⟩ padded
    obtain ⟨value, padding, encodable, _, same⟩ := padded
    have read := site.tag.faithful.reads value encodable (Cursor.start _ addressable) padding
      (by rw [Cursor.start_rest, same])
    exact ⟨value, by rw [decodeFrom, dif_pos addressable, read]⟩
  · rintro plain ⟨expected, _⟩ padded
    exact plain ⟨expected, padded⟩

/-- The plain response to `delete_stream`. -/
theorem response_read_to_end_delete :
    (Site.operation (.deleteStream (text "a") false) rfl).Uses ⟨Key.responseOf Key.delete, 1, [0, 1], some 100⟩ ∧
      ReadToEnd .deleteResponse [0, 1] := by
  have uses : (Site.operation (.deleteStream (text "a") false) rfl).Uses
      ⟨Key.responseOf Key.delete, 1, [0, 1], some 100⟩ := ⟨⟨1⟩, rfl, rfl⟩
  refine ⟨uses, (response_read_to_end_iff (.operation (.deleteStream (text "a") false) rfl)
    ⟨Key.responseOf Key.delete, 1, [0, 1], some 100⟩ (by decide)).mpr ?_ uses⟩
  rintro ⟨_, value, padding, _, more, same⟩
  have length := congrArg List.length same
  have code : (Command.encodeBody value).length = 2 := rfl
  rw [List.length_append, code, List.length_cons, List.length_cons, List.length_nil] at length
  exact more (List.length_eq_zero_iff.mp (by omega))

/-- `delete_stream` reports success on a response with a byte behind its code. -/
theorem response_padding_accepted :
    ¬ ∀ (site : Site) (frame : IncomingFrame), frame.body.length < 2 ^ 64 → site.Uses frame →
      ReadToEnd site.tag frame.body := by
  intro claimed
  have whole := claimed (.operation (.deleteStream (text "a") false) rfl)
    ⟨Key.responseOf Key.delete, 1, [0, 1, 0xFF], some 100⟩ (by decide) ⟨⟨1⟩, rfl, rfl⟩
  have rest := whole (by decide) ⟨1⟩ (Cursor.skip (Cursor.start [0, 1, 0xFF] (by decide)) 2) rfl
  exact absurd rest (by decide)

end RmqStream
