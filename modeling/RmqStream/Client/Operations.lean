import RmqStream.Handshake.Run

/-! The lifecycle operations of `src/client.cpp` as values: what each one checks,
which frame it sends, and how it reads the response. -/

set_option autoImplicit false

namespace RmqStream
open Library Commands

inductive Op where
  | createStream (stream : Bytes) (arguments : List Argument) (idempotent : Bool)
  | deleteStream (stream : Bytes) (idempotent : Bool)
  | storeOffset (reference stream : Bytes) (offset : UInt64)
  | queryOffset (reference stream : Bytes)
  | queryPublisherSequence (reference stream : Bytes)
  deriving DecidableEq, Repr

inductive Value where
  | done
  | offset (stored : Option UInt64)
  | sequence (last : UInt64)
  deriving DecidableEq, Repr

/-- The limit counts bytes. -/
def checkReference (reference : Bytes) : Result Unit :=
  if reference.length > 256 then .error ⟨.referenceTooLong, text "reference exceeds 256 characters", none⟩
  else .ok ()

namespace Op

/-- The check after `require_open`. `query_offset` makes none. -/
def checkArguments : Op → Result Unit
  | storeOffset reference _ _ => checkReference reference
  | queryPublisherSequence reference _ => checkReference reference
  | _ => .ok ()

def isOneway : Op → Bool
  | storeOffset _ _ _ => true
  | _ => false

def key : Op → UInt16
  | createStream _ _ _ => Command.kKey CreateRequest
  | deleteStream _ _ => Command.kKey DeleteRequest
  | storeOffset _ _ _ => Command.kKey StoreOffset
  | queryOffset _ _ => Command.kKey QueryOffsetRequest
  | queryPublisherSequence _ _ => Command.kKey QueryPublisherRequest

def version : Op → UInt16
  | createStream _ _ _ => Command.kVersion CreateRequest
  | deleteStream _ _ => Command.kVersion DeleteRequest
  | storeOffset _ _ _ => Command.kVersion StoreOffset
  | queryOffset _ _ => Command.kVersion QueryOffsetRequest
  | queryPublisherSequence _ _ => Command.kVersion QueryPublisherRequest

def body : Op → Bytes
  | createStream stream arguments _ => Command.encodeBody (⟨stream, arguments⟩ : CreateRequest)
  | deleteStream stream _ => Command.encodeBody (⟨stream⟩ : DeleteRequest)
  | storeOffset reference stream offset => Command.encodeBody (⟨reference, stream, offset⟩ : StoreOffset)
  | queryOffset reference stream => Command.encodeBody (⟨reference, stream⟩ : QueryOffsetRequest)
  | queryPublisherSequence reference stream =>
    Command.encodeBody (⟨reference, stream⟩ : QueryPublisherRequest)

/-- The frame of the operation; the correlation id is not part of a one-way frame. -/
def frame (op : Op) (cid : UInt32) : Bytes :=
  if op.isOneway then encodeOnewayFrame op.key op.version op.body
  else encodeRequestFrame op.key op.version cid op.body

end Op

def serverError (message : String) (code : UInt16) : StreamError := ⟨.serverError, text message, some code⟩

def streamMissing (stream : Bytes) : StreamError :=
  ⟨.streamDoesNotExist, text "stream does not exist: " ++ stream, none⟩

def createStreamResult (stream : Bytes) (idempotent : Bool) (resp : CreateResponse) : Result Value :=
  if resp.responseCode = ResponseCode.ok then .ok .done
  else if resp.responseCode = ResponseCode.streamAlreadyExists then
    if idempotent then .ok .done
    else .error ⟨.streamAlreadyExists, text "stream already exists: " ++ stream, none⟩
  else .error (serverError "create_stream failed" resp.responseCode)

def deleteStreamResult (stream : Bytes) (idempotent : Bool) (resp : DeleteResponse) : Result Value :=
  if resp.responseCode = ResponseCode.ok then .ok .done
  else if resp.responseCode = ResponseCode.streamDoesNotExist then
    if idempotent then .ok .done else .error (streamMissing stream)
  else .error (serverError "delete_stream failed" resp.responseCode)

def queryOffsetResult (stream : Bytes) (resp : QueryOffsetResponse) : Result Value :=
  if resp.responseCode = ResponseCode.ok then .ok (.offset (some resp.offset))
  else if resp.responseCode = ResponseCode.noOffset then .ok (.offset none)
  else if resp.responseCode = ResponseCode.streamDoesNotExist then .error (streamMissing stream)
  else .error (serverError "query_offset failed" resp.responseCode)

def queryPublisherResult (stream : Bytes) (resp : QueryPublisherResponse) : Result Value :=
  if resp.responseCode = ResponseCode.ok then .ok (.sequence resp.sequence)
  else if resp.responseCode = ResponseCode.streamDoesNotExist then .error (streamMissing stream)
  else .error (serverError "query_publisher_sequence failed" resp.responseCode)

/-- The rest of an operation once `send_and_wait` has returned a frame. Only the body
of the frame is looked at. -/
def Op.finish (frame : IncomingFrame) : Op → Result Value
  | createStream stream _ idempotent =>
    (decodeFrom Command.decodeBody frame.body).bind (createStreamResult stream idempotent)
  | deleteStream stream idempotent =>
    (decodeFrom Command.decodeBody frame.body).bind (deleteStreamResult stream idempotent)
  | storeOffset _ _ _ => .ok .done
  | queryOffset _ stream => (decodeFrom Command.decodeBody frame.body).bind (queryOffsetResult stream)
  | queryPublisherSequence _ stream =>
    (decodeFrom Command.decodeBody frame.body).bind (queryPublisherResult stream)

def closeFrame (cid : UInt32) : Bytes :=
  requestFrame (⟨1, text "client requested close"⟩ : CloseRequest) cid

def heartbeatFrame : Bytes := onewayFrame (⟨⟩ : Heartbeat)

end RmqStream
