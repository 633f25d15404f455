import RmqStream.Utf8

/-! The error taxonomy and the connection configuration.

Source strings are byte strings: nothing in the C++ types makes them UTF-8.
Durations are signed milliseconds, as `std::chrono::milliseconds` is. The log
sink has no effect on any result and is left out. -/

set_option autoImplicit false

namespace RmqStream
open Library

inductive Kind where
  | configurationError | connectFailed | authenticationFailed | saslMechanismNotSupported
  | virtualHostAccessDenied | protocolViolation | requestTimeout | connectionNotOpen
  | connectionClosed | streamAlreadyExists | streamDoesNotExist | referenceTooLong
  | ioError | decodeError | encodeError | serverError
  deriving DecidableEq, Repr

structure StreamError where
  kind : Kind
  message : Bytes
  serverCode : Option UInt16 := none
  deriving DecidableEq, Repr

abbrev Result (α : Type) := Except StreamError α

structure ConnectionConfig where
  host : Bytes := text "localhost"
  port : UInt16 := 5552
  virtualHost : Bytes := text "/"
  username : Bytes := text "guest"
  password : Bytes := text "guest"
  connectionName : Bytes := []
  requestedHeartbeatSeconds : UInt32 := 60
  requestedFrameMaxBytes : UInt32 := 1048576
  /-- In milliseconds. Nothing checks it. -/
  requestTimeout : Int := 10000
  deriving DecidableEq, Repr

def configurationError (message : String) : StreamError := ⟨.configurationError, text message, none⟩

/-- The checks `connect` makes before any I/O. -/
def ConnectionConfig.validate (cfg : ConnectionConfig) : Result Unit :=
  if cfg.host = [] then .error (configurationError "host must not be empty")
  else if cfg.port = 0 then .error (configurationError "port must be non-zero")
  else if cfg.virtualHost = [] then .error (configurationError "virtual_host must not be empty")
  else .ok ()

end RmqStream
