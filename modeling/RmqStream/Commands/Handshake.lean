import RmqStream.Frame

/-! The command structs of `commands/handshake.hpp`: their fields, keys, and body
codecs. A C++ template over a command struct is a definition over `Command`.

Between a count and its elements the source calls `reserve(count)`, which may throw. The
decoders here are those of an allocator that grants every count; `Commands.Allocation` has
them over any other. -/

set_option autoImplicit false

namespace RmqStream
open Library

/-- What every command struct provides: `kKey`, `kVersion` and the two body codecs. -/
class Command (α : Type) where
  kKey : UInt16
  kVersion : UInt16
  encodeBody : α → Bytes
  decodeBody : Decode α

namespace Commands

abbrev KeyValue := Bytes × Bytes

def encodeKeyValue (kv : KeyValue) : Bytes := writeString kv.1 ++ writeString kv.2

def decodeKeyValue : Decode KeyValue := do
  let k ← readStringRequired
  let v ← readStringRequired
  pure (k, v)

def encodeKvArray (kvs : List KeyValue) : Bytes :=
  writeArrayPrefix (Int32.ofNat kvs.length) ++ kvs.flatMap encodeKeyValue

def decodeKvArray : Decode (List KeyValue) := do
  let count ← readArrayPrefix
  -- `reserve(count)`
  decodeKeyValue.times count.toInt.toNat

structure PeerPropertiesRequest where
  properties : List KeyValue
  deriving DecidableEq, Repr

instance : Command PeerPropertiesRequest where
  kKey := Key.peerProperties
  kVersion := 1
  encodeBody v := encodeKvArray v.properties
  decodeBody := do
    let kvs ← decodeKvArray
    pure ⟨kvs⟩

structure PeerPropertiesResponse where
  responseCode : UInt16
  properties : List KeyValue
  deriving DecidableEq, Repr

instance : Command PeerPropertiesResponse where
  kKey := Key.responseOf Key.peerProperties
  kVersion := 1
  encodeBody v := writeU16 v.responseCode ++ encodeKvArray v.properties
  decodeBody := do
    let rc ← readU16
    let kvs ← decodeKvArray
    pure ⟨rc, kvs⟩

structure SaslHandshakeRequest where
  deriving DecidableEq, Repr

instance : Command SaslHandshakeRequest where
  kKey := Key.saslHandshake
  kVersion := 1
  encodeBody _ := []
  decodeBody := pure ⟨⟩

structure SaslHandshakeResponse where
  responseCode : UInt16
  mechanisms : List Bytes
  deriving DecidableEq, Repr

instance : Command SaslHandshakeResponse where
  kKey := Key.responseOf Key.saslHandshake
  kVersion := 1
  encodeBody v := writeU16 v.responseCode ++
    (writeArrayPrefix (Int32.ofNat v.mechanisms.length) ++ v.mechanisms.flatMap writeString)
  decodeBody := do
    let rc ← readU16
    let count ← readArrayPrefix
    -- `reserve(count)`
    let mechanisms ← readStringRequired.times count.toInt.toNat
    pure ⟨rc, mechanisms⟩

structure SaslAuthenticateRequest where
  mechanism : Bytes
  saslOpaqueData : Bytes
  deriving DecidableEq, Repr

instance : Command SaslAuthenticateRequest where
  kKey := Key.saslAuthenticate
  kVersion := 1
  encodeBody v := writeString v.mechanism ++ writeBytesRaw v.saslOpaqueData
  -- A null marker is accepted and leaves the default, empty data.
  decodeBody := do
    let mech ← readStringRequired
    let data ← readBytes
    pure ⟨mech, data.getD []⟩

structure SaslAuthenticateResponse where
  responseCode : UInt16
  saslOpaqueData : Option Bytes
  deriving DecidableEq, Repr

instance : Command SaslAuthenticateResponse where
  kKey := Key.responseOf Key.saslAuthenticate
  kVersion := 1
  encodeBody v := writeU16 v.responseCode ++ writeBytes v.saslOpaqueData
  -- Some broker versions omit the opaque data; it is read only while bytes are left.
  decodeBody := do
    let rc ← readU16
    if ← Decoder.atEnd then pure ⟨rc, none⟩
    else
      let data ← readBytes
      pure ⟨rc, data⟩

/-- One-way in both directions, without a correlation id. -/
structure Tune where
  frameMax : UInt32
  heartbeat : UInt32
  deriving DecidableEq, Repr

instance : Command Tune where
  kKey := Key.tune
  kVersion := 1
  encodeBody v := writeU32 v.frameMax ++ writeU32 v.heartbeat
  decodeBody := do
    let fm ← readU32
    let hb ← readU32
    pure ⟨fm, hb⟩

structure OpenRequest where
  virtualHost : Bytes
  deriving DecidableEq, Repr

instance : Command OpenRequest where
  kKey := Key.open
  kVersion := 1
  encodeBody v := writeString v.virtualHost
  decodeBody := do
    let v ← readStringRequired
    pure ⟨v⟩

structure OpenResponse where
  responseCode : UInt16
  connectionProperties : List KeyValue
  deriving DecidableEq, Repr

instance : Command OpenResponse where
  kKey := Key.responseOf Key.open
  kVersion := 1
  encodeBody v := writeU16 v.responseCode ++ encodeKvArray v.connectionProperties
  -- The properties are optional in practice: some brokers omit them on failure.
  decodeBody := do
    let rc ← readU16
    if ← Decoder.atEnd then pure ⟨rc, []⟩
    else
      let kvs ← decodeKvArray
      pure ⟨rc, kvs⟩

structure CloseRequest where
  closingCode : UInt16
  closingReason : Bytes
  deriving DecidableEq, Repr

instance : Command CloseRequest where
  kKey := Key.close
  kVersion := 1
  encodeBody v := writeU16 v.closingCode ++ writeString v.closingReason
  decodeBody := do
    let rc ← readU16
    let reason ← readStringRequired
    pure ⟨rc, reason⟩

structure CloseResponse where
  responseCode : UInt16
  deriving DecidableEq, Repr

instance : Command CloseResponse where
  kKey := Key.responseOf Key.close
  kVersion := 1
  encodeBody v := writeU16 v.responseCode
  decodeBody := do
    let rc ← readU16
    pure ⟨rc⟩

structure Heartbeat where
  deriving DecidableEq, Repr

instance : Command Heartbeat where
  kKey := Key.heartbeat
  kVersion := 1
  encodeBody _ := []
  decodeBody := pure ⟨⟩

end Commands
end RmqStream
