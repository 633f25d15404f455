import RmqStream.Commands.Handshake

/-! The command structs of `commands/lifecycle.hpp`. -/

set_option autoImplicit false

namespace RmqStream.Commands
open Library

abbrev Argument := Bytes × Bytes

structure CreateRequest where
  stream : Bytes
  arguments : List Argument
  deriving DecidableEq, Repr

instance : Command CreateRequest where
  kKey := Key.create
  kVersion := 1
  encodeBody v := writeString v.stream ++
    (writeArrayPrefix (Int32.ofNat v.arguments.length) ++ v.arguments.flatMap encodeKeyValue)
  decodeBody := do
    let s ← readStringRequired
    let count ← readArrayPrefix
    -- `reserve(count)`
    let arguments ← decodeKeyValue.times count.toInt.toNat
    pure ⟨s, arguments⟩

structure CreateResponse where
  responseCode : UInt16
  deriving DecidableEq, Repr

instance : Command CreateResponse where
  kKey := Key.responseOf Key.create
  kVersion := 1
  encodeBody v := writeU16 v.responseCode
  decodeBody := do
    let rc ← readU16
    pure ⟨rc⟩

structure DeleteRequest where
  stream : Bytes
  deriving DecidableEq, Repr

instance : Command DeleteRequest where
  kKey := Key.delete
  kVersion := 1
  encodeBody v := writeString v.stream
  decodeBody := do
    let s ← readStringRequired
    pure ⟨s⟩

structure DeleteResponse where
  responseCode : UInt16
  deriving DecidableEq, Repr

instance : Command DeleteResponse where
  kKey := Key.responseOf Key.delete
  kVersion := 1
  encodeBody v := writeU16 v.responseCode
  decodeBody := do
    let rc ← readU16
    pure ⟨rc⟩

/-- One-way: the server does not reply. -/
structure StoreOffset where
  reference : Bytes
  stream : Bytes
  offset : UInt64
  deriving DecidableEq, Repr

instance : Command StoreOffset where
  kKey := Key.storeOffset
  kVersion := 1
  encodeBody v := writeString v.reference ++ (writeString v.stream ++ writeU64 v.offset)
  decodeBody := do
    let ref ← readStringRequired
    let str ← readStringRequired
    let off ← readU64
    pure ⟨ref, str, off⟩

structure QueryOffsetRequest where
  reference : Bytes
  stream : Bytes
  deriving DecidableEq, Repr

instance : Command QueryOffsetRequest where
  kKey := Key.queryOffset
  kVersion := 1
  encodeBody v := writeString v.reference ++ writeString v.stream
  decodeBody := do
    let ref ← readStringRequired
    let str ← readStringRequired
    pure ⟨ref, str⟩

structure QueryOffsetResponse where
  responseCode : UInt16
  offset : UInt64
  deriving DecidableEq, Repr

instance : Command QueryOffsetResponse where
  kKey := Key.responseOf Key.queryOffset
  kVersion := 1
  encodeBody v := writeU16 v.responseCode ++ writeU64 v.offset
  decodeBody := do
    let rc ← readU16
    let off ← readU64
    pure ⟨rc, off⟩

structure QueryPublisherRequest where
  publisherReference : Bytes
  stream : Bytes
  deriving DecidableEq, Repr

instance : Command QueryPublisherRequest where
  kKey := Key.queryPublisherSequence
  kVersion := 1
  encodeBody v := writeString v.publisherReference ++ writeString v.stream
  decodeBody := do
    let ref ← readStringRequired
    let str ← readStringRequired
    pure ⟨ref, str⟩

structure QueryPublisherResponse where
  responseCode : UInt16
  sequence : UInt64
  deriving DecidableEq, Repr

instance : Command QueryPublisherResponse where
  kKey := Key.responseOf Key.queryPublisherSequence
  kVersion := 1
  encodeBody v := writeU16 v.responseCode ++ writeU64 v.sequence
  decodeBody := do
    let rc ← readU16
    let seq ← readU64
    pure ⟨rc, seq⟩

end RmqStream.Commands
