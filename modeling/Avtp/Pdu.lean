import Avtp.Acf.Message

/-!
# Control stream data units as values

An NTSCF or TSCF data unit with its messages. The data length is not part of the value; it follows
from the messages. A stream id and a timestamp are there or not, which on the wire is one flag each.

## All or nothing

Decoding takes the whole data unit. It fails if the header is wrong, or if any message in the
payload is; the first fault in wire order is the one reported.

## Encoding

The header is cleared and its fields are set, then the messages follow. The check asks for the data
length first and then for the messages in order.
-/

namespace Avtp

/-- Clears and writes a header, then the messages behind it, and counts the octets. -/
def writeStream? (headerLength : Nat) (header : List Write) (messages : List Acf.Message)
    (buf : List UInt8) : Option (List UInt8 × Nat) := do
  let out ← Write.run? (.clear headerLength :: header) buf
  let (front, rest) ← Octets.split? out headerLength
  let (out, total) ← Acf.Message.writeAll? messages rest
  return (front ++ out, headerLength + total)

/-- A non-time-synchronous control stream data unit. -/
structure NtscfPdu where
  streamId : Option UInt64
  sequenceNum : UInt8
  messages : List Acf.Message
  deriving DecidableEq

namespace NtscfPdu

/-- The value of a data unit in place. -/
def ofView? (view : NtscfView) : Except ViewError NtscfPdu :=
  (Acf.Message.ofPayload? view.payload).map fun messages ↦
    { streamId := if view.sv then some view.streamId else none
      sequenceNum := view.sequenceNum
      messages }

/-- The data unit at the start of a buffer and the octets behind it. -/
def decode? (buf : List UInt8) : Except ViewError (NtscfPdu × List UInt8) :=
  match View.split? .ntscf buf with
  | .ok (view, rest) => (ofView? view).map fun pdu ↦ (pdu, rest)
  | .error reason => .error reason

/-- The fields for the stream id, left out if there is none. -/
def streamIdWrites (pdu : NtscfPdu) : List Write :=
  match pdu.streamId with
  | some id =>
    [.slot (h := .ntscf) NtscfSlot.sv 1,
      .slot (h := .ntscf) NtscfSlot.streamIdHi (WideValue.hi id),
      .slot (h := .ntscf) NtscfSlot.streamIdLo (WideValue.lo id)]
  | none => []

/-- The fields of the header. -/
def headerWrites (pdu : NtscfPdu) : List Write :=
  [.slot (h := .ntscf) NtscfSlot.subtype PduSubtype.ntscf.raw.toNat,
    .slot (h := .ntscf) NtscfSlot.version protocolVersion.toNat,
    .slot (h := .ntscf) NtscfSlot.dataLength (Acf.Message.totalSize pdu.messages),
    .slot (h := .ntscf) NtscfSlot.sequenceNum pdu.sequenceNum.toNat] ++ pdu.streamIdWrites

instance : WireForm NtscfPdu where
  size pdu := Header.size .ntscf + Acf.Message.totalSize pdu.messages
  check pdu := do
    Header.checkHolds (h := .ntscf) NtscfSlot.dataLength (Acf.Message.totalSize pdu.messages)
    Acf.Message.checkAll pdu.messages
  write? pdu := writeStream? (Header.size .ntscf) pdu.headerWrites pdu.messages

end NtscfPdu

/-- A time-synchronous control stream data unit. -/
structure TscfPdu where
  streamId : Option UInt64
  /-- Media clock restart. -/
  mr : Bool
  sequenceNum : UInt8
  /-- Timestamp uncertain. -/
  tu : Bool
  avtpTimestamp : Option UInt32
  gatewayInfo : UInt32
  messages : List Acf.Message
  deriving DecidableEq

namespace TscfPdu

/-- The value of a data unit in place. -/
def ofView? (view : TscfView) : Except ViewError TscfPdu :=
  (Acf.Message.ofPayload? view.payload).map fun messages ↦
    { streamId := if view.sv then some view.streamId else none
      mr := view.mr
      sequenceNum := view.sequenceNum
      tu := view.tu
      avtpTimestamp := if view.tv then some view.avtpTimestamp else none
      gatewayInfo := view.gatewayInfo
      messages }

/-- The data unit at the start of a buffer and the octets behind it. -/
def decode? (buf : List UInt8) : Except ViewError (TscfPdu × List UInt8) :=
  match View.split? .tscf buf with
  | .ok (view, rest) => (ofView? view).map fun pdu ↦ (pdu, rest)
  | .error reason => .error reason

/-- The fields for the stream id, left out if there is none. -/
def streamIdWrites (pdu : TscfPdu) : List Write :=
  match pdu.streamId with
  | some id =>
    [.slot (h := .tscf) TscfSlot.sv 1,
      .slot (h := .tscf) TscfSlot.streamIdHi (WideValue.hi id),
      .slot (h := .tscf) TscfSlot.streamIdLo (WideValue.lo id)]
  | none => []

/-- The fields for the timestamp, left out if there is none. -/
def timestampWrites (pdu : TscfPdu) : List Write :=
  match pdu.avtpTimestamp with
  | some time =>
    [.slot (h := .tscf) TscfSlot.tv 1,
      .slot (h := .tscf) TscfSlot.avtpTimestamp time.toNat]
  | none => []

/-- The fields of the header. -/
def headerWrites (pdu : TscfPdu) : List Write :=
  [.slot (h := .tscf) TscfSlot.subtype PduSubtype.tscf.raw.toNat,
    .slot (h := .tscf) TscfSlot.version protocolVersion.toNat,
    .slot (h := .tscf) TscfSlot.mr pdu.mr.toNat,
    .slot (h := .tscf) TscfSlot.sequenceNum pdu.sequenceNum.toNat,
    .slot (h := .tscf) TscfSlot.tu pdu.tu.toNat] ++ pdu.streamIdWrites ++ pdu.timestampWrites ++
  [.slot (h := .tscf) TscfSlot.gatewayInfo pdu.gatewayInfo.toNat,
    .slot (h := .tscf) TscfSlot.dataLength (Acf.Message.totalSize pdu.messages)]

instance : WireForm TscfPdu where
  size pdu := Header.size .tscf + Acf.Message.totalSize pdu.messages
  check pdu := do
    Header.checkHolds (h := .tscf) TscfSlot.dataLength (Acf.Message.totalSize pdu.messages)
    Acf.Message.checkAll pdu.messages
  write? pdu := writeStream? (Header.size .tscf) pdu.headerWrites pdu.messages

end TscfPdu

end Avtp
