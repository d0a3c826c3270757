import Avtp.Acf.CanFrame

/-!
# LIN frames in ACF messages

A LIN frame with what an ACF message says about it. As with CAN frames, the length, the pad count
and the flag for the timestamp follow from the rest and are not part of the value.
-/

namespace Avtp.Acf

/-- A LIN frame as the content of an ACF message. -/
structure LinFrame where
  busId : UInt8
  identifier : UInt8
  timestamp : Option UInt64
  payload : List UInt8
  deriving DecidableEq

namespace LinFrame

/-- The frame in a LIN message. -/
def ofView (view : LinView) : LinFrame where
  busId := view.linBusId
  identifier := view.linIdentifier
  timestamp := if view.mtv then some view.messageTimestamp else none
  payload := view.payload

/-- The length of the message that carries the frame. -/
def size (frame : LinFrame) : Nat := paddedLength (Header.size .lin + frame.payload.length)

/-- The number of octets between the payload and the end of that message. -/
def padding (frame : LinFrame) : Nat := frame.size - Header.size .lin - frame.payload.length

/-- Everything fits into its field. -/
def check (frame : LinFrame) : Except StructureError Unit := do
  Header.checkHolds (h := .lin) LinSlot.linBusId frame.busId.toNat
  checkMessageLength frame.size

/-- The fields for the timestamp, left out if there is none. -/
def timestampWrites (frame : LinFrame) : List Write :=
  match frame.timestamp with
  | some time =>
    [.slot (h := .lin) LinSlot.mtv 1,
      .slot (h := .lin) LinSlot.messageTimestampHi (WideValue.hi time),
      .slot (h := .lin) LinSlot.messageTimestampLo (WideValue.lo time)]
  | none => []

/-- The message, cleared first, then filled with payload and fields. -/
def writes (frame : LinFrame) : List Write :=
  [.clear frame.size, .copy (Header.size .lin) frame.payload,
    .slot (h := .lin) LinSlot.msgType MessageType.lin.raw.toNat,
    .slot (h := .lin) LinSlot.msgLength (frame.size / 4),
    .slot (h := .lin) LinSlot.pad frame.padding,
    .slot (h := .lin) LinSlot.linBusId frame.busId.toNat,
    .slot (h := .lin) LinSlot.linIdentifier frame.identifier.toNat] ++ frame.timestampWrites

instance : WireForm LinFrame where
  size := size
  check := check
  write? frame buf := (Write.run? frame.writes buf).map fun out ↦ (out, frame.size)

end LinFrame

end Avtp.Acf
