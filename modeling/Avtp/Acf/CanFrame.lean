import Avtp.Acf.TypedMessage
import Avtp.WireForm

/-!
# CAN frames in ACF messages

A CAN frame with what an ACF message says about it: flags, bus, identifier, payload, and possibly
the time of its reception. It travels as a CAN message, or without timestamp as a brief one.

Three things of the message are not part of the value, because they follow from it: the length, the
pad count, and the flag MTV, which tells whether there is a timestamp. Unpacking drops MTV from the
flags and packing ignores it there.
-/

namespace Avtp.Acf

/-- The number of octets of whole quadlets that hold the given number of octets. -/
def paddedLength (octets : Nat) : Nat := 4 * quadletsFor octets

/-- The length of a message fits into the length field. -/
def checkMessageLength (octets : Nat) : Except StructureError Unit :=
  Header.checkHolds (h := .acf) AcfSlot.msgLength (octets / 4)

/-- A CAN frame as the content of an ACF message. -/
structure CanFrame where
  /-- The flags of the frame; MTV has no meaning here. -/
  flags : CanFlags
  busId : UInt8
  /-- The identifier, of 11 bits unless the flags say otherwise. -/
  identifier : UInt32
  timestamp : Option UInt64
  /-- The frame travels as a brief message. -/
  brief : Bool
  payload : List UInt8
  deriving DecidableEq

namespace CanFrame

/-- The frame in a CAN message. -/
def ofView (view : CanView) : CanFrame where
  flags := view.flags.diff .mtv
  busId := view.canBusId
  identifier := view.canIdentifier
  timestamp := if view.mtv then some view.messageTimestamp else none
  brief := false
  payload := view.payload

/-- The frame in a brief CAN message. -/
def ofBriefView (view : CanBriefView) : CanFrame where
  flags := view.flags.diff .mtv
  busId := view.canBusId
  identifier := view.canIdentifier
  timestamp := none
  brief := true
  payload := view.payload

/-- The format of the message that carries the frame. -/
def format (frame : CanFrame) : MessageFormat := if frame.brief then .canBrief else .can

/-- The length of the header of that message. -/
def headerLength (frame : CanFrame) : Nat := frame.format.header.size

/-- The length of that message. -/
def size (frame : CanFrame) : Nat := paddedLength (frame.headerLength + frame.payload.length)

/-- The number of octets between the payload and the end of that message. -/
def padding (frame : CanFrame) : Nat :=
  frame.size - frame.headerLength - frame.payload.length

/-- Everything fits into its field, and the timestamp and the identifier go with the format. -/
def check (frame : CanFrame) : Except StructureError Unit := do
  if frame.brief ∧ frame.timestamp.isSome then
    throw .timestampInBriefCan
  if ¬ frame.flags.contains .eff ∧ 0x7FF < frame.identifier.toNat then
    throw .wideStandardIdentifier
  Header.checkHolds (h := .can) CanSlot.canBusId frame.busId.toNat
  Header.checkHolds (h := .can) CanSlot.canIdentifier frame.identifier.toNat
  checkMessageLength frame.size

/-- The fields in which the two formats agree. -/
def sharedFieldWrites (frame : CanFrame) : List Write :=
  let flag (flag : CanFlags) : Nat := (frame.flags.contains flag).toNat
  [.slot (h := .can) CanSlot.msgType frame.format.type.raw.toNat,
    .slot (h := .can) CanSlot.msgLength (frame.size / 4),
    .slot (h := .can) CanSlot.pad frame.padding,
    .slot (h := .can) CanSlot.rtr (flag .rtr),
    .slot (h := .can) CanSlot.eff (flag .eff),
    .slot (h := .can) CanSlot.brs (flag .brs),
    .slot (h := .can) CanSlot.fdf (flag .fdf),
    .slot (h := .can) CanSlot.esi (flag .esi),
    .slot (h := .can) CanSlot.canBusId frame.busId.toNat]

/-- The fields for the timestamp, left out if there is none. -/
def timestampWrites (frame : CanFrame) : List Write :=
  match frame.timestamp with
  | some time =>
    [.slot (h := .can) CanSlot.mtv 1,
      .slot (h := .can) CanSlot.messageTimestampHi (WideValue.hi time),
      .slot (h := .can) CanSlot.messageTimestampLo (WideValue.lo time)]
  | none => []

/-- The fields in which the two formats differ. -/
def ownFieldWrites (frame : CanFrame) : List Write :=
  if frame.brief then
    [.slot (h := .canBrief) CanBriefSlot.canIdentifier frame.identifier.toNat]
  else
    frame.timestampWrites ++
      [.slot (h := .can) CanSlot.canIdentifier frame.identifier.toNat]

/-- The message, cleared first, then filled with payload and fields. -/
def writes (frame : CanFrame) : List Write :=
  [.clear frame.size, .copy frame.headerLength frame.payload] ++
    (frame.sharedFieldWrites ++ frame.ownFieldWrites)

instance : WireForm CanFrame where
  size := size
  check := check
  write? frame buf := (Write.run? frame.writes buf).map fun out ↦ (out, frame.size)

end CanFrame

end Avtp.Acf
