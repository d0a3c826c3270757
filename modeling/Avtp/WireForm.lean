import Avtp.Write

/-!
# Values with a wire form

A value that can be sent knows three things: how many octets it takes, whether every part of it fits
into the field meant for it, and how it is written to the front of a buffer. `encodeInto` puts them
together. It first checks the value, then the buffer, and only then writes, so a failure leaves the
buffer as it was.

The check is about fit alone. It does not ask whether a message makes sense to its receiver.
-/

namespace Avtp

/-- Reasons why a value has no wire form. -/
inductive StructureError where
  /-- A part of the value needs more bits than its field has. -/
  | fieldOutOfRange (header : Header) (row : Row) (value : Nat)
  /-- A brief CAN message has no room for a timestamp. -/
  | timestampInBriefCan
  /-- Without the extended frame format a CAN identifier has 11 bits. -/
  | wideStandardIdentifier
  /-- Type, length and body of a message do not fill its last quadlet. -/
  | partialQuadlet
  deriving DecidableEq

/-- The wording of the reason. -/
def StructureError.message : StructureError → String
  | .fieldOutOfRange header row value =>
    s!"cannot encode structure: {header.name}.{row.label} value {Text.decimal value} " ++
      s!"exceeds {Text.decimal row.place.width} bits"
  | .timestampInBriefCan =>
    "cannot encode structure: abbreviated CAN message cannot carry a timestamp"
  | .wideStandardIdentifier =>
    "cannot encode structure: standard CAN identifier exceeds 11 bits"
  | .partialQuadlet =>
    "cannot encode structure: ACF message must be a whole number of quadlets"

/-- Reasons why encoding fails. -/
inductive EncodeError where
  /-- The value has no wire form. -/
  | invalidStructure (reason : StructureError)
  /-- The buffer is shorter than the wire form. -/
  | bufferTooSmall (required : Nat)
  deriving DecidableEq

/-- The wording of the reason. -/
def EncodeError.message : EncodeError → String
  | .invalidStructure reason => reason.message
  | .bufferTooSmall required => s!"buffer too small: required {Text.decimal required}"

/-- The value fits into the field of a header. -/
def Header.checkHolds {h : Header} (slot : h.Slot) (value : Nat) : Except StructureError Unit :=
  if (Header.place slot).Holds value then .ok ()
  else .error (.fieldOutOfRange h (Header.row slot) value)

/-- A type whose values can be sent. -/
class WireForm (α : Type) where
  /-- The number of octets on the wire. -/
  size : α → Nat
  /-- Every part fits into its field. -/
  check : α → Except StructureError Unit
  /-- Writes the value to the front of a buffer and counts the octets, `none` if a write is refused.
  -/
  write? : α → List UInt8 → Option (List UInt8 × Nat)

namespace WireForm

variable {α : Type} [WireForm α]

/-- Writes a value to the front of a buffer. The result is the number of octets written or the
reason why nothing was, together with the buffer afterwards. No write of a checked value to a buffer
that is large enough is refused, so the last case stands for nothing that happens. -/
def encodeInto (value : α) (buf : List UInt8) : Except EncodeError Nat × List UInt8 :=
  match check value with
  | .error reason => (.error (.invalidStructure reason), buf)
  | .ok () =>
    if buf.length < size value then (.error (.bufferTooSmall (size value)), buf)
    else
      match write? value buf with
      | some (out, count) => (.ok count, out)
      | none => (.error (.bufferTooSmall (size value)), buf)

/-- The wire form alone, in a buffer of its own. -/
def encode (value : α) : Except EncodeError (List UInt8) :=
  match encodeInto value (List.replicate (size value) 0) with
  | (.ok _, out) => .ok out
  | (.error reason, _) => .error reason

end WireForm

end Avtp
