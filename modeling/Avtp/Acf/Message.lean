import Avtp.Acf.LinFrame
import Avtp.Acf.Walk

/-!
# ACF messages as values

A message is a CAN frame, a LIN frame, or a body of octets under a type that has no value of its own
here. The body is everything behind type and length; it is sent as it is, so it must end with a
quadlet.

Unlike the frames, a body brings all of its octets with it. Writing it clears nothing: body, type
and length together cover the whole message.

A sequence of messages is written by giving each message what the ones before it have left of the
buffer.
-/

namespace Avtp.Acf

/-- An ACF message. -/
inductive Message where
  | can (frame : CanFrame)
  | lin (frame : LinFrame)
  /-- A message as octets behind type and length. -/
  | other (type : MessageType) (body : List UInt8)
  deriving DecidableEq

namespace Message

/-! ### From the wire -/

/-- The value of a message under its header. -/
def ofTyped : TypedMessage → Message
  | .can view => .can (.ofView view)
  | .canBrief view => .can (.ofBriefView view)
  | .lin view => .lin (.ofView view)
  | .other view => .other view.msgType view.payload

/-- The value of a message found by a walk. -/
def ofView? (view : AcfView) : Except ViewError Message :=
  (TypedMessage.ofView? view).map ofTyped

/-- The value of an item of a walk. -/
def ofItem? : Except LayoutError AcfView → Except ViewError Message
  | .ok view => ofView? view
  | .error fault => .error (.ofLayout fault)

/-- All messages of a payload, or the first fault in it. -/
def ofPayload? (payload : List UInt8) : Except ViewError (List Message) :=
  (Walk.start payload).items.mapM ofItem?

/-! ### To the wire -/

/-- The length of the message. -/
def size : Message → Nat
  | .can frame => frame.size
  | .lin frame => frame.size
  | .other _ body => 2 + body.length

/-- Everything fits into its field. A body is checked for its type first, then for ending with a
quadlet, then for its length. -/
def check : Message → Except StructureError Unit
  | .can frame => frame.check
  | .lin frame => frame.check
  | .other type body => do
    Header.checkHolds (h := .acf) AcfSlot.msgType type.raw.toNat
    let length := size (.other type body)
    if length < Header.size .acf ∨ length % 4 ≠ 0 then
      throw .partialQuadlet
    checkMessageLength length

/-- The writes that put a body under its type and length. -/
def bodyWrites (type : MessageType) (body : List UInt8) : List Write :=
  [.copy 2 body,
    .slot (h := .acf) AcfSlot.msgType type.raw.toNat,
    .slot (h := .acf) AcfSlot.msgLength (size (.other type body) / 4)]

/-- The writes that put the message to the front of a buffer. -/
def writes : Message → List Write
  | .can frame => frame.writes
  | .lin frame => frame.writes
  | .other type body => bodyWrites type body

instance : WireForm Message where
  size := size
  check := check
  write? message buf := (Write.run? message.writes buf).map fun out ↦ (out, message.size)

/-! ### Sequences -/

/-- The length of a sequence of messages. -/
def totalSize : List Message → Nat
  | [] => 0
  | message :: messages => message.size + totalSize messages

/-- Every message fits; the first one that does not gives the reason. -/
def checkAll (messages : List Message) : Except StructureError Unit := messages.forM check

/-- Writes messages one behind the other and counts the octets. -/
def writeAll? : List Message → List UInt8 → Option (List UInt8 × Nat)
  | [], buf => some (buf, 0)
  | message :: messages, buf => do
    let (out, count) ← WireForm.write? message buf
    let (front, rest) ← Octets.split? out count
    let (out, total) ← writeAll? messages rest
    return (front ++ out, count + total)

end Message

end Avtp.Acf
