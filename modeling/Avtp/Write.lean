import Avtp.Header

/-!
# Writes

Encoding is a list of writes to a buffer that somebody else provides and that may hold anything.
There are three kinds: clearing the front, copying octets to a position, and setting a field.

A write is strict. It refuses a buffer that does not reach far enough, and it refuses a value that
its field does not hold; nothing is cut off silently and nothing grows. An encoder that has checked
its value and its buffer is right exactly if none of its writes is refused.
-/

namespace Avtp

/-- One write to a buffer. -/
inductive Write where
  /-- Sets the first `count` octets to zero. -/
  | clear (count : Nat)
  /-- Replaces the octets from `start` on. -/
  | copy (start : Nat) (content : List UInt8)
  /-- Sets a field. -/
  | field (place : BitField) (value : Nat)
  deriving DecidableEq

namespace Write

/-- The buffer after the write, `none` if it is refused. -/
def perform? : Write → List UInt8 → Option (List UInt8)
  | .clear count, buf =>
    (Octets.split? buf count).map fun parts ↦ List.replicate count 0 ++ parts.2
  | .copy start content, buf =>
    (Octets.split? buf (start + content.length)).map fun parts ↦
      parts.1.take start ++ (content ++ parts.2)
  | .field place value, buf => if place.Holds value then place.write? buf value else none

/-- The buffer after a list of writes, `none` as soon as one is refused. -/
def run? (writes : List Write) (buf : List UInt8) : Option (List UInt8) :=
  writes.foldlM (fun buf write ↦ write.perform? buf) buf

/-- The write that sets a field of a header. -/
def slot {h : Header} (slot : h.Slot) (value : Nat) : Write := .field (Header.place slot) value

end Write

end Avtp
