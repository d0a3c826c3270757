import Avtp.Text.Numeral

/-!
# Types of ACF messages

A control stream carries messages of the AVTP control format, each with a seven-bit type. Twelve
types are assigned to buses and sensors, the eight numbers from 0x78 to 0x7F are left to users, all
others are reserved.

As with subtypes, a value built by hand may carry any octet as `user` or `other`; reading a number
with `ofRaw` always gives the assigned name, `user` exactly on the user range, and `other` on the
rest.
-/

namespace Avtp.Acf

/-- The type of an ACF message. -/
inductive MessageType where
  | flexRay
  | can
  /-- CAN without a timestamp. -/
  | canBrief
  | lin
  | most
  /-- General purpose control. -/
  | gpc
  | serial
  | parallel
  | sensor
  | sensorBrief
  | aecp
  | ancillary
  /-- A type left to users. -/
  | user (raw : UInt8)
  /-- Any number, meant for the reserved ones. -/
  | other (raw : UInt8)
  deriving DecidableEq

namespace MessageType

/-- The types that have a name. -/
def assigned : List MessageType :=
  [flexRay, can, canBrief, lin, most, gpc, serial, parallel, sensor, sensorBrief, aecp, ancillary]

/-- The number on the wire. -/
def raw : MessageType → UInt8
  | flexRay => 0x00
  | can => 0x01
  | canBrief => 0x02
  | lin => 0x03
  | most => 0x04
  | gpc => 0x05
  | serial => 0x06
  | parallel => 0x07
  | sensor => 0x08
  | sensorBrief => 0x09
  | aecp => 0x0A
  | ancillary => 0x0B
  | user raw => raw
  | other raw => raw

/-- The type with the given number. -/
def ofRaw (raw : UInt8) : MessageType :=
  (assigned.find? fun type ↦ type.raw == raw).getD
    (if 0x78 ≤ raw ∧ raw ≤ 0x7F then user raw else other raw)

/-- Naming a number does not change it. -/
@[simp] theorem raw_ofRaw (number : UInt8) : (ofRaw number).raw = number := by
  unfold ofRaw
  cases h : assigned.find? fun type ↦ type.raw == number with
  | none => simp only [Option.getD_none]; split <;> rfl
  | some type => simpa using List.find?_some h

/-- The name of a message type as shown in reports. -/
def describe : MessageType → String
  | flexRay => "FlexRay"
  | can => "Can"
  | canBrief => "CanBrief"
  | lin => "Lin"
  | most => "Most"
  | gpc => "Gpc"
  | serial => "Serial"
  | parallel => "Parallel"
  | sensor => "Sensor"
  | sensorBrief => "SensorBrief"
  | aecp => "Aecp"
  | ancillary => "Ancillary"
  | user raw => s!"User({Text.decimal raw.toNat})"
  | other raw => s!"Other({Text.decimal raw.toNat})"

end MessageType

end Avtp.Acf
