import Avtp.Text.Numeral

/-!
# Subtypes of AVTP data units

The first octet of every AVTP data unit is its subtype and decides which format the rest has. The
assigned subtypes have names; every other number is kept as it is.

A subtype that was read from the wire is `other` only if its number is unassigned. One that was
built by hand can be `other` with an assigned number. Both are sent as the number they carry, but
only `ofRaw` gives the assigned name back.
-/

namespace Avtp

/-- The version that every data unit of this library carries. -/
def protocolVersion : UInt8 := 0

/-- The subtype of an AVTP data unit. -/
inductive PduSubtype where
  /-- IEC 61883/IIDC format. -/
  | iec61883Iidc
  /-- MMA streams. -/
  | mmaStream
  /-- Audio format. -/
  | aaf
  /-- Compressed video format. -/
  | cvf
  /-- Clock reference format. -/
  | crf
  /-- Time-synchronous control format. -/
  | tscf
  /-- SDI video format. -/
  | svf
  /-- Raw video format. -/
  | rvf
  /-- AES encrypted format, continuous. -/
  | aefContinuous
  /-- Vendor specific format stream. -/
  | vsfStream
  /-- Experimental format stream. -/
  | efStream
  /-- Non-time-synchronous control format. -/
  | ntscf
  /-- ECC signed control format. -/
  | escf
  /-- ECC encrypted control format. -/
  | eecf
  /-- AES encrypted format, discrete. -/
  | aefDiscrete
  /-- AVDECC discovery protocol. -/
  | adp
  /-- AVDECC enumeration and control protocol. -/
  | aecp
  /-- AVDECC connection management protocol. -/
  | acmp
  /-- MAAP protocol. -/
  | maap
  /-- Experimental format control. -/
  | efControl
  /-- Any number, meant for those without a name. -/
  | other (raw : UInt8)
  deriving DecidableEq

namespace PduSubtype

/-- The subtypes that have a name. -/
def assigned : List PduSubtype :=
  [iec61883Iidc, mmaStream, aaf, cvf, crf, tscf, svf, rvf, aefContinuous, vsfStream, efStream,
    ntscf, escf, eecf, aefDiscrete, adp, aecp, acmp, maap, efControl]

/-- The number on the wire. -/
def raw : PduSubtype → UInt8
  | iec61883Iidc => 0x00
  | mmaStream => 0x01
  | aaf => 0x02
  | cvf => 0x03
  | crf => 0x04
  | tscf => 0x05
  | svf => 0x06
  | rvf => 0x07
  | aefContinuous => 0x6E
  | vsfStream => 0x6F
  | efStream => 0x7F
  | ntscf => 0x82
  | escf => 0xEC
  | eecf => 0xED
  | aefDiscrete => 0xEE
  | adp => 0xFA
  | aecp => 0xFB
  | acmp => 0xFC
  | maap => 0xFE
  | efControl => 0xFF
  | other raw => raw

/-- The subtype with the given number, under its name if it has one. -/
def ofRaw (raw : UInt8) : PduSubtype :=
  (assigned.find? fun subtype ↦ subtype.raw == raw).getD (other raw)

/-- Naming a number does not change it. -/
@[simp] theorem raw_ofRaw (number : UInt8) : (ofRaw number).raw = number := by
  unfold ofRaw
  cases h : assigned.find? fun subtype ↦ subtype.raw == number with
  | none => rfl
  | some subtype => simpa using List.find?_some h

/-- The name of a subtype as shown in reports. -/
def describe : PduSubtype → String
  | iec61883Iidc => "Iec61883Iidc"
  | mmaStream => "MmaStream"
  | aaf => "Aaf"
  | cvf => "Cvf"
  | crf => "Crf"
  | tscf => "Tscf"
  | svf => "Svf"
  | rvf => "Rvf"
  | aefContinuous => "AefContinuous"
  | vsfStream => "VsfStream"
  | efStream => "EfStream"
  | ntscf => "Ntscf"
  | escf => "Escf"
  | eecf => "Eecf"
  | aefDiscrete => "AefDiscrete"
  | adp => "Adp"
  | aecp => "Aecp"
  | acmp => "Acmp"
  | maap => "Maap"
  | efControl => "EfControl"
  | other raw => s!"Other({Text.decimal raw.toNat})"

end PduSubtype

end Avtp
