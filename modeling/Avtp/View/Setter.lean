import Avtp.View.Access

/-!
# Named setters

A setter is data: which named property of a header gets which value. What a setter does to the
octets is its `Assignment`. A value whose type is wider than the field is *checked*, and refused if
the field does not hold it. A value whose type is exactly as wide as its field, or as its two
fields, is written directly.

A brief CAN message has no setter for the timestamp, and none for the flag that announces one.
-/

namespace Avtp

/-- What a setter does to the fields of a header. -/
inductive Assignment (h : Header) where
  /-- One field gets a value if it holds it. -/
  | checked (slot : h.Slot) (value : Nat)
  /-- Fields get values that they hold, one after the other. -/
  | direct (values : List (h.Slot × Nat))

namespace Assignment

variable {h : Header}

/-- A one-bit field. -/
def flag (slot : h.Slot) (value : Bool) : Assignment h := .direct [(slot, value.toNat)]

/-- A field that is as wide as its value. -/
def exact (slot : h.Slot) (value : Nat) : Assignment h := .direct [(slot, value)]

/-- The two fields of a 64-bit value. -/
def wide (hi lo : h.Slot) (value : UInt64) : Assignment h :=
  .direct [(hi, WideValue.hi value), (lo, WideValue.lo value)]

/-- Carries out the assignment. -/
def apply (assignment : Assignment h) (view : View h) : Except FieldError (View h) :=
  match assignment with
  | .checked slot value => view.assign slot value
  | .direct values => .ok (values.foldl (fun view value ↦ view.write value.1 value.2) view)

end Assignment

/-! ### The setters of each header -/

/-- Setters of the common header. -/
inductive CommonSetter where
  | rawSubtype (value : UInt8)
  | h (value : Bool)
  | version (value : UInt8)
  | subtype (value : PduSubtype)

/-- The effect of a setter of the common header. -/
def CommonSetter.assignment : CommonSetter → Assignment .common
  | rawSubtype value => .exact CommonSlot.subtype value.toNat
  | h value => .flag CommonSlot.h value
  | version value => .checked CommonSlot.version value.toNat
  | subtype value => .exact CommonSlot.subtype value.raw.toNat

/-- Setters of the UDP encapsulation header. -/
inductive UdpSetter where
  | sequenceNumber (value : UInt32)

/-- The effect of a setter of the UDP encapsulation header. -/
def UdpSetter.assignment : UdpSetter → Assignment .udp
  | sequenceNumber value => .exact UdpSlot.sequenceNumber value.toNat

/-- Setters of an NTSCF data unit. -/
inductive NtscfSetter where
  | sv (value : Bool)
  | version (value : UInt8)
  | dataLength (value : UInt16)
  | sequenceNum (value : UInt8)
  | streamId (value : UInt64)

/-- The effect of a setter of an NTSCF data unit. -/
def NtscfSetter.assignment : NtscfSetter → Assignment .ntscf
  | sv value => .flag NtscfSlot.sv value
  | version value => .checked NtscfSlot.version value.toNat
  | dataLength value => .checked NtscfSlot.dataLength value.toNat
  | sequenceNum value => .exact NtscfSlot.sequenceNum value.toNat
  | streamId value => .wide NtscfSlot.streamIdHi NtscfSlot.streamIdLo value

/-- Setters of a TSCF data unit. -/
inductive TscfSetter where
  | sv (value : Bool)
  | version (value : UInt8)
  | mr (value : Bool)
  | tv (value : Bool)
  | sequenceNum (value : UInt8)
  | tu (value : Bool)
  | streamId (value : UInt64)
  | avtpTimestamp (value : UInt32)
  | gatewayInfo (value : UInt32)
  | dataLength (value : UInt16)

/-- The effect of a setter of a TSCF data unit. -/
def TscfSetter.assignment : TscfSetter → Assignment .tscf
  | sv value => .flag TscfSlot.sv value
  | version value => .checked TscfSlot.version value.toNat
  | mr value => .flag TscfSlot.mr value
  | tv value => .flag TscfSlot.tv value
  | sequenceNum value => .exact TscfSlot.sequenceNum value.toNat
  | tu value => .flag TscfSlot.tu value
  | streamId value => .wide TscfSlot.streamIdHi TscfSlot.streamIdLo value
  | avtpTimestamp value => .exact TscfSlot.avtpTimestamp value.toNat
  | gatewayInfo value => .exact TscfSlot.gatewayInfo value.toNat
  | dataLength value => .exact TscfSlot.dataLength value.toNat

/-- Setters of an ACF message of any type. -/
inductive AcfSetter where
  | rawMsgType (value : UInt8)
  | msgLength (value : UInt16)

/-- The effect of a setter of an ACF message of any type. -/
def AcfSetter.assignment : AcfSetter → Assignment .acf
  | rawMsgType value => .checked AcfSlot.msgType value.toNat
  | msgLength value => .checked AcfSlot.msgLength value.toNat

/-- Setters of a CAN message. -/
inductive CanSetter where
  | pad (value : UInt8)
  | mtv (value : Bool)
  | rtr (value : Bool)
  | eff (value : Bool)
  | brs (value : Bool)
  | fdf (value : Bool)
  | esi (value : Bool)
  | canBusId (value : UInt8)
  | messageTimestamp (value : UInt64)
  | canIdentifier (value : UInt32)
  /-- All flags at once; bits that name no flag are ignored. -/
  | flags (value : Acf.CanFlags)

/-- The effect of a setter of a CAN message. -/
def CanSetter.assignment : CanSetter → Assignment .can
  | pad value => .checked CanSlot.pad value.toNat
  | mtv value => .flag CanSlot.mtv value
  | rtr value => .flag CanSlot.rtr value
  | eff value => .flag CanSlot.eff value
  | brs value => .flag CanSlot.brs value
  | fdf value => .flag CanSlot.fdf value
  | esi value => .flag CanSlot.esi value
  | canBusId value => .checked CanSlot.canBusId value.toNat
  | messageTimestamp value => .wide CanSlot.messageTimestampHi CanSlot.messageTimestampLo value
  | canIdentifier value => .checked CanSlot.canIdentifier value.toNat
  | flags value => .direct
      [(CanSlot.mtv, (value.contains .mtv).toNat), (CanSlot.rtr, (value.contains .rtr).toNat),
        (CanSlot.eff, (value.contains .eff).toNat), (CanSlot.brs, (value.contains .brs).toNat),
        (CanSlot.fdf, (value.contains .fdf).toNat), (CanSlot.esi, (value.contains .esi).toNat)]

/-- Setters of a brief CAN message. -/
inductive CanBriefSetter where
  | pad (value : UInt8)
  | rtr (value : Bool)
  | eff (value : Bool)
  | brs (value : Bool)
  | fdf (value : Bool)
  | esi (value : Bool)
  | canBusId (value : UInt8)
  | canIdentifier (value : UInt32)

/-- The effect of a setter of a brief CAN message. -/
def CanBriefSetter.assignment : CanBriefSetter → Assignment .canBrief
  | pad value => .checked CanBriefSlot.pad value.toNat
  | rtr value => .flag CanBriefSlot.rtr value
  | eff value => .flag CanBriefSlot.eff value
  | brs value => .flag CanBriefSlot.brs value
  | fdf value => .flag CanBriefSlot.fdf value
  | esi value => .flag CanBriefSlot.esi value
  | canBusId value => .checked CanBriefSlot.canBusId value.toNat
  | canIdentifier value => .checked CanBriefSlot.canIdentifier value.toNat

/-- Setters of a LIN message. -/
inductive LinSetter where
  | pad (value : UInt8)
  | mtv (value : Bool)
  | linBusId (value : UInt8)
  | linIdentifier (value : UInt8)
  | messageTimestamp (value : UInt64)

/-- The effect of a setter of a LIN message. -/
def LinSetter.assignment : LinSetter → Assignment .lin
  | pad value => .checked LinSlot.pad value.toNat
  | mtv value => .flag LinSlot.mtv value
  | linBusId value => .checked LinSlot.linBusId value.toNat
  | linIdentifier value => .exact LinSlot.linIdentifier value.toNat
  | messageTimestamp value => .wide LinSlot.messageTimestampHi LinSlot.messageTimestampLo value

/-! ### All headers alike -/

namespace Header

/-- The setters of a header. -/
@[reducible] def Setter : Header → Type
  | common => CommonSetter
  | udp => UdpSetter
  | ntscf => NtscfSetter
  | tscf => TscfSetter
  | acf => AcfSetter
  | can => CanSetter
  | canBrief => CanBriefSetter
  | lin => LinSetter

/-- The effect of a setter. -/
def assignment : {h : Header} → h.Setter → Assignment h
  | common => CommonSetter.assignment
  | udp => UdpSetter.assignment
  | ntscf => NtscfSetter.assignment
  | tscf => TscfSetter.assignment
  | acf => AcfSetter.assignment
  | can => CanSetter.assignment
  | canBrief => CanBriefSetter.assignment
  | lin => LinSetter.assignment

end Header

/-! ### Edits -/

/-- One change to a view. -/
inductive Edit (h : Header) where
  /-- A named setter. -/
  | set (setter : h.Setter)
  /-- A checked write to any field, the length fields included. -/
  | assign (slot : h.Slot) (value : Nat)
  /-- Octets written over the start of the payload. -/
  | payload (content : List UInt8)
  /-- Octets written over the start of the view, header included. -/
  | overwrite (content : List UInt8)

namespace Edit

variable {h : Header}

/-- The view after the change, or the reason why it was refused. -/
def apply (edit : Edit h) (view : View h) : Except FieldError (View h) :=
  match edit with
  | .set setter => (Header.assignment setter).apply view
  | .assign slot value => view.assign slot value
  | .payload content => .ok (view.writePayload content)
  | .overwrite content => .ok (view.writeOctets content)

/-- The view after the change; a refused change leaves it as it is. -/
def step (view : View h) (edit : Edit h) : View h :=
  match edit.apply view with
  | .ok edited => edited
  | .error _ => view

/-- The view after a sequence of changes. -/
def run (edits : List (Edit h)) (view : View h) : View h := edits.foldl step view

/-- The window after a sequence of changes to the view in it. -/
def runIn (edits : List (Edit h)) (window : Window h) : Window h :=
  edits.foldl (fun window edit ↦ window.replace (step window.view edit)) window

end Edit

end Avtp
