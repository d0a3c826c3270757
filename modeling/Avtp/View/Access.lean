import Avtp.View
import Avtp.WideValue
import Avtp.Acf.CanFlags

/-!
# Named fields of a view

What each kind of view has to say, under the names of the domain: truth values for flags, whole
64-bit values for split fields, and flag sets for CAN messages.
-/

namespace Avtp

/-- The common header in place. -/
abbrev CommonView := View .common

/-- The UDP encapsulation header in place. -/
abbrev UdpView := View .udp

/-- An NTSCF data unit in place. -/
abbrev NtscfView := View .ntscf

/-- A TSCF data unit in place. -/
abbrev TscfView := View .tscf

/-- An ACF message of any type in place. -/
abbrev AcfView := View .acf

/-- A CAN message in place. -/
abbrev CanView := View .can

/-- A brief CAN message in place. -/
abbrev CanBriefView := View .canBrief

/-- A LIN message in place. -/
abbrev LinView := View .lin

/-! ### Headers in front of the payload -/

namespace CommonView

/-- The number of the subtype. -/
def rawSubtype (view : CommonView) : UInt8 := .ofNat (view.read CommonSlot.subtype)

/-- The subtype under its name. -/
def subtype (view : CommonView) : PduSubtype := .ofRaw view.rawSubtype

/-- The flag that belongs to the format. -/
def h (view : CommonView) : Bool := view.flag CommonSlot.h

/-- The version of the protocol. -/
def version (view : CommonView) : UInt8 := .ofNat (view.read CommonSlot.version)

end CommonView

/-- The sequence number of the encapsulation. -/
def UdpView.sequenceNumber (view : UdpView) : UInt32 := .ofNat (view.read UdpSlot.sequenceNumber)

namespace NtscfView

/-- Stream id valid. -/
def sv (view : NtscfView) : Bool := view.flag NtscfSlot.sv

/-- The version of the protocol. -/
def version (view : NtscfView) : UInt8 := .ofNat (view.read NtscfSlot.version)

/-- The reserved bit. -/
def r (view : NtscfView) : Bool := view.flag NtscfSlot.r

/-- The length field: octets behind the header. -/
def dataLength (view : NtscfView) : Nat := view.read NtscfSlot.dataLength

/-- The sequence number. -/
def sequenceNum (view : NtscfView) : UInt8 := .ofNat (view.read NtscfSlot.sequenceNum)

/-- The stream id, meaningful if `sv` is set. -/
def streamId (view : NtscfView) : UInt64 :=
  WideValue.join (view.read NtscfSlot.streamIdHi) (view.read NtscfSlot.streamIdLo)

end NtscfView

namespace TscfView

/-- Stream id valid. -/
def sv (view : TscfView) : Bool := view.flag TscfSlot.sv

/-- The version of the protocol. -/
def version (view : TscfView) : UInt8 := .ofNat (view.read TscfSlot.version)

/-- Media clock restart. -/
def mr (view : TscfView) : Bool := view.flag TscfSlot.mr

/-- Timestamp valid. -/
def tv (view : TscfView) : Bool := view.flag TscfSlot.tv

/-- The sequence number. -/
def sequenceNum (view : TscfView) : UInt8 := .ofNat (view.read TscfSlot.sequenceNum)

/-- Timestamp uncertain. -/
def tu (view : TscfView) : Bool := view.flag TscfSlot.tu

/-- The stream id, meaningful if `sv` is set. -/
def streamId (view : TscfView) : UInt64 :=
  WideValue.join (view.read TscfSlot.streamIdHi) (view.read TscfSlot.streamIdLo)

/-- The presentation time, meaningful if `tv` is set. -/
def avtpTimestamp (view : TscfView) : UInt32 := .ofNat (view.read TscfSlot.avtpTimestamp)

/-- Information for gateways. -/
def gatewayInfo (view : TscfView) : UInt32 := .ofNat (view.read TscfSlot.gatewayInfo)

/-- The length field: octets behind the header. -/
def dataLength (view : TscfView) : Nat := view.read TscfSlot.dataLength

end TscfView

/-! ### Messages -/

namespace AcfView

/-- The number of the message type. -/
def rawMsgType (view : AcfView) : UInt8 := .ofNat (view.read AcfSlot.msgType)

/-- The message type under its name. -/
def msgType (view : AcfView) : Acf.MessageType := .ofRaw view.rawMsgType

/-- The length field, in quadlets. -/
def msgLength (view : AcfView) : Nat := view.read AcfSlot.msgLength

end AcfView

namespace CanView

/-- The length field, in quadlets. -/
def msgLength (view : CanView) : Nat := view.read CanSlot.msgLength

/-- The pad count. -/
def pad (view : CanView) : Nat := view.read CanSlot.pad

/-- Message timestamp valid. -/
def mtv (view : CanView) : Bool := view.flag CanSlot.mtv

/-- Remote transmission request. -/
def rtr (view : CanView) : Bool := view.flag CanSlot.rtr

/-- Extended frame format. -/
def eff (view : CanView) : Bool := view.flag CanSlot.eff

/-- Bit rate switch. -/
def brs (view : CanView) : Bool := view.flag CanSlot.brs

/-- Flexible data rate format. -/
def fdf (view : CanView) : Bool := view.flag CanSlot.fdf

/-- Error state indicator. -/
def esi (view : CanView) : Bool := view.flag CanSlot.esi

/-- The CAN bus. -/
def canBusId (view : CanView) : UInt8 := .ofNat (view.read CanSlot.canBusId)

/-- The time of the message, meaningful if `mtv` is set. -/
def messageTimestamp (view : CanView) : UInt64 :=
  WideValue.join (view.read CanSlot.messageTimestampHi) (view.read CanSlot.messageTimestampLo)

/-- The CAN identifier. -/
def canIdentifier (view : CanView) : UInt32 := .ofNat (view.read CanSlot.canIdentifier)

end CanView

namespace CanBriefView

/-- The length field, in quadlets. -/
def msgLength (view : CanBriefView) : Nat := view.read CanBriefSlot.msgLength

/-- The pad count. -/
def pad (view : CanBriefView) : Nat := view.read CanBriefSlot.pad

/-- Message timestamp valid. -/
def mtv (view : CanBriefView) : Bool := view.flag CanBriefSlot.mtv

/-- Remote transmission request. -/
def rtr (view : CanBriefView) : Bool := view.flag CanBriefSlot.rtr

/-- Extended frame format. -/
def eff (view : CanBriefView) : Bool := view.flag CanBriefSlot.eff

/-- Bit rate switch. -/
def brs (view : CanBriefView) : Bool := view.flag CanBriefSlot.brs

/-- Flexible data rate format. -/
def fdf (view : CanBriefView) : Bool := view.flag CanBriefSlot.fdf

/-- Error state indicator. -/
def esi (view : CanBriefView) : Bool := view.flag CanBriefSlot.esi

/-- The CAN bus. -/
def canBusId (view : CanBriefView) : UInt8 := .ofNat (view.read CanBriefSlot.canBusId)

/-- The CAN identifier. -/
def canIdentifier (view : CanBriefView) : UInt32 := .ofNat (view.read CanBriefSlot.canIdentifier)

end CanBriefView

namespace LinView

/-- The length field, in quadlets. -/
def msgLength (view : LinView) : Nat := view.read LinSlot.msgLength

/-- The pad count. -/
def pad (view : LinView) : Nat := view.read LinSlot.pad

/-- Message timestamp valid. -/
def mtv (view : LinView) : Bool := view.flag LinSlot.mtv

/-- The LIN bus. -/
def linBusId (view : LinView) : UInt8 := .ofNat (view.read LinSlot.linBusId)

/-- The LIN identifier. -/
def linIdentifier (view : LinView) : UInt8 := .ofNat (view.read LinSlot.linIdentifier)

/-- The time of the message, meaningful if `mtv` is set. -/
def messageTimestamp (view : LinView) : UInt64 :=
  WideValue.join (view.read LinSlot.messageTimestampHi) (view.read LinSlot.messageTimestampLo)

end LinView

/-! ### CAN flags -/

/-- The flags of a CAN message. -/
def CanView.flags (view : CanView) : Acf.CanFlags :=
  .ofBools view.mtv view.rtr view.eff view.brs view.fdf view.esi

/-- The flags of a brief CAN message. -/
def CanBriefView.flags (view : CanBriefView) : Acf.CanFlags :=
  .ofBools view.mtv view.rtr view.eff view.brs view.fdf view.esi

end Avtp
