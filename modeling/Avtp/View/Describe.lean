import Avtp.View.Access

/-!
# Views in one line

The texts by which logs and reports show a view: its named fields in wire order, with stream ids in
hexadecimal and payloads octet by octet. A message of unknown format shows only the length of its
body.
-/

namespace Avtp.View

/-- A flag as a named field. -/
def flagField (name : String) (value : Bool) : String × String := (name, Text.truth value)

/-- A number as a named field. -/
def numberField (name : String) (value : Nat) : String × String := (name, Text.decimal value)

/-- A stream id as a named field. -/
def streamIdField (value : UInt64) : String × String :=
  ("stream_id", s!"0x{Text.hex 16 value.toNat}")

/-- The view in one line. -/
def describe : {h : Header} → View h → String
  | .common, view => describeCommon view
  | .udp, view => describeUdp view
  | .ntscf, view => describeNtscf view
  | .tscf, view => describeTscf view
  | .acf, view => describeAcf view
  | .can, view => describeCan view
  | .canBrief, view => describeCanBrief view
  | .lin, view => describeLin view
where
  /-- The common header in one line. -/
  describeCommon (view : CommonView) : String :=
    Text.record "CommonHeaderView"
      [("subtype", view.subtype.describe), flagField "h" view.h,
        numberField "version" view.version.toNat]
  /-- The UDP encapsulation header in one line. -/
  describeUdp (view : UdpView) : String :=
    Text.record "UdpEncapsulationView"
      [numberField "encapsulation_seq_no" view.sequenceNumber.toNat]
  /-- The header of an NTSCF data unit in one line. -/
  describeNtscf (view : NtscfView) : String :=
    Text.record "NtscfView"
      [flagField "sv" view.sv, numberField "version" view.version.toNat, flagField "r" view.r,
        numberField "data_length" view.dataLength,
        numberField "sequence_num" view.sequenceNum.toNat, streamIdField view.streamId]
  /-- The header of a TSCF data unit in one line. -/
  describeTscf (view : TscfView) : String :=
    Text.record "TscfView"
      [flagField "sv" view.sv, numberField "version" view.version.toNat, flagField "mr" view.mr,
        flagField "tv" view.tv, numberField "sequence_num" view.sequenceNum.toNat,
        flagField "tu" view.tu, streamIdField view.streamId,
        numberField "avtp_timestamp" view.avtpTimestamp.toNat,
        numberField "gateway_info" view.gatewayInfo.toNat,
        numberField "stream_data_length" view.dataLength]
  /-- A message of any type in one line. -/
  describeAcf (view : AcfView) : String :=
    Text.record "AcfCommonView"
      [("msg_type", view.msgType.describe), numberField "msg_length" view.msgLength,
        numberField "body_len" view.payload.length]
  /-- A CAN message in one line. -/
  describeCan (view : CanView) : String :=
    Text.record "AcfCanView"
      [numberField "msg_length" view.msgLength, numberField "pad" view.pad,
        ("flags", view.flags.describe), numberField "can_bus_id" view.canBusId.toNat,
        numberField "message_timestamp" view.messageTimestamp.toNat,
        numberField "can_identifier" view.canIdentifier.toNat,
        ("payload", Text.octetList view.payload)]
  /-- A brief CAN message in one line. -/
  describeCanBrief (view : CanBriefView) : String :=
    Text.record "AcfCanBriefView"
      [numberField "msg_length" view.msgLength, numberField "pad" view.pad,
        ("flags", view.flags.describe), numberField "can_bus_id" view.canBusId.toNat,
        numberField "can_identifier" view.canIdentifier.toNat,
        ("payload", Text.octetList view.payload)]
  /-- A LIN message in one line. -/
  describeLin (view : LinView) : String :=
    Text.record "AcfLinView"
      [numberField "msg_length" view.msgLength, numberField "pad" view.pad,
        flagField "mtv" view.mtv, numberField "lin_bus_id" view.linBusId.toNat,
        numberField "lin_identifier" view.linIdentifier.toNat,
        numberField "message_timestamp" view.messageTimestamp.toNat,
        ("payload", Text.octetList view.payload)]

/-- A message found by a walk, in one line. -/
def describeMessage (view : AcfView) : String :=
  Text.record "AcfMessage" [("view", view.describe)]

end Avtp.View
