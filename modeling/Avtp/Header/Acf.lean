import Avtp.Header.Row

/-!
# The headers of ACF messages

Every ACF message starts with its type and its length in quadlets, the header included:

```text
 0                   1                   2                   3
 0 1 2 3 4 5 6 7 8 9 0 1 2 3 4 5 6 7 8 9 0 1 2 3 4 5 6 7 8 9 0 1
+-------------+-----------------+-------------------------------+
|    type     |     length      |       message specific        |
+-------------+-----------------+-------------------------------+
```

CAN and LIN messages go on with a pad count, the number of octets at the end of the message that
only fill up the last quadlet, and with what identifies the frame. A CAN message may carry a
timestamp; the brief form of it has no room for one.
-/

namespace Avtp

/-- The fields that all ACF messages have. -/
inductive AcfSlot where
  | msgType
  | msgLength
  deriving DecidableEq

namespace AcfSlot

/-- The fields in table order. -/
def all : List AcfSlot := [msgType, msgLength]

/-- The table of the header that all ACF messages have. -/
def row : AcfSlot → Row
  | msgType => ⟨"MsgType", "acf_msg_type", .mk 0 0 7⟩
  | msgLength => ⟨"MsgLength", "acf_msg_length", .mk 0 7 9⟩

end AcfSlot

/-- The fields of the CAN message header. -/
inductive CanSlot where
  | msgType
  | msgLength
  | pad
  | mtv
  | rtr
  | eff
  | brs
  | fdf
  | esi
  /-- Reserved. -/
  | rsv1
  | canBusId
  | messageTimestampHi
  | messageTimestampLo
  /-- Reserved. -/
  | rsv2
  | canIdentifier
  deriving DecidableEq

namespace CanSlot

/-- The fields in table order. -/
def all : List CanSlot :=
  [msgType, msgLength, pad, mtv, rtr, eff, brs, fdf, esi, rsv1, canBusId, messageTimestampHi,
    messageTimestampLo, rsv2, canIdentifier]

/-- The table of the CAN message header. -/
def row : CanSlot → Row
  | msgType => ⟨"MsgType", "acf_msg_type", .mk 0 0 7⟩
  | msgLength => ⟨"MsgLength", "acf_msg_length", .mk 0 7 9⟩
  | pad => ⟨"Pad", "pad", .mk 0 16 2⟩
  | mtv => ⟨"Mtv", "mtv", .mk 0 18 1⟩
  | rtr => ⟨"Rtr", "rtr", .mk 0 19 1⟩
  | eff => ⟨"Eff", "eff", .mk 0 20 1⟩
  | brs => ⟨"Brs", "brs", .mk 0 21 1⟩
  | fdf => ⟨"Fdf", "fdf", .mk 0 22 1⟩
  | esi => ⟨"Esi", "esi", .mk 0 23 1⟩
  | rsv1 => ⟨"Rsv1", "rsv1", .mk 0 24 3⟩
  | canBusId => ⟨"CanBusId", "can_bus_id", .mk 0 27 5⟩
  | messageTimestampHi => ⟨"MessageTimestampHi", "message_timestamp_hi", .mk 1 0 32⟩
  | messageTimestampLo => ⟨"MessageTimestampLo", "message_timestamp_lo", .mk 2 0 32⟩
  | rsv2 => ⟨"Rsv2", "rsv2", .mk 3 0 3⟩
  | canIdentifier => ⟨"CanIdentifier", "can_identifier", .mk 3 3 29⟩

end CanSlot

/-- The fields of the brief CAN message header. -/
inductive CanBriefSlot where
  | msgType
  | msgLength
  | pad
  | mtv
  | rtr
  | eff
  | brs
  | fdf
  | esi
  /-- Reserved. -/
  | rsv1
  | canBusId
  /-- Reserved. -/
  | rsv2
  | canIdentifier
  deriving DecidableEq

namespace CanBriefSlot

/-- The fields in table order. -/
def all : List CanBriefSlot :=
  [msgType, msgLength, pad, mtv, rtr, eff, brs, fdf, esi, rsv1, canBusId, rsv2, canIdentifier]

/-- The table of the brief CAN message header. -/
def row : CanBriefSlot → Row
  | msgType => ⟨"MsgType", "acf_msg_type", .mk 0 0 7⟩
  | msgLength => ⟨"MsgLength", "acf_msg_length", .mk 0 7 9⟩
  | pad => ⟨"Pad", "pad", .mk 0 16 2⟩
  | mtv => ⟨"Mtv", "mtv", .mk 0 18 1⟩
  | rtr => ⟨"Rtr", "rtr", .mk 0 19 1⟩
  | eff => ⟨"Eff", "eff", .mk 0 20 1⟩
  | brs => ⟨"Brs", "brs", .mk 0 21 1⟩
  | fdf => ⟨"Fdf", "fdf", .mk 0 22 1⟩
  | esi => ⟨"Esi", "esi", .mk 0 23 1⟩
  | rsv1 => ⟨"Rsv1", "rsv1", .mk 0 24 3⟩
  | canBusId => ⟨"CanBusId", "can_bus_id", .mk 0 27 5⟩
  | rsv2 => ⟨"Rsv2", "rsv2", .mk 1 0 3⟩
  | canIdentifier => ⟨"CanIdentifier", "can_identifier", .mk 1 3 29⟩

end CanBriefSlot

/-- The fields of the LIN message header. -/
inductive LinSlot where
  | msgType
  | msgLength
  | pad
  | mtv
  | linBusId
  | linIdentifier
  | messageTimestampHi
  | messageTimestampLo
  deriving DecidableEq

namespace LinSlot

/-- The fields in table order. -/
def all : List LinSlot :=
  [msgType, msgLength, pad, mtv, linBusId, linIdentifier, messageTimestampHi, messageTimestampLo]

/-- The table of the LIN message header. -/
def row : LinSlot → Row
  | msgType => ⟨"MsgType", "acf_msg_type", .mk 0 0 7⟩
  | msgLength => ⟨"MsgLength", "acf_msg_length", .mk 0 7 9⟩
  | pad => ⟨"Pad", "pad", .mk 0 16 2⟩
  | mtv => ⟨"Mtv", "mtv", .mk 0 18 1⟩
  | linBusId => ⟨"LinBusId", "lin_bus_id", .mk 0 19 5⟩
  | linIdentifier => ⟨"LinIdentifier", "lin_identifier", .mk 0 24 8⟩
  | messageTimestampHi => ⟨"MessageTimestampHi", "message_timestamp_hi", .mk 1 0 32⟩
  | messageTimestampLo => ⟨"MessageTimestampLo", "message_timestamp_lo", .mk 2 0 32⟩

end LinSlot

end Avtp
