import Avtp.Header.Row

/-!
# The control stream headers

A control stream carries ACF messages. The non-time-synchronous format (NTSCF) has a short header:

```text
 0                   1                   2                   3
 0 1 2 3 4 5 6 7 8 9 0 1 2 3 4 5 6 7 8 9 0 1 2 3 4 5 6 7 8 9 0 1
+---------------+-+-----+-+---------------------+---------------+
|    subtype    |s| ver |r|     data length     | sequence num  |
+---------------+-+-----+-+---------------------+---------------+
|                           stream id                           |
|                                                               |
+---------------------------------------------------------------+
```

The time-synchronous format (TSCF) adds a presentation time:

```text
+---------------+-+-----+-+---+-+---------------+-------------+-+
|    subtype    |s| ver |m|rsv|t| sequence num  |     rsv     |u|
+---------------+-+-----+-+---+-+---------------+-------------+-+
|                           stream id                           |
|                                                               |
+---------------------------------------------------------------+
|                        avtp timestamp                         |
+---------------------------------------------------------------+
|                         gateway info                          |
+-------------------------------+-------------------------------+
|          data length          |              rsv              |
+-------------------------------+-------------------------------+
```

Both data lengths count the octets behind the header.
-/

namespace Avtp

/-- The fields of the NTSCF header. -/
inductive NtscfSlot where
  | subtype
  /-- Stream id valid. -/
  | sv
  | version
  /-- Reserved. -/
  | r
  | dataLength
  | sequenceNum
  | streamIdHi
  | streamIdLo
  deriving DecidableEq

namespace NtscfSlot

/-- The fields in table order. -/
def all : List NtscfSlot :=
  [subtype, sv, version, r, dataLength, sequenceNum, streamIdHi, streamIdLo]

/-- The table of the NTSCF header. -/
def row : NtscfSlot → Row
  | subtype => ⟨"Subtype", "subtype", .mk 0 0 8⟩
  | sv => ⟨"Sv", "sv", .mk 0 8 1⟩
  | version => ⟨"Version", "version", .mk 0 9 3⟩
  | r => ⟨"R", "r", .mk 0 12 1⟩
  | dataLength => ⟨"DataLength", "ntscf_data_length", .mk 0 13 11⟩
  | sequenceNum => ⟨"SequenceNum", "sequence_num", .mk 0 24 8⟩
  | streamIdHi => ⟨"StreamIdHi", "stream_id_hi", .mk 1 0 32⟩
  | streamIdLo => ⟨"StreamIdLo", "stream_id_lo", .mk 2 0 32⟩

end NtscfSlot

/-- The fields of the TSCF header. -/
inductive TscfSlot where
  | subtype
  /-- Stream id valid. -/
  | sv
  | version
  /-- Media clock restart. -/
  | mr
  /-- Reserved. -/
  | rsv1
  /-- Timestamp valid. -/
  | tv
  | sequenceNum
  /-- Reserved. -/
  | rsv2
  /-- Timestamp uncertain. -/
  | tu
  | streamIdHi
  | streamIdLo
  | avtpTimestamp
  | gatewayInfo
  | dataLength
  /-- Reserved. -/
  | rsv3
  deriving DecidableEq

namespace TscfSlot

/-- The fields in table order. -/
def all : List TscfSlot :=
  [subtype, sv, version, mr, rsv1, tv, sequenceNum, rsv2, tu, streamIdHi, streamIdLo, avtpTimestamp,
    gatewayInfo, dataLength, rsv3]

/-- The table of the TSCF header. -/
def row : TscfSlot → Row
  | subtype => ⟨"Subtype", "subtype", .mk 0 0 8⟩
  | sv => ⟨"Sv", "sv", .mk 0 8 1⟩
  | version => ⟨"Version", "version", .mk 0 9 3⟩
  | mr => ⟨"Mr", "mr", .mk 0 12 1⟩
  | rsv1 => ⟨"Rsv1", "rsv1", .mk 0 13 2⟩
  | tv => ⟨"Tv", "tv", .mk 0 15 1⟩
  | sequenceNum => ⟨"SequenceNum", "sequence_num", .mk 0 16 8⟩
  | rsv2 => ⟨"Rsv2", "rsv2", .mk 0 24 7⟩
  | tu => ⟨"Tu", "tu", .mk 0 31 1⟩
  | streamIdHi => ⟨"StreamIdHi", "stream_id_hi", .mk 1 0 32⟩
  | streamIdLo => ⟨"StreamIdLo", "stream_id_lo", .mk 2 0 32⟩
  | avtpTimestamp => ⟨"AvtpTimestamp", "avtp_timestamp", .mk 3 0 32⟩
  | gatewayInfo => ⟨"GatewayInfo", "gateway_info", .mk 4 0 32⟩
  | dataLength => ⟨"StreamDataLength", "stream_data_length", .mk 5 0 16⟩
  | rsv3 => ⟨"Rsv3", "rsv3", .mk 5 16 16⟩

end TscfSlot

end Avtp
