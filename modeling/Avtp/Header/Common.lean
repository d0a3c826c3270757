import Avtp.Header.Row

/-!
# The common header and the UDP encapsulation header

Every AVTP data unit starts with the common header. It says which format the data unit has; the rest
of the quadlet belongs to that format.

```text
 0                   1                   2                   3
 0 1 2 3 4 5 6 7 8 9 0 1 2 3 4 5 6 7 8 9 0 1 2 3 4 5 6 7 8 9 0 1
+---------------+-+-----+---------------------------------------+
|    subtype    |h| ver |            format specific            |
+---------------+-+-----+---------------------------------------+
```

A data unit that travels over UDP instead of Ethernet is preceded by one quadlet, a sequence number.
-/

namespace Avtp

/-- The fields of the common header. -/
inductive CommonSlot where
  | subtype
  /-- A flag whose meaning belongs to the format. -/
  | h
  | version
  deriving DecidableEq

namespace CommonSlot

/-- The fields in table order. -/
def all : List CommonSlot := [subtype, h, version]

/-- The table of the common header. -/
def row : CommonSlot → Row
  | subtype => ⟨"Subtype", "subtype", .mk 0 0 8⟩
  | h => ⟨"H", "h", .mk 0 8 1⟩
  | version => ⟨"Version", "version", .mk 0 9 3⟩

end CommonSlot

/-- The fields of the UDP encapsulation header. -/
inductive UdpSlot where
  | sequenceNumber
  deriving DecidableEq

namespace UdpSlot

/-- The fields in table order. -/
def all : List UdpSlot := [sequenceNumber]

/-- The table of the UDP encapsulation header. -/
def row : UdpSlot → Row
  | sequenceNumber => ⟨"EncapsulationSeqNo", "encapsulation_seq_no", .mk 0 0 32⟩

end UdpSlot

end Avtp
