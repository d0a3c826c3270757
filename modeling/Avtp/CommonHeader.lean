import Avtp.View.Access
import Avtp.WireForm

/-!
# The common header and the encapsulation as values

The two headers that stand in front of a data unit. Encoding the common header sets its three fields
and leaves the rest of the quadlet, which belongs to the format, as it is in the buffer.
-/

namespace Avtp

/-- The common header. -/
structure CommonHeader where
  subtype : PduSubtype
  h : Bool
  version : UInt8
  deriving DecidableEq

namespace CommonHeader

/-- The header of a data unit with the given subtype and the version of this library. -/
def ofSubtype (subtype : PduSubtype) : CommonHeader := ⟨subtype, false, protocolVersion⟩

/-- The header in a view. -/
def ofView (view : CommonView) : CommonHeader := ⟨view.subtype, view.h, view.version⟩

/-- The header at the start of a buffer and the octets behind it. -/
def decode? (buf : List UInt8) : Except ViewError (CommonHeader × List UInt8) :=
  (View.split? .common buf).map fun found ↦ (ofView found.1, found.2)

/-- The fields of the header. -/
def writes (header : CommonHeader) : List Write :=
  [.slot (h := .common) CommonSlot.subtype header.subtype.raw.toNat,
    .slot (h := .common) CommonSlot.h header.h.toNat,
    .slot (h := .common) CommonSlot.version header.version.toNat]

instance : WireForm CommonHeader where
  size _ := Header.size .common
  check header := Header.checkHolds (h := .common) CommonSlot.version header.version.toNat
  write? header buf :=
    (Write.run? header.writes buf).map fun out ↦ (out, Header.size .common)

end CommonHeader

/-- The UDP encapsulation header. -/
structure Encapsulation where
  sequenceNumber : UInt32
  deriving DecidableEq

namespace Encapsulation

/-- The header in a view. -/
def ofView (view : UdpView) : Encapsulation := ⟨view.sequenceNumber⟩

/-- The header at the start of a buffer and the octets behind it. -/
def decode? (buf : List UInt8) : Except ViewError (Encapsulation × List UInt8) :=
  (View.split? .udp buf).map fun found ↦ (ofView found.1, found.2)

/-- The only field of the header. -/
def writes (header : Encapsulation) : List Write :=
  [.slot (h := .udp) UdpSlot.sequenceNumber header.sequenceNumber.toNat]

instance : WireForm Encapsulation where
  size _ := Header.size .udp
  check _ := .ok ()
  write? header buf := (Write.run? header.writes buf).map fun out ↦ (out, Header.size .udp)

end Encapsulation

end Avtp
