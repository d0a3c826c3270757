import Avtp.Descriptor
import Avtp.Header.Common
import Avtp.Header.Stream
import Avtp.Header.Acf

/-!
# The eight headers

`Header` lists the headers of this library. For each of them `Header.Slot` is the type of its
fields, and `Header.row` its table. Everything that holds for all headers alike, such as reading a
field or naming it in a message, is stated once over `Header` instead of eight times.

`place_requiredOctets_le` is the fact that makes unchecked reads safe: no field of a header lies
behind the fixed part of the header.
-/

namespace Avtp

/-- The headers. -/
inductive Header where
  | common
  | udp
  | ntscf
  | tscf
  /-- What all ACF messages start with. -/
  | acf
  | can
  | canBrief
  | lin
  deriving DecidableEq

namespace Header

/-- The headers in a fixed order. -/
def all : List Header := [common, udp, ntscf, tscf, acf, can, canBrief, lin]

/-- The name of a header in messages and listings. -/
def name : Header → String
  | common => "CommonHeader"
  | udp => "UdpEncapsulation"
  | ntscf => "Ntscf"
  | tscf => "Tscf"
  | acf => "AcfCommon"
  | can => "AcfCan"
  | canBrief => "AcfCanBrief"
  | lin => "AcfLin"

/-- The length of the fixed part of a header in octets. -/
def size : Header → Nat
  | common => 4
  | udp => 4
  | ntscf => 12
  | tscf => 24
  | acf => 4
  | can => 16
  | canBrief => 8
  | lin => 12

/-- The fields of a header. -/
@[reducible] def Slot : Header → Type
  | common => CommonSlot
  | udp => UdpSlot
  | ntscf => NtscfSlot
  | tscf => TscfSlot
  | acf => AcfSlot
  | can => CanSlot
  | canBrief => CanBriefSlot
  | lin => LinSlot

instance : (h : Header) → DecidableEq h.Slot
  | common => inferInstanceAs (DecidableEq CommonSlot)
  | udp => inferInstanceAs (DecidableEq UdpSlot)
  | ntscf => inferInstanceAs (DecidableEq NtscfSlot)
  | tscf => inferInstanceAs (DecidableEq TscfSlot)
  | acf => inferInstanceAs (DecidableEq AcfSlot)
  | can => inferInstanceAs (DecidableEq CanSlot)
  | canBrief => inferInstanceAs (DecidableEq CanBriefSlot)
  | lin => inferInstanceAs (DecidableEq LinSlot)

/-- The fields of a header in table order. -/
def slots : (h : Header) → List h.Slot
  | common => CommonSlot.all
  | udp => UdpSlot.all
  | ntscf => NtscfSlot.all
  | tscf => TscfSlot.all
  | acf => AcfSlot.all
  | can => CanSlot.all
  | canBrief => CanBriefSlot.all
  | lin => LinSlot.all

/-- The table of a header. -/
def row : {h : Header} → h.Slot → Row
  | common => CommonSlot.row
  | udp => UdpSlot.row
  | ntscf => NtscfSlot.row
  | tscf => TscfSlot.row
  | acf => AcfSlot.row
  | can => CanSlot.row
  | canBrief => CanBriefSlot.row
  | lin => LinSlot.row

/-- The place of a field. -/
def place {h : Header} (slot : h.Slot) : BitField := (row slot).place

/-- The position of a field in the table of its header. -/
def index {h : Header} (slot : h.Slot) : Nat := h.slots.idxOf slot

/-- The field with the given label. -/
def slot? (h : Header) (label : String) : Option h.Slot :=
  h.slots.find? fun slot ↦ (row slot).label == label

/-- The places of all fields of a header, addressed by index. -/
def table (h : Header) : FieldTable := h.slots.map place

/-- The same places in machine words. -/
def descriptors (h : Header) : DescriptorTable := h.table.map BitField.descriptor

/-! ### Access by slot -/

/-- The value of a field, checked as an access by index is. -/
def get {h : Header} (buf : List UInt8) (slot : h.Slot) : Except FieldError Nat :=
  h.table.get buf (index slot)

/-- The buffer after writing a field, checked as an access by index is. -/
def set {h : Header} (buf : List UInt8) (slot : h.Slot) (value : Nat) :
    Except FieldError (List UInt8) :=
  h.table.set buf (index slot) value

/-! ### Facts about the tables -/

/-- Every field of a header is listed. -/
theorem mem_slots : {h : Header} → (slot : h.Slot) → slot ∈ h.slots
  | common, slot => by cases slot <;> decide
  | udp, slot => by cases slot; decide
  | ntscf, slot => by cases slot <;> decide
  | tscf, slot => by cases slot <;> decide
  | acf, slot => by cases slot <;> decide
  | can, slot => by cases slot <;> decide
  | canBrief, slot => by cases slot <;> decide
  | lin, slot => by cases slot <;> decide

/-- No field of a header lies behind the fixed part of the header. -/
theorem place_requiredOctets_le : {h : Header} → (slot : h.Slot) →
    (place slot).requiredOctets ≤ h.size
  | common, slot => by cases slot <;> decide
  | udp, slot => by cases slot; decide
  | ntscf, slot => by cases slot <;> decide
  | tscf, slot => by cases slot <;> decide
  | acf, slot => by cases slot <;> decide
  | can, slot => by cases slot <;> decide
  | canBrief, slot => by cases slot <;> decide
  | lin, slot => by cases slot <;> decide

/-- The field at the index of a slot is the field of that slot. -/
theorem getElem?_table_index : {h : Header} → (slot : h.Slot) →
    h.table[index slot]? = some (place slot)
  | common, slot => by cases slot <;> decide
  | udp, slot => by cases slot; decide
  | ntscf, slot => by cases slot <;> decide
  | tscf, slot => by cases slot <;> decide
  | acf, slot => by cases slot <;> decide
  | can, slot => by cases slot <;> decide
  | canBrief, slot => by cases slot <;> decide
  | lin, slot => by cases slot <;> decide

/-- No two fields of one header share a bit. -/
theorem isDisjoint_table (h : Header) : h.table.isDisjoint = true := by
  cases h <;> decide

end Header

end Avtp
