import Avtp.Acf.Message
import Avtp.Proofs.Extents
import Avtp.Proofs.HeaderFill

/-!
# Messages with a header of their own

CAN messages, brief CAN messages and LIN messages are built alike: a header, the payload, and zeros
up to the end of the last quadlet. They differ in which fields the header has and what goes into
them. `Framing` keeps these apart. It holds what differs, and everything about length, padding,
payload and the fields that all messages share is proved once, over the format.

**Derived fields.** Length and pad count are no data of a frame. `Framing.Sound` says that the
header holds the ones that follow from the payload; this is what makes a message accepted as exactly
as long as it is (`Framing.ofFormat?_octets`) and lets the payload be found again
(`Framing.payload_view`).
-/

namespace Avtp.Acf

/-! ### Fields that all messages share -/

namespace MessageFormat

/-- The field of the message type. -/
def typeSlot : (format : MessageFormat) → format.header.Slot
  | can => CanSlot.msgType
  | canBrief => CanBriefSlot.msgType
  | lin => LinSlot.msgType

/-- The field of the length in quadlets. -/
def lengthSlot : (format : MessageFormat) → format.header.Slot
  | can => CanSlot.msgLength
  | canBrief => CanBriefSlot.msgLength
  | lin => LinSlot.msgLength

/-- The type has the same place in all messages. -/
theorem place_typeSlot (format : MessageFormat) :
    Header.place format.typeSlot = Header.place (h := .acf) AcfSlot.msgType := by
  cases format <;> rfl

/-- The length has the same place in all messages. -/
theorem place_lengthSlot (format : MessageFormat) :
    Header.place format.lengthSlot = Header.place (h := .acf) AcfSlot.msgLength := by
  cases format <;> rfl

/-- A header covers what all messages start with. -/
theorem four_le_size (format : MessageFormat) : 4 ≤ format.header.size := by
  cases format <;> decide

theorem extent?_header (format : MessageFormat) (buf : List UInt8) :
    format.header.extent? buf = (MessageExtent.ofFormat? format buf).map (·.length) := by
  cases format <;> rfl

theorem type_injective {format other : MessageFormat} (h : format.type = other.type) :
    format = other := by
  cases format <;> cases other <;> first | rfl | exact MessageType.noConfusion h

end MessageFormat

theorem paddedLength_eq (octets : Nat) :
    octets ≤ paddedLength octets ∧ paddedLength octets < octets + 4 ∧ 4 ∣ paddedLength octets := by
  rw [paddedLength, quadletsFor]
  omega

/-- Filling up again what was cut off gives the length back. -/
theorem paddedLength_sub {length padding : Nat} (hlength : 4 ∣ length) (hpadding : padding < 4)
    (hle : padding ≤ length) : paddedLength (length - padding) = length := by
  rw [paddedLength, quadletsFor]
  omega

/-! ### Framings -/

/-- What a message of a format is made of. -/
structure Framing (format : MessageFormat) where
  /-- The fields that are set, in order. -/
  slots : List format.header.Slot
  /-- The value of every field. -/
  value : format.header.Slot → Nat
  payload : List UInt8

namespace Framing

variable {format : MessageFormat}

/-- The length of the message. -/
def size (framing : Framing format) : Nat :=
  paddedLength (format.header.size + framing.payload.length)

/-- The number of octets behind the payload. -/
def padding (framing : Framing format) : Nat :=
  framing.size - format.header.size - framing.payload.length

/-- The message. -/
def octets (framing : Framing format) : List UInt8 :=
  format.header.fill framing.slots framing.value ++
    (framing.payload ++ List.replicate framing.padding 0)

/-- The writes that put the message to the front of a buffer. -/
def writes (framing : Framing format) : List Write :=
  [.clear framing.size, .copy format.header.size framing.payload] ++
    framing.slots.map fun slot ↦ .slot slot (framing.value slot)

/-- Every value fits, and the header holds what follows from format and payload. -/
structure Sound (framing : Framing format) : Prop extends
    Header.Fills framing.slots framing.value where
  type_eq : framing.value format.typeSlot = format.type.raw.toNat
  length_eq : framing.value format.lengthSlot = framing.size / 4
  pad_eq : framing.value format.padSlot = framing.padding

/-! ### Lengths -/

variable {framing : Framing format}

theorem size_eq (framing : Framing format) :
    framing.size = format.header.size + framing.payload.length + framing.padding := by
  have h := (paddedLength_eq (format.header.size + framing.payload.length)).1
  unfold padding size
  omega

theorem padding_lt (framing : Framing format) : framing.padding < 4 := by
  have h := (paddedLength_eq (format.header.size + framing.payload.length)).2.1
  unfold padding size
  omega

theorem four_dvd_size (framing : Framing format) : 4 ∣ framing.size :=
  (paddedLength_eq _).2.2

@[simp] theorem length_octets (framing : Framing format) :
    framing.octets.length = framing.size := by
  rw [octets, List.length_append, List.length_append, List.length_replicate, Header.length_fill,
    size_eq, Nat.add_assoc]

/-! ### To the wire -/

/-- **Whatever the buffer held, the writes leave the message in front of what was behind it.** -/
theorem run?_writes (hsound : framing.Sound) {buf : List UInt8}
    (hbuf : framing.size ≤ buf.length) :
    Write.run? framing.writes buf = some (framing.octets ++ buf.drop framing.size) := by
  -- The room that is cleared is that of the header, the payload and the padding.
  have hzeros : List.replicate framing.size (0 : UInt8) =
      List.replicate format.header.size 0 ++ (List.replicate framing.payload.length 0 ++
        List.replicate framing.padding 0) := by
    rw [framing.size_eq, ← List.replicate_append_replicate, ← List.replicate_append_replicate,
      List.append_assoc]
  rw [writes, List.cons_append, List.cons_append, List.nil_append, Write.run?_cons,
    Write.perform?_clear hbuf, Option.bind_some, Write.run?_cons, hzeros, List.append_assoc,
    List.append_assoc, Write.perform?_copy List.length_replicate List.length_replicate,
    Option.bind_some, Header.run?_fill framing.slots hsound.holds]
  simp only [octets, List.append_assoc]

/-! ### From the wire -/

theorem read_octets (hsound : framing.Sound) (slot : format.header.Slot) (rest : List UInt8) :
    (Header.place slot).read (framing.octets ++ rest) = framing.value slot := by
  rw [octets, List.append_assoc]
  exact Header.read_fill hsound.toFills slot _

theorem read_view (hsound : framing.Sound) (slot : format.header.Slot) :
    (⟨framing.octets⟩ : View format.header).read slot = framing.value slot := by
  have hread := read_octets hsound slot []
  rwa [List.append_nil] at hread

/-- A message announces its type. -/
theorem announcedType_octets (hsound : framing.Sound) (rest : List UInt8) :
    MessageExtent.announcedType (framing.octets ++ rest) = format.type := by
  rw [MessageExtent.announcedType, ← format.place_typeSlot, read_octets hsound, hsound.type_eq,
    UInt8.ofNat_toNat]
  cases format <;> rfl

/-- A message announces its length. -/
theorem announcedLength_octets (hsound : framing.Sound) (rest : List UInt8) :
    MessageExtent.announcedLength (framing.octets ++ rest) = framing.size := by
  rw [MessageExtent.announcedLength, ← format.place_lengthSlot, read_octets hsound,
    hsound.length_eq]
  exact Nat.mul_div_cancel' framing.four_dvd_size

/-- **A message is accepted as what it is**, whatever is behind it. -/
theorem ofFormat?_octets (hsound : framing.Sound) (rest : List UInt8) :
    MessageExtent.ofFormat? format (framing.octets ++ rest) =
      .ok ⟨format.type, framing.size, format.header.size, framing.padding⟩ := by
  have hsize := framing.size_eq
  have hmin := format.four_le_size
  rw [MessageExtent.ofFormat?_eq_ok_iff, announcedLength_octets hsound, announcedType_octets hsound,
    read_octets hsound, hsound.pad_eq, List.length_append, length_octets]
  exact ⟨by omega, by omega, rfl, by omega, rfl⟩

/-- A message is cut off where it ends. -/
theorem split?_octets (hsound : framing.Sound) (rest : List UInt8) :
    View.split? format.header (framing.octets ++ rest) = .ok (⟨framing.octets⟩, rest) := by
  refine View.split?_eq_ok_iff.mpr ⟨framing.size, ?_, ?_, ?_⟩
  · rw [format.extent?_header, ofFormat?_octets hsound]
    rfl
  · rw [List.take_left' framing.length_octets]
  · rw [List.drop_left' framing.length_octets]

end Framing

/-! ### Views of messages -/

theorem payloadRange_format {format : MessageFormat} (view : View format.header) :
    view.payloadRange = (format.header.size,
      max (view.octets.length - view.read format.padSlot) format.header.size) := by
  cases format <;> rfl

/-- **The payload of a message is found again.** -/
theorem Framing.payload_view {format : MessageFormat} {framing : Framing format}
    (hsound : framing.Sound) :
    (⟨framing.octets⟩ : View format.header).payload = framing.payload := by
  have hsize := framing.size_eq
  have hpad : (⟨framing.octets⟩ : View format.header).read format.padSlot = framing.padding :=
    (read_view hsound format.padSlot).trans hsound.pad_eq
  -- The payload begins behind the header, so the maximum in its range is never the header.
  have hstop : max (framing.size - framing.padding) format.header.size =
      format.header.size + framing.payload.length := by omega
  rw [View.payload, payloadRange_format, hpad, length_octets, hstop, Octets.slice?, length_octets,
    if_pos (by omega), Option.getD_some, octets, List.drop_left' (Header.length_fill _ _)]
  exact List.take_left' (by omega)

end Avtp.Acf
