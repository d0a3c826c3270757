import Avtp.Proofs.EncodeDecode
import Avtp.Proofs.WalkPartition

/-!
# Messages under the header of their type

A walk yields messages without looking at what they are. Each can then be asked for as a message of
one of the three known formats, or for what it is. Asking compares the type, so one of the three is
granted at most. The one that the type names is granted if there is room for the header and for the
padding (`AcfView.as?_of_type`), and it covers the message as a whole.

**Two measures of one payload.** A view cuts its payload at the pad count and never into the header,
since it has to give some answer after the pad count was overwritten. An extent subtracts, since it
has been checked. On a message that was granted the two agree: there the cut is behind the header
(`Accepted.payloadRange_eq`).
-/

namespace Avtp

namespace AcfView

open Acf

/-- The pad count: two bits, in the quadlet that all messages start with, behind type and length. It
is there in every message, and has this meaning in those of the known formats. -/
def padding (view : AcfView) : Nat := (BitField.mk 0 16 2).read view.octets

/-- The reason for refusing a message of a format without room for the header of the format, or,
behind the header, for the padding. -/
def tooShort (view : AcfView) (format : MessageFormat) : ViewError :=
  .invalidLayout (.invalidLength (.header format.header) view.octets.length
    (if view.octets.length < format.header.size then format.header.size
      else format.header.size + view.padding))

variable {view : AcfView} {format : MessageFormat}

/-- All formats have the pad count in this place. -/
theorem read_padSlot (view : AcfView) (format : MessageFormat) :
    (Header.place format.padSlot).read view.octets = view.padding := by
  rw [format.place_padSlot]
  rfl

/-- A type is that of a format if it has the number of that type. -/
theorem msgType_eq_iff : view.msgType = format.type ↔ view.rawMsgType = format.type.raw := by
  constructor
  · intro htype
    rw [← htype, msgType, MessageType.raw_ofRaw]
  · intro hraw
    rw [msgType, hraw]
    cases format <;> rfl

/-- **A message of the type of a format is granted if there is room**, and refused as too short if
there is none. -/
theorem as?_of_type (hcomplete : Complete view) (htype : view.rawMsgType = format.type.raw) :
    view.as? format =
      if view.octets.length < format.header.size + view.padding then .error (view.tooShort format)
      else .ok ⟨view.octets⟩ := by
  rw [TypedMessage.as?_eq hcomplete, if_neg (not_not.mpr (msgType_eq_iff.mpr htype)),
    read_padSlot, tooShort]
  -- Without room for the header there is none for header and padding.
  split_ifs with hheader hroom hroom
  · rfl
  · omega
  · rfl
  · rfl

theorem rawMsgType_of_as?_eq_ok (hcomplete : Complete view) {typed : View format.header}
    (h : view.as? format = .ok typed) : view.rawMsgType = format.type.raw :=
  msgType_eq_iff.mp ((TypedMessage.as?_eq_ok_iff hcomplete).mp h).1

/-- What is granted of a message, as the header of its format finds it. -/
structure Grants (view : AcfView) {format : MessageFormat} (typed : View format.header) :
    Prop where
  /-- It is the message as a whole. -/
  octets_eq : typed.octets = view.octets
  /-- It is also what the message is taken for when no format is asked for. -/
  ofView?_eq : TypedMessage.ofView? view = .ok (.ofFormat format typed)
  /-- Its payload is what is between the header and the padding. -/
  payload_eq : Octets.slice? view.octets format.header.size (view.octets.length - view.padding) =
    some typed.payload
  /-- The extent that the format finds has the same payload. -/
  extent_payload_eq : ∃ extent, MessageExtent.ofFormat? format view.octets = .ok extent ∧
    Octets.slice? view.octets extent.payloadRange.1 extent.payloadRange.2 = some typed.payload

theorem grants_of_as?_eq_ok (hcomplete : Complete view) {typed : View format.header}
    (h : view.as? format = .ok typed) : Grants view typed := by
  obtain ⟨htype, hroom, rfl⟩ := (TypedMessage.as?_eq_ok_iff hcomplete).mp h
  have haccepted := accepted_of_type hcomplete htype hroom
  rw [read_padSlot] at hroom
  have hpayload : Octets.slice? view.octets format.header.size
      (view.octets.length - view.padding) =
        some (⟨view.octets⟩ : View format.header).payload := by
    rw [Octets.slice?, if_pos (by omega), haccepted.payload_eq, View.read, read_padSlot]
  refine ⟨rfl, ?_, hpayload,
    ⟨view.msgType, view.octets.length, format.header.size, view.padding⟩, ?_, hpayload⟩
  · rw [TypedMessage.ofView?_of_type htype, h]
    rfl
  · rw [MessageExtent.ofFormat?, hcomplete.ofOctets?_eq]
    exact MessageExtent.narrow?_eq_ok_iff.mpr
      ⟨htype, (read_padSlot view format).symm ▸ hroom, by rw [read_padSlot]⟩

/-- **What a message is refused for** when it is taken for what it is. -/
theorem ofView?_eq_error_iff (hcomplete : Complete view) {reason : ViewError} :
    TypedMessage.ofView? view = .error reason ↔
      ∃ format : MessageFormat, view.rawMsgType = format.type.raw ∧
        view.octets.length < format.header.size + view.padding ∧
          reason = view.tooShort format := by
  by_cases hknown : ∃ format : MessageFormat, view.rawMsgType = format.type.raw
  · obtain ⟨format, htype⟩ := hknown
    rw [TypedMessage.ofView?_of_type (msgType_eq_iff.mpr htype), as?_of_type hcomplete htype]
    constructor
    · intro h
      split_ifs at h with hshort
      · exact ⟨format, htype, hshort, (Except.error.inj h).symm⟩
      · exact nomatch h
    · rintro ⟨other, hother, hshort, rfl⟩
      obtain rfl := MessageFormat.type_injective
        ((msgType_eq_iff.mpr htype).symm.trans (msgType_eq_iff.mpr hother))
      rw [if_pos hshort]
      rfl
  · rw [TypedMessage.ofView?_of_not_type
      fun format htype ↦ hknown ⟨format, msgType_eq_iff.mp htype⟩]
    exact iff_of_false nofun fun ⟨format, htype, _⟩ ↦ hknown ⟨format, htype⟩

/-- How a message answers to being taken under the header of a format, and under that of its type.
-/
structure TypedExactly (view : AcfView) : Prop where
  /-- It is granted under one header at most. -/
  unique : ∀ {format other : MessageFormat} {typed : View format.header}
    {typed' : View other.header},
    view.as? format = .ok typed → view.as? other = .ok typed' → format = other
  /-- The one of its type is granted if there is room for header and padding. -/
  granted_iff : ∀ format : MessageFormat, view.rawMsgType = format.type.raw →
    ((∃ typed, view.as? format = .ok typed) ↔
      format.header.size + view.padding ≤ view.octets.length)
  /-- It is refused if its type is that of a format and there is no room. -/
  refused_iff : ∀ reason, TypedMessage.ofView? view = .error reason ↔
    ∃ format : MessageFormat, view.rawMsgType = format.type.raw ∧
      view.octets.length < format.header.size + view.padding ∧ reason = view.tooShort format
  /-- What is granted is the message, with the payload that its extent gives it. -/
  grants : ∀ {format : MessageFormat} {typed : View format.header},
    view.as? format = .ok typed → Grants view typed

theorem typedExactly_of_complete (hcomplete : Complete view) : TypedExactly view where
  unique h h' := by
    have htype := msgType_eq_iff.mpr (rawMsgType_of_as?_eq_ok hcomplete h)
    have htype' := msgType_eq_iff.mpr (rawMsgType_of_as?_eq_ok hcomplete h')
    exact MessageFormat.type_injective (htype.symm.trans htype')
  granted_iff format htype := by
    rw [as?_of_type hcomplete htype, ← Nat.not_lt]
    split_ifs with hshort
    · exact iff_of_false nofun (not_not.mpr hshort)
    · exact iff_of_true ⟨_, rfl⟩ hshort
  refused_iff reason := ofView?_eq_error_iff hcomplete
  grants h := grants_of_as?_eq_ok hcomplete h

end AcfView

namespace Acf.Walk

/-- **Every message of a payload is taken under the header of its type, or refused as too short for
it**, whatever the payload is. The types of the three formats are 1, 2 and 3, and their headers have
16, 8 and 12 octets. -/
theorem typedExactly_of_mem_items {payload : List UInt8} {view : AcfView}
    (hview : .ok view ∈ (start payload).items) :
    view.TypedExactly ∧
      MessageFormat.all.map (fun format ↦ (format.type.raw, format.header.size)) =
        [(0x01, 16), (0x02, 8), (0x03, 12)] :=
  ⟨AcfView.typedExactly_of_complete
    (complete_of_mem_views (List.mem_filterMap.mpr ⟨.ok view, hview, rfl⟩)), rfl⟩

/-- A LIN message that claims three octets of padding and has none behind its header. -/
def overpadded : AcfView := ⟨[0x06, 3, 0xC0, 0x2A, 0, 0, 0, 0, 0, 0, 0, 0]⟩

/-- It is a message of its payload all the same, and is refused when it is taken for what it is: its
header has room, its padding has not. -/
theorem typedExactly_of_mem_items_overpadded :
    .ok overpadded ∈ (start ([0x02, 1, 0xFF, 0xFF] ++ overpadded.octets)).items ∧
      overpadded.TypedExactly ∧
        TypedMessage.ofView? overpadded =
          .error (.invalidLayout (.invalidLength (.header .lin) 12 15)) :=
  have hview : .ok overpadded ∈ (start ([0x02, 1, 0xFF, 0xFF] ++ overpadded.octets)).items := by
    decide +kernel
  have hexactly := (typedExactly_of_mem_items hview).1
  ⟨hview, hexactly,
    (hexactly.refused_iff _).mpr ⟨.lin, by decide +kernel, by decide +kernel, by decide +kernel⟩⟩

end Acf.Walk

end Avtp
