import Avtp.Proofs.DecodeEncode
import Avtp.Proofs.CutPayload

/-!
# A data unit is put together from its messages

The wire form of a data unit is a header and then what each of its messages is encoded to on its
own. Nothing but the order of the messages is kept of how they are put together: no separator, no
index, no count. A walk finds the parts again nevertheless, because every message ends where it says
(`Walk.items_start_flatMap_wire`).

This needs no understanding of the messages. A walk asks for the announced length alone, so a body
comes back as the octets that it was given under any type, also under one whose header it has no
room for, and whatever its octets look like. What is made of a message afterwards is a matter of
decoding it.
-/

namespace Avtp

namespace Acf

/-! ### Sequences of messages -/

/-- The encodings as messages in a row. -/
theorem Message.complete_of_mem_map_wire {messages : List Message}
    (hcheck : ∀ message ∈ messages, message.check = .ok ()) :
    ∀ view ∈ messages.map fun message ↦ (⟨message.wire⟩ : AcfView), Complete view := by
  intro view hview
  obtain ⟨message, hmessage, rfl⟩ := List.mem_map.mp hview
  exact complete_wire (hcheck message hmessage)

/-- **A walk along messages finds each of them**, and nothing else. -/
theorem Walk.items_start_flatMap_wire {messages : List Message}
    (hcheck : ∀ message ∈ messages, message.check = .ok ()) :
    (start (messages.flatMap Message.wire)).items =
      messages.map fun message ↦ .ok ⟨message.wire⟩ := by
  have hitems := items_start_flatMap_append (Message.complete_of_mem_map_wire hcheck) []
  rwa [List.append_nil, List.flatMap_map, items_start_nil, List.append_nil, List.map_map] at hitems

/-- No octet is left behind the messages. -/
theorem Walk.rest_finish_flatMap_wire {messages : List Message}
    (hcheck : ∀ message ∈ messages, message.check = .ok ()) :
    (start (messages.flatMap Message.wire)).finish.rest = [] := by
  have hfinish := finish_start_flatMap_append (Message.complete_of_mem_map_wire hcheck) []
  rw [List.append_nil, List.flatMap_map, finish_start_nil] at hfinish
  exact congrArg Walk.rest hfinish

/-- Messages that pass their checks are encoded one by one. -/
theorem Message.map_encode_eq {messages : List Message}
    (hcheck : ∀ message ∈ messages, message.check = .ok ()) :
    messages.map WireForm.encode = (messages.map wire).map .ok := by
  rw [List.map_map]
  refine List.map_congr_left fun message hmessage ↦ ?_
  have hok := hcheck message hmessage
  exact (overwrites hok).encode_eq hok

end Acf

/-! ### Data units -/

/-- A data unit is a header and behind it its messages. `parts` are the messages as octets. -/
structure Composed (format : StreamFormat) (messages : List Acf.Message)
    (header : List UInt8) (parts : List (List UInt8)) (octets : List UInt8) : Prop where
  /-- Each message is encoded on its own. -/
  encode_eq : messages.map WireForm.encode = parts.map .ok
  /-- The encodings follow the header in the order of the messages. -/
  octets_eq : octets = header ++ parts.flatten
  /-- The data unit ends with the last of them. -/
  split?_eq : View.split? format.header octets = .ok (⟨octets⟩, [])
  /-- The header has their length in its length field. -/
  dataLength_eq : (⟨octets⟩ : View format.header).read format.dataLengthSlot = parts.flatten.length
  /-- A walk along the payload yields one message for each of them, with its octets, and no fault.
  -/
  items_eq : (Acf.Walk.start (⟨octets⟩ : View format.header).payload).items =
    parts.map fun part ↦ .ok ⟨part⟩
  /-- It leaves nothing. -/
  rest_eq : (Acf.Walk.start (⟨octets⟩ : View format.header).payload).finish.rest = []

/-- **A sound form is composed of its messages.** -/
theorem StreamForm.composed {format : StreamFormat} {form : StreamForm format}
    (hsound : form.Sound) (hcheck : Acf.Message.checkAll form.messages = .ok ()) :
    Composed format form.messages (format.header.fill form.slots form.value)
      (form.messages.map Acf.Message.wire) form.octets := by
  have hchecks := Acf.Message.checkAll_eq_ok_iff.mp hcheck
  have hflatten : (form.messages.map Acf.Message.wire).flatten =
      form.messages.flatMap Acf.Message.wire := List.flatMap_def.symm
  have hsplit := form.split?_octets hsound []
  rw [List.append_nil] at hsplit
  refine ⟨Acf.Message.map_encode_eq hchecks, ?_, hsplit, ?_, ?_, ?_⟩
  · rw [hflatten, octets]
  · rw [hflatten, read_view hsound, hsound.dataLength_eq, Acf.Message.length_flatMap_wire]
  · rw [payload_view, Acf.Walk.items_start_flatMap_wire hchecks, List.map_map]
    rfl
  · rw [payload_view, Acf.Walk.rest_finish_flatMap_wire hchecks]

/-- **Encoding a data unit is encoding its messages**, and a walk along the payload takes them apart
again. -/
theorem encode_composed :
    (∀ pdu : NtscfPdu, WireForm.check pdu = .ok () →
        ∃ octets header parts, WireForm.encode pdu = .ok octets ∧ header.length = 12 ∧
          Composed .ntscf pdu.messages header parts octets) ∧
      ∀ pdu : TscfPdu, WireForm.check pdu = .ok () →
        ∃ octets header parts, WireForm.encode pdu = .ok octets ∧ header.length = 24 ∧
          Composed .tscf pdu.messages header parts octets := by
  refine ⟨fun pdu hcheck ↦ ?_, fun pdu hcheck ↦ ?_⟩
  · have hmessages := (NtscfPdu.check_eq_ok_iff.mp hcheck).2
    exact ⟨_, _, _, NtscfPdu.encode_eq hcheck, Header.length_fill _ _,
      StreamForm.composed (NtscfPdu.sound_form hcheck) hmessages⟩
  · have hmessages := (TscfPdu.check_eq_ok_iff.mp hcheck).2
    exact ⟨_, _, _, TscfPdu.encode_eq hcheck, Header.length_fill _ _,
      StreamForm.composed (TscfPdu.sound_form hcheck) hmessages⟩

/-- A frame, and two bodies: one under the type of a CAN message, whose header it has no room for,
and one that holds the octets of a message. -/
def deceptiveMessages : List Acf.Message :=
  [.lin ⟨2, 0x3C, some 5, [4]⟩, .other .can [0xC0, 0], .other (.user 0x78) [0, 0, 0x02, 1, 0xC0, 0]]

/-- A data unit of each format with these messages. -/
theorem encode_composed_deceptive :
    (WireForm.check (NtscfPdu.mk none 9 deceptiveMessages) = .ok () ∧
        ∃ octets header parts,
          WireForm.encode (NtscfPdu.mk none 9 deceptiveMessages) = .ok octets ∧
            header.length = 12 ∧ Composed .ntscf deceptiveMessages header parts octets) ∧
      WireForm.check (TscfPdu.mk (some 7) true 9 false none 1 deceptiveMessages) = .ok () ∧
        ∃ octets header parts,
          WireForm.encode (TscfPdu.mk (some 7) true 9 false none 1 deceptiveMessages) =
              .ok octets ∧
            header.length = 24 ∧ Composed .tscf deceptiveMessages header parts octets :=
  ⟨⟨rfl, encode_composed.1 _ rfl⟩, rfl, encode_composed.2 _ rfl⟩

end Avtp
