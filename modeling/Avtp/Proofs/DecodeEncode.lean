import Avtp.Proofs.PayloadWalk
import Avtp.Proofs.StreamWire

/-!
# Decoding undoes encoding

A data unit that passes its check comes back from the wire, with anything behind it left over
(`decode_encode`). It comes back in the form that decoding gives (`canonical`): the flags of a CAN
frame without MTV and without bits that name no flag, and a message type under its assigned name.

**One exception.** A body may be sent under the type of a message with a header of its own. Nothing
on the wire tells it from such a message, so it comes back as one, or not at all. `Message.Plain`
excludes it.
-/

namespace Avtp

/-! ### Values that are written and read again -/

/-- A wide value is there if its flag says so, and then it is the join of its halves. -/
theorem ite_isSome_join_eq (value : Option UInt64) :
    (if value.isSome = true then
      some (WideValue.join (value.elim 0 WideValue.hi) (value.elim 0 WideValue.lo)) else none) =
        value := by
  cases value with
  | none => rfl
  | some value => exact congrArg some (WideValue.join_hi_lo value)

namespace Acf

namespace CanFlags

/-- The flags of a set, one by one, are its known part. -/
theorem ofBools_contains (flags : CanFlags) (mtv : Bool) :
    (ofBools mtv (flags.contains .rtr) (flags.contains .eff) (flags.contains .brs)
      (flags.contains .fdf) (flags.contains .esi)).diff .mtv = flags.known.diff .mtv := by
  -- A set of flags is an octet, so there are finitely many of them to look at.
  have hall : ∀ number < 256, ∀ mtv : Bool,
      (ofBools mtv (contains ⟨.ofNat number⟩ .rtr) (contains ⟨.ofNat number⟩ .eff)
        (contains ⟨.ofNat number⟩ .brs) (contains ⟨.ofNat number⟩ .fdf)
          (contains ⟨.ofNat number⟩ .esi)).diff .mtv = (known ⟨.ofNat number⟩).diff .mtv := by
    decide +kernel
  have h := hall flags.bits.toNat flags.bits.toNat_lt mtv
  rwa [UInt8.ofNat_toNat] at h

end CanFlags

/-! ### Frames -/

namespace CanFrame

/-- The frame as it comes back from the wire. -/
def canonical (frame : CanFrame) : CanFrame := { frame with flags := frame.flags.known.diff .mtv }

theorem ofView_eq {frame : CanFrame} {view : CanView} (hbrief : frame.brief = false)
    (hread : ∀ slot : CanSlot, view.read slot = frame.fullFraming.value slot)
    (hpayload : view.payload = frame.payload) : ofView view = frame.canonical := by
  have hmtv : view.mtv = frame.timestamp.isSome := View.flag_eq (hread .mtv)
  have hrtr : view.rtr = frame.flags.contains .rtr := View.flag_eq (hread .rtr)
  have heff : view.eff = frame.flags.contains .eff := View.flag_eq (hread .eff)
  have hbrs : view.brs = frame.flags.contains .brs := View.flag_eq (hread .brs)
  have hfdf : view.fdf = frame.flags.contains .fdf := View.flag_eq (hread .fdf)
  have hesi : view.esi = frame.flags.contains .esi := View.flag_eq (hread .esi)
  have hflags : view.flags.diff .mtv = frame.flags.known.diff .mtv := by
    rw [CanView.flags, hmtv, hrtr, heff, hbrs, hfdf, hesi, CanFlags.ofBools_contains]
  have hbus : view.canBusId = frame.busId := by
    rw [CanView.canBusId, hread]
    exact UInt8.ofNat_toNat
  have hidentifier : view.canIdentifier = frame.identifier := by
    rw [CanView.canIdentifier, hread]
    exact UInt32.ofNat_toNat
  have htime : (if view.mtv then some view.messageTimestamp else none) = frame.timestamp := by
    rw [hmtv, CanView.messageTimestamp, hread, hread]
    exact ite_isSome_join_eq frame.timestamp
  rw [ofView, canonical, hflags, hbus, hidentifier, htime, hpayload, ← hbrief]

theorem ofBriefView_eq {frame : CanFrame} {view : CanBriefView} (hbrief : frame.brief = true)
    (htime : frame.timestamp = none)
    (hread : ∀ slot : CanBriefSlot, view.read slot = frame.briefFraming.value slot)
    (hpayload : view.payload = frame.payload) : ofBriefView view = frame.canonical := by
  have hrtr : view.rtr = frame.flags.contains .rtr := View.flag_eq (hread .rtr)
  have heff : view.eff = frame.flags.contains .eff := View.flag_eq (hread .eff)
  have hbrs : view.brs = frame.flags.contains .brs := View.flag_eq (hread .brs)
  have hfdf : view.fdf = frame.flags.contains .fdf := View.flag_eq (hread .fdf)
  have hesi : view.esi = frame.flags.contains .esi := View.flag_eq (hread .esi)
  have hflags : view.flags.diff .mtv = frame.flags.known.diff .mtv := by
    rw [CanBriefView.flags, hrtr, heff, hbrs, hfdf, hesi, CanFlags.ofBools_contains]
  have hbus : view.canBusId = frame.busId := by
    rw [CanBriefView.canBusId, hread]
    exact UInt8.ofNat_toNat
  have hidentifier : view.canIdentifier = frame.identifier := by
    rw [CanBriefView.canIdentifier, hread]
    exact UInt32.ofNat_toNat
  rw [ofBriefView, canonical, hflags, hbus, hidentifier, hpayload, ← htime, ← hbrief]

end CanFrame

theorem LinFrame.ofView_eq {frame : LinFrame} {view : LinView}
    (hread : ∀ slot : LinSlot, view.read slot = frame.framing.value slot)
    (hpayload : view.payload = frame.payload) : LinFrame.ofView view = frame := by
  have hmtv : view.mtv = frame.timestamp.isSome := View.flag_eq (hread .mtv)
  have hbus : view.linBusId = frame.busId := by
    rw [LinView.linBusId, hread]
    exact UInt8.ofNat_toNat
  have hidentifier : view.linIdentifier = frame.identifier := by
    rw [LinView.linIdentifier, hread]
    exact UInt8.ofNat_toNat
  have htime : (if view.mtv then some view.messageTimestamp else none) = frame.timestamp := by
    rw [hmtv, LinView.messageTimestamp, hread, hread]
    exact ite_isSome_join_eq frame.timestamp
  rw [LinFrame.ofView, hbus, hidentifier, htime, hpayload]

/-! ### Messages -/

namespace Message

/-- The message as it comes back from the wire. -/
def canonical : Message → Message
  | .can frame => .can frame.canonical
  | .lin frame => .lin frame
  | .other type body => .other (.ofRaw type.raw) body

/-- The message is no body under the type of a message with a header of its own. -/
def Plain : Message → Prop
  | .other type _ => type.raw ≠ 0x01 ∧ type.raw ≠ 0x02 ∧ type.raw ≠ 0x03
  | _ => True

instance : (message : Message) → Decidable message.Plain
  | .can _ => isTrue trivial
  | .lin _ => isTrue trivial
  | .other type _ =>
    inferInstanceAs (Decidable (type.raw ≠ 0x01 ∧ type.raw ≠ 0x02 ∧ type.raw ≠ 0x03))

/-- **A message that passes its check is complete.** -/
theorem complete_wire {message : Message} (hcheck : message.check = .ok ()) :
    Complete ⟨message.wire⟩ where
  four_le := by
    rw [length_wire]
    exact four_le_size hcheck
  announced_eq := by
    have hannounced := announcedLength_wire hcheck []
    rw [List.append_nil] at hannounced
    rw [hannounced, length_wire]

/-- The wire form is cut off where it ends. -/
theorem ofOctets?_wire {message : Message} (hcheck : message.check = .ok ()) (rest : List UInt8) :
    ∃ extent, MessageExtent.ofOctets? (message.wire ++ rest) = .ok extent ∧
      extent.length = message.size :=
  ⟨_, (complete_wire hcheck).ofOctets?_append rest, message.length_wire⟩

end Message

/-- A message is taken under the header it was given. -/
theorem Framing.ofView?_octets {format : MessageFormat} {framing : Framing format}
    (hsound : framing.Sound) :
    TypedMessage.ofView? ⟨framing.octets⟩ =
      .ok (TypedMessage.ofFormat format ⟨framing.octets⟩) := by
  have htype : AcfView.msgType ⟨framing.octets⟩ = format.type := by
    have hannounced := Framing.announcedType_octets hsound []
    rwa [List.append_nil] at hannounced
  have hsplit := Framing.split?_octets hsound []
  rw [List.append_nil] at hsplit
  rw [TypedMessage.ofView?_of_type htype, AcfView.as?, hsplit]
  rfl

namespace Message

/-- A body is found again behind its type and length. -/
theorem ofView?_bodyOctets {type : MessageType} {body : List UInt8}
    (hcheck : check (.other type body) = .ok ()) (hplain : Plain (.other type body)) :
    ofView? ⟨bodyOctets type body⟩ = .ok (canonical (.other type body)) := by
  have hmsgType : AcfView.msgType ⟨bodyOctets type body⟩ = .ofRaw type.raw := by
    have hread := read_bodyOctets hcheck .msgType []
    rw [List.append_nil] at hread
    rw [AcfView.msgType, AcfView.rawMsgType, View.read, hread]
    exact congrArg MessageType.ofRaw UInt8.ofNat_toNat
  have hnone : ∀ format : MessageFormat, AcfView.msgType ⟨bodyOctets type body⟩ ≠ format.type := by
    intro format htype
    have hraw : type.raw = format.type.raw := by
      rw [← htype, hmsgType, MessageType.raw_ofRaw]
    obtain ⟨hcan, hbrief, hlin⟩ := hplain
    cases format with
    | can => exact hcan hraw
    | canBrief => exact hbrief hraw
    | lin => exact hlin hraw
  have hpayload : View.payload (h := .acf) ⟨bodyOctets type body⟩ = body := by
    have hlen : 2 ≤ (bodyOctets type body).length := by
      rw [length_bodyOctets]
      exact Nat.le_add_right _ _
    have hle : body.length ≤ (bodyOctets type body).length - 2 := by
      rw [length_bodyOctets]
      omega
    show (Octets.slice? _ 2 (bodyOctets type body).length).getD [] = body
    rw [Octets.slice?, if_pos ⟨hlen, Nat.le_refl _⟩, Option.getD_some, drop_bodyOctets hcheck,
      List.take_of_length_le hle]
  rw [ofView?, TypedMessage.ofView?_of_not_type hnone]
  show Except.ok (Message.other _ _) = _
  rw [hmsgType, hpayload, canonical]

/-- **A message that passes its check comes back from the wire.** -/
theorem ofView?_wire {message : Message} (hcheck : message.check = .ok ())
    (hplain : message.Plain) : ofView? ⟨message.wire⟩ = .ok message.canonical := by
  cases message with
  | can frame =>
    rcases hbrief : frame.brief with - | -
    · have hsound := CanFrame.sound_full hbrief hcheck
      rw [wire, hbrief, if_neg Bool.false_ne_true, ofView?, Framing.ofView?_octets hsound]
      exact congrArg (Except.ok ∘ Message.can)
        (CanFrame.ofView_eq hbrief (Framing.read_view hsound) (Framing.payload_view hsound))
    · have hsound := CanFrame.sound_brief hbrief hcheck
      have htime : frame.timestamp = none := by
        have hnot := (CanFrame.check_eq_ok_iff.mp hcheck).1
        rw [← Option.not_isSome_iff_eq_none]
        exact fun hsome ↦ hnot ⟨hbrief, hsome⟩
      rw [wire, hbrief, if_pos rfl, ofView?, Framing.ofView?_octets hsound]
      exact congrArg (Except.ok ∘ Message.can) (CanFrame.ofBriefView_eq hbrief htime
        (Framing.read_view hsound) (Framing.payload_view hsound))
  | lin frame =>
    have hsound := LinFrame.sound_framing hcheck
    rw [wire, ofView?, Framing.ofView?_octets hsound]
    exact congrArg (Except.ok ∘ Message.lin)
      (LinFrame.ofView_eq (Framing.read_view hsound) (Framing.payload_view hsound))
  | other type body => exact ofView?_bodyOctets hcheck hplain

/-- **A sequence of messages comes back from the wire**, in its order. -/
theorem ofPayload?_flatMap {messages : List Message} (hcheck : checkAll messages = .ok ())
    (hplain : ∀ message ∈ messages, message.Plain) :
    ofPayload? (messages.flatMap wire) = .ok (messages.map canonical) := by
  rw [checkAll_eq_ok_iff] at hcheck
  induction messages with
  | nil => exact ofPayload?_nil
  | cons message messages ih =>
    obtain ⟨hmessage, hmessages⟩ := List.forall_mem_cons.mp hcheck
    obtain ⟨hplain, hplains⟩ := List.forall_mem_cons.mp hplain
    obtain ⟨extent, hextent, hlength⟩ := ofOctets?_wire hmessage (messages.flatMap wire)
    rw [List.flatMap_cons, List.map_cons, ofPayload?_cons_eq_ok_iff]
    refine ⟨extent, hextent, ?_, ?_⟩
    · rw [hlength, List.take_left' message.length_wire]
      exact ofView?_wire hmessage hplain
    · rw [hlength, List.drop_left' message.length_wire]
      exact ih hmessages hplains

end Message

end Acf

/-! ### Data units -/

namespace NtscfPdu

/-- The data unit as it comes back from the wire. -/
def canonical (pdu : NtscfPdu) : NtscfPdu :=
  { pdu with messages := pdu.messages.map Acf.Message.canonical }

theorem ofView?_eq {pdu : NtscfPdu} {view : NtscfView}
    (hread : ∀ slot : NtscfSlot, view.read slot = pdu.form.value slot)
    (hmessages : Acf.Message.ofPayload? view.payload =
      .ok (pdu.messages.map Acf.Message.canonical)) :
    ofView? view = .ok pdu.canonical := by
  have hsv : view.sv = pdu.streamId.isSome := View.flag_eq (hread .sv)
  have hid : (if view.sv then some view.streamId else none) = pdu.streamId := by
    rw [hsv, NtscfView.streamId, hread, hread]
    exact ite_isSome_join_eq pdu.streamId
  have hsequence : view.sequenceNum = pdu.sequenceNum := by
    rw [NtscfView.sequenceNum, hread]
    exact UInt8.ofNat_toNat
  rw [ofView?, hmessages]
  show Except.ok (NtscfPdu.mk _ _ _) = _
  rw [hid, hsequence, canonical]

end NtscfPdu

namespace TscfPdu

/-- The data unit as it comes back from the wire. -/
def canonical (pdu : TscfPdu) : TscfPdu :=
  { pdu with messages := pdu.messages.map Acf.Message.canonical }

theorem ofView?_eq {pdu : TscfPdu} {view : TscfView}
    (hread : ∀ slot : TscfSlot, view.read slot = pdu.form.value slot)
    (hmessages : Acf.Message.ofPayload? view.payload =
      .ok (pdu.messages.map Acf.Message.canonical)) :
    ofView? view = .ok pdu.canonical := by
  have hsv : view.sv = pdu.streamId.isSome := View.flag_eq (hread .sv)
  have htv : view.tv = pdu.avtpTimestamp.isSome := View.flag_eq (hread .tv)
  have hmr : view.mr = pdu.mr := View.flag_eq (hread .mr)
  have htu : view.tu = pdu.tu := View.flag_eq (hread .tu)
  have hid : (if view.sv then some view.streamId else none) = pdu.streamId := by
    rw [hsv, TscfView.streamId, hread, hread]
    exact ite_isSome_join_eq pdu.streamId
  have htime : (if view.tv then some view.avtpTimestamp else none) = pdu.avtpTimestamp := by
    rw [htv, TscfView.avtpTimestamp, hread]
    show (if pdu.avtpTimestamp.isSome = true then
      some (UInt32.ofNat (pdu.avtpTimestamp.elim 0 UInt32.toNat)) else none) = pdu.avtpTimestamp
    rcases pdu.avtpTimestamp with - | time
    · rfl
    · exact congrArg some UInt32.ofNat_toNat
  have hsequence : view.sequenceNum = pdu.sequenceNum := by
    rw [TscfView.sequenceNum, hread]
    exact UInt8.ofNat_toNat
  have hgateway : view.gatewayInfo = pdu.gatewayInfo := by
    rw [TscfView.gatewayInfo, hread]
    exact UInt32.ofNat_toNat
  rw [ofView?, hmessages]
  show Except.ok (TscfPdu.mk _ _ _ _ _ _ _) = _
  rw [hid, hmr, hsequence, htu, htime, hgateway, canonical]

end TscfPdu

/-- **Decoding undoes encoding.** A data unit that passes its check has a wire form, and whatever is
behind that form, decoding gives the data unit back and leaves the rest. -/
theorem decode_encode :
    (∀ pdu : NtscfPdu, WireForm.check pdu = .ok () → (∀ message ∈ pdu.messages, message.Plain) →
        ∃ octets, WireForm.encode pdu = .ok octets ∧
          ∀ trailing, NtscfPdu.decode? (octets ++ trailing) = .ok (pdu.canonical, trailing)) ∧
      ∀ pdu : TscfPdu, WireForm.check pdu = .ok () → (∀ message ∈ pdu.messages, message.Plain) →
        ∃ octets, WireForm.encode pdu = .ok octets ∧
          ∀ trailing, TscfPdu.decode? (octets ++ trailing) = .ok (pdu.canonical, trailing) := by
  refine ⟨fun pdu hcheck hplain ↦ ?_, fun pdu hcheck hplain ↦ ?_⟩
  · have hsound := NtscfPdu.sound_form hcheck
    have hmessages := Acf.Message.ofPayload?_flatMap (NtscfPdu.check_eq_ok_iff.mp hcheck).2 hplain
    refine ⟨pdu.form.octets, NtscfPdu.encode_eq hcheck, fun trailing ↦ ?_⟩
    have hview := NtscfPdu.ofView?_eq (StreamForm.read_view hsound)
      ((congrArg Acf.Message.ofPayload? pdu.form.payload_view).trans hmessages)
    exact NtscfPdu.decode?_eq_ok_iff.mpr ⟨_, StreamForm.split?_octets hsound trailing, hview⟩
  · have hsound := TscfPdu.sound_form hcheck
    have hmessages := Acf.Message.ofPayload?_flatMap (TscfPdu.check_eq_ok_iff.mp hcheck).2 hplain
    refine ⟨pdu.form.octets, TscfPdu.encode_eq hcheck, fun trailing ↦ ?_⟩
    have hview := TscfPdu.ofView?_eq (StreamForm.read_view hsound)
      ((congrArg Acf.Message.ofPayload? pdu.form.payload_view).trans hmessages)
    exact TscfPdu.decode?_eq_ok_iff.mpr ⟨_, StreamForm.split?_octets hsound trailing, hview⟩

/-- One message of each kind: a CAN frame with flags that are dropped, a brief one, a LIN frame, and
a body whose type has an assigned name. -/
def mixedMessages : List Acf.Message :=
  [.can ⟨⟨0xE8⟩, 3, 0x1ABCDEF, some 5, false, [1, 2, 3]⟩, .can ⟨⟨0x02⟩, 1, 0x7FF, none, true, []⟩,
    .lin ⟨2, 0x3C, none, [4, 5]⟩, .other (.other 0x06) [7, 8]]

/-- A data unit of each format with these messages comes back from the wire. -/
theorem decode_encode_mixed :
    (∃ octets, WireForm.encode (NtscfPdu.mk none 9 mixedMessages) = .ok octets ∧
        ∀ trailing, NtscfPdu.decode? (octets ++ trailing) =
          .ok ((NtscfPdu.mk none 9 mixedMessages).canonical, trailing)) ∧
      ∃ octets, WireForm.encode (TscfPdu.mk (some 7) true 9 false none 1 mixedMessages) =
          .ok octets ∧
        ∀ trailing, TscfPdu.decode? (octets ++ trailing) =
          .ok ((TscfPdu.mk (some 7) true 9 false none 1 mixedMessages).canonical, trailing) :=
  ⟨decode_encode.1 _ rfl (by decide), decode_encode.2 _ rfl (by decide)⟩

end Avtp
