import Avtp.Proofs.DroppedFields

/-!
# Encoding undoes decoding

What is decoded and encoded again is what was there, except for the bits that no value carries,
which become zero (`encode_decode`). The comparison is made bit by bit and from the inside out: a
message against its view, a sequence of messages against the payload, a data unit against the
buffer.

**Two sources of equality.** In a header every bit belongs to a field, and the value of the field is
the one that was read or zero, so the bits follow from the values (`Header.bit?_fill`). Behind a
header there is nothing to compute, and the octets of the payload are copied.

**The one thing that is refused.** Decoding accepts a CAN identifier of up to 29 bits whatever the
flags say. Encoding does not, so a data unit that was decoded can fail to encode, and `Message.Wide`
is the only reason for it.
-/

namespace Avtp

/-! ### Headers without gaps -/

theorem Acf.MessageFormat.isTiled (format : MessageFormat) : format.header.isTiled = true := by
  cases format <;> decide +kernel

theorem StreamFormat.isTiled (format : StreamFormat) : format.header.isTiled = true := by
  cases format <;> decide +kernel

theorem Header.lt_of_covers {h : Header} {slot : h.Slot} {i : Nat}
    (hcov : (Header.place slot).covers i = true) : i < 8 * h.size := by
  have hbounds := BitField.bounds_of_covers hcov
  have hreq := Header.place_requiredOctets_le slot
  unfold BitField.requiredOctets at hreq
  omega

theorem Header.any_covers_eq_false {h : Header} {i : Nat} (hi : 8 * h.size ≤ i)
    (slots : List h.Slot) : slots.any (fun slot ↦ (Header.place slot).covers i) = false := by
  refine List.any_eq_false.mpr fun slot _ hcov ↦ ?_
  have hlt := Header.lt_of_covers hcov
  omega

namespace Acf

/-! ### One message -/

/-- **A message with a header of its own has the bits of the view it was read from**, except for the
dropped ones, which are zero. -/
theorem Framing.bit?_octets {format : MessageFormat} {view : View format.header}
    (haccepted : Accepted view) {framing : Framing format} (hsound : framing.Sound)
    (hpayload : framing.payload = view.payload)
    (hvalue : ∀ slot, framing.value slot = if slot ∈ view.dropped then 0 else view.read slot)
    {i : Nat} (hi : i < 8 * view.octets.length) :
    Octets.bit? framing.octets i =
      if view.drops i then some false else Octets.bit? view.octets i := by
  have hroom := haccepted.room
  have hsize := haccepted.size_eq framing hpayload
  have hpad := haccepted.padding_eq framing hpayload
  have hlen := haccepted.length_payload
  rw [View.drops, haccepted.payloadRange_eq]
  rcases Nat.lt_or_ge i (8 * format.header.size) with hhead | hhead
  · have hstop : ¬ 8 * (view.octets.length - view.read format.padSlot) ≤ i := by omega
    rw [decide_eq_false hstop, Bool.or_false]
    exact Header.bit?_fill format.isTiled hsound.toFills (by omega) hvalue _ hhead
  · have hfill : (format.header.fill framing.slots framing.value).length = format.header.size :=
      Header.length_fill _ _
    rw [Header.any_covers_eq_false hhead, Bool.false_or, Framing.octets,
      Octets.bit?_append_right _ (hfill ▸ hhead), hfill, hpayload]
    -- Behind the header there is the payload, and behind the payload there are zeros.
    rcases Nat.lt_or_ge i (8 * (view.octets.length - view.read format.padSlot)) with
      hbody | hpadding
    · rw [decide_eq_false (by omega), if_neg Bool.false_ne_true,
        Octets.bit?_append_left _ (by omega), haccepted.payload_eq, Octets.bit?_take (by omega),
        Octets.bit?_drop]
      congr 1
      omega
    · rw [decide_eq_true hpadding, if_pos rfl, Octets.bit?_append_right _ (by omega),
        Octets.bit?_replicate_zero (by omega)]

/-- A complete message of a type, with room for its header and padding, is accepted as such. -/
theorem accepted_of_type {view : AcfView} (hcomplete : Complete view) {format : MessageFormat}
    (htype : view.msgType = format.type)
    (hroom : format.header.size + (Header.place format.padSlot).read view.octets ≤
      view.octets.length) : Accepted (⟨view.octets⟩ : View format.header) where
  type_eq := by
    have hraw : view.rawMsgType = format.type.raw := by
      rw [← htype, AcfView.msgType, MessageType.raw_ofRaw]
    rw [← hraw, View.read, format.place_typeSlot]
    exact (View.toNat_octet (by decide)).symm
  length_eq := by
    rw [View.read, format.place_lengthSlot]
    exact hcomplete.announced_eq
  room := hroom

/-- A value that was read fits into any field as wide as the one it was read from. -/
theorem holds_of_value {h : Header} {view : View h} {slot : h.Slot} {field : BitField} {value : Nat}
    (hvalue : value = view.read slot) (hwidth : (Header.place slot).width = field.width) :
    field.Holds value := by
  rw [BitField.holds_iff_lt_two_pow, hvalue, ← hwidth]
  exact view.read_lt slot

theorem Accepted.holds_length {format : MessageFormat} {view : View format.header}
    (haccepted : Accepted view) {size : Nat} (hsize : size = view.octets.length) :
    (Header.place (h := .acf) AcfSlot.msgLength).Holds (size / 4) := by
  rw [haccepted.size_div_four_eq hsize, View.read, format.place_lengthSlot]
  exact BitField.holds_read _ _

namespace Message

/-- The message is a CAN frame whose identifier needs the extended format and does not have it. -/
def Wide : Message → Prop
  | .can frame => ¬ frame.flags.contains .eff = true ∧ 0x7FF < frame.identifier.toNat
  | _ => False

theorem check_can_ofView {view : View MessageFormat.can.header} (haccepted : Accepted view) :
    check (.can (CanFrame.ofView view)) = .ok () ↔ ¬ Wide (.can (CanFrame.ofView view)) := by
  have hbus : (CanFrame.ofView view).busId.toNat = view.read CanSlot.canBusId :=
    View.toNat_octet (by decide)
  have hidentifier : (CanFrame.ofView view).identifier.toNat = view.read CanSlot.canIdentifier :=
    View.toNat_word _
  have hlength := haccepted.holds_length (CanFrame.size_ofView haccepted)
  have hbrief : ¬ ((CanFrame.ofView view).brief = true ∧
      (CanFrame.ofView view).timestamp.isSome = true) := fun h ↦ Bool.false_ne_true h.1
  rw [check, CanFrame.check_eq_ok_iff]
  exact ⟨fun h ↦ h.2.1, fun h ↦
    ⟨hbrief, h, holds_of_value hbus rfl, holds_of_value hidentifier rfl, hlength⟩⟩

theorem check_can_ofBriefView {view : View MessageFormat.canBrief.header}
    (haccepted : Accepted view) :
    check (.can (CanFrame.ofBriefView view)) = .ok () ↔
      ¬ Wide (.can (CanFrame.ofBriefView view)) := by
  have hbus : (CanFrame.ofBriefView view).busId.toNat = view.read CanBriefSlot.canBusId :=
    View.toNat_octet (by decide)
  have hidentifier : (CanFrame.ofBriefView view).identifier.toNat =
      view.read CanBriefSlot.canIdentifier := View.toNat_word _
  have hlength := haccepted.holds_length (CanFrame.size_ofBriefView haccepted)
  have htime : ¬ ((CanFrame.ofBriefView view).brief = true ∧
      (CanFrame.ofBriefView view).timestamp.isSome = true) := fun h ↦ Bool.false_ne_true h.2
  rw [check, CanFrame.check_eq_ok_iff]
  exact ⟨fun h ↦ h.2.1, fun h ↦
    ⟨htime, h, holds_of_value hbus rfl, holds_of_value hidentifier rfl, hlength⟩⟩

theorem check_lin_ofView {view : View MessageFormat.lin.header} (haccepted : Accepted view) :
    check (.lin (LinFrame.ofView view)) = .ok () := by
  have hbus : (LinFrame.ofView view).busId.toNat = view.read LinSlot.linBusId :=
    View.toNat_octet (by decide)
  have hlength := haccepted.holds_length (LinFrame.size_ofView haccepted)
  rw [check, LinFrame.check_eq_ok_iff]
  exact ⟨holds_of_value hbus rfl, hlength⟩

/-- The body of a complete message is everything behind its first two octets. -/
theorem payload_acf {view : AcfView} (hcomplete : Complete view) :
    view.payload = view.octets.drop 2 := by
  have hmin := hcomplete.four_le
  have hlen : 2 ≤ view.octets.length := by omega
  show (Octets.slice? view.octets 2 view.octets.length).getD [] = _
  rw [Octets.slice?, if_pos ⟨hlen, Nat.le_refl _⟩, Option.getD_some, ← List.length_drop,
    List.take_length]

theorem length_body {view : AcfView} (hcomplete : Complete view) :
    2 + view.payload.length = view.octets.length := by
  have hmin := hcomplete.four_le
  rw [payload_acf hcomplete, List.length_drop]
  omega

theorem check_other_ofView {view : AcfView} (hcomplete : Complete view) :
    check (.other view.msgType view.payload) = .ok () := by
  have htype : view.msgType.raw.toNat = view.read AcfSlot.msgType := by
    rw [AcfView.msgType, MessageType.raw_ofRaw]
    exact View.toNat_octet (by decide)
  have hlength : view.octets.length / 4 = view.read AcfSlot.msgLength := by
    rw [← hcomplete.announced_eq]
    exact Nat.mul_div_cancel_left _ (by decide)
  rw [check_other_eq_ok_iff, length_body hcomplete]
  exact ⟨holds_of_value htype rfl, hcomplete.four_le, ⟨_, hcomplete.announced_eq.symm⟩,
    holds_of_value hlength rfl⟩

/-- **A message of another type is reproduced octet by octet.** -/
theorem bodyOctets_ofView {view : AcfView} (hcomplete : Complete view) :
    bodyOctets view.msgType view.payload = view.octets := by
  have hmin := hcomplete.four_le
  have hfront : (view.octets.take 2).length = 2 := by
    rw [List.length_take]
    omega
  have hassign := assignAll_front (check_other_ofView hcomplete) hfront
  rw [payload_acf hcomplete, List.take_append_drop, ← payload_acf hcomplete] at hassign
  rw [← hassign]
  refine Header.assignAll_eq_self hmin fun slot _ ↦ ?_
  cases slot with
  | msgType =>
    rw [bodyValue, AcfView.msgType, MessageType.raw_ofRaw]
    exact (View.toNat_octet (by decide)).symm
  | msgLength =>
    rw [bodyValue, length_body hcomplete, ← hcomplete.announced_eq]
    exact (Nat.mul_div_cancel_left _ (by decide)).symm

/-- What a message has in common with the octets it was read from. -/
structure ReadFrom (message : Message) (view : AcfView) : Prop where
  size_eq : message.size = view.octets.length
  check_iff : message.check = .ok () ↔ ¬ message.Wide
  bit?_wire : message.check = .ok () → ∀ i < 8 * view.octets.length,
    Octets.bit? message.wire i =
      if dropsAll [view] i then some false else Octets.bit? view.octets i

/-- **A message is encoded as it was read**, whatever its type. -/
theorem readFrom_of_ofView? {view : AcfView} (hcomplete : Complete view) {message : Message}
    (h : ofView? view = .ok message) : ReadFrom message view := by
  obtain ⟨typed, htyped, rfl⟩ := map_eq_ok_iff.mp h
  have hdrops {i : Nat} (hi : i < 8 * view.octets.length) : dropsAll [view] i = typed.drops i := by
    rw [dropsAll, if_pos hi, htyped]
  rcases (TypedMessage.ofView?_eq_ok_iff hcomplete).mp htyped with
    ⟨format, htype, hroom, rfl⟩ | ⟨-, rfl⟩
  · have haccepted := accepted_of_type hcomplete htype hroom
    cases format with
    | can =>
      refine ⟨CanFrame.size_ofView haccepted, check_can_ofView haccepted, fun hcheck i hi ↦ ?_⟩
      have hsound : (CanFrame.ofView ⟨view.octets⟩).fullFraming.Sound :=
        CanFrame.sound_full rfl hcheck
      rw [hdrops hi]
      exact Framing.bit?_octets haccepted hsound rfl (CanFrame.value_ofView haccepted) hi
    | canBrief =>
      refine ⟨CanFrame.size_ofBriefView haccepted, check_can_ofBriefView haccepted,
        fun hcheck i hi ↦ ?_⟩
      have hsound : (CanFrame.ofBriefView ⟨view.octets⟩).briefFraming.Sound :=
        CanFrame.sound_brief rfl hcheck
      rw [hdrops hi]
      exact Framing.bit?_octets haccepted hsound rfl (CanFrame.value_ofBriefView haccepted) hi
    | lin =>
      have hcheck := check_lin_ofView haccepted
      refine ⟨LinFrame.size_ofView haccepted, iff_of_true hcheck id, fun hcheck i hi ↦ ?_⟩
      rw [hdrops hi]
      exact Framing.bit?_octets haccepted (LinFrame.sound_framing hcheck) rfl
        (LinFrame.value_ofView haccepted) hi
  · refine ⟨length_body hcomplete, iff_of_true (check_other_ofView hcomplete) id,
      fun _ i hi ↦ ?_⟩
    have hbehind : TypedMessage.drops (.other view) i = false := decide_eq_false (Nat.not_le.mpr hi)
    rw [hdrops hi, hbehind, if_neg Bool.false_ne_true]
    exact congrArg (Octets.bit? · i) (bodyOctets_ofView hcomplete)

/-! ### Sequences of messages -/

/-- What a sequence of messages has in common with the payload it was read from. -/
structure ReadAllFrom (messages : List Message) (payload : List UInt8) : Prop where
  totalSize_eq : totalSize messages = payload.length
  check_iff : checkAll messages = .ok () ↔ ∀ message ∈ messages, ¬ message.Wide
  bit?_wire : checkAll messages = .ok () → ∀ i < 8 * payload.length,
    Octets.bit? (messages.flatMap wire) i =
      if dropsAll (Walk.start payload).views i then some false else Octets.bit? payload i

/-- **A payload is encoded as it was read**, message by message. -/
theorem readAllFrom_of_ofPayload? {messages : List Message} {payload : List UInt8}
    (h : ofPayload? payload = .ok messages) : ReadAllFrom messages payload := by
  induction messages generalizing payload with
  | nil =>
    obtain rfl := ofPayload?_eq_ok_nil_iff.mp h
    exact ⟨rfl, iff_of_true rfl nofun, fun _ i hi ↦ absurd hi (Nat.not_lt_zero i)⟩
  | cons message messages ih =>
    obtain ⟨extent, hextent, hview, hrest⟩ := ofPayload?_cons_eq_ok_iff.mp h
    have hlength := (MessageExtent.length_of_ofOctets? hextent).2
    have hfront : (payload.take extent.length).length = extent.length := by
      rw [List.length_take]
      exact Nat.min_eq_left hlength
    obtain ⟨hsize, hcheck, hbits⟩ := readFrom_of_ofView? (complete_of_ofOctets? hextent) hview
    obtain ⟨hsizes, hchecks, hrestBits⟩ := ih hrest
    simp only [hfront] at hsize hbits
    rw [List.length_drop] at hsizes hrestBits
    refine ⟨?_, ?_, fun hall i hi ↦ ?_⟩
    · rw [totalSize, hsize, hsizes]
      omega
    · rw [checkAll_eq_ok_iff, List.forall_mem_cons, List.forall_mem_cons, hcheck,
        ← checkAll_eq_ok_iff, hchecks]
    · obtain ⟨hmessage, hmessages⟩ := List.forall_mem_cons.mp (checkAll_eq_ok_iff.mp hall)
      have hwire : message.wire.length = extent.length := (length_wire message).trans hsize
      rw [List.flatMap_cons, Walk.views_start_of_ok hextent]
      -- A bit of the first message, or one of the others, counted from behind the first.
      rcases Nat.lt_or_ge i (8 * extent.length) with hi' | hi'
      · have hbit := hbits hmessage i hi'
        rw [dropsAll, hfront, if_pos hi', Octets.bit?_take hi'] at hbit
        rw [Octets.bit?_append_left _ (hwire ▸ hi'), dropsAll, hfront, if_pos hi', hbit]
      · have hbit := hrestBits (checkAll_eq_ok_iff.mpr hmessages) (i - 8 * extent.length) (by omega)
        rw [Octets.bit?_drop, Nat.add_sub_of_le hi'] at hbit
        rw [Octets.bit?_append_right _ (hwire ▸ hi'), hwire, dropsAll, hfront,
          if_neg (Nat.not_lt.mpr hi'), hbit]

end Message

end Acf

/-! ### Data units -/

namespace StreamFormat

variable {format : StreamFormat}

/-- The view is a whole data unit of its format. -/
structure Accepted (view : View format.header) : Prop where
  subtype_eq : view.read format.subtypeSlot = format.subtype.raw.toNat
  version_eq : view.read format.versionSlot = protocolVersion.toNat
  length_eq : view.octets.length = format.header.size + view.read format.dataLengthSlot

/-- A data unit that was cut off a buffer is a whole one. -/
theorem accepted_of_split? (format : StreamFormat) {buf rest : List UInt8}
    {view : View format.header}
    (h : View.split? format.header buf = .ok (view, rest)) :
    Accepted view ∧ buf = view.octets ++ rest := by
  obtain ⟨count, hcount, rfl, rfl⟩ := View.split?_eq_ok_iff.mp h
  obtain ⟨hmin, hmax⟩ := Header.bounds_of_extent? hcount
  rw [format.extent?_header, map_eq_ok_iff] at hcount
  obtain ⟨payload, hpayload, rfl⟩ := hcount
  obtain ⟨hsubtype, hversion, hlength, -⟩ := dataLength?_eq_ok_iff.mp hpayload
  have hcut : (buf.take (format.header.size + payload)).length = format.header.size + payload := by
    rw [List.length_take]
    exact Nat.min_eq_left hmax
  have hread (slot : format.header.Slot) : (Header.place slot).read buf =
      View.read (h := format.header) ⟨buf.take (format.header.size + payload)⟩ slot := by
    have hfront := Header.read_append slot (buf.drop (format.header.size + payload))
      (hcut.symm ▸ hmin)
    rwa [List.take_append_drop] at hfront
  rw [← format.place_subtypeSlot, hread] at hsubtype
  rw [← format.place_versionSlot, hread] at hversion
  rw [hread] at hlength
  exact ⟨⟨hsubtype, hversion, hcut.trans (congrArg _ hlength.symm)⟩,
    (List.take_append_drop _ buf).symm⟩

theorem Accepted.payload_eq {view : View format.header} (haccepted : Accepted view) :
    view.payload = view.octets.drop format.header.size := by
  have hlength := haccepted.length_eq
  rw [View.payload, payloadRange_stream, Octets.slice?, if_pos (by omega), Option.getD_some,
    ← List.length_drop, List.take_length]

theorem Accepted.length_payload {view : View format.header} (haccepted : Accepted view) :
    view.payload.length = view.read format.dataLengthSlot := by
  rw [haccepted.payload_eq, List.length_drop, haccepted.length_eq, Nat.add_sub_cancel_left]

end StreamFormat

/-- **A data unit has the bits of the view it was read from**, except for the dropped ones, which
are zero. -/
theorem StreamForm.bit?_octets {format : StreamFormat} {view : View format.header}
    (haccepted : StreamFormat.Accepted view) {form : StreamForm format} (hsound : form.Sound)
    (hcheck : Acf.Message.checkAll form.messages = .ok ())
    (hmessages : Acf.Message.ReadAllFrom form.messages view.payload)
    (hvalue : ∀ slot, form.value slot = if slot ∈ view.dropped then 0 else view.read slot)
    {i : Nat} (hi : i < 8 * view.octets.length) :
    Octets.bit? form.octets i =
      if format.drops view i then some false else Octets.bit? view.octets i := by
  have hlength := haccepted.length_eq
  rw [StreamFormat.drops]
  rcases Nat.lt_or_ge i (8 * format.header.size) with hhead | hbody
  · rw [if_pos hhead]
    exact Header.bit?_fill format.isTiled hsound.toFills (by omega) hvalue _ hhead
  · have hfill : (format.header.fill form.slots form.value).length = format.header.size :=
      Header.length_fill _ _
    have hbit := hmessages.bit?_wire hcheck (i - 8 * format.header.size)
      (by rw [haccepted.length_payload]; omega)
    rw [if_neg (Nat.not_lt.mpr hbody), StreamForm.octets,
      Octets.bit?_append_right _ (hfill ▸ hbody), hfill, hbit, haccepted.payload_eq,
      Octets.bit?_drop, Nat.add_sub_of_le hbody]

/-- What encoding makes of a value with the given messages that was decoded from a buffer. -/
structure Reencodes {α : Type} [WireForm α] (value : α) (messages : List Acf.Message)
    (buf rest : List UInt8) (drops : Nat → Bool) : Prop where
  /-- The value is as long as what decoding took. -/
  size_eq : WireForm.size value = buf.length - rest.length
  /-- Decoding took the front of the buffer. -/
  rest_eq : rest = buf.drop (WireForm.size value)
  /-- Encoding fails only for an identifier that is too wide. -/
  error_iff : (∃ reason, WireForm.encode value = .error reason) ↔
    ∃ message ∈ messages, message.Wide
  length_eq : ∀ out, WireForm.encode value = .ok out → out.length = WireForm.size value
  /-- The bits are those that were decoded, except for those that are dropped. -/
  bit?_eq : ∀ out, WireForm.encode value = .ok out → ∀ i < 8 * out.length,
    Octets.bit? out i = if drops i then some false else Octets.bit? buf i

/-- What both formats share: a value is encoded as it was read if it is checked for the length and
the messages alone, and encoded as a form whose header has the values that were read. -/
theorem StreamFormat.reencodes_of_form (format : StreamFormat) {α : Type} [WireForm α] {value : α}
    {form : StreamForm format} {view : View format.header} {buf rest : List UInt8}
    (hsplit : View.split? format.header buf = .ok (view, rest))
    (hmessages : Acf.Message.ReadAllFrom form.messages view.payload)
    (hvalue : ∀ slot, form.value slot = if slot ∈ view.dropped then 0 else view.read slot)
    (hsize : WireForm.size value = form.size)
    (hcheck : WireForm.check value = .ok () ↔
      (Header.place format.dataLengthSlot).Holds (Acf.Message.totalSize form.messages) ∧
        Acf.Message.checkAll form.messages = .ok ())
    (hsound : WireForm.check value = .ok () → form.Sound)
    (hencode : WireForm.check value = .ok () → WireForm.encode value = .ok form.octets) :
    Reencodes value form.messages buf rest (format.drops view) := by
  obtain ⟨haccepted, rfl⟩ := format.accepted_of_split? hsplit
  have hlength : form.size = view.octets.length := by
    rw [StreamForm.size, hmessages.totalSize_eq, haccepted.length_payload, haccepted.length_eq]
  have hholds : (Header.place format.dataLengthSlot).Holds
      (Acf.Message.totalSize form.messages) := by
    rw [hmessages.totalSize_eq, haccepted.length_payload]
    exact BitField.holds_read _ _
  have hfits : WireForm.check value = .ok () ↔ ∀ message ∈ form.messages, ¬ message.Wide := by
    rw [hcheck, ← hmessages.check_iff]
    exact and_iff_right hholds
  -- What encoding yields is the form, as nothing is encoded that does not pass its check.
  have hout {out : List UInt8} (h : WireForm.encode value = .ok out) :
      WireForm.check value = .ok () ∧ out = form.octets := by
    rcases hc : WireForm.check value with reason | ⟨⟩
    · rw [WireForm.encode_eq_error hc] at h
      simp at h
    · exact ⟨rfl, Except.ok.inj (h.symm.trans (hencode hc))⟩
  refine ⟨?_, ?_, ?_, ?_, ?_⟩
  · rw [hsize, hlength, List.length_append, Nat.add_sub_cancel]
  · rw [hsize, hlength, List.drop_left]
  · constructor
    · rintro ⟨reason, hreason⟩
      by_contra hnone
      have hok := hfits.mpr fun message hmem hwide ↦ hnone ⟨message, hmem, hwide⟩
      rw [hencode hok] at hreason
      simp at hreason
    · rintro ⟨message, hmem, hwide⟩
      rcases hc : WireForm.check value with reason | ⟨⟩
      · exact ⟨_, WireForm.encode_eq_error hc⟩
      · exact absurd hwide (hfits.mp hc message hmem)
  · intro out h
    obtain ⟨-, rfl⟩ := hout h
    rw [StreamForm.length_octets, hsize]
  · intro out h i hi
    obtain ⟨hok, rfl⟩ := hout h
    rw [StreamForm.length_octets, hlength] at hi
    rw [StreamForm.bit?_octets haccepted (hsound hok) (hcheck.mp hok).2 hmessages hvalue hi,
      Octets.bit?_append_left rest hi]

/-- **Encoding undoes decoding**, up to the bits that a value does not carry. -/
theorem encode_decode :
    (∀ buf pdu rest, NtscfPdu.decode? buf = .ok (pdu, rest) →
        ∃ view, View.split? .ntscf buf = .ok (view, rest) ∧
          Reencodes pdu pdu.messages buf rest (StreamFormat.ntscf.drops view)) ∧
      ∀ buf pdu rest, TscfPdu.decode? buf = .ok (pdu, rest) →
        ∃ view, View.split? .tscf buf = .ok (view, rest) ∧
          Reencodes pdu pdu.messages buf rest (StreamFormat.tscf.drops view) := by
  constructor
  · intro buf pdu rest hdecode
    obtain ⟨view, hsplit, hview⟩ := NtscfPdu.decode?_eq_ok_iff.mp hdecode
    obtain ⟨messages, hpayload, hpdu⟩ := map_eq_ok_iff.mp hview
    have hmessages : Acf.Message.ReadAllFrom pdu.messages view.payload :=
      hpdu ▸ Acf.Message.readAllFrom_of_ofPayload? hpayload
    obtain ⟨haccepted, -⟩ := StreamFormat.ntscf.accepted_of_split? hsplit
    have hvalue := NtscfPdu.value_ofView hview haccepted.subtype_eq haccepted.version_eq
      (hmessages.totalSize_eq.trans haccepted.length_payload)
    exact ⟨view, hsplit, StreamFormat.ntscf.reencodes_of_form hsplit hmessages hvalue rfl
      NtscfPdu.check_eq_ok_iff NtscfPdu.sound_form NtscfPdu.encode_eq⟩
  · intro buf pdu rest hdecode
    obtain ⟨view, hsplit, hview⟩ := TscfPdu.decode?_eq_ok_iff.mp hdecode
    obtain ⟨messages, hpayload, hpdu⟩ := map_eq_ok_iff.mp hview
    have hmessages : Acf.Message.ReadAllFrom pdu.messages view.payload :=
      hpdu ▸ Acf.Message.readAllFrom_of_ofPayload? hpayload
    obtain ⟨haccepted, -⟩ := StreamFormat.tscf.accepted_of_split? hsplit
    have hvalue := TscfPdu.value_ofView hview haccepted.subtype_eq haccepted.version_eq
      (hmessages.totalSize_eq.trans haccepted.length_payload)
    exact ⟨view, hsplit, StreamFormat.tscf.reencodes_of_form hsplit hmessages hvalue rfl
      TscfPdu.check_eq_ok_iff TscfPdu.sound_form TscfPdu.encode_eq⟩

/-- An NTSCF data unit without a stream id and one octet behind it. Its reserved bit, the unused
stream id, and of its brief CAN message the reserved fields, the flag for a time and the padding are
not zero. -/
def unkemptNtscf : List UInt8 :=
  [0x82, 0x08, 12, 5, 1, 2, 3, 4, 5, 6, 7, 8, 0x04, 3, 0x68, 0xE3, 0xA0, 0, 0x12, 0x34, 1, 2, 3,
    0x99, 0xFF]

/-- What is decoded from it. -/
def unkemptPdu : NtscfPdu where
  streamId := none
  sequenceNum := 5
  messages := [.can ⟨.eff, 3, 0x1234, none, true, [1, 2, 3]⟩]

theorem decode?_unkempt : NtscfPdu.decode? unkemptNtscf = .ok (unkemptPdu, [0xFF]) := by
  have hpayload : Acf.Message.ofPayload? (View.payload (h := .ntscf) ⟨unkemptNtscf.take 24⟩) =
      .ok unkemptPdu.messages :=
    Acf.Message.ofPayload?_cons_eq_ok_iff.mpr ⟨_, rfl, rfl, Acf.Message.ofPayload?_nil⟩
  exact NtscfPdu.decode?_eq_ok_iff.mpr
    ⟨⟨unkemptNtscf.take 24⟩, rfl, map_eq_ok_iff.mpr ⟨_, hpayload, rfl⟩⟩

/-- A TSCF data unit without a stream id and without a time, where none of the unused fields is
zero. The identifier in its brief CAN message is wide. -/
def wideTscf : List UInt8 :=
  [0x05, 0x06, 9, 0xFF, 1, 2, 3, 4, 5, 6, 7, 8, 9, 9, 9, 9, 0, 0, 0, 1, 0, 8, 0xAA, 0xBB, 0x04, 2,
    0, 3, 0, 0, 0x12, 0x34]

/-- What is decoded from it. -/
def widePdu : TscfPdu where
  streamId := none
  mr := false
  sequenceNum := 9
  tu := true
  avtpTimestamp := none
  gatewayInfo := 1
  messages := [.can ⟨⟨0⟩, 3, 0x1234, none, true, []⟩]

theorem decode?_wide : TscfPdu.decode? wideTscf = .ok (widePdu, []) := by
  have hpayload : Acf.Message.ofPayload? (View.payload (h := .tscf) ⟨wideTscf⟩) =
      .ok widePdu.messages :=
    Acf.Message.ofPayload?_cons_eq_ok_iff.mpr ⟨_, rfl, rfl, Acf.Message.ofPayload?_nil⟩
  exact TscfPdu.decode?_eq_ok_iff.mpr ⟨⟨wideTscf⟩, rfl, map_eq_ok_iff.mpr ⟨_, hpayload, rfl⟩⟩

/-- The first is encoded with zeros in all of these places, and the second is refused. -/
theorem encode_decode_unkempt :
    (∃ view, View.split? .ntscf unkemptNtscf = .ok (view, [0xFF]) ∧
        Reencodes unkemptPdu unkemptPdu.messages unkemptNtscf [0xFF]
          (StreamFormat.ntscf.drops view)) ∧
      ∃ view, View.split? .tscf wideTscf = .ok (view, []) ∧
        Reencodes widePdu widePdu.messages wideTscf [] (StreamFormat.tscf.drops view) :=
  ⟨encode_decode.1 unkemptNtscf unkemptPdu [0xFF] decode?_unkempt,
    encode_decode.2 wideTscf widePdu [] decode?_wide⟩

end Avtp
