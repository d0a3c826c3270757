import Avtp.Proofs.Framing

/-!
# The wire form of messages

`Message.wire` is the octets of a message, written down as what they are and not as what is done to
a buffer to get them. For a message that passes its check the encoder produces them whatever the
buffer held (`Message.run?_writes`), and for a sequence of messages it produces them one behind the
other (`Message.writeAll?_eq`).

**One case for the frames.** CAN frames travel in two formats and LIN frames in one. In each the
message is a `Framing` (`Message.Shape`), so a fact about messages has two cases, framed and other,
and the three formats meet only where the values of their fields are listed.
-/

namespace Avtp

/-! ### Encoding values that pass their check -/

namespace WireForm

variable {α : Type} [WireForm α] {value : α} {octets : List UInt8}

theorem encodeInto_eq_of_write? {buf out : List UInt8} {count : Nat}
    (hcheck : check value = .ok ()) (hbuf : size value ≤ buf.length)
    (hwrite : write? value buf = some (out, count)) :
    encodeInto value buf = (.ok count, out) := by
  rw [encodeInto, hcheck]
  simp only [Nat.not_lt.mpr hbuf, if_false, hwrite]

theorem encode_eq_of_write? {count : Nat} (hcheck : check value = .ok ())
    (hwrite : write? value (List.replicate (size value) 0) = some (octets, count)) :
    encode value = .ok octets := by
  rw [encode, encodeInto_eq_of_write? hcheck (Nat.le_of_eq List.length_replicate.symm) hwrite]

/-- The octets are put to the front of every buffer that has room for them, whatever it held, and
what is behind them stays. -/
structure Overwrites (value : α) (octets : List UInt8) : Prop where
  length_eq : octets.length = size value
  write?_eq : ∀ buf : List UInt8, size value ≤ buf.length →
    write? value buf = some (octets ++ buf.drop (size value), size value)

/-- A value that is written in full wherever there is room has its wire form. -/
theorem Overwrites.encode_eq (hover : Overwrites value octets) (hcheck : check value = .ok ()) :
    encode value = .ok octets := by
  -- The buffer is as long as the value, so nothing of it is left behind the wire form.
  have hzeros := hover.write?_eq (List.replicate (size value) 0)
    (Nat.le_of_eq List.length_replicate.symm)
  rw [List.drop_of_length_le (Nat.le_of_eq List.length_replicate), List.append_nil] at hzeros
  exact encode_eq_of_write? hcheck hzeros

theorem encode_eq_error {reason : StructureError} (hcheck : check value = .error reason) :
    encode value = .error (.invalidStructure reason) := by
  rw [encode, encodeInto, hcheck]

end WireForm

/-! ### Values and their fields -/

namespace WideValue

theorem hi_lt (value : UInt64) : hi value < 2 ^ 32 := by
  have h := value.toNat_lt
  unfold hi UInt32.size
  omega

theorem lo_lt (value : UInt64) : lo value < 2 ^ 32 := by
  unfold lo UInt32.size
  omega

/-- A half of a value that may be missing fits into a field of 32 bits. -/
theorem elim_lt {half : UInt64 → Nat} (hhalf : ∀ value, half value < 2 ^ 32)
    (value : Option UInt64) : value.elim 0 half < 2 ^ 32 := by
  cases value with
  | none => exact Nat.two_pow_pos 32
  | some value => exact hhalf value

end WideValue

theorem View.flag_eq {h : Header} {view : View h} {slot : h.Slot} {value : Bool}
    (hread : view.read slot = value.toNat) : view.flag slot = value := by
  rw [View.flag, hread]
  cases value <;> rfl

/-! ### Checks of values -/

theorem Header.checkHolds_eq_ok_iff {h : Header} {slot : h.Slot} {value : Nat} :
    Header.checkHolds slot value = .ok () ↔ (Header.place slot).Holds value := by
  unfold Header.checkHolds
  split <;> simp_all

theorem Header.checkHolds_bind_eq_ok_iff {h : Header} {slot : h.Slot} {value : Nat}
    {next : Except StructureError Unit} :
    (Header.checkHolds slot value >>= fun _ ↦ next) = .ok () ↔
      (Header.place slot).Holds value ∧ next = .ok () := by
  rw [← Header.checkHolds_eq_ok_iff]
  rcases Header.checkHolds slot value with - | - <;> simp [bind, Except.bind]

namespace Acf

theorem checkMessageLength_eq_ok_iff {octets : Nat} :
    checkMessageLength octets = .ok () ↔
      (Header.place (h := .acf) AcfSlot.msgLength).Holds (octets / 4) :=
  Header.checkHolds_eq_ok_iff

theorem MessageFormat.holds_type (format : MessageFormat) :
    (Header.place (h := .acf) AcfSlot.msgType).Holds format.type.raw.toNat := by
  cases format <;> decide

/-- A pad count fits into the pad field. -/
theorem Framing.holds_padding {format : MessageFormat} (framing : Framing format) :
    (Header.place format.padSlot).Holds framing.padding := by
  rw [format.place_padSlot]
  exact BitField.holds_iff_lt_two_pow.mpr framing.padding_lt

/-! ### CAN frames -/

namespace CanFrame

theorem check_eq_ok_iff {frame : CanFrame} :
    frame.check = .ok () ↔
      ¬ (frame.brief = true ∧ frame.timestamp.isSome = true) ∧
        ¬ (¬ frame.flags.contains .eff = true ∧ 0x7FF < frame.identifier.toNat) ∧
          (Header.place (h := .can) CanSlot.canBusId).Holds frame.busId.toNat ∧
            (Header.place (h := .can) CanSlot.canIdentifier).Holds frame.identifier.toNat ∧
              (Header.place (h := .acf) AcfSlot.msgLength).Holds (frame.size / 4) := by
  rw [check, ite_throw_eq_ok_iff, ite_throw_eq_ok_iff, Header.checkHolds_bind_eq_ok_iff,
    Header.checkHolds_bind_eq_ok_iff, checkMessageLength_eq_ok_iff]

/-- The value of one flag. -/
def flagValue (frame : CanFrame) (flag : CanFlags) : Nat := (frame.flags.contains flag).toNat

/-- What goes into a CAN message. -/
def fullFraming (frame : CanFrame) : Framing .can where
  slots := [CanSlot.msgType, .msgLength, .pad, .rtr, .eff, .brs, .fdf, .esi, .canBusId] ++
    ((if frame.timestamp.isSome then [.mtv, .messageTimestampHi, .messageTimestampLo] else []) ++
      [.canIdentifier])
  value
    | CanSlot.msgType => frame.format.type.raw.toNat
    | CanSlot.msgLength => frame.size / 4
    | CanSlot.pad => frame.padding
    | CanSlot.mtv => frame.timestamp.isSome.toNat
    | CanSlot.rtr => frame.flagValue .rtr
    | CanSlot.eff => frame.flagValue .eff
    | CanSlot.brs => frame.flagValue .brs
    | CanSlot.fdf => frame.flagValue .fdf
    | CanSlot.esi => frame.flagValue .esi
    | CanSlot.rsv1 => 0
    | CanSlot.canBusId => frame.busId.toNat
    | CanSlot.messageTimestampHi => frame.timestamp.elim 0 WideValue.hi
    | CanSlot.messageTimestampLo => frame.timestamp.elim 0 WideValue.lo
    | CanSlot.rsv2 => 0
    | CanSlot.canIdentifier => frame.identifier.toNat
  payload := frame.payload

/-- What goes into a brief CAN message. -/
def briefFraming (frame : CanFrame) : Framing .canBrief where
  slots := [CanBriefSlot.msgType, .msgLength, .pad, .rtr, .eff, .brs, .fdf, .esi, .canBusId,
    .canIdentifier]
  value
    | CanBriefSlot.msgType => frame.format.type.raw.toNat
    | CanBriefSlot.msgLength => frame.size / 4
    | CanBriefSlot.pad => frame.padding
    | CanBriefSlot.mtv => 0
    | CanBriefSlot.rtr => frame.flagValue .rtr
    | CanBriefSlot.eff => frame.flagValue .eff
    | CanBriefSlot.brs => frame.flagValue .brs
    | CanBriefSlot.fdf => frame.flagValue .fdf
    | CanBriefSlot.esi => frame.flagValue .esi
    | CanBriefSlot.rsv1 => 0
    | CanBriefSlot.canBusId => frame.busId.toNat
    | CanBriefSlot.rsv2 => 0
    | CanBriefSlot.canIdentifier => frame.identifier.toNat
  payload := frame.payload

theorem writes_full {frame : CanFrame} (hbrief : frame.brief = false) :
    frame.writes = frame.fullFraming.writes := by
  obtain ⟨flags, busId, identifier, timestamp, brief, payload⟩ := frame
  obtain rfl : brief = false := hbrief
  cases timestamp <;> rfl

theorem writes_brief {frame : CanFrame} (hbrief : frame.brief = true) :
    frame.writes = frame.briefFraming.writes := by
  obtain ⟨flags, busId, identifier, timestamp, brief, payload⟩ := frame
  obtain rfl : brief = true := hbrief
  rfl

theorem size_full {frame : CanFrame} (hbrief : frame.brief = false) :
    frame.size = frame.fullFraming.size := by
  rw [size, headerLength, format, hbrief]
  rfl

theorem size_brief {frame : CanFrame} (hbrief : frame.brief = true) :
    frame.size = frame.briefFraming.size := by
  rw [size, headerLength, format, hbrief]
  rfl

theorem padding_full {frame : CanFrame} (hbrief : frame.brief = false) :
    frame.padding = frame.fullFraming.padding := by
  rw [padding, size_full hbrief, headerLength, format, hbrief]
  rfl

theorem padding_brief {frame : CanFrame} (hbrief : frame.brief = true) :
    frame.padding = frame.briefFraming.padding := by
  rw [padding, size_brief hbrief, headerLength, format, hbrief]
  rfl

theorem sound_full {frame : CanFrame} (hbrief : frame.brief = false)
    (hcheck : frame.check = .ok ()) : frame.fullFraming.Sound where
  holds slot := by
    obtain ⟨-, -, hbus, hidentifier, hlength⟩ := check_eq_ok_iff.mp hcheck
    cases slot with
    | msgType => exact frame.format.holds_type
    | msgLength => exact hlength
    | pad =>
      show (Header.place (h := .can) CanSlot.pad).Holds frame.padding
      rw [padding_full hbrief]
      exact frame.fullFraming.holds_padding
    | mtv | rtr | eff | brs | fdf | esi => exact BitField.holds_iff_lt_two_pow.mpr (Bool.toNat_lt _)
    | rsv1 | rsv2 => exact Nat.zero_le _
    | canBusId => exact hbus
    | messageTimestampHi =>
      exact BitField.holds_iff_lt_two_pow.mpr (WideValue.elim_lt WideValue.hi_lt _)
    | messageTimestampLo =>
      exact BitField.holds_iff_lt_two_pow.mpr (WideValue.elim_lt WideValue.lo_lt _)
    | canIdentifier => exact hidentifier
  eq_zero slot hslot := by
    rcases htime : frame.timestamp with - | time <;> cases slot <;> simp_all [fullFraming]
  type_eq := by
    show frame.format.type.raw.toNat = _
    rw [format, hbrief]
    rfl
  length_eq := by
    show frame.size / 4 = _
    rw [size_full hbrief]
  pad_eq := padding_full hbrief

theorem sound_brief {frame : CanFrame} (hbrief : frame.brief = true)
    (hcheck : frame.check = .ok ()) : frame.briefFraming.Sound where
  holds slot := by
    obtain ⟨-, -, hbus, hidentifier, hlength⟩ := check_eq_ok_iff.mp hcheck
    cases slot with
    | msgType => exact frame.format.holds_type
    | msgLength => exact hlength
    | pad =>
      show (Header.place (h := .canBrief) CanBriefSlot.pad).Holds frame.padding
      rw [padding_brief hbrief]
      exact frame.briefFraming.holds_padding
    | rtr | eff | brs | fdf | esi => exact BitField.holds_iff_lt_two_pow.mpr (Bool.toNat_lt _)
    | mtv | rsv1 | rsv2 => exact Nat.zero_le _
    | canBusId => exact hbus
    | canIdentifier => exact hidentifier
  eq_zero slot hslot := by
    cases slot <;> simp_all [briefFraming]
  type_eq := by
    show frame.format.type.raw.toNat = _
    rw [format, hbrief]
    rfl
  length_eq := by
    show frame.size / 4 = _
    rw [size_brief hbrief]
  pad_eq := padding_brief hbrief

end CanFrame

/-! ### LIN frames -/

namespace LinFrame

theorem check_eq_ok_iff {frame : LinFrame} :
    frame.check = .ok () ↔
      (Header.place (h := .lin) LinSlot.linBusId).Holds frame.busId.toNat ∧
        (Header.place (h := .acf) AcfSlot.msgLength).Holds (frame.size / 4) := by
  rw [check, Header.checkHolds_bind_eq_ok_iff, checkMessageLength_eq_ok_iff]

/-- What goes into a LIN message. -/
def framing (frame : LinFrame) : Framing .lin where
  slots := [LinSlot.msgType, .msgLength, .pad, .linBusId, .linIdentifier] ++
    (if frame.timestamp.isSome then [.mtv, .messageTimestampHi, .messageTimestampLo] else [])
  value
    | LinSlot.msgType => MessageType.lin.raw.toNat
    | LinSlot.msgLength => frame.size / 4
    | LinSlot.pad => frame.padding
    | LinSlot.mtv => frame.timestamp.isSome.toNat
    | LinSlot.linBusId => frame.busId.toNat
    | LinSlot.linIdentifier => frame.identifier.toNat
    | LinSlot.messageTimestampHi => frame.timestamp.elim 0 WideValue.hi
    | LinSlot.messageTimestampLo => frame.timestamp.elim 0 WideValue.lo
  payload := frame.payload

theorem writes_eq (frame : LinFrame) : frame.writes = frame.framing.writes := by
  obtain ⟨busId, identifier, timestamp, payload⟩ := frame
  cases timestamp <;> rfl

theorem sound_framing {frame : LinFrame} (hcheck : frame.check = .ok ()) :
    frame.framing.Sound where
  holds slot := by
    obtain ⟨hbus, hlength⟩ := check_eq_ok_iff.mp hcheck
    cases slot with
    | msgType => exact MessageFormat.lin.holds_type
    | msgLength => exact hlength
    | pad => exact frame.framing.holds_padding
    | mtv => exact BitField.holds_iff_lt_two_pow.mpr (Bool.toNat_lt _)
    | linBusId => exact hbus
    | linIdentifier => exact BitField.holds_iff_lt_two_pow.mpr frame.identifier.toNat_lt
    | messageTimestampHi =>
      exact BitField.holds_iff_lt_two_pow.mpr (WideValue.elim_lt WideValue.hi_lt _)
    | messageTimestampLo =>
      exact BitField.holds_iff_lt_two_pow.mpr (WideValue.elim_lt WideValue.lo_lt _)
  eq_zero slot hslot := by
    rcases htime : frame.timestamp with - | time <;> cases slot <;> simp_all [framing]
  type_eq := rfl
  length_eq := rfl
  pad_eq := rfl

end LinFrame

/-! ### Other messages -/

namespace Message

theorem check_other_eq_ok_iff {type : MessageType} {body : List UInt8} :
    check (.other type body) = .ok () ↔
      (Header.place (h := .acf) AcfSlot.msgType).Holds type.raw.toNat ∧
        4 ≤ 2 + body.length ∧ 4 ∣ 2 + body.length ∧
          (Header.place (h := .acf) AcfSlot.msgLength).Holds ((2 + body.length) / 4) := by
  have hsize : Header.size .acf = 4 := rfl
  rw [check, Header.checkHolds_bind_eq_ok_iff, ite_throw_eq_ok_iff, checkMessageLength_eq_ok_iff,
    size, hsize, not_or, Nat.not_lt, not_not, ← Nat.dvd_iff_mod_eq_zero, and_assoc]

/-- The fields in front of a body. -/
def bodyValue (type : MessageType) (body : List UInt8) : AcfSlot → Nat
  | .msgType => type.raw.toNat
  | .msgLength => (2 + body.length) / 4

/-- A body behind its type and length. -/
def bodyOctets (type : MessageType) (body : List UInt8) : List UInt8 :=
  Header.assignAll (h := .acf) [AcfSlot.msgType, .msgLength] (bodyValue type body) (0 :: 0 :: body)

@[simp] theorem length_bodyOctets (type : MessageType) (body : List UInt8) :
    (bodyOctets type body).length = 2 + body.length := by
  rw [bodyOctets, Header.length_assignAll, List.length_cons, List.length_cons]
  omega

theorem holds_bodyValue {type : MessageType} {body : List UInt8}
    (hcheck : check (.other type body) = .ok ()) (slot : AcfSlot) :
    (Header.place (h := .acf) slot).Holds (bodyValue type body slot) := by
  obtain ⟨htype, -, -, hlength⟩ := check_other_eq_ok_iff.mp hcheck
  cases slot with
  | msgType => exact htype
  | msgLength => exact hlength

/-- The room that a body is put into has the fields in front of it. -/
theorem size_le_length_cons {type : MessageType} {body : List UInt8}
    (hcheck : check (.other type body) = .ok ()) (first second : UInt8) :
    Header.size .acf ≤ (first :: second :: body).length := by
  have hmin : 4 ≤ 2 + body.length := (check_other_eq_ok_iff.mp hcheck).2.1
  rw [List.length_cons, List.length_cons, Nat.add_assoc, Nat.add_comm]
  exact hmin

/-- Type and length are read back. -/
theorem read_bodyOctets {type : MessageType} {body : List UInt8}
    (hcheck : check (.other type body) = .ok ()) (slot : AcfSlot) (rest : List UInt8) :
    (Header.place (h := .acf) slot).read (bodyOctets type body ++ rest) =
      bodyValue type body slot := by
  obtain ⟨-, hmin, -, -⟩ := check_other_eq_ok_iff.mp hcheck
  have hlen : Header.size .acf ≤ (bodyOctets type body).length := by
    rw [length_bodyOctets]
    exact hmin
  have hslot : slot ∈ [AcfSlot.msgType, .msgLength] := by cases slot <;> decide
  rw [BitField.read_append rest (Nat.le_trans (Header.place_requiredOctets_le _) hlen), bodyOctets,
    Header.read_assignAll (holds_bodyValue hcheck) (size_le_length_cons hcheck 0 0), if_pos hslot]

/-- Setting type and length leaves the body as it is. -/
theorem drop_bodyOctets {type : MessageType} {body : List UInt8}
    (hcheck : check (.other type body) = .ok ()) : (bodyOctets type body).drop 2 = body := by
  refine Octets.eq_of_bit?_eq fun i ↦ ?_
  have hout : ∀ slot ∈ [AcfSlot.msgType, .msgLength],
      (Header.place (h := .acf) slot).covers (8 * 2 + i) = false := by
    intro slot _
    refine Bool.eq_false_iff.mpr fun hcov ↦ ?_
    have hend := (BitField.covers_iff.mp hcov).2
    have hle : (Header.place (h := .acf) slot).endBit ≤ 16 := by cases slot <;> decide
    omega
  rw [Octets.bit?_drop, bodyOctets, Header.bit?_assignAll (holds_bodyValue hcheck)
    (size_le_length_cons hcheck 0 0) hout, ← Octets.bit?_drop]
  rfl

/-- Type and length cover the two octets in front of the body. -/
theorem covers_front {i : Nat} (hi : i < 16) :
    ∃ slot : AcfSlot, slot ∈ [AcfSlot.msgType, .msgLength] ∧
      (Header.place (h := .acf) slot).covers i = true := by
  rcases Nat.lt_or_ge i 7 with h | h
  · exact ⟨.msgType, by decide, BitField.covers_iff.mpr ⟨Nat.zero_le _, h⟩⟩
  · exact ⟨.msgLength, by decide, BitField.covers_iff.mpr ⟨h, hi⟩⟩

/-- What is in front of a body before type and length are set does not matter. -/
theorem assignAll_front {type : MessageType} {body front : List UInt8}
    (hcheck : check (.other type body) = .ok ()) (hfront : front.length = 2) :
    Header.assignAll (h := .acf) [AcfSlot.msgType, .msgLength] (bodyValue type body)
      (front ++ body) = bodyOctets type body := by
  obtain ⟨-, hmin, -, -⟩ := check_other_eq_ok_iff.mp hcheck
  have hlen : (front ++ body).length = 2 + body.length := by rw [List.length_append, hfront]
  refine Header.assignAll_congr (holds_bodyValue hcheck) (hlen ▸ hmin)
    (size_le_length_cons hcheck 0 0) fun i hout ↦ ?_
  -- Type and length cover the whole front, so a bit that they do not reach is one of the body.
  have hi : 16 ≤ i := by
    by_contra hlt
    obtain ⟨slot, hslot, hcov⟩ := covers_front (Nat.lt_of_not_le hlt)
    exact Bool.eq_false_iff.mp (hout slot hslot) hcov
  show Octets.bit? (front ++ body) i = Octets.bit? ([0, 0] ++ body) i
  rw [Octets.bit?_append_right body (by omega), Octets.bit?_append_right body hi, hfront]
  rfl

theorem run?_bodyWrites {type : MessageType} {body buf : List UInt8}
    (hcheck : check (.other type body) = .ok ()) (hbuf : 2 + body.length ≤ buf.length) :
    Write.run? (bodyWrites type body) buf =
      some (bodyOctets type body ++ buf.drop (2 + body.length)) := by
  obtain ⟨-, hmin, -, -⟩ := check_other_eq_ok_iff.mp hcheck
  -- The buffer is cut into the room for type and length, the room for the body, and the rest.
  obtain ⟨front, old, rest, rfl, hfront, hold⟩ : ∃ front old rest,
      buf = front ++ (old ++ rest) ∧ front.length = 2 ∧ old.length = body.length := by
    refine ⟨buf.take 2, (buf.drop 2).take body.length, (buf.drop 2).drop body.length, ?_, ?_, ?_⟩
    · rw [List.take_append_drop, List.take_append_drop]
    · rw [List.length_take]
      omega
    · rw [List.length_take, List.length_drop]
      omega
  have hlen : Header.size .acf ≤ (front ++ body).length := by
    rw [List.length_append, hfront]
    exact hmin
  have hrest : (front ++ (old ++ rest)).drop (2 + body.length) = rest := by
    rw [← List.append_assoc]
    exact List.drop_left' (by rw [List.length_append, hfront, hold])
  have hfields := Header.run?_slots [AcfSlot.msgType, AcfSlot.msgLength] (holds_bodyValue hcheck)
    (Nat.le_trans hlen (List.length_append ▸ Nat.le_add_right _ rest.length))
  rw [hrest, bodyWrites, Write.run?_cons, Write.perform?_copy hfront hold, Option.bind_some,
    ← List.append_assoc]
  refine hfields.trans ?_
  rw [Header.assignAll_append hlen, assignAll_front hcheck hfront]

/-! ### All messages -/

/-- The octets of a message. -/
def wire : Message → List UInt8
  | .can frame => if frame.brief then frame.briefFraming.octets else frame.fullFraming.octets
  | .lin frame => frame.framing.octets
  | .other type body => bodyOctets type body

/-- A message that fits is one with a header of its own, or a body behind type and length. -/
inductive Shape : Message → Prop where
  | framed {message : Message} {format : MessageFormat} (framing : Framing format)
    (hsound : framing.Sound) (hwrites : message.writes = framing.writes)
    (hsize : message.size = framing.size) (hwire : message.wire = framing.octets) : Shape message
  | other {type : MessageType} {body : List UInt8}
    (hcheck : check (.other type body) = .ok ()) : Shape (.other type body)

theorem shape_of_check {message : Message} (hcheck : message.check = .ok ()) : message.Shape := by
  cases message with
  | can frame =>
    rcases hbrief : frame.brief with - | -
    · exact .framed frame.fullFraming (CanFrame.sound_full hbrief hcheck)
        (CanFrame.writes_full hbrief) (CanFrame.size_full hbrief) (by rw [wire, hbrief]; rfl)
    · exact .framed frame.briefFraming (CanFrame.sound_brief hbrief hcheck)
        (CanFrame.writes_brief hbrief) (CanFrame.size_brief hbrief) (by rw [wire, hbrief]; rfl)
  | lin frame => exact .framed frame.framing (LinFrame.sound_framing hcheck) frame.writes_eq rfl rfl
  | other type body => exact .other hcheck

@[simp] theorem length_wire (message : Message) : message.wire.length = message.size := by
  cases message with
  | can frame =>
    rcases hbrief : frame.brief with - | -
    · rw [wire, hbrief]
      exact (Framing.length_octets _).trans (CanFrame.size_full hbrief).symm
    · rw [wire, hbrief]
      exact (Framing.length_octets _).trans (CanFrame.size_brief hbrief).symm
  | lin frame => exact Framing.length_octets _
  | other type body => exact length_bodyOctets type body

/-- **Whatever the buffer held, encoding puts the wire form in front of what was behind it.** -/
theorem run?_writes {message : Message} (hcheck : message.check = .ok ()) {buf : List UInt8}
    (hbuf : message.size ≤ buf.length) :
    Write.run? message.writes buf = some (message.wire ++ buf.drop message.size) := by
  cases shape_of_check hcheck with
  | framed framing hsound hwrites hsize hwire =>
    rw [hwrites, hsize, hwire]
    exact Framing.run?_writes hsound (hsize ▸ hbuf)
  | other hcheck => exact run?_bodyWrites hcheck hbuf

theorem overwrites {message : Message} (hcheck : WireForm.check message = .ok ()) :
    WireForm.Overwrites message message.wire where
  length_eq := message.length_wire
  write?_eq buf hbuf := by
    show (Write.run? message.writes buf).map _ = _
    rw [run?_writes hcheck hbuf, Option.map_some]
    rfl

/-- The wire form announces its length. -/
theorem announcedLength_wire {message : Message} (hcheck : message.check = .ok ())
    (rest : List UInt8) : MessageExtent.announcedLength (message.wire ++ rest) = message.size := by
  cases shape_of_check hcheck with
  | framed framing hsound hwrites hsize hwire =>
    rw [hsize, hwire]
    exact Framing.announcedLength_octets hsound rest
  | other hcheck =>
    rw [MessageExtent.announcedLength, wire, read_bodyOctets hcheck]
    exact Nat.mul_div_cancel' (check_other_eq_ok_iff.mp hcheck).2.2.1

theorem four_le_size {message : Message} (hcheck : message.check = .ok ()) : 4 ≤ message.size := by
  cases shape_of_check hcheck with
  | @framed _ format framing hsound hwrites hsize hwire =>
    have hsize' := framing.size_eq
    have hmin := format.four_le_size
    omega
  | other hcheck => exact (check_other_eq_ok_iff.mp hcheck).2.1

/-! ### Sequences -/

theorem checkAll_eq_ok_iff {messages : List Message} :
    checkAll messages = .ok () ↔ ∀ message ∈ messages, message.check = .ok () := by
  induction messages with
  | nil => exact iff_of_true rfl nofun
  | cons message messages ih =>
    rw [List.forall_mem_cons, ← ih]
    show (message.check >>= fun _ ↦ checkAll messages) = .ok () ↔ _
    rcases message.check with - | - <;> simp [bind, Except.bind]

/-- **A sequence of messages is written as their wire forms one behind the other.** -/
theorem writeAll?_eq {messages : List Message} (hcheck : checkAll messages = .ok ())
    {buf : List UInt8} (hbuf : totalSize messages ≤ buf.length) :
    writeAll? messages buf =
      some (messages.flatMap wire ++ buf.drop (totalSize messages), totalSize messages) := by
  rw [checkAll_eq_ok_iff] at hcheck
  induction messages generalizing buf with
  | nil => rfl
  | cons message messages ih =>
    obtain ⟨hmessage, hmessages⟩ := List.forall_mem_cons.mp hcheck
    rw [totalSize] at hbuf
    have hwrite : WireForm.write? message buf =
        some (message.wire ++ buf.drop message.size, message.size) :=
      (overwrites hmessage).write?_eq buf (Nat.le_trans (Nat.le_add_right _ _) hbuf)
    have hroom : totalSize messages ≤ (buf.drop message.size).length := by
      rw [List.length_drop]
      omega
    -- The other messages go to what the first one has left of the buffer.
    have hrest := ih hmessages hroom
    rw [writeAll?, hwrite]
    simp only [Option.bind_eq_bind, Option.bind_some, Octets.split?_append message.length_wire,
      hrest]
    rw [List.flatMap_cons, List.append_assoc, totalSize, List.drop_drop]
    rfl

end Message

end Acf

end Avtp
