import Avtp.Pdu
import Avtp.Proofs.MessageWire

/-!
# The wire form of control streams

A data unit is a header and behind it the wire forms of its messages, one after the other. The two
formats are treated as the three message formats are: `StreamForm` holds which fields the header has
and what goes into them, and what they share is proved once.

The encoder is right about every value that passes its check (`NtscfPdu.encode_eq`,
`TscfPdu.encode_eq`): none of its writes is refused, and the octets are those of the form. So
encoding fails for the reasons of the check and for no other.
-/

namespace Avtp

open Acf (Message)

/-! ### Fields that both formats share -/

namespace StreamFormat

/-- The field of the subtype. -/
def subtypeSlot : (format : StreamFormat) → format.header.Slot
  | ntscf => NtscfSlot.subtype
  | tscf => TscfSlot.subtype

/-- The field of the version. -/
def versionSlot : (format : StreamFormat) → format.header.Slot
  | ntscf => NtscfSlot.version
  | tscf => TscfSlot.version

theorem place_subtypeSlot (format : StreamFormat) :
    Header.place format.subtypeSlot = Header.place (h := .common) CommonSlot.subtype := by
  cases format <;> rfl

theorem place_versionSlot (format : StreamFormat) :
    Header.place format.versionSlot = Header.place (h := .common) CommonSlot.version := by
  cases format <;> rfl

theorem extent?_header (format : StreamFormat) (buf : List UInt8) :
    format.header.extent? buf = (format.dataLength? buf).map (format.header.size + ·) := by
  cases format <;> rfl

theorem payloadRange_stream {format : StreamFormat} (view : View format.header) :
    view.payloadRange = (format.header.size, view.octets.length) := by
  cases format <;> rfl

end StreamFormat

theorem Acf.Message.length_flatMap_wire (messages : List Message) :
    (messages.flatMap Message.wire).length = Message.totalSize messages := by
  induction messages with
  | nil => rfl
  | cons message messages ih =>
    rw [List.flatMap_cons, List.length_append, ih, Message.length_wire, Message.totalSize]

/-! ### Forms -/

/-- What a data unit of a format is made of. -/
structure StreamForm (format : StreamFormat) where
  /-- The fields that are set, in order. -/
  slots : List format.header.Slot
  /-- The value of every field. -/
  value : format.header.Slot → Nat
  messages : List Message

namespace StreamForm

variable {format : StreamFormat}

/-- The length of the data unit. -/
def size (form : StreamForm format) : Nat :=
  format.header.size + Message.totalSize form.messages

/-- The data unit. -/
def octets (form : StreamForm format) : List UInt8 :=
  format.header.fill form.slots form.value ++ form.messages.flatMap Message.wire

/-- The writes that set the fields of the header. -/
def headerWrites (form : StreamForm format) : List Write :=
  form.slots.map fun slot ↦ .slot slot (form.value slot)

/-- Every value fits, and the header holds what follows from format and messages. -/
structure Sound (form : StreamForm format) : Prop extends
    Header.Fills form.slots form.value where
  subtype_eq : form.value format.subtypeSlot = format.subtype.raw.toNat
  version_eq : form.value format.versionSlot = protocolVersion.toNat
  dataLength_eq : form.value format.dataLengthSlot = Message.totalSize form.messages

variable {form : StreamForm format}

@[simp] theorem length_octets (form : StreamForm format) : form.octets.length = form.size := by
  rw [octets, List.length_append, Header.length_fill, Message.length_flatMap_wire, size]

/-- **Whatever the buffer held, the data unit is put in front of what was behind it.** -/
theorem writeStream?_eq (hsound : form.Sound) (hcheck : Message.checkAll form.messages = .ok ())
    {buf : List UInt8} (hbuf : form.size ≤ buf.length) :
    writeStream? format.header.size form.headerWrites form.messages buf =
      some (form.octets ++ buf.drop form.size, form.size) := by
  rw [size] at hbuf
  have hheader : Write.run? (.clear format.header.size :: form.headerWrites) buf =
      some (format.header.fill form.slots form.value ++ buf.drop format.header.size) := by
    rw [Write.run?_cons, Write.perform?_clear (by omega), Option.bind_some]
    exact Header.run?_fill form.slots hsound.holds _
  have hroom : Message.totalSize form.messages ≤ (buf.drop format.header.size).length := by
    rw [List.length_drop]
    omega
  rw [writeStream?, hheader]
  simp only [Option.bind_eq_bind, Option.bind_some, Octets.split?_append (Header.length_fill _ _),
    Message.writeAll?_eq hcheck hroom]
  rw [octets, size, List.append_assoc, List.drop_drop]
  rfl

theorem read_octets (hsound : form.Sound) (slot : format.header.Slot) (rest : List UInt8) :
    (Header.place slot).read (form.octets ++ rest) = form.value slot := by
  rw [octets, List.append_assoc]
  exact Header.read_fill hsound.toFills slot _

theorem read_view (hsound : form.Sound) (slot : format.header.Slot) :
    (⟨form.octets⟩ : View format.header).read slot = form.value slot := by
  have hread := read_octets hsound slot []
  rwa [List.append_nil] at hread

/-- **A data unit is cut off where it ends**, whatever is behind it. -/
theorem split?_octets (hsound : form.Sound) (rest : List UInt8) :
    View.split? format.header (form.octets ++ rest) = .ok (⟨form.octets⟩, rest) := by
  refine View.split?_eq_ok_iff.mpr ⟨form.size, ?_, ?_, ?_⟩
  · rw [format.extent?_header, map_eq_ok_iff]
    refine ⟨Message.totalSize form.messages,
      StreamFormat.dataLength?_eq_ok_iff.mpr ⟨?_, ?_, ?_, ?_⟩, rfl⟩
    · rw [← format.place_subtypeSlot, read_octets hsound, hsound.subtype_eq]
    · rw [← format.place_versionSlot, read_octets hsound, hsound.version_eq]
    · rw [read_octets hsound, hsound.dataLength_eq]
    · rw [List.length_append, length_octets]
      exact Nat.le_add_right _ _
  · rw [List.take_left' form.length_octets]
  · rw [List.drop_left' form.length_octets]

theorem payload_view (form : StreamForm format) :
    (⟨form.octets⟩ : View format.header).payload = form.messages.flatMap Message.wire := by
  have hlen : format.header.size ≤ form.octets.length := by
    rw [length_octets]
    exact Nat.le_add_right _ _
  rw [View.payload, StreamFormat.payloadRange_stream, Octets.slice?,
    if_pos ⟨hlen, Nat.le_refl _⟩, Option.getD_some]
  show (form.octets.drop format.header.size).take _ = _
  rw [octets, List.drop_left' (Header.length_fill _ _)]
  exact List.take_of_length_le (by rw [List.length_append, Header.length_fill]; omega)

end StreamForm

/-! ### Decoding -/

/-- Decoding cuts off a view and takes the value of it. -/
theorem NtscfPdu.decode?_eq_ok_iff {buf rest : List UInt8} {pdu : NtscfPdu} :
    decode? buf = .ok (pdu, rest) ↔
      ∃ view, View.split? .ntscf buf = .ok (view, rest) ∧ ofView? view = .ok pdu := by
  rw [decode?]
  rcases View.split? .ntscf buf with reason | ⟨view, behind⟩
  · simp
  · simp [map_pair_eq_ok_iff, and_comm]

/-- Decoding fails where there is no view, or else where the messages in its payload fail. -/
theorem NtscfPdu.decode?_eq_error_iff {buf : List UInt8} {reason : ViewError} :
    decode? buf = .error reason ↔
      View.split? .ntscf buf = .error reason ∨ ∃ view rest,
        View.split? .ntscf buf = .ok (view, rest) ∧
          Acf.Message.ofPayload? view.payload = .error reason := by
  rw [decode?]
  rcases View.split? .ntscf buf with reason | ⟨view, behind⟩
  · simp
  · simp [ofView?, map_eq_error_iff]

/-- Decoding cuts off a view and takes the value of it. -/
theorem TscfPdu.decode?_eq_ok_iff {buf rest : List UInt8} {pdu : TscfPdu} :
    decode? buf = .ok (pdu, rest) ↔
      ∃ view, View.split? .tscf buf = .ok (view, rest) ∧ ofView? view = .ok pdu := by
  rw [decode?]
  rcases View.split? .tscf buf with reason | ⟨view, behind⟩
  · simp
  · simp [map_pair_eq_ok_iff, and_comm]

/-- Decoding fails where there is no view, or else where the messages in its payload fail. -/
theorem TscfPdu.decode?_eq_error_iff {buf : List UInt8} {reason : ViewError} :
    decode? buf = .error reason ↔
      View.split? .tscf buf = .error reason ∨ ∃ view rest,
        View.split? .tscf buf = .ok (view, rest) ∧
          Acf.Message.ofPayload? view.payload = .error reason := by
  rw [decode?]
  rcases View.split? .tscf buf with reason | ⟨view, behind⟩
  · simp
  · simp [ofView?, map_eq_error_iff]

/-! ### The two formats -/

namespace NtscfPdu

/-- What goes into an NTSCF data unit. -/
def form (pdu : NtscfPdu) : StreamForm .ntscf where
  slots := [NtscfSlot.subtype, .version, .dataLength, .sequenceNum] ++
    (if pdu.streamId.isSome then [.sv, .streamIdHi, .streamIdLo] else [])
  value
    | NtscfSlot.subtype => PduSubtype.ntscf.raw.toNat
    | NtscfSlot.sv => pdu.streamId.isSome.toNat
    | NtscfSlot.version => protocolVersion.toNat
    | NtscfSlot.r => 0
    | NtscfSlot.dataLength => Message.totalSize pdu.messages
    | NtscfSlot.sequenceNum => pdu.sequenceNum.toNat
    | NtscfSlot.streamIdHi => pdu.streamId.elim 0 WideValue.hi
    | NtscfSlot.streamIdLo => pdu.streamId.elim 0 WideValue.lo
  messages := pdu.messages

theorem headerWrites_eq (pdu : NtscfPdu) : pdu.headerWrites = pdu.form.headerWrites := by
  obtain ⟨streamId, sequenceNum, messages⟩ := pdu
  cases streamId <;> rfl

theorem check_eq_ok_iff {pdu : NtscfPdu} :
    WireForm.check pdu = .ok () ↔
      (Header.place (h := .ntscf) NtscfSlot.dataLength).Holds (Message.totalSize pdu.messages) ∧
        Message.checkAll pdu.messages = .ok () :=
  Header.checkHolds_bind_eq_ok_iff

theorem sound_form {pdu : NtscfPdu} (hcheck : WireForm.check pdu = .ok ()) : pdu.form.Sound where
  holds slot := by
    cases slot with
    | subtype | version => exact Nat.le_of_ble_eq_true rfl
    | sv => exact BitField.holds_iff_lt_two_pow.mpr (Bool.toNat_lt _)
    | r => exact Nat.zero_le _
    | dataLength => exact (check_eq_ok_iff.mp hcheck).1
    | sequenceNum => exact BitField.holds_iff_lt_two_pow.mpr pdu.sequenceNum.toNat_lt
    | streamIdHi => exact BitField.holds_iff_lt_two_pow.mpr (WideValue.elim_lt WideValue.hi_lt _)
    | streamIdLo => exact BitField.holds_iff_lt_two_pow.mpr (WideValue.elim_lt WideValue.lo_lt _)
  eq_zero slot hslot := by
    rcases hid : pdu.streamId with - | id <;> cases slot <;> simp_all [form]
  subtype_eq := rfl
  version_eq := rfl
  dataLength_eq := rfl

theorem overwrites {pdu : NtscfPdu} (hcheck : WireForm.check pdu = .ok ()) :
    WireForm.Overwrites pdu pdu.form.octets where
  length_eq := pdu.form.length_octets
  write?_eq buf hbuf := by
    show writeStream? _ pdu.headerWrites pdu.messages buf = _
    rw [headerWrites_eq]
    exact StreamForm.writeStream?_eq (sound_form hcheck) (check_eq_ok_iff.mp hcheck).2 hbuf

/-- **A data unit that passes its check is encoded**, as the octets of its form. -/
theorem encode_eq {pdu : NtscfPdu} (hcheck : WireForm.check pdu = .ok ()) :
    WireForm.encode pdu = .ok pdu.form.octets :=
  (overwrites hcheck).encode_eq hcheck

end NtscfPdu

namespace TscfPdu

/-- What goes into a TSCF data unit. -/
def form (pdu : TscfPdu) : StreamForm .tscf where
  slots := [TscfSlot.subtype, .version, .mr, .sequenceNum, .tu] ++
    ((if pdu.streamId.isSome then [.sv, .streamIdHi, .streamIdLo] else []) ++
      ((if pdu.avtpTimestamp.isSome then [.tv, .avtpTimestamp] else []) ++
        [.gatewayInfo, .dataLength]))
  value
    | TscfSlot.subtype => PduSubtype.tscf.raw.toNat
    | TscfSlot.sv => pdu.streamId.isSome.toNat
    | TscfSlot.version => protocolVersion.toNat
    | TscfSlot.mr => pdu.mr.toNat
    | TscfSlot.rsv1 => 0
    | TscfSlot.tv => pdu.avtpTimestamp.isSome.toNat
    | TscfSlot.sequenceNum => pdu.sequenceNum.toNat
    | TscfSlot.rsv2 => 0
    | TscfSlot.tu => pdu.tu.toNat
    | TscfSlot.streamIdHi => pdu.streamId.elim 0 WideValue.hi
    | TscfSlot.streamIdLo => pdu.streamId.elim 0 WideValue.lo
    | TscfSlot.avtpTimestamp => pdu.avtpTimestamp.elim 0 UInt32.toNat
    | TscfSlot.gatewayInfo => pdu.gatewayInfo.toNat
    | TscfSlot.dataLength => Message.totalSize pdu.messages
    | TscfSlot.rsv3 => 0
  messages := pdu.messages

theorem headerWrites_eq (pdu : TscfPdu) : pdu.headerWrites = pdu.form.headerWrites := by
  obtain ⟨streamId, mr, sequenceNum, tu, avtpTimestamp, gatewayInfo, messages⟩ := pdu
  cases streamId <;> cases avtpTimestamp <;> rfl

theorem check_eq_ok_iff {pdu : TscfPdu} :
    WireForm.check pdu = .ok () ↔
      (Header.place (h := .tscf) TscfSlot.dataLength).Holds (Message.totalSize pdu.messages) ∧
        Message.checkAll pdu.messages = .ok () :=
  Header.checkHolds_bind_eq_ok_iff

theorem sound_form {pdu : TscfPdu} (hcheck : WireForm.check pdu = .ok ()) : pdu.form.Sound where
  holds slot := by
    cases slot with
    | subtype | version => exact Nat.le_of_ble_eq_true rfl
    | sv | mr | tv | tu => exact BitField.holds_iff_lt_two_pow.mpr (Bool.toNat_lt _)
    | rsv1 | rsv2 | rsv3 => exact Nat.zero_le _
    | sequenceNum => exact BitField.holds_iff_lt_two_pow.mpr pdu.sequenceNum.toNat_lt
    | streamIdHi => exact BitField.holds_iff_lt_two_pow.mpr (WideValue.elim_lt WideValue.hi_lt _)
    | streamIdLo => exact BitField.holds_iff_lt_two_pow.mpr (WideValue.elim_lt WideValue.lo_lt _)
    | avtpTimestamp =>
      refine BitField.holds_iff_lt_two_pow.mpr ?_
      show pdu.avtpTimestamp.elim 0 UInt32.toNat < 2 ^ 32
      rcases pdu.avtpTimestamp with - | time
      · exact Nat.two_pow_pos 32
      · exact time.toNat_lt
    | gatewayInfo => exact BitField.holds_iff_lt_two_pow.mpr pdu.gatewayInfo.toNat_lt
    | dataLength => exact (check_eq_ok_iff.mp hcheck).1
  eq_zero slot hslot := by
    rcases hid : pdu.streamId with - | id <;> rcases htime : pdu.avtpTimestamp with - | time <;>
      cases slot <;> simp_all [form]
  subtype_eq := rfl
  version_eq := rfl
  dataLength_eq := rfl

theorem overwrites {pdu : TscfPdu} (hcheck : WireForm.check pdu = .ok ()) :
    WireForm.Overwrites pdu pdu.form.octets where
  length_eq := pdu.form.length_octets
  write?_eq buf hbuf := by
    show writeStream? _ pdu.headerWrites pdu.messages buf = _
    rw [headerWrites_eq]
    exact StreamForm.writeStream?_eq (sound_form hcheck) (check_eq_ok_iff.mp hcheck).2 hbuf

/-- **A data unit that passes its check is encoded**, as the octets of its form. -/
theorem encode_eq {pdu : TscfPdu} (hcheck : WireForm.check pdu = .ok ()) :
    WireForm.encode pdu = .ok pdu.form.octets :=
  (overwrites hcheck).encode_eq hcheck

end TscfPdu

end Avtp
