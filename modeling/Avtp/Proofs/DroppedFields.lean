import Avtp.Proofs.PayloadWalk
import Avtp.Proofs.StreamWire

/-!
# What decoding does not keep

The value of a message or a data unit has no place for reserved fields, for an identifier or a time
that its flag declares absent, or for the octets behind the payload. `View.dropped` lists the
fields, and `View.drops` says which bits of the view are concerned.

**Everything else is kept or follows.** For a view that the parser accepts, the encoder writes into
every field what was read from it, except for the dropped ones, which become zero
(`CanFrame.value_ofView`, `LinFrame.value_ofView`, `NtscfPdu.value_ofView`, and so on). This
includes length and pad count, which no value carries: they come out of the payload as they were.
-/

namespace Avtp

/-! ### Dropped fields -/

namespace View

/-- The fields of a view that its value does not carry. -/
def dropped : {h : Header} → View h → List h.Slot
  | .ntscf, view =>
    [NtscfSlot.r] ++ if view.flag NtscfSlot.sv then [] else [.streamIdHi, .streamIdLo]
  | .tscf, view =>
    [TscfSlot.rsv1, .rsv2, .rsv3] ++
      ((if view.flag TscfSlot.sv then [] else [.streamIdHi, .streamIdLo]) ++
        if view.flag TscfSlot.tv then [] else [.avtpTimestamp])
  | .can, view =>
    [CanSlot.rsv1, .rsv2] ++
      if view.flag CanSlot.mtv then [] else [.messageTimestampHi, .messageTimestampLo]
  | .canBrief, _ => [CanBriefSlot.rsv1, .rsv2, .mtv]
  | .lin, view =>
    if view.flag LinSlot.mtv then [] else [LinSlot.messageTimestampHi, .messageTimestampLo]
  | .common, _ => []
  | .udp, _ => []
  | .acf, _ => []

/-- The bits of a view that its value does not carry: those of the dropped fields and those behind
the payload. -/
def drops {h : Header} (view : View h) (i : Nat) : Bool :=
  view.dropped.any (fun slot ↦ (Header.place slot).covers i) || 8 * view.payloadRange.2 ≤ i

end View

/-- The bits of a message that its value does not carry, under the header of its type. -/
def Acf.TypedMessage.drops : TypedMessage → Nat → Bool
  | .can view, i => view.drops i
  | .canBrief view, i => view.drops i
  | .lin view, i => view.drops i
  | .other view, i => view.drops i

/-- The bits of a sequence of messages that their values do not carry, counted from the front of the
first one. -/
def Acf.dropsAll : List AcfView → Nat → Bool
  | [], _ => false
  | view :: views, i =>
    if i < 8 * view.octets.length then
      match TypedMessage.ofView? view with
      | .ok typed => typed.drops i
      | .error _ => false
    else dropsAll views (i - 8 * view.octets.length)

/-- The bits of a data unit that its value does not carry: those of the dropped fields of the
header, and behind the header those of the messages. -/
def StreamFormat.drops (format : StreamFormat) (view : View format.header) (i : Nat) : Bool :=
  if i < 8 * format.header.size then view.dropped.any fun slot ↦ (Header.place slot).covers i
  else Acf.dropsAll (Acf.Walk.start view.payload).views (i - 8 * format.header.size)

/-! ### Values that are read and written again -/

namespace WideValue

theorem toNat_join {hi lo : Nat} (hhi : hi < 2 ^ 32) (hlo : lo < 2 ^ 32) :
    (join hi lo).toNat = hi * 2 ^ 32 + lo := by
  have hlt : hi * 2 ^ 32 + lo < 2 ^ 64 := by omega
  rw [join, UInt64.toNat_ofNat']
  exact Nat.mod_eq_of_lt hlt

theorem hi_join {hi lo : Nat} (hhi : hi < 2 ^ 32) (hlo : lo < 2 ^ 32) :
    WideValue.hi (join hi lo) = hi := by
  have hsize : UInt32.size = 2 ^ 32 := rfl
  rw [WideValue.hi, toNat_join hhi hlo, hsize]
  omega

theorem lo_join {hi lo : Nat} (hhi : hi < 2 ^ 32) (hlo : lo < 2 ^ 32) :
    WideValue.lo (join hi lo) = lo := by
  have hsize : UInt32.size = 2 ^ 32 := rfl
  rw [WideValue.lo, toNat_join hhi hlo, hsize]
  omega

end WideValue

namespace View

variable {h : Header} {view : View h}

theorem read_lt (view : View h) (slot : h.Slot) :
    view.read slot < 2 ^ (Header.place slot).width :=
  (Header.place slot).read_lt_two_pow view.octets

/-- A flag is written as it was read. -/
theorem toNat_flag {slot : h.Slot} (hwidth : (Header.place slot).width = 1) :
    (view.flag slot).toNat = view.read slot := by
  have hlt := view.read_lt slot
  rw [hwidth] at hlt
  have hcases : view.read slot = 0 ∨ view.read slot = 1 := by omega
  rcases hcases with hread | hread <;> rw [flag, hread] <;> rfl

/-- An octet is written as it was read. -/
theorem toNat_octet {slot : h.Slot} (hwidth : (Header.place slot).width ≤ 8) :
    (UInt8.ofNat (view.read slot)).toNat = view.read slot :=
  BitField.toNat_ofNat_read hwidth view.octets

theorem read_lt_word (view : View h) (slot : h.Slot) : view.read slot < 2 ^ 32 :=
  (Header.place slot).read_lt_word view.octets

/-- A word is written as it was read. -/
theorem toNat_word (slot : h.Slot) : (UInt32.ofNat (view.read slot)).toNat = view.read slot := by
  rw [UInt32.toNat_ofNat', Nat.mod_eq_of_lt (view.read_lt_word slot)]

/-- A word that its flag may declare absent is written as it was read, or as zero. -/
theorem optional_word_eq (view : View h) (valid slot : h.Slot) {value : Option UInt32}
    (hvalue : value = if view.flag valid then some (UInt32.ofNat (view.read slot)) else none)
    (hwidth : (Header.place valid).width = 1) :
    value.isSome.toNat = view.read valid ∧
      value.elim 0 UInt32.toNat = if view.flag valid then view.read slot else 0 := by
  rw [hvalue, ← toNat_flag hwidth]
  cases view.flag valid with
  | false => exact ⟨rfl, rfl⟩
  | true =>
    rw [if_pos rfl, if_pos rfl, Option.elim_some]
    exact ⟨rfl, toNat_word slot⟩

/-- The halves of a value that its flag may declare absent are written as they were read, or as
zero. -/
theorem optional_wide_eq (view : View h) (valid hi lo : h.Slot) {value : Option UInt64}
    (hvalue : value = if view.flag valid then
      some (WideValue.join (view.read hi) (view.read lo)) else none)
    (hwidth : (Header.place valid).width = 1) :
    value.isSome.toNat = view.read valid ∧
      value.elim 0 WideValue.hi = (if view.flag valid then view.read hi else 0) ∧
        value.elim 0 WideValue.lo = if view.flag valid then view.read lo else 0 := by
  have hhi := view.read_lt_word hi
  have hlo := view.read_lt_word lo
  rw [hvalue, ← toNat_flag hwidth]
  cases view.flag valid with
  | false => exact ⟨rfl, rfl, rfl⟩
  | true =>
    rw [if_pos rfl, if_pos rfl, if_pos rfl, Option.elim_some, Option.elim_some,
      WideValue.hi_join hhi hlo, WideValue.lo_join hhi hlo]
    exact ⟨rfl, rfl, rfl⟩

end View

namespace Acf

theorem CanFlags.contains_ofBools (mtv rtr eff brs fdf esi : Bool) :
    ((ofBools mtv rtr eff brs fdf esi).diff .mtv).contains .rtr = rtr ∧
      ((ofBools mtv rtr eff brs fdf esi).diff .mtv).contains .eff = eff ∧
        ((ofBools mtv rtr eff brs fdf esi).diff .mtv).contains .brs = brs ∧
          ((ofBools mtv rtr eff brs fdf esi).diff .mtv).contains .fdf = fdf ∧
            ((ofBools mtv rtr eff brs fdf esi).diff .mtv).contains .esi = esi := by
  revert mtv rtr eff brs fdf esi
  decide

/-! ### Accepted messages -/

/-- The view is a whole message of its format, with room for its header and the padding it
announces. -/
structure Accepted {format : MessageFormat} (view : View format.header) : Prop where
  type_eq : view.read format.typeSlot = format.type.raw.toNat
  length_eq : 4 * view.read format.lengthSlot = view.octets.length
  room : format.header.size + view.read format.padSlot ≤ view.octets.length

namespace Accepted

variable {format : MessageFormat} {view : View format.header}

theorem pad_lt (view : View format.header) : view.read format.padSlot < 4 := by
  have hlt := view.read_lt format.padSlot
  rw [format.place_padSlot] at hlt
  exact hlt

theorem payloadRange_eq (haccepted : Accepted view) :
    view.payloadRange =
      (format.header.size, view.octets.length - view.read format.padSlot) := by
  have hroom := haccepted.room
  rw [payloadRange_format, Nat.max_eq_left (by omega)]

theorem payload_eq (haccepted : Accepted view) :
    view.payload = (view.octets.drop format.header.size).take
      (view.octets.length - view.read format.padSlot - format.header.size) := by
  have hroom := haccepted.room
  rw [View.payload, haccepted.payloadRange_eq, Octets.slice?, if_pos (by omega), Option.getD_some]

theorem length_payload (haccepted : Accepted view) :
    view.payload.length =
      view.octets.length - view.read format.padSlot - format.header.size := by
  have hroom := haccepted.room
  rw [haccepted.payload_eq, List.length_take, List.length_drop]
  omega

/-- **The encoder arrives at the length that was read.** -/
theorem size_eq (haccepted : Accepted view) (framing : Framing format)
    (hpayload : framing.payload = view.payload) : framing.size = view.octets.length := by
  have hroom := haccepted.room
  have hfour : 4 ∣ view.octets.length := ⟨_, haccepted.length_eq.symm⟩
  have hsum : format.header.size + framing.payload.length =
      view.octets.length - view.read format.padSlot := by
    rw [hpayload, haccepted.length_payload]
    omega
  rw [Framing.size, hsum]
  exact paddedLength_sub hfour (pad_lt view) (by omega)

theorem size_div_four_eq (haccepted : Accepted view) {size : Nat}
    (hsize : size = view.octets.length) : size / 4 = view.read format.lengthSlot := by
  rw [hsize, ← haccepted.length_eq]
  exact Nat.mul_div_cancel_left _ (by decide)

/-- **And at the pad count.** -/
theorem padding_eq (haccepted : Accepted view) (framing : Framing format)
    (hpayload : framing.payload = view.payload) :
    framing.padding = view.read format.padSlot := by
  have hroom := haccepted.room
  rw [Framing.padding, haccepted.size_eq framing hpayload, hpayload, haccepted.length_payload]
  omega

end Accepted

/-! ### Frames that were read -/

namespace CanFrame

theorem size_ofView {view : View MessageFormat.can.header} (haccepted : Accepted view) :
    (ofView view).size = view.octets.length :=
  (size_full rfl).trans (haccepted.size_eq _ rfl)

/-- The value of a flag that was read is written as it was read. -/
theorem flagValue_eq {h : Header} {view : View h} {slot : h.Slot} {frame : CanFrame}
    {flag : CanFlags} (hcontains : frame.flags.contains flag = view.flag slot)
    (hwidth : (Header.place slot).width = 1) : frame.flagValue flag = view.read slot := by
  rw [flagValue, hcontains, View.toNat_flag hwidth]

/-- **Into every field of the message goes what was read from it**, except for the dropped ones. -/
theorem value_ofView {view : View MessageFormat.can.header} (haccepted : Accepted view)
    (slot : CanSlot) :
    (ofView view).fullFraming.value slot =
      if slot ∈ View.dropped (h := .can) view then 0 else View.read (h := .can) view slot := by
  have hlength := haccepted.size_div_four_eq (size_ofView haccepted)
  have hpad : (ofView view).padding = view.read MessageFormat.can.padSlot :=
    (padding_full rfl).trans (haccepted.padding_eq _ rfl)
  obtain ⟨hrtr, heff, hbrs, hfdf, hesi⟩ := CanFlags.contains_ofBools (CanView.mtv view)
    (CanView.rtr view) (CanView.eff view) (CanView.brs view) (CanView.fdf view) (CanView.esi view)
  have htime : (ofView view).timestamp = if View.flag (h := .can) view CanSlot.mtv then
      some (CanView.messageTimestamp view) else none := rfl
  obtain ⟨hmtv, hhi, hlo⟩ := View.optional_wide_eq (h := .can) view CanSlot.mtv
    .messageTimestampHi .messageTimestampLo htime rfl
  rw [View.dropped]
  -- Which fields are dropped depends on the flag, so it is decided before the field is.
  rcases hflag : View.flag (h := .can) view CanSlot.mtv with - | - <;> rw [hflag] at hhi hlo <;>
    cases slot with
    | msgType => exact haccepted.type_eq.symm
    | msgLength => exact hlength
    | pad => exact hpad
    | mtv => exact hmtv
    | rtr => exact flagValue_eq hrtr rfl
    | eff => exact flagValue_eq heff rfl
    | brs => exact flagValue_eq hbrs rfl
    | fdf => exact flagValue_eq hfdf rfl
    | esi => exact flagValue_eq hesi rfl
    | rsv1 | rsv2 => rfl
    | canBusId => exact View.toNat_octet (by decide)
    | messageTimestampHi => exact hhi
    | messageTimestampLo => exact hlo
    | canIdentifier => exact View.toNat_word _

theorem size_ofBriefView {view : View MessageFormat.canBrief.header} (haccepted : Accepted view) :
    (ofBriefView view).size = view.octets.length :=
  (size_brief rfl).trans (haccepted.size_eq _ rfl)

/-- **Into every field of the brief message goes what was read from it**, except for the dropped
ones. -/
theorem value_ofBriefView {view : View MessageFormat.canBrief.header} (haccepted : Accepted view)
    (slot : CanBriefSlot) :
    (ofBriefView view).briefFraming.value slot =
      if slot ∈ View.dropped (h := .canBrief) view then 0
      else View.read (h := .canBrief) view slot := by
  have hlength := haccepted.size_div_four_eq (size_ofBriefView haccepted)
  have hpad : (ofBriefView view).padding = view.read MessageFormat.canBrief.padSlot :=
    (padding_brief rfl).trans (haccepted.padding_eq _ rfl)
  obtain ⟨hrtr, heff, hbrs, hfdf, hesi⟩ := CanFlags.contains_ofBools (CanBriefView.mtv view)
    (CanBriefView.rtr view) (CanBriefView.eff view) (CanBriefView.brs view) (CanBriefView.fdf view)
    (CanBriefView.esi view)
  cases slot with
  | msgType => exact haccepted.type_eq.symm
  | msgLength => exact hlength
  | pad => exact hpad
  | rtr => exact flagValue_eq hrtr rfl
  | eff => exact flagValue_eq heff rfl
  | brs => exact flagValue_eq hbrs rfl
  | fdf => exact flagValue_eq hfdf rfl
  | esi => exact flagValue_eq hesi rfl
  | mtv | rsv1 | rsv2 => rfl
  | canBusId => exact View.toNat_octet (by decide)
  | canIdentifier => exact View.toNat_word _

end CanFrame

namespace LinFrame

theorem size_ofView {view : View MessageFormat.lin.header} (haccepted : Accepted view) :
    (ofView view).size = view.octets.length :=
  haccepted.size_eq (ofView view).framing rfl

/-- **Into every field of the message goes what was read from it**, except for the dropped ones. -/
theorem value_ofView {view : View MessageFormat.lin.header} (haccepted : Accepted view)
    (slot : LinSlot) :
    (ofView view).framing.value slot =
      if slot ∈ View.dropped (h := .lin) view then 0 else View.read (h := .lin) view slot := by
  have hlength := haccepted.size_div_four_eq (size_ofView haccepted)
  have hpad : (ofView view).padding = view.read MessageFormat.lin.padSlot :=
    haccepted.padding_eq (ofView view).framing rfl
  have htime : (ofView view).timestamp = if View.flag (h := .lin) view LinSlot.mtv then
      some (LinView.messageTimestamp view) else none := rfl
  obtain ⟨hmtv, hhi, hlo⟩ := View.optional_wide_eq (h := .lin) view LinSlot.mtv
    .messageTimestampHi .messageTimestampLo htime rfl
  rw [View.dropped]
  rcases hflag : View.flag (h := .lin) view LinSlot.mtv with - | - <;> rw [hflag] at hhi hlo <;>
    cases slot with
    | msgType => exact haccepted.type_eq.symm
    | msgLength => exact hlength
    | pad => exact hpad
    | mtv => exact hmtv
    | linBusId => exact View.toNat_octet (by decide)
    | linIdentifier => exact View.toNat_octet (by decide)
    | messageTimestampHi => exact hhi
    | messageTimestampLo => exact hlo

end LinFrame

end Acf

/-! ### Headers of data units that were read -/

/-- **Into every field of the header goes what was read from it**, except for the dropped ones, if
the messages are as long as it says. -/
theorem NtscfPdu.value_ofView {view : NtscfView} {pdu : NtscfPdu} (hview : ofView? view = .ok pdu)
    (hsubtype : view.read NtscfSlot.subtype = PduSubtype.ntscf.raw.toNat)
    (hversion : view.read NtscfSlot.version = protocolVersion.toNat)
    (hlength : Acf.Message.totalSize pdu.messages = view.read NtscfSlot.dataLength)
    (slot : NtscfSlot) :
    pdu.form.value slot = if slot ∈ view.dropped then 0 else view.read slot := by
  obtain ⟨messages, -, rfl⟩ := map_eq_ok_iff.mp hview
  have hid : (if view.sv then some view.streamId else none) =
      if view.flag NtscfSlot.sv then some view.streamId else none := rfl
  obtain ⟨hsv, hhi, hlo⟩ := view.optional_wide_eq NtscfSlot.sv .streamIdHi .streamIdLo hid rfl
  rw [View.dropped]
  rcases hflag : view.flag NtscfSlot.sv with - | - <;> rw [hflag] at hhi hlo <;>
    cases slot with
    | subtype => exact hsubtype.symm
    | sv => exact hsv
    | version => exact hversion.symm
    | r => rfl
    | dataLength => exact hlength
    | sequenceNum => exact View.toNat_octet (by decide)
    | streamIdHi => exact hhi
    | streamIdLo => exact hlo

/-- **Into every field of the header goes what was read from it**, except for the dropped ones, if
the messages are as long as it says. -/
theorem TscfPdu.value_ofView {view : TscfView} {pdu : TscfPdu} (hview : ofView? view = .ok pdu)
    (hsubtype : view.read TscfSlot.subtype = PduSubtype.tscf.raw.toNat)
    (hversion : view.read TscfSlot.version = protocolVersion.toNat)
    (hlength : Acf.Message.totalSize pdu.messages = view.read TscfSlot.dataLength)
    (slot : TscfSlot) :
    pdu.form.value slot = if slot ∈ view.dropped then 0 else view.read slot := by
  obtain ⟨messages, -, rfl⟩ := map_eq_ok_iff.mp hview
  have hid : (if view.sv then some view.streamId else none) =
      if view.flag TscfSlot.sv then some view.streamId else none := rfl
  have htime : (if view.tv then some view.avtpTimestamp else none) =
      if view.flag TscfSlot.tv then some view.avtpTimestamp else none := rfl
  obtain ⟨hsv, hhi, hlo⟩ := view.optional_wide_eq TscfSlot.sv .streamIdHi .streamIdLo hid rfl
  obtain ⟨htv, hstamp⟩ := view.optional_word_eq TscfSlot.tv .avtpTimestamp htime rfl
  rw [View.dropped]
  rcases hflag : view.flag TscfSlot.sv with - | - <;> rw [hflag] at hhi hlo <;>
    rcases hflag' : view.flag TscfSlot.tv with - | - <;> rw [hflag'] at hstamp <;>
    cases slot with
    | subtype => exact hsubtype.symm
    | sv => exact hsv
    | version => exact hversion.symm
    | mr => exact View.toNat_flag rfl
    | rsv1 | rsv2 | rsv3 => rfl
    | tv => exact htv
    | sequenceNum => exact View.toNat_octet (by decide)
    | tu => exact View.toNat_flag rfl
    | streamIdHi => exact hhi
    | streamIdLo => exact hlo
    | avtpTimestamp => exact hstamp
    | gatewayInfo => exact View.toNat_word _
    | dataLength => exact hlength

end Avtp
