import Avtp.View.Setter
import Avtp.Proofs.FieldBits

/-!
# Views that say when they leave their octets

A view checks the length of its octets once, when it is taken. What it does afterwards is written
with accesses that have a value on every list of octets: outside of it a field reads as zero, a
write does nothing, a slice is empty. Here are the strict twins of all of them, which have no value
there. They say what the length check is for: on a view that holds its fixed header, `View.Sized`,
every strict access has a value, and it is the one of its plain twin (`read?_eq`, `payload?_eq`,
`getters?_eq`).

**The invariant does not mention the content.** The length field and the pad count can be set to
anything through the view itself. Nothing but the pad count enters into a range, and a pad count
that is too large leaves the payload empty; so the length of the octets is all there is to keep.
-/

namespace Avtp

namespace View

variable {h : Header}

/-- The view holds the fixed part of its header. -/
def Sized (view : View h) : Prop := h.size ≤ view.octets.length

/-! ### Strict access to fields -/

/-- The value of a field, `none` if its quadlet does not lie in the view. -/
def read? (view : View h) (slot : h.Slot) : Option Nat := (Header.place slot).read? view.octets

/-- The value of a one-bit field, `none` if its quadlet does not lie in the view. -/
def flag? (view : View h) (slot : h.Slot) : Option Bool := (view.read? slot).map (· != 0)

/-- The value of two fields, `none` if one of their quadlets does not lie in the view. -/
def wide? (view : View h) (hi lo : h.Slot) : Option UInt64 := do
  return WideValue.join (← view.read? hi) (← view.read? lo)

/-- The view after writing a field, `none` if its quadlet does not lie in the view. -/
def write? (view : View h) (slot : h.Slot) (value : Nat) : Option (View h) :=
  ((Header.place slot).write? view.octets value).map View.mk

/-- The result of a checked write. The write behind the check has its own chance to leave the view,
which is the outer `none`. -/
def assign? (view : View h) (slot : h.Slot) (value : Nat) : Option (Except FieldError (View h)) :=
  match h.table.lookup view.octets.length (Header.index slot) with
  | .error reason => some (.error reason)
  | .ok field =>
    if field.Holds value then (field.write? view.octets value).map fun out ↦ .ok ⟨out⟩
    else some (.error (.valueOutOfRange value field.width))

namespace Sized

variable {view : View h}

theorem requiredOctets_le (hsized : view.Sized) (slot : h.Slot) :
    (Header.place slot).requiredOctets ≤ view.octets.length :=
  Nat.le_trans (Header.place_requiredOctets_le slot) hsized

theorem read?_eq (hsized : view.Sized) (slot : h.Slot) : view.read? slot = some (view.read slot) :=
  BitField.read?_eq_some_read (hsized.requiredOctets_le slot)

theorem flag?_eq (hsized : view.Sized) (slot : h.Slot) :
    view.flag? slot = some (view.flag slot) := by
  rw [flag?, hsized.read?_eq, Option.map_some, flag]

theorem wide?_eq (hsized : view.Sized) (hi lo : h.Slot) :
    view.wide? hi lo = some (WideValue.join (view.read hi) (view.read lo)) := by
  rw [wide?, hsized.read?_eq, hsized.read?_eq]
  rfl

theorem write?_eq (hsized : view.Sized) (slot : h.Slot) (value : Nat) :
    view.write? slot value = some (view.write slot value) := by
  rw [write?, BitField.write?_eq_some_write value (hsized.requiredOctets_le slot)]
  rfl

/-- The field with the index of a slot is found in every view that is long enough. -/
theorem lookup_eq (hsized : view.Sized) (slot : h.Slot) :
    h.table.lookup view.octets.length (Header.index slot) = .ok (Header.place slot) := by
  rw [FieldTable.lookup, Header.getElem?_table_index]
  exact if_neg (Nat.not_lt.mpr (hsized.requiredOctets_le slot))

/-- A checked write through a view is refused for its value alone. -/
theorem assign_eq (hsized : view.Sized) (slot : h.Slot) (value : Nat) :
    view.assign slot value =
      if (Header.place slot).Holds value then .ok (view.write slot value)
      else .error (.valueOutOfRange value (Header.place slot).width) := by
  rw [assign, Header.set, FieldTable.set, hsized.lookup_eq]
  simp only [bind, Except.bind]
  split <;> rfl

theorem assign?_eq (hsized : view.Sized) (slot : h.Slot) (value : Nat) :
    view.assign? slot value = some (view.assign slot value) := by
  have hwrite := BitField.write?_eq_some_write value (hsized.requiredOctets_le slot)
  rw [assign?, hsized.lookup_eq, hsized.assign_eq]
  simp only [hwrite, Option.map_some]
  split <;> rfl

theorem write (hsized : view.Sized) (slot : h.Slot) (value : Nat) :
    (view.write slot value).Sized := by
  rw [Sized, length_write]
  exact hsized

end Sized

/-! ### Strict payload -/

/-- The range of the payload, `none` if the pad count it depends on does not lie in the view. -/
def payloadRange? : {h : Header} → View h → Option (Nat × Nat)
  | .can, view => (view.read? CanSlot.pad).map (payloadRange.padded view)
  | .canBrief, view => (view.read? CanBriefSlot.pad).map (payloadRange.padded view)
  | .lin, view => (view.read? LinSlot.pad).map (payloadRange.padded view)
  | .common, view => some view.payloadRange
  | .udp, view => some view.payloadRange
  | .ntscf, view => some view.payloadRange
  | .tscf, view => some view.payloadRange
  | .acf, view => some view.payloadRange

/-- The octets of the payload, `none` if their range does not lie in the view. -/
def payload? (view : View h) : Option (List UInt8) := do
  let (start, stop) ← view.payloadRange?
  Octets.slice? view.octets start stop

/-- The view after writing over the payload, `none` if its range does not lie in the view. -/
def writePayload? (view : View h) (content : List UInt8) : Option (View h) := do
  let (start, stop) ← view.payloadRange?
  let _ ← Octets.slice? view.octets start stop
  return ⟨Octets.overlay view.octets start stop content⟩

/-- Where the payload of a header begins: behind the header, and for a message of any type behind
its type and length. -/
def payloadStart : Header → Nat
  | .acf => 2
  | h => h.size

namespace Sized

variable {view : View h}

/-- **The payload lies between the header and the end of the view**, whatever the header says. -/
theorem payloadRange_le (hsized : view.Sized) :
    view.payloadRange.1 = payloadStart h ∧ view.payloadRange.1 ≤ view.payloadRange.2 ∧
      view.payloadRange.2 ≤ view.octets.length := by
  unfold Sized at hsized
  cases h with
  | common | udp | ntscf | tscf => exact ⟨rfl, hsized, Nat.le_refl _⟩
  | acf =>
    have hle : 2 ≤ view.octets.length := Nat.le_trans (by decide) hsized
    exact ⟨rfl, hle, Nat.le_refl _⟩
  | can | canBrief | lin =>
    -- However large the pad count, the range ends no earlier than the header.
    exact ⟨rfl, Nat.le_max_right _ _, Nat.max_le.mpr ⟨Nat.sub_le _ _, hsized⟩⟩

theorem payloadRange?_eq (hsized : view.Sized) : view.payloadRange? = some view.payloadRange := by
  cases h with
  | common | udp | ntscf | tscf | acf => rfl
  | can | canBrief | lin =>
    rw [payloadRange?, hsized.read?_eq]
    rfl

theorem slice?_payloadRange_eq (hsized : view.Sized) :
    Octets.slice? view.octets view.payloadRange.1 view.payloadRange.2 = some view.payload := by
  obtain ⟨-, hle, hend⟩ := hsized.payloadRange_le
  rw [payload, Octets.slice?, if_pos ⟨hle, hend⟩, Option.getD_some]

theorem payload?_eq (hsized : view.Sized) : view.payload? = some view.payload := by
  rw [payload?, hsized.payloadRange?_eq]
  exact hsized.slice?_payloadRange_eq

theorem writePayload?_eq (hsized : view.Sized) (content : List UInt8) :
    view.writePayload? content = some (view.writePayload content) := by
  rw [writePayload?, hsized.payloadRange?_eq]
  simp only [Option.bind_eq_bind, Option.bind_some, hsized.slice?_payloadRange_eq]
  rfl

end Sized

/-! ### Strict getters -/

/-- What a named getter gives. -/
inductive Datum where
  | flag (value : Bool)
  | octet (value : UInt8)
  | word (value : UInt32)
  | wide (value : UInt64)
  | number (value : Nat)
  | subtype (value : PduSubtype)
  | messageType (value : Acf.MessageType)
  | flags (value : Acf.CanFlags)

/-- What the named getters of a view give. -/
def getters : {h : Header} → View h → List Datum
  | .common, view =>
    [.octet (CommonView.rawSubtype view), .subtype (CommonView.subtype view),
      .flag (CommonView.h view), .octet (CommonView.version view)]
  | .udp, view => [.word (UdpView.sequenceNumber view)]
  | .ntscf, view =>
    [.flag (NtscfView.sv view), .octet (NtscfView.version view), .flag (NtscfView.r view),
      .number (NtscfView.dataLength view), .octet (NtscfView.sequenceNum view),
      .wide (NtscfView.streamId view)]
  | .tscf, view =>
    [.flag (TscfView.sv view), .octet (TscfView.version view), .flag (TscfView.mr view),
      .flag (TscfView.tv view), .octet (TscfView.sequenceNum view), .flag (TscfView.tu view),
      .wide (TscfView.streamId view), .word (TscfView.avtpTimestamp view),
      .word (TscfView.gatewayInfo view), .number (TscfView.dataLength view)]
  | .acf, view =>
    [.octet (AcfView.rawMsgType view), .messageType (AcfView.msgType view),
      .number (AcfView.msgLength view)]
  | .can, view =>
    [.number (CanView.msgLength view), .number (CanView.pad view), .flag (CanView.mtv view),
      .flag (CanView.rtr view), .flag (CanView.eff view), .flag (CanView.brs view),
      .flag (CanView.fdf view), .flag (CanView.esi view), .octet (CanView.canBusId view),
      .wide (CanView.messageTimestamp view), .word (CanView.canIdentifier view),
      .flags (CanView.flags view)]
  | .canBrief, view =>
    [.number (CanBriefView.msgLength view), .number (CanBriefView.pad view),
      .flag (CanBriefView.mtv view), .flag (CanBriefView.rtr view), .flag (CanBriefView.eff view),
      .flag (CanBriefView.brs view), .flag (CanBriefView.fdf view), .flag (CanBriefView.esi view),
      .octet (CanBriefView.canBusId view), .word (CanBriefView.canIdentifier view),
      .flags (CanBriefView.flags view)]
  | .lin, view =>
    [.number (LinView.msgLength view), .number (LinView.pad view), .flag (LinView.mtv view),
      .octet (LinView.linBusId view), .octet (LinView.linIdentifier view),
      .wide (LinView.messageTimestamp view)]

/-- What the named getters of a view give, `none` if one of them reads outside the view. -/
def getters? : {h : Header} → View h → Option (List Datum)
  | .common, view => do
    let subtype : UInt8 := .ofNat (← view.read? CommonSlot.subtype)
    return [.octet subtype, .subtype (.ofRaw subtype), .flag (← view.flag? CommonSlot.h),
      .octet (.ofNat (← view.read? CommonSlot.version))]
  | .udp, view => do return [.word (.ofNat (← view.read? UdpSlot.sequenceNumber))]
  | .ntscf, view => do
    return [.flag (← view.flag? NtscfSlot.sv), .octet (.ofNat (← view.read? NtscfSlot.version)),
      .flag (← view.flag? NtscfSlot.r), .number (← view.read? NtscfSlot.dataLength),
      .octet (.ofNat (← view.read? NtscfSlot.sequenceNum)),
      .wide (← view.wide? NtscfSlot.streamIdHi NtscfSlot.streamIdLo)]
  | .tscf, view => do
    return [.flag (← view.flag? TscfSlot.sv), .octet (.ofNat (← view.read? TscfSlot.version)),
      .flag (← view.flag? TscfSlot.mr), .flag (← view.flag? TscfSlot.tv),
      .octet (.ofNat (← view.read? TscfSlot.sequenceNum)), .flag (← view.flag? TscfSlot.tu),
      .wide (← view.wide? TscfSlot.streamIdHi TscfSlot.streamIdLo),
      .word (.ofNat (← view.read? TscfSlot.avtpTimestamp)),
      .word (.ofNat (← view.read? TscfSlot.gatewayInfo)),
      .number (← view.read? TscfSlot.dataLength)]
  | .acf, view => do
    let type : UInt8 := .ofNat (← view.read? AcfSlot.msgType)
    return [.octet type, .messageType (.ofRaw type), .number (← view.read? AcfSlot.msgLength)]
  | .can, view => do
    let mtv ← view.flag? CanSlot.mtv
    let rtr ← view.flag? CanSlot.rtr
    let eff ← view.flag? CanSlot.eff
    let brs ← view.flag? CanSlot.brs
    let fdf ← view.flag? CanSlot.fdf
    let esi ← view.flag? CanSlot.esi
    return [.number (← view.read? CanSlot.msgLength), .number (← view.read? CanSlot.pad), .flag mtv,
      .flag rtr, .flag eff, .flag brs, .flag fdf, .flag esi,
      .octet (.ofNat (← view.read? CanSlot.canBusId)),
      .wide (← view.wide? CanSlot.messageTimestampHi CanSlot.messageTimestampLo),
      .word (.ofNat (← view.read? CanSlot.canIdentifier)),
      .flags (.ofBools mtv rtr eff brs fdf esi)]
  | .canBrief, view => do
    let mtv ← view.flag? CanBriefSlot.mtv
    let rtr ← view.flag? CanBriefSlot.rtr
    let eff ← view.flag? CanBriefSlot.eff
    let brs ← view.flag? CanBriefSlot.brs
    let fdf ← view.flag? CanBriefSlot.fdf
    let esi ← view.flag? CanBriefSlot.esi
    return [.number (← view.read? CanBriefSlot.msgLength), .number (← view.read? CanBriefSlot.pad),
      .flag mtv, .flag rtr, .flag eff, .flag brs, .flag fdf, .flag esi,
      .octet (.ofNat (← view.read? CanBriefSlot.canBusId)),
      .word (.ofNat (← view.read? CanBriefSlot.canIdentifier)),
      .flags (.ofBools mtv rtr eff brs fdf esi)]
  | .lin, view => do
    return [.number (← view.read? LinSlot.msgLength), .number (← view.read? LinSlot.pad),
      .flag (← view.flag? LinSlot.mtv), .octet (.ofNat (← view.read? LinSlot.linBusId)),
      .octet (.ofNat (← view.read? LinSlot.linIdentifier)),
      .wide (← view.wide? LinSlot.messageTimestampHi LinSlot.messageTimestampLo)]

theorem Sized.getters?_eq {view : View h} (hsized : view.Sized) :
    view.getters? = some view.getters := by
  cases h <;>
    simp only [getters?, hsized.read?_eq, hsized.flag?_eq, hsized.wide?_eq, Option.bind_eq_bind,
      Option.bind_some] <;>
    rfl

end View

end Avtp
