import Mathlib.Data.List.Nodup
import Avtp.Proofs.MessageWire
import Avtp.Proofs.ViewSafety

/-!
# Named properties of a view

What a view has under a name is not always a field. A flag is one bit, and it is shown as a truth
value; a stream id is two fields and one number. A `Property` is what a named getter reads and what
it makes of it, and a `Setting` is a value of the right type for one. Getters and setters are both
said in these terms: a view shows its properties (`View.getters_eq`), and a setter makes one or more
settings (`Header.writes_settings`).

**The laws of a store.** A property that was set is what it was set to (`Setting.value_write_self`).
All others stay as they are, since the fields of different properties are different fields
(`Setting.value_write_of_disjoint`). So what a sequence of settings leaves is, for each property,
the last value that it was given (`Setting.value_writeAll`).
-/

namespace Avtp

variable {h : Header}

/-! ### What getters show -/

/-- What a named getter reads, and as what it shows it. -/
inductive Property (h : Header) where
  | flag (slot : h.Slot)
  | octet (slot : h.Slot)
  | word (slot : h.Slot)
  | number (slot : h.Slot)
  /-- A value of 64 bits in two fields. -/
  | wide (hi lo : h.Slot)
  deriving DecidableEq

namespace Property

/-- The fields of a property. -/
def slots : Property h → List h.Slot
  | flag slot => [slot]
  | octet slot => [slot]
  | word slot => [slot]
  | number slot => [slot]
  | wide hi lo => [hi, lo]

/-- The value of a property. -/
def value (view : View h) : Property h → View.Datum
  | flag slot => .flag (view.flag slot)
  | octet slot => .octet (.ofNat (view.read slot))
  | word slot => .word (.ofNat (view.read slot))
  | number slot => .number (view.read slot)
  | wide hi lo => .wide (WideValue.join (view.read hi) (view.read lo))

/-- A property depends on its fields and on nothing else. -/
theorem value_congr {a b : View h} {property : Property h}
    (hread : ∀ slot ∈ property.slots, a.read slot = b.read slot) :
    property.value a = property.value b := by
  cases property with
  | flag slot => rw [value, value, View.flag, View.flag, hread slot List.mem_cons_self]
  | octet slot => rw [value, value, hread slot List.mem_cons_self]
  | word slot => rw [value, value, hread slot List.mem_cons_self]
  | number slot => rw [value, value, hread slot List.mem_cons_self]
  | wide hi lo =>
    rw [value, value, hread hi List.mem_cons_self,
      hread lo (List.mem_cons_of_mem hi List.mem_cons_self)]

end Property

namespace Header

/-- The named properties of a header that have a setter. -/
def settable : (h : Header) → List (Property h)
  | common => [.octet CommonSlot.subtype, .flag CommonSlot.h, .octet CommonSlot.version]
  | udp => [.word UdpSlot.sequenceNumber]
  | ntscf =>
    [.flag NtscfSlot.sv, .octet NtscfSlot.version, .number NtscfSlot.dataLength,
      .octet NtscfSlot.sequenceNum, .wide NtscfSlot.streamIdHi NtscfSlot.streamIdLo]
  | tscf =>
    [.flag TscfSlot.sv, .octet TscfSlot.version, .flag TscfSlot.mr, .flag TscfSlot.tv,
      .octet TscfSlot.sequenceNum, .flag TscfSlot.tu,
      .wide TscfSlot.streamIdHi TscfSlot.streamIdLo, .word TscfSlot.avtpTimestamp,
      .word TscfSlot.gatewayInfo, .number TscfSlot.dataLength]
  | acf => [.octet AcfSlot.msgType, .number AcfSlot.msgLength]
  | can =>
    [.number CanSlot.pad, .flag CanSlot.mtv, .flag CanSlot.rtr, .flag CanSlot.eff,
      .flag CanSlot.brs, .flag CanSlot.fdf, .flag CanSlot.esi, .octet CanSlot.canBusId,
      .wide CanSlot.messageTimestampHi CanSlot.messageTimestampLo, .word CanSlot.canIdentifier]
  | canBrief =>
    [.number CanBriefSlot.pad, .flag CanBriefSlot.rtr, .flag CanBriefSlot.eff,
      .flag CanBriefSlot.brs, .flag CanBriefSlot.fdf, .flag CanBriefSlot.esi,
      .octet CanBriefSlot.canBusId, .word CanBriefSlot.canIdentifier]
  | lin =>
    [.number LinSlot.pad, .flag LinSlot.mtv, .octet LinSlot.linBusId, .octet LinSlot.linIdentifier,
      .wide LinSlot.messageTimestampHi LinSlot.messageTimestampLo]

/-- All named properties of a header, in the order of their getters. -/
def properties : (h : Header) → List (Property h)
  | ntscf =>
    [.flag NtscfSlot.sv, .octet NtscfSlot.version, .flag NtscfSlot.r, .number NtscfSlot.dataLength,
      .octet NtscfSlot.sequenceNum, .wide NtscfSlot.streamIdHi NtscfSlot.streamIdLo]
  | can => .number CanSlot.msgLength :: settable can
  | canBrief =>
    [.number CanBriefSlot.msgLength, .number CanBriefSlot.pad, .flag CanBriefSlot.mtv,
      .flag CanBriefSlot.rtr, .flag CanBriefSlot.eff, .flag CanBriefSlot.brs,
      .flag CanBriefSlot.fdf, .flag CanBriefSlot.esi, .octet CanBriefSlot.canBusId,
      .word CanBriefSlot.canIdentifier]
  | lin => .number LinSlot.msgLength :: settable lin
  | h => settable h

/-- The fields that no setter covers: what the header is of, what is reserved, and of a message its
length. A brief CAN message does not set the flag of a timestamp either. -/
def kept : (h : Header) → List h.Slot
  | ntscf => [NtscfSlot.subtype, .r]
  | tscf => [TscfSlot.subtype, .rsv1, .rsv2, .rsv3]
  | can => [CanSlot.msgType, .msgLength, .rsv1, .rsv2]
  | canBrief => [CanBriefSlot.msgType, .msgLength, .mtv, .rsv1, .rsv2]
  | lin => [LinSlot.msgType, .msgLength]
  | common => []
  | udp => []
  | acf => []

/-- No field belongs to two properties, or twice to one. -/
theorem nodup_properties (h : Header) : (h.properties.flatMap Property.slots).Nodup := by
  cases h <;> decide

/-- No field of a property with a setter is among the kept ones. -/
theorem nodup_settable_kept (h : Header) : (h.settable.flatMap Property.slots ++ h.kept).Nodup := by
  cases h <;> decide

theorem settable_subset (h : Header) : h.settable ⊆ h.properties := by
  cases h <;> decide

end Header

namespace View

/-- What is shown is the value of a property. A name for a number, and a set of flags that are also
shown one by one, are not. -/
def Datum.isProperty : Datum → Bool
  | .subtype _ => false
  | .messageType _ => false
  | .flags _ => false
  | _ => true

/-- **The named getters show the properties**, in order. -/
theorem getters_eq (view : View h) :
    view.getters.filter Datum.isProperty = h.properties.map fun property ↦ property.value view := by
  cases h <;> rfl

end View

/-! ### What setters set -/

/-- A value for a property. -/
inductive Setting (h : Header) where
  | flag (slot : h.Slot) (value : Bool)
  | octet (slot : h.Slot) (value : UInt8)
  | word (slot : h.Slot) (value : UInt32)
  | count (slot : h.Slot) (value : UInt8)
  | length (slot : h.Slot) (value : UInt16)
  | wide (hi lo : h.Slot) (value : UInt64)

namespace Setting

/-- The property that is set. -/
def property : Setting h → Property h
  | flag slot _ => .flag slot
  | octet slot _ => .octet slot
  | word slot _ => .word slot
  | count slot _ => .number slot
  | length slot _ => .number slot
  | wide hi lo _ => .wide hi lo

/-- What it is set to, as its getter shows it. -/
def datum : Setting h → View.Datum
  | flag _ value => .flag value
  | octet _ value => .octet value
  | word _ value => .word value
  | count _ value => .number value.toNat
  | length _ value => .number value.toNat
  | wide _ _ value => .wide value

/-- The fields that are written, in order. -/
def writes : Setting h → List (h.Slot × Nat)
  | flag slot value => [(slot, value.toNat)]
  | octet slot value => [(slot, value.toNat)]
  | word slot value => [(slot, value.toNat)]
  | count slot value => [(slot, value.toNat)]
  | length slot value => [(slot, value.toNat)]
  | wide hi lo value => [(hi, WideValue.hi value), (lo, WideValue.lo value)]

/-- The view after a setting. -/
def write (view : View h) (setting : Setting h) : View h :=
  setting.writes.foldl (fun view value ↦ view.write value.1 value.2) view

/-- The fields hold what is written. -/
def Fits (setting : Setting h) : Prop :=
  ∀ value ∈ setting.writes, (Header.place value.1).Holds value.2

/-- The fields are as wide as the type of the value, so that they hold every value. -/
def isExact : Setting h → Bool
  | flag _ _ => true
  | octet slot _ => (Header.place slot).width == 8
  | word slot _ => (Header.place slot).width == 32
  | count slot _ => (Header.place slot).width == 8
  | length slot _ => (Header.place slot).width == 16
  | wide hi lo _ => (Header.place hi).width == 32 && (Header.place lo).width == 32

theorem fits_of_isExact {setting : Setting h} (hexact : setting.isExact = true) :
    setting.Fits := by
  have hholds {slot : h.Slot} {value width : Nat}
      (hwidth : ((Header.place slot).width == width) = true) (hlt : value < 2 ^ width) :
      (Header.place slot).Holds value := by
    rw [BitField.holds_iff_lt_two_pow, beq_iff_eq.mp hwidth]
    exact hlt
  cases setting with
  | flag slot value =>
    refine List.forall_mem_singleton.mpr (BitField.holds_iff_lt_two_pow.mpr ?_)
    exact Nat.lt_of_lt_of_le (Bool.toNat_lt value)
      (Nat.pow_le_pow_right Nat.two_pos (Header.place slot).width_pos)
  | octet slot value => exact List.forall_mem_singleton.mpr (hholds hexact value.toNat_lt)
  | word slot value => exact List.forall_mem_singleton.mpr (hholds hexact value.toNat_lt)
  | count slot value => exact List.forall_mem_singleton.mpr (hholds hexact value.toNat_lt)
  | length slot value => exact List.forall_mem_singleton.mpr (hholds hexact value.toNat_lt)
  | wide hi lo value =>
    obtain ⟨hhi, hlo⟩ := Bool.and_eq_true_iff.mp hexact
    exact List.forall_mem_cons.mpr ⟨hholds hhi (WideValue.hi_lt value),
      List.forall_mem_singleton.mpr (hholds hlo (WideValue.lo_lt value))⟩

theorem slots_writes (setting : Setting h) :
    setting.writes.map Prod.fst = setting.property.slots := by
  cases setting <;> rfl

end Setting

namespace Header

/-- The settings that a setter makes, in order. -/
def settings : {h : Header} → h.Setter → List (Setting h)
  | common, CommonSetter.rawSubtype value => [.octet CommonSlot.subtype value]
  | common, CommonSetter.h value => [.flag CommonSlot.h value]
  | common, CommonSetter.version value => [.octet CommonSlot.version value]
  | common, CommonSetter.subtype value => [.octet CommonSlot.subtype value.raw]
  | udp, UdpSetter.sequenceNumber value => [.word UdpSlot.sequenceNumber value]
  | ntscf, NtscfSetter.sv value => [.flag NtscfSlot.sv value]
  | ntscf, NtscfSetter.version value => [.octet NtscfSlot.version value]
  | ntscf, NtscfSetter.dataLength value => [.length NtscfSlot.dataLength value]
  | ntscf, NtscfSetter.sequenceNum value => [.octet NtscfSlot.sequenceNum value]
  | ntscf, NtscfSetter.streamId value => [.wide NtscfSlot.streamIdHi NtscfSlot.streamIdLo value]
  | tscf, TscfSetter.sv value => [.flag TscfSlot.sv value]
  | tscf, TscfSetter.version value => [.octet TscfSlot.version value]
  | tscf, TscfSetter.mr value => [.flag TscfSlot.mr value]
  | tscf, TscfSetter.tv value => [.flag TscfSlot.tv value]
  | tscf, TscfSetter.sequenceNum value => [.octet TscfSlot.sequenceNum value]
  | tscf, TscfSetter.tu value => [.flag TscfSlot.tu value]
  | tscf, TscfSetter.streamId value => [.wide TscfSlot.streamIdHi TscfSlot.streamIdLo value]
  | tscf, TscfSetter.avtpTimestamp value => [.word TscfSlot.avtpTimestamp value]
  | tscf, TscfSetter.gatewayInfo value => [.word TscfSlot.gatewayInfo value]
  | tscf, TscfSetter.dataLength value => [.length TscfSlot.dataLength value]
  | acf, AcfSetter.rawMsgType value => [.octet AcfSlot.msgType value]
  | acf, AcfSetter.msgLength value => [.length AcfSlot.msgLength value]
  | can, CanSetter.pad value => [.count CanSlot.pad value]
  | can, CanSetter.mtv value => [.flag CanSlot.mtv value]
  | can, CanSetter.rtr value => [.flag CanSlot.rtr value]
  | can, CanSetter.eff value => [.flag CanSlot.eff value]
  | can, CanSetter.brs value => [.flag CanSlot.brs value]
  | can, CanSetter.fdf value => [.flag CanSlot.fdf value]
  | can, CanSetter.esi value => [.flag CanSlot.esi value]
  | can, CanSetter.canBusId value => [.octet CanSlot.canBusId value]
  | can, CanSetter.messageTimestamp value =>
    [.wide CanSlot.messageTimestampHi CanSlot.messageTimestampLo value]
  | can, CanSetter.canIdentifier value => [.word CanSlot.canIdentifier value]
  | can, CanSetter.flags value =>
    [.flag CanSlot.mtv (value.contains .mtv), .flag CanSlot.rtr (value.contains .rtr),
      .flag CanSlot.eff (value.contains .eff), .flag CanSlot.brs (value.contains .brs),
      .flag CanSlot.fdf (value.contains .fdf), .flag CanSlot.esi (value.contains .esi)]
  | canBrief, CanBriefSetter.pad value => [.count CanBriefSlot.pad value]
  | canBrief, CanBriefSetter.rtr value => [.flag CanBriefSlot.rtr value]
  | canBrief, CanBriefSetter.eff value => [.flag CanBriefSlot.eff value]
  | canBrief, CanBriefSetter.brs value => [.flag CanBriefSlot.brs value]
  | canBrief, CanBriefSetter.fdf value => [.flag CanBriefSlot.fdf value]
  | canBrief, CanBriefSetter.esi value => [.flag CanBriefSlot.esi value]
  | canBrief, CanBriefSetter.canBusId value => [.octet CanBriefSlot.canBusId value]
  | canBrief, CanBriefSetter.canIdentifier value => [.word CanBriefSlot.canIdentifier value]
  | lin, LinSetter.pad value => [.count LinSlot.pad value]
  | lin, LinSetter.mtv value => [.flag LinSlot.mtv value]
  | lin, LinSetter.linBusId value => [.octet LinSlot.linBusId value]
  | lin, LinSetter.linIdentifier value => [.octet LinSlot.linIdentifier value]
  | lin, LinSetter.messageTimestamp value =>
    [.wide LinSlot.messageTimestampHi LinSlot.messageTimestampLo value]

end Header

/-- The fields that an assignment writes, in order. -/
def Assignment.writes : Assignment h → List (h.Slot × Nat)
  | checked slot value => [(slot, value)]
  | direct values => values

namespace Header

/-- **A setter writes its settings.** -/
theorem writes_settings (setter : h.Setter) :
    (settings setter).flatMap Setting.writes = (assignment setter).writes := by
  cases h <;> cases setter <;> rfl

/-- What is not checked is exact. -/
theorem isExact_settings {setter : h.Setter} {values : List (h.Slot × Nat)}
    (hdirect : assignment setter = .direct values) :
    (settings setter).all Setting.isExact = true := by
  cases h <;> cases setter <;> first | rfl | exact nomatch hdirect

theorem all_settable (setter : h.Setter) :
    ((settings setter).all fun setting ↦ setting.property ∈ h.settable) = true := by
  cases h <;> cases setter <;> rfl

theorem property_mem_settable {setter : h.Setter} {setting : Setting h}
    (hsetting : setting ∈ settings setter) : setting.property ∈ h.settable :=
  of_decide_eq_true (List.all_eq_true.mp (all_settable setter) setting hsetting)

/-- **Different properties have different fields.** -/
theorem disjoint_slots {property other : Property h} (hproperty : property ∈ h.properties)
    (hother : other ∈ h.properties) (hne : property ≠ other) :
    property.slots.Disjoint other.slots := by
  obtain ⟨-, hpairs⟩ := List.nodup_flatMap.mp h.nodup_properties
  have hsymm : Std.Symm (Function.onFun List.Disjoint (Property.slots (h := h))) :=
    ⟨fun _ _ hdisjoint _ hother hproperty ↦ hdisjoint hproperty hother⟩
  exact hpairs.forall hproperty hother hne

end Header

/-! ### Settings one by one -/

section Writes

variable {view : View h}

namespace View.Sized

theorem read_write_self (hsized : view.Sized) {slot : h.Slot} {value : Nat}
    (hholds : (Header.place slot).Holds value) : (view.write slot value).read slot = value :=
  BitField.read_write_of_holds hholds (hsized.requiredOctets_le slot)

theorem read_write_of_ne (hsized : view.Sized) {slot other : h.Slot} (hne : slot ≠ other)
    (value : Nat) : (view.write slot value).read other = view.read other :=
  BitField.read_write_of_not_overlaps value (Header.not_overlaps_place hne)
    (hsized.requiredOctets_le other) (hsized.requiredOctets_le slot)

/-- Fields that are not written stay as they are. -/
theorem read_foldl_write (hsized : view.Sized) {values : List (h.Slot × Nat)} {slot : h.Slot}
    (hslot : slot ∉ values.map Prod.fst) :
    (values.foldl (fun (view : View h) value ↦ view.write value.1 value.2) view).read slot =
      view.read slot := by
  induction values generalizing view with
  | nil => rfl
  | cons value values ih =>
    rw [List.map_cons, List.mem_cons, not_or] at hslot
    obtain ⟨hne, hslot⟩ := hslot
    rw [List.foldl_cons, ih (hsized.write value.1 value.2) hslot,
      hsized.read_write_of_ne (Ne.symm hne)]

end View.Sized

namespace Setting

theorem sized_write (hsized : view.Sized) (setting : Setting h) :
    (setting.write view).Sized := by
  rw [View.Sized, write, View.length_foldl_write]
  exact hsized

/-- **A property that was set is what it was set to.** -/
theorem value_write_self (hsized : view.Sized) {setting : Setting h} (hfits : setting.Fits)
    (hnodup : setting.property.slots.Nodup) :
    setting.property.value (setting.write view) = setting.datum := by
  cases setting with
  | flag slot value =>
    have hread := hsized.read_write_self (hfits _ List.mem_cons_self)
    exact congrArg View.Datum.flag (View.flag_eq hread)
  | octet slot value =>
    have hread := hsized.read_write_self (hfits _ List.mem_cons_self)
    show View.Datum.octet (.ofNat ((view.write slot value.toNat).read slot)) = .octet value
    rw [hread, UInt8.ofNat_toNat]
  | word slot value =>
    have hread := hsized.read_write_self (hfits _ List.mem_cons_self)
    show View.Datum.word (.ofNat ((view.write slot value.toNat).read slot)) = .word value
    rw [hread, UInt32.ofNat_toNat]
  | count slot value =>
    exact congrArg View.Datum.number (hsized.read_write_self (hfits _ List.mem_cons_self))
  | length slot value =>
    exact congrArg View.Datum.number (hsized.read_write_self (hfits _ List.mem_cons_self))
  | wide hi lo value =>
    obtain ⟨hhi, hlo⟩ := List.forall_mem_cons.mp hfits
    have hne : lo ≠ hi := fun heq ↦ (List.nodup_cons.mp hnodup).1 (heq ▸ List.mem_cons_self)
    have hafter := hsized.write hi (WideValue.hi value)
    show View.Datum.wide (WideValue.join
      (((view.write hi (WideValue.hi value)).write lo (WideValue.lo value)).read hi)
      (((view.write hi (WideValue.hi value)).write lo (WideValue.lo value)).read lo)) = .wide value
    rw [hafter.read_write_of_ne hne, hsized.read_write_self hhi,
      hafter.read_write_self (hlo _ List.mem_cons_self), WideValue.join_hi_lo]

/-- **A property with other fields stays as it is.** -/
theorem value_write_of_disjoint (hsized : view.Sized) {setting : Setting h} {property : Property h}
    (hdisjoint : property.slots.Disjoint setting.property.slots) :
    property.value (setting.write view) = property.value view := by
  refine Property.value_congr fun slot hslot ↦ hsized.read_foldl_write ?_
  rw [setting.slots_writes]
  exact hdisjoint hslot

end Setting

/-! ### Sequences of settings -/

/-- The last value given to a property. -/
def lastSet? (settings : List (Setting h)) (property : Property h) : Option View.Datum :=
  (settings.reverse.find? fun setting ↦ setting.property = property).map Setting.datum

theorem lastSet?_append (front back : List (Setting h)) (property : Property h) :
    lastSet? (front ++ back) property = (lastSet? back property).or (lastSet? front property) := by
  rw [lastSet?, List.reverse_append, List.find?_append, Option.map_or, lastSet?, lastSet?]

theorem lastSet?_cons (setting : Setting h) (settings : List (Setting h)) (property : Property h) :
    lastSet? (setting :: settings) property = (lastSet? settings property).or
      (if setting.property = property then some setting.datum else none) := by
  rw [← List.singleton_append, lastSet?_append]
  congr 1
  by_cases heq : setting.property = property <;> simp [lastSet?, heq]

/-- Settings are made by writing their fields one after the other. -/
theorem Setting.foldl_write (settings : List (Setting h)) (view : View h) :
    settings.foldl Setting.write view = (settings.flatMap Setting.writes).foldl
      (fun view value ↦ view.write value.1 value.2) view := by
  rw [List.foldl_flatMap]
  rfl

/-- **What settings leave is the last value of each property.** -/
theorem Setting.value_writeAll (hsized : view.Sized) {settings : List (Setting h)}
    (hfits : ∀ setting ∈ settings, setting.Fits)
    (hnamed : ∀ setting ∈ settings, setting.property ∈ h.properties) {property : Property h}
    (hproperty : property ∈ h.properties) :
    property.value (settings.foldl Setting.write view) =
      (lastSet? settings property).getD (property.value view) := by
  induction settings generalizing view with
  | nil => rfl
  | cons setting settings ih =>
    obtain ⟨hfit, hfits⟩ := List.forall_mem_cons.mp hfits
    obtain ⟨hname, hnamed⟩ := List.forall_mem_cons.mp hnamed
    have hstep : property.value (setting.write view) =
        (if setting.property = property then some setting.datum else none).getD
          (property.value view) := by
      by_cases heq : setting.property = property
      · subst heq
        have hnodup := (List.nodup_flatMap.mp h.nodup_properties).1 _ hproperty
        rw [value_write_self hsized hfit hnodup, if_pos rfl, Option.getD_some]
      · rw [value_write_of_disjoint hsized (Header.disjoint_slots hproperty hname (Ne.symm heq)),
          if_neg heq, Option.getD_none]
    rw [List.foldl_cons, ih (setting.sized_write hsized) hfits hnamed, hstep, lastSet?_cons,
      Option.getD_or]

end Writes

end Avtp
