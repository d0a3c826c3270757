import Avtp.Proofs.SetterIndependence
import Avtp.Proofs.TypedAccess

/-!
# Parsing a view again

A view and its octets can come to disagree. The view was measured when it was taken, and it cuts its
payload at the pad count, never into the header. Its octets can be written over, the type, the
length and the pad count among them, and whoever parses them later measures them anew and refuses a
pad count for which there is no room.

**When they agree.** If the octets are parsed again to their whole length, then they are a message
with room for its padding (`accepted_iff`), where both measures give one payload
(`Accepted.slice?_payload`). This does not depend on how they got there, so it holds after any
edits.

**When only the pad count was set** type and length are still those of the view, and room for the
padding is all that is left to check (`size?_of_announced`). Without room the payload of the view is
empty: what the parser refuses the view has cut off.
-/

namespace Avtp.Acf

variable {format : MessageFormat} {view : View format.header}

/-! ### Whole messages -/

/-- The message announces the format by the number of its type. -/
theorem announcedType_eq_iff (view : View format.header) :
    MessageExtent.announcedType view.octets = format.type ↔
      view.read format.typeSlot = format.type.raw.toNat := by
  have htype : MessageExtent.announcedType view.octets = AcfView.msgType ⟨view.octets⟩ := rfl
  have hread : view.read format.typeSlot = (AcfView.rawMsgType ⟨view.octets⟩).toNat := by
    rw [View.read, format.place_typeSlot]
    exact (@View.toNat_octet .acf ⟨view.octets⟩ AcfSlot.msgType (by decide)).symm
  rw [htype, hread, AcfView.msgType_eq_iff, UInt8.toNat_inj]

theorem announcedLength_eq (view : View format.header) :
    MessageExtent.announcedLength view.octets = 4 * view.read format.lengthSlot := by
  rw [View.read, format.place_lengthSlot, MessageExtent.announcedLength]

/-- **Octets are parsed to their whole length if they are a message of the format**, with room for
its header and padding. -/
theorem accepted_iff :
    Accepted view ↔ View.size? format.header view.octets = .ok view.octets.length := by
  simp only [View.size?_eq_ok_iff, format.extent?_header, map_eq_ok_iff,
    MessageExtent.ofFormat?_eq_ok_iff, announcedType_eq_iff, announcedLength_eq]
  constructor
  · intro haccepted
    have hroom := haccepted.room
    have hmin := format.four_le_size
    have hlength := haccepted.length_eq
    exact ⟨_, ⟨by omega, by omega, haccepted.type_eq, by rwa [hlength], rfl⟩, hlength⟩
  · rintro ⟨extent, ⟨-, -, htype, hroom, rfl⟩, hlength⟩
    exact ⟨htype, hlength, hlength ▸ hroom⟩

theorem Accepted.sized (haccepted : Accepted view) : view.Sized :=
  Nat.le_trans (Nat.le_add_right _ _) haccepted.room

/-- **The payload of an accepted view is the one that its extent gives it.** -/
theorem Accepted.slice?_payload (haccepted : Accepted view) :
    ∃ extent, MessageExtent.ofFormat? format view.octets = .ok extent ∧
      Octets.slice? view.octets extent.payloadRange.1 extent.payloadRange.2 =
        some view.payload := by
  have hextent := View.size?_eq_ok_iff.mp (accepted_iff.mp haccepted)
  rw [format.extent?_header] at hextent
  obtain ⟨extent, hextent, hlength⟩ := map_eq_ok_iff.mp hextent
  obtain ⟨-, -, -, -, rfl⟩ := MessageExtent.ofFormat?_eq_ok_iff.mp hextent
  have hrange : MessageExtent.payloadRange ⟨MessageExtent.announcedType view.octets,
      MessageExtent.announcedLength view.octets, format.header.size,
        (Header.place format.padSlot).read view.octets⟩ = view.payloadRange := by
    rw [haccepted.payloadRange_eq, ← hlength]
    rfl
  exact ⟨_, hextent, hrange ▸ haccepted.sized.slice?_payloadRange_eq⟩

/-- A view is accepted when it is taken. -/
theorem accepted_of_split? {buf rest : List UInt8}
    (hsplit : View.split? format.header buf = .ok (view, rest)) : Accepted view := by
  have hwhole := View.whole?_octets hsplit
  exact accepted_iff.mpr (View.size?_eq_ok_iff.mpr (View.whole?_eq_ok_iff.mp hwhole).1)

/-! ### Pad counts -/

/-- The edit that sets the pad count. -/
def setPad : (format : MessageFormat) → UInt8 → Edit format.header
  | .can, count => .set (CanSetter.pad count)
  | .canBrief, count => .set (CanBriefSetter.pad count)
  | .lin, count => .set (LinSetter.pad count)

/-- The view after its pad count was set, possibly several times. Counts that do not fit are
refused. -/
def setPads (counts : List UInt8) (view : View format.header) : View format.header :=
  Edit.run (counts.map (setPad format)) view

theorem named_setPad (format : MessageFormat) (count : UInt8) : (setPad format count).Named := by
  cases format <;> exact .inl ⟨_, rfl⟩

theorem typeSlot_mem_kept (format : MessageFormat) : format.typeSlot ∈ format.header.kept := by
  cases format <;> decide

theorem lengthSlot_mem_kept (format : MessageFormat) : format.lengthSlot ∈ format.header.kept := by
  cases format <;> decide

/-- **With its type and its length a message is refused for its padding alone.** -/
theorem size?_of_announced (hsized : view.Sized)
    (htype : view.read format.typeSlot = format.type.raw.toNat)
    (hlength : 4 * view.read format.lengthSlot = view.octets.length) :
    View.size? format.header view.octets =
      if format.header.size + view.read format.padSlot ≤ view.octets.length then
        .ok view.octets.length
      else .error (.invalidLayout (.invalidLength (.header format.header) view.octets.length
        (format.header.size + view.read format.padSlot))) := by
  have hcomplete : Complete ⟨view.octets⟩ :=
    ⟨Nat.le_trans format.four_le_size hsized, (announcedLength_eq view).trans hlength⟩
  have hmsgType : AcfView.msgType ⟨view.octets⟩ = format.type :=
    (announcedType_eq_iff view).mpr htype
  have hheader : ¬ view.octets.length < format.header.size := Nat.not_lt.mpr hsized
  rw [View.size?, format.extent?_header, MessageExtent.ofFormat?, hcomplete.ofOctets?_eq]
  simp only [MessageExtent.narrow?, hmsgType, ne_eq, not_true, if_false, hheader]
  split_ifs with hshort hroom hroom
  · exact absurd hshort (Nat.not_lt.mpr hroom)
  · rfl
  · rfl
  · exact absurd (Nat.le_of_not_lt hshort) hroom

/-- Without room for the padding there is no payload. -/
theorem payload_eq_nil
    (hroom : ¬ format.header.size + view.read format.padSlot ≤ view.octets.length) :
    view.payload = [] := by
  rw [View.payload, payloadRange_format, Nat.max_eq_right (by omega), Octets.slice?, Nat.sub_self,
    List.take_zero]
  split_ifs <;> rfl

/-! ### The result -/

/-- What parsing makes of a view that was edited since it was taken. -/
structure ReparseLaw (view : View format.header) : Prop where
  /-- After any edits, no more is parsed than there is. -/
  size_le : ∀ (edits : List (Edit format.header)) (count : Nat),
    View.size? format.header (Edit.run edits view).octets = .ok count →
      count ≤ (Edit.run edits view).octets.length
  /-- If all of it is parsed, the payload is the one that the parser finds. -/
  slice?_payload : ∀ edits : List (Edit format.header),
    View.size? format.header (Edit.run edits view).octets =
        .ok (Edit.run edits view).octets.length →
      ∃ extent, MessageExtent.ofFormat? format (Edit.run edits view).octets = .ok extent ∧
        Octets.slice? (Edit.run edits view).octets extent.payloadRange.1 extent.payloadRange.2 =
          some (Edit.run edits view).payload
  /-- After pad counts were set, all of it is parsed if there is room for the one that is left. -/
  size?_setPads_iff : ∀ (counts : List UInt8) (count : Nat),
    View.size? format.header (setPads counts view).octets = .ok count ↔
      count = (setPads counts view).octets.length ∧
        format.header.size + (setPads counts view).read format.padSlot ≤
          (setPads counts view).octets.length
  /-- If there is none, this is the reason to refuse it, and its payload is empty. -/
  refused_setPads : ∀ (counts : List UInt8) (reason : ViewError),
    View.size? format.header (setPads counts view).octets = .error reason →
      (setPads counts view).payload = [] ∧
        reason = .invalidLayout (.invalidLength (.header format.header)
          (setPads counts view).octets.length
          (format.header.size + (setPads counts view).read format.padSlot))

/-- **No setting of the pad count touches type and length.** -/
theorem Accepted.size?_setPads (haccepted : Accepted view) (counts : List UInt8) :
    View.size? format.header (setPads counts view).octets =
      if format.header.size + (setPads counts view).read format.padSlot ≤
          (setPads counts view).octets.length then
        .ok (setPads counts view).octets.length
      else .error (.invalidLayout (.invalidLength (.header format.header)
        (setPads counts view).octets.length
        (format.header.size + (setPads counts view).read format.padSlot))) := by
  have hsized : view.Sized := haccepted.sized
  have hnamed : ∀ edit ∈ counts.map (setPad format), edit.Named := by
    intro edit hedit
    obtain ⟨count, -, rfl⟩ := List.mem_map.mp hedit
    exact named_setPad format count
  have hkept : ∀ slot ∈ format.header.kept, (setPads counts view).read slot = view.read slot :=
    (Edit.independent hsized hnamed).read_eq
  have hlength : (setPads counts view).octets.length = view.octets.length :=
    Edit.length_run hsized _
  refine size?_of_announced (Edit.sized_run hsized _) ?_ ?_
  · exact (hkept _ (typeSlot_mem_kept format)).trans haccepted.type_eq
  · rw [hlength, hkept _ (lengthSlot_mem_kept format), haccepted.length_eq]

theorem Accepted.reparseLaw (haccepted : Accepted view) : ReparseLaw view where
  size_le edits count hcount :=
    (Header.bounds_of_extent? (View.size?_eq_ok_iff.mp hcount)).2
  slice?_payload edits hwhole := (accepted_iff.mpr hwhole).slice?_payload
  size?_setPads_iff counts count := by
    rw [haccepted.size?_setPads counts]
    split_ifs with hroom
    · simp [hroom, eq_comm]
    · simp [hroom]
  refused_setPads counts reason hreason := by
    rw [haccepted.size?_setPads counts] at hreason
    split_ifs at hreason with hroom
    exact ⟨payload_eq_nil hroom, (Except.error.inj hreason).symm⟩

/-- **What the parser makes of an edited message agrees with the view of it**, in whichever of the
three ways the view was taken. -/
theorem edited_reparses (format : MessageFormat) (buf : List UInt8) :
    (∀ view rest, View.split? format.header buf = .ok (view, rest) → ReparseLaw view) ∧
      (∀ view, View.whole? format.header buf = .ok view → ReparseLaw view) ∧
        ∀ window, Window.over? format.header buf = .ok window →
          ReparseLaw window.view ∧
            ∀ edits, (Edit.runIn edits window).view = Edit.run edits window.view := by
  have hsplit : ∀ view rest, View.split? format.header buf = .ok (view, rest) → ReparseLaw view :=
    fun view rest h ↦ (accepted_of_split? h).reparseLaw
  refine ⟨hsplit, fun view hview ↦ hsplit view [] (View.whole?_eq_ok_iff_split?.mp hview),
    fun window hwindow ↦ ⟨hsplit window.view window.rest ?_, fun edits ↦ ?_⟩⟩
  · rw [← View.map_over?_eq, hwindow]
    rfl
  · obtain ⟨hsize, hsized⟩ := View.sized_of_over? hwindow
    exact Edit.view_runIn edits hsize hsized

/-- A brief CAN message without payload. -/
def bareOctets : List UInt8 := [4, 2, 0, 1, 0, 0, 0, 9]

/-- Its pad count is set to one, after five was refused. Then there is no room for the padding, and
the header is not taken for payload. With its pad count set back to zero it is a message again. -/
theorem edited_reparses_bare :
    View.whole? .canBrief bareOctets = .ok ⟨bareOctets⟩ ∧
      @ReparseLaw .canBrief ⟨bareOctets⟩ ∧
        View.size? .canBrief (@setPads .canBrief [5, 1] ⟨bareOctets⟩).octets =
            .error (.invalidLayout (.invalidLength (.header .canBrief) 8 9)) ∧
          (@setPads .canBrief [5, 1] ⟨bareOctets⟩).payload = [] ∧
            View.size? .canBrief (@setPads .canBrief [5, 1, 0] ⟨bareOctets⟩).octets = .ok 8 :=
  have hwhole : View.whole? .canBrief bareOctets = .ok ⟨bareOctets⟩ := rfl
  have hlaw : @ReparseLaw .canBrief ⟨bareOctets⟩ :=
    (edited_reparses .canBrief bareOctets).2.1 _ hwhole
  have hrefused : View.size? .canBrief (@setPads .canBrief [5, 1] ⟨bareOctets⟩).octets =
      .error (.invalidLayout (.invalidLength (.header .canBrief) 8 9)) := by decide +kernel
  ⟨hwhole, hlaw, hrefused, (hlaw.refused_setPads [5, 1] _ hrefused).1,
    (hlaw.size?_setPads_iff [5, 1, 0] 8).mpr (by decide +kernel)⟩

end Avtp.Acf
