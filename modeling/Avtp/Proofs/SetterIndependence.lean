import Avtp.Proofs.NamedProperties
import Avtp.Proofs.SelfDelimiting

/-!
# Setters do not get in each other's way

The fields of a header share their quadlets, and a setter writes whole quadlets. Some setters check
their value, some do not, some write two fields, and one writes six. For whoever uses them a view is
nevertheless a record with independent members: each has the value last set, whatever else was set
and whatever was written over the payload in between (`named_edits_independent`).

**Refusals.** A setter that refuses its value counts as not called. Which of them refuse does not
depend on what was done before, but the proof has no need of that: it goes along the edits and lists
the settings of those that succeed when their turn comes (`Edit.given`).

**The two parts of a view.** A setter stays in the header, and a payload write stays behind it. The
pad count belongs to the header and says where the payload ends, so each payload write keeps the
padding that the pad count of its moment names.
-/

namespace Avtp

variable {h : Header} {view edited : View h}

/-! ### Setters -/

namespace Header

/-- **A setter that succeeds makes its settings**, and all of their values fit. -/
theorem apply_assignment_eq_ok (hsized : view.Sized) {setter : h.Setter}
    (happly : (assignment setter).apply view = .ok edited) :
    (∀ setting ∈ settings setter, setting.Fits) ∧
      edited = (settings setter).foldl Setting.write view := by
  rw [Setting.foldl_write, writes_settings]
  rcases hassign : assignment setter with ⟨slot, value⟩ | values
  · rw [hassign, Assignment.apply, hsized.assign_eq] at happly
    split_ifs at happly with hholds
    refine ⟨fun setting hsetting entry hentry ↦ ?_, (Except.ok.inj happly).symm⟩
    -- The setter writes one field, so this is the field of the entry.
    have hone : entry ∈ (assignment setter).writes :=
      writes_settings setter ▸ List.mem_flatMap.mpr ⟨setting, hsetting, hentry⟩
    rw [hassign] at hone
    obtain rfl := List.mem_singleton.mp hone
    exact hholds
  · rw [hassign] at happly
    refine ⟨fun setting hsetting ↦ ?_, (Except.ok.inj happly).symm⟩
    exact Setting.fits_of_isExact (List.all_eq_true.mp (isExact_settings hassign) setting hsetting)

/-- A setter that is refused is refused for its value. -/
theorem apply_assignment_eq_error (hsized : view.Sized) {setter : h.Setter} {reason : FieldError}
    (happly : (assignment setter).apply view = .error reason) :
    ∃ value width, reason = .valueOutOfRange value width := by
  rcases hassign : assignment setter with ⟨slot, value⟩ | values
  · rw [hassign, Assignment.apply, hsized.assign_eq] at happly
    split_ifs at happly
    exact ⟨_, _, (Except.error.inj happly).symm⟩
  · rw [hassign] at happly
    exact nomatch happly

end Header

/-- A field that is written is in the header. -/
theorem View.Sized.drop_write (hsized : view.Sized) (slot : h.Slot) (value : Nat) :
    (view.write slot value).octets.drop h.size = view.octets.drop h.size := by
  have hfront : (view.octets.take h.size).length = h.size := List.length_take_of_le hsized
  have hwrite := BitField.write_append (view.octets.drop h.size) value
    (hfront.symm ▸ Header.place_requiredOctets_le slot)
  rw [List.take_append_drop] at hwrite
  rw [View.write, hwrite, List.drop_left' ((BitField.length_write ..).trans hfront)]

theorem View.Sized.drop_foldl_write (hsized : view.Sized) (values : List (h.Slot × Nat)) :
    (values.foldl (fun (view : View h) value ↦ view.write value.1 value.2)
      view).octets.drop h.size = view.octets.drop h.size := by
  induction values generalizing view with
  | nil => rfl
  | cons value values ih =>
    rw [List.foldl_cons, ih (hsized.write value.1 value.2), hsized.drop_write]

/-! ### Payload writes -/

namespace Octets

variable {buf : List UInt8} {start stop : Nat}

theorem take_overlay (octets : List UInt8) (hstart : start ≤ buf.length) :
    (overlay buf start stop octets).take start = buf.take start :=
  List.take_left' (List.length_take_of_le hstart)

theorem drop_overlay (octets : List UInt8) (hle : start ≤ stop) (hstop : stop ≤ buf.length) :
    (overlay buf start stop octets).drop stop = buf.drop stop := by
  have hfront : (buf.take start).length = start := List.length_take_of_le (Nat.le_trans hle hstop)
  have hshort : (octets.take (stop - start)).length ≤ stop - start := List.length_take_le _ _
  rw [overlay, List.drop_append, List.drop_append, List.drop_eq_nil_of_le (by omega),
    List.drop_eq_nil_of_le (by omega), List.drop_drop, hfront, List.nil_append, List.nil_append]
  congr 1
  omega

end Octets

namespace View

/-- The number of octets that fill up the last quadlet. -/
def padCount : {h : Header} → View h → Nat
  | .can, view => view.read CanSlot.pad
  | .canBrief, view => view.read CanBriefSlot.pad
  | .lin, view => view.read LinSlot.pad
  | .common, _ => 0
  | .udp, _ => 0
  | .ntscf, _ => 0
  | .tscf, _ => 0
  | .acf, _ => 0

/-- The payload ends where the padding begins, or it is empty because the pad count is too large. -/
theorem payloadRange_snd (view : View h) :
    view.payloadRange.2 = view.octets.length - view.padCount ∨
      view.payloadRange.1 = view.payloadRange.2 := by
  have hpadded {h : Header} (view : View h) (padding : Nat) :
      (payloadRange.padded view padding).2 = view.octets.length - padding ∨
        (payloadRange.padded view padding).1 = (payloadRange.padded view padding).2 := by
    rcases Nat.le_total h.size (view.octets.length - padding) with hle | hle
    · exact .inl (Nat.max_eq_left hle)
    · exact .inr (Nat.max_eq_right hle).symm
  cases h with
  | can | canBrief | lin => exact hpadded view _
  | common | udp | ntscf | tscf | acf => exact .inl rfl

/-- No field reaches into the payload. -/
theorem endBit_le_payloadStart : {h : Header} → (slot : h.Slot) →
    (Header.place slot).endBit ≤ 8 * payloadStart h
  | .common, slot => by cases slot <;> decide
  | .udp, slot => by cases slot; decide
  | .ntscf, slot => by cases slot <;> decide
  | .tscf, slot => by cases slot <;> decide
  | .acf, slot => by cases slot <;> decide
  | .can, slot => by cases slot <;> decide
  | .canBrief, slot => by cases slot <;> decide
  | .lin, slot => by cases slot <;> decide

namespace Sized

/-- **A payload write changes nothing in front of the payload.** -/
theorem take_writePayload (hsized : view.Sized) (content : List UInt8) :
    (view.writePayload content).octets.take (payloadStart h) =
      view.octets.take (payloadStart h) := by
  obtain ⟨hstart, hle, hend⟩ := hsized.payloadRange_le
  rw [← hstart]
  exact Octets.take_overlay content (Nat.le_trans hle hend)

/-- **It changes nothing in the padding either.** -/
theorem drop_writePayload (hsized : view.Sized) (content : List UInt8) :
    (view.writePayload content).octets.drop (view.octets.length - view.padCount) =
      view.octets.drop (view.octets.length - view.padCount) := by
  obtain ⟨-, hle, hend⟩ := hsized.payloadRange_le
  rcases view.payloadRange_snd with hstop | hempty
  · rw [← hstop]
    exact Octets.drop_overlay content hle hend
  · -- Without a payload there is nothing to write over.
    rw [writePayload, ← hempty, Octets.overlay, Nat.sub_self, List.take_zero, List.nil_append,
      List.length_nil, Nat.add_zero, List.take_append_drop]

theorem read_writePayload (hsized : view.Sized) (content : List UInt8) (slot : h.Slot) :
    (view.writePayload content).read slot = view.read slot := by
  have happly : (Edit.payload content).apply view = .ok (view.writePayload content) := rfl
  have hlength := Edit.length_apply hsized happly
  refine BitField.read_congr (hlength ▸ hsized.requiredOctets_le slot)
    (hsized.requiredOctets_le slot) fun i hcov ↦ ?_
  have hfront : i < 8 * payloadStart h :=
    Nat.lt_of_lt_of_le (BitField.covers_iff.mp hcov).2 (endBit_le_payloadStart slot)
  rw [← Octets.bit?_take hfront, hsized.take_writePayload, Octets.bit?_take hfront]

end Sized

end View

/-! ### Edits by name -/

namespace Edit

/-- The edit is a named setter or a payload write. -/
def Named (edit : Edit h) : Prop :=
  (∃ setter, edit = .set setter) ∨ ∃ content, edit = .payload content

/-- The settings that an edit makes if it succeeds. -/
def settings : Edit h → List (Setting h)
  | .set setter => Header.settings setter
  | .assign _ _ => []
  | .payload _ => []
  | .overwrite _ => []

/-- The settings that an edit makes of a view. -/
def made (edit : Edit h) (view : View h) : List (Setting h) :=
  match edit.apply view with
  | .ok _ => edit.settings
  | .error _ => []

/-- The settings that a sequence of edits makes, in order. -/
def given : List (Edit h) → View h → List (Setting h)
  | [], _ => []
  | edit :: edits, view => edit.made view ++ given edits (step view edit)

/-- **A setter makes its settings, or none if it is refused**, and does nothing else. -/
theorem step_set (hsized : view.Sized) (setter : h.Setter) :
    step view (.set setter) = (made (.set setter) view).foldl Setting.write view ∧
      ∀ setting ∈ made (.set setter) view, setting.Fits ∧ setting.property ∈ h.settable := by
  rw [step, made]
  rcases happly : (Edit.set setter).apply view with reason | edited
  · exact ⟨rfl, fun setting hsetting ↦ absurd hsetting List.not_mem_nil⟩
  · obtain ⟨hfits, hedited⟩ := Header.apply_assignment_eq_ok hsized happly
    exact ⟨hedited, fun setting hsetting ↦
      ⟨hfits setting hsetting, Header.property_mem_settable hsetting⟩⟩

/-- **After an edit a property has the value that it was given**, or the one that it had. -/
theorem value_step (hsized : view.Sized) {edit : Edit h} (hnamed : edit.Named)
    {property : Property h} (hproperty : property ∈ h.properties) :
    property.value (step view edit) =
      (lastSet? (edit.made view) property).getD (property.value view) := by
  obtain ⟨setter, rfl⟩ | ⟨content, rfl⟩ := hnamed
  · obtain ⟨hstep, hmade⟩ := step_set hsized setter
    rw [hstep]
    exact Setting.value_writeAll hsized (fun setting hsetting ↦ (hmade setting hsetting).1)
      (fun setting hsetting ↦ h.settable_subset (hmade setting hsetting).2) hproperty
  · exact Property.value_congr fun slot _ ↦ hsized.read_writePayload content slot

/-- **After an edit a field that no setter covers is what it was.** -/
theorem read_step_of_kept (hsized : view.Sized) {edit : Edit h} (hnamed : edit.Named)
    {slot : h.Slot} (hslot : slot ∈ h.kept) : (step view edit).read slot = view.read slot := by
  obtain ⟨setter, rfl⟩ | ⟨content, rfl⟩ := hnamed
  · obtain ⟨hstep, hmade⟩ := step_set hsized setter
    rw [hstep, Setting.foldl_write]
    refine hsized.read_foldl_write fun hwritten ↦ ?_
    obtain ⟨entry, hentry, rfl⟩ := List.mem_map.mp hwritten
    obtain ⟨setting, hsetting, hentry⟩ := List.mem_flatMap.mp hentry
    have hcovered : entry.1 ∈ setting.property.slots :=
      setting.slots_writes ▸ List.mem_map_of_mem hentry
    exact List.disjoint_of_nodup_append h.nodup_settable_kept
      (List.mem_flatMap.mpr ⟨_, (hmade setting hsetting).2, hcovered⟩) hslot
  · exact hsized.read_writePayload content slot

/-- What an edit keeps, beside the properties that it does not set. -/
structure Frame (edit : Edit h) (view : View h) : Prop where
  /-- It is refused for a value that does not fit, and then nothing changes. -/
  refused : ∀ reason, edit.apply view = .error reason →
    (∃ value width, reason = .valueOutOfRange value width) ∧ step view edit = view
  /-- A setter does not change what is behind the header. -/
  setter : ∀ setter, edit = .set setter →
    (step view edit).octets.drop h.size = view.octets.drop h.size
  /-- A payload write changes neither the header nor the padding. -/
  payload : ∀ content, edit = .payload content →
    (step view edit).octets.take (View.payloadStart h) = view.octets.take (View.payloadStart h) ∧
      (step view edit).octets.drop (view.octets.length - view.padCount) =
        view.octets.drop (view.octets.length - view.padCount)

theorem frame (hsized : view.Sized) {edit : Edit h} (hnamed : edit.Named) : edit.Frame view where
  refused reason happly := by
    refine ⟨?_, by rw [step, happly]⟩
    obtain ⟨setter, rfl⟩ | ⟨content, rfl⟩ := hnamed
    · exact Header.apply_assignment_eq_error hsized happly
    · simp [apply] at happly
  setter := by
    rintro setter rfl
    rw [(step_set hsized setter).1, Setting.foldl_write]
    exact hsized.drop_foldl_write _
  payload := by
    rintro content rfl
    exact ⟨hsized.take_writePayload content, hsized.drop_writePayload content⟩

/-! ### Sequences of edits by name -/

/-- What a sequence of edits by name leaves of a view. -/
structure Independent (edits : List (Edit h)) (view : View h) : Prop where
  /-- The named getters show the properties. -/
  getters_eq : (run edits view).getters.filter View.Datum.isProperty =
    h.properties.map fun property ↦ property.value (run edits view)
  /-- Each property has the value that it was last given, or the one that it had at first. -/
  value_eq : ∀ property ∈ h.properties, property.value (run edits view) =
    (lastSet? (given edits view) property).getD (property.value view)
  /-- What the header is of, what is reserved in it, and the length of a message are what they were.
  -/
  read_eq : ∀ slot ∈ h.kept, (run edits view).read slot = view.read slot
  /-- Refusals change nothing, setters nothing behind the header, and payload writes nothing in the
  header and nothing in the padding, each at its time. -/
  frame : ∀ front edit back, edits = front ++ edit :: back → edit.Frame (run front view)

theorem independent (hsized : view.Sized) {edits : List (Edit h)}
    (hnamed : ∀ edit ∈ edits, edit.Named) : Independent edits view where
  getters_eq := View.getters_eq _
  value_eq property hproperty := by
    induction edits generalizing view with
    | nil => rfl
    | cons edit edits ih =>
      obtain ⟨hedit, hedits⟩ := List.forall_mem_cons.mp hnamed
      rw [given, lastSet?_append, Option.getD_or, ← value_step hsized hedit hproperty]
      exact ih (sized_step hsized edit) hedits
  read_eq slot hslot := by
    induction edits generalizing view with
    | nil => rfl
    | cons edit edits ih =>
      obtain ⟨hedit, hedits⟩ := List.forall_mem_cons.mp hnamed
      exact (ih (sized_step hsized edit) hedits).trans (read_step_of_kept hsized hedit hslot)
  frame front edit back hedits :=
    Edit.frame (sized_run hsized front)
      (hnamed edit (hedits ▸ List.mem_append_right front List.mem_cons_self))

end Edit

/-- **Setters and payload writes are independent of each other**, in whichever of the three ways the
view was taken. -/
theorem named_edits_independent {edits : List (Edit h)} (hnamed : ∀ edit ∈ edits, edit.Named)
    (buf : List UInt8) :
    (∀ view rest, View.split? h buf = .ok (view, rest) → Edit.Independent edits view) ∧
      (∀ view, View.whole? h buf = .ok view → Edit.Independent edits view) ∧
        ∀ window, Window.over? h buf = .ok window → Edit.Independent edits window.view := by
  have hsplit : ∀ view rest, View.split? h buf = .ok (view, rest) → Edit.Independent edits view :=
    fun view rest h ↦ Edit.independent (View.size_le_of_split? h) hnamed
  refine ⟨hsplit, fun view hview ↦ hsplit view [] (View.whole?_eq_ok_iff_split?.mp hview),
    fun window hwindow ↦ hsplit window.view window.rest ?_⟩
  rw [← View.map_over?_eq, hwindow]
  rfl

/-- A CAN message with five octets of payload and three of padding. -/
def canOctets : List UInt8 :=
  [0x02, 6, 0xC8, 0x07, 0, 0, 0, 0, 0, 0, 0, 0, 0x12, 0x34, 0x56, 0x78, 1, 2, 3, 4, 5, 0xAA, 0xBB,
    0xCC]

/-- All flags are set at once and one of them is cleared again. A bus that does not fit is refused.
The payload is written over twice, and before the second time there is less padding. -/
def canEdits : List (Edit .can) :=
  [.set (CanSetter.flags .all), .set (CanSetter.rtr false), .set (CanSetter.canBusId 32),
    .payload [9, 9, 9, 9, 9, 9, 9, 9], .set (CanSetter.pad 2), .payload [8, 8, 8, 8, 8, 8, 8, 8]]

/-- Then the flag is clear, the bus is the old one, and two octets of the padding are left. -/
theorem named_edits_independent_can :
    View.whole? .can canOctets = .ok ⟨canOctets⟩ ∧ Edit.Independent canEdits ⟨canOctets⟩ ∧
      Edit.run canEdits ⟨canOctets⟩ =
        ⟨[0x02, 6, 0xAF, 0x07, 0, 0, 0, 0, 0, 0, 0, 0, 0x12, 0x34, 0x56, 0x78, 8, 8, 8, 8, 8, 8,
          0xBB, 0xCC]⟩ :=
  ⟨by decide +kernel,
    (named_edits_independent (by simp [canEdits, Edit.Named]) canOctets).2.1 _ (by decide +kernel),
    by decide +kernel⟩

end Avtp
