import Avtp.Proofs.Extents
import Avtp.Proofs.StrictView

/-!
# Safety of views

A view is taken once and edited any number of times: through its setters, field by field, through
the payload, or by writing over all of it. `runs_safely` says that nothing of this ever leaves the
octets of the view. Writing at a position inside the payload or the view needs no edit of its own:
it is writing all the octets up to there, with those in front as they are.

**The length is the invariant.** A view that is taken holds the fixed part of its header
(`Header.bounds_of_extent?`), an edit keeps the length (`Edit.length_step`), and a view that holds
its fixed header is safe (`View.Sized.safe`). The induction along the edits needs no more than that.

**Windows** are the one place where there is something behind the view to be harmed. Editing through
a window is editing the view and putting the rest of the buffer behind it (`Edit.runIn_eq`).
-/

namespace Avtp

variable {h : Header}

/-! ### Strict edits -/

/-- The result of an assignment, `none` if one of its fields does not lie in the view. -/
def Assignment.perform? (assignment : Assignment h) (view : View h) :
    Option (Except FieldError (View h)) :=
  match assignment with
  | .checked slot value => view.assign? slot value
  | .direct values =>
    (values.foldlM (fun (view : View h) value ↦ view.write? value.1 value.2) view).map .ok

namespace Edit

/-- The result of an edit, `none` if it leaves the view. -/
def perform? (edit : Edit h) (view : View h) : Option (Except FieldError (View h)) :=
  match edit with
  | .set setter => (Header.assignment setter).perform? view
  | .assign slot value => view.assign? slot value
  | .payload content => (view.writePayload? content).map .ok
  | .overwrite content => some (.ok (view.writeOctets content))

/-- The view after an edit, `none` if the edit leaves the view. A refused edit leaves it as it is.
-/
def step? (view : View h) (edit : Edit h) : Option (View h) :=
  (edit.perform? view).map fun result ↦
    match result with
    | .ok edited => edited
    | .error _ => view

/-- The view after a sequence of edits, `none` as soon as one leaves the view. -/
def run? (edits : List (Edit h)) (view : View h) : Option (View h) := edits.foldlM step? view

end Edit

/-! ### One edit -/

namespace View.Sized

variable {view : View h}

theorem foldlM_write?_eq (hsized : view.Sized) (values : List (h.Slot × Nat)) :
    values.foldlM (fun (view : View h) value ↦ view.write? value.1 value.2) view =
      some (values.foldl (fun view value ↦ view.write value.1 value.2) view) := by
  induction values generalizing view with
  | nil => rfl
  | cons value values ih =>
    rw [List.foldlM_cons, hsized.write?_eq]
    exact ih (hsized.write value.1 value.2)

theorem perform?_assignment_eq (hsized : view.Sized) (assignment : Assignment h) :
    assignment.perform? view = some (assignment.apply view) := by
  cases assignment with
  | checked slot value => exact hsized.assign?_eq slot value
  | direct values =>
    rw [Assignment.perform?, hsized.foldlM_write?_eq]
    rfl

theorem perform?_eq (hsized : view.Sized) (edit : Edit h) :
    edit.perform? view = some (edit.apply view) := by
  cases edit with
  | set setter => exact hsized.perform?_assignment_eq (Header.assignment setter)
  | assign slot value => exact hsized.assign?_eq slot value
  | payload content =>
    rw [Edit.perform?, hsized.writePayload?_eq]
    rfl
  | overwrite content => rfl

theorem step?_eq (hsized : view.Sized) (edit : Edit h) :
    Edit.step? view edit = some (Edit.step view edit) := by
  rw [Edit.step?, hsized.perform?_eq]
  rfl

end View.Sized

/-! ### What an edit keeps -/

theorem View.length_foldl_write (view : View h) (values : List (h.Slot × Nat)) :
    (values.foldl (fun (view : View h) value ↦ view.write value.1 value.2) view).octets.length =
      view.octets.length := by
  induction values generalizing view with
  | nil => rfl
  | cons value values ih =>
    rw [List.foldl_cons, ih, View.length_write]

namespace Edit

variable {view : View h}

theorem length_assign (hsized : view.Sized) {slot : h.Slot} {value : Nat} {edited : View h}
    (heq : view.assign slot value = .ok edited) : edited.octets.length = view.octets.length := by
  rw [hsized.assign_eq] at heq
  split at heq
  · obtain rfl := Except.ok.inj heq
    exact View.length_write view slot value
  · simp at heq

theorem length_apply (hsized : view.Sized) {edit : Edit h} {edited : View h}
    (heq : edit.apply view = .ok edited) : edited.octets.length = view.octets.length := by
  cases edit with
  | set setter =>
    rcases hassign : Header.assignment setter with ⟨slot, value⟩ | values
    · rw [apply, hassign] at heq
      exact length_assign hsized heq
    · rw [apply, hassign] at heq
      obtain rfl := Except.ok.inj heq
      exact view.length_foldl_write values
  | assign slot value => exact length_assign hsized heq
  | payload content =>
    obtain rfl := Except.ok.inj heq
    obtain ⟨-, hle, hend⟩ := hsized.payloadRange_le
    exact Octets.length_overlay content hend hle
  | overwrite content =>
    obtain rfl := Except.ok.inj heq
    exact Octets.length_overlay content (Nat.le_refl _) (Nat.zero_le _)

/-- **An edit keeps the length of the view**, whether it is refused or not. -/
theorem length_step (hsized : view.Sized) (edit : Edit h) :
    (step view edit).octets.length = view.octets.length := by
  rw [step]
  rcases happly : edit.apply view with - | edited
  · rfl
  · exact length_apply hsized happly

theorem sized_step (hsized : view.Sized) (edit : Edit h) : (step view edit).Sized := by
  rw [View.Sized, length_step hsized]
  exact hsized

/-! ### Sequences of edits -/

theorem length_run (hsized : view.Sized) (edits : List (Edit h)) :
    (run edits view).octets.length = view.octets.length := by
  induction edits generalizing view with
  | nil => rfl
  | cons edit edits ih => exact (ih (sized_step hsized edit)).trans (length_step hsized edit)

theorem run?_eq (hsized : view.Sized) (edits : List (Edit h)) :
    run? edits view = some (run edits view) := by
  induction edits generalizing view with
  | nil => rfl
  | cons edit edits ih =>
    rw [run?, List.foldlM_cons, hsized.step?_eq]
    exact ih (sized_step hsized edit)

theorem sized_run (hsized : view.Sized) (edits : List (Edit h)) : (run edits view).Sized := by
  rw [View.Sized, length_run hsized]
  exact hsized

end Edit

/-! ### Windows -/

namespace Edit

variable {window : Window h}

theorem length_view (hsize : window.size ≤ window.buffer.length) :
    window.view.octets.length = window.size := by
  rw [Window.view, List.length_take]
  exact Nat.min_eq_left hsize

/-- **Editing through a window is editing the view**: its size stays, its view is the edited one,
and the rest of the buffer is what it was. -/
theorem runIn_eq (edits : List (Edit h)) (hsize : window.size ≤ window.buffer.length)
    (hsized : window.view.Sized) :
    runIn edits window = ⟨(run edits window.view).octets ++ window.rest, window.size⟩ := by
  induction edits generalizing window with
  | nil =>
    show window = ⟨window.buffer.take window.size ++ window.buffer.drop window.size, window.size⟩
    rw [List.take_append_drop]
  | cons edit edits ih =>
    have hlen : (step window.view edit).octets.length = window.size := by
      rw [length_step hsized, length_view hsize]
    have hview : (window.replace (step window.view edit)).view = step window.view edit := by
      rw [Window.view, Window.replace, List.take_left' hlen]
    have hrest : (window.replace (step window.view edit)).rest = window.rest := by
      show ((step window.view edit).octets ++ window.rest).drop window.size = window.rest
      exact List.drop_left' hlen
    have hnext : window.size ≤ (window.replace (step window.view edit)).buffer.length := by
      rw [Window.replace, List.length_append, hlen]
      exact Nat.le_add_right _ _
    -- What the first edit leaves is a window again, over a view that holds its header.
    have hrun := ih hnext (hview ▸ sized_step hsized edit)
    rw [hview, hrest] at hrun
    exact hrun

/-- The view in a window after edits through it. -/
theorem view_runIn (edits : List (Edit h)) (hsize : window.size ≤ window.buffer.length)
    (hsized : window.view.Sized) : (runIn edits window).view = run edits window.view := by
  rw [runIn_eq edits hsize hsized, Window.view,
    List.take_left' ((length_run hsized edits).trans (length_view hsize))]

end Edit

/-- A window lies in its buffer, and its view covers the header. -/
theorem View.sized_of_over? {buf : List UInt8} {window : Window h}
    (hwindow : Window.over? h buf = .ok window) :
    window.size ≤ window.buffer.length ∧ window.view.Sized := by
  obtain ⟨count, hcount, rfl⟩ := over?_eq_ok_iff.mp hwindow
  obtain ⟨hmin, hmax⟩ := Header.bounds_of_extent? hcount
  refine ⟨hmax, ?_⟩
  rw [Sized, Edit.length_view hmax]
  exact hmin

/-! ### Safety -/

/-- Nothing that can be asked of a view or done to it leaves its octets. -/
structure View.Safe (view : View h) : Prop where
  /-- Every field lies in the view. -/
  read?_eq : ∀ slot, view.read? slot = some (view.read slot)
  /-- Every named getter reads fields that lie in the view. -/
  getters?_eq : view.getters? = some view.getters
  /-- The range of the payload can be computed. -/
  payloadRange?_eq : view.payloadRange? = some view.payloadRange
  /-- It begins behind the header, and it ends behind its beginning and in the view. -/
  payloadRange_le : View.payloadStart h ≤ view.payloadRange.1 ∧
    view.payloadRange.1 ≤ view.payloadRange.2 ∧ view.payloadRange.2 ≤ view.octets.length
  /-- The payload can be cut out. -/
  payload?_eq : view.payload? = some view.payload
  /-- Every edit can be carried out. It may be refused, but it does not leave the view. -/
  perform?_eq : ∀ edit : Edit h, edit.perform? view = some (edit.apply view)

theorem View.Sized.safe {view : View h} (hsized : view.Sized) : view.Safe where
  read?_eq := hsized.read?_eq
  getters?_eq := hsized.getters?_eq
  payloadRange?_eq := hsized.payloadRange?_eq
  payloadRange_le := by
    obtain ⟨hstart, hle, hend⟩ := hsized.payloadRange_le
    exact ⟨Nat.le_of_eq hstart.symm, hle, hend⟩
  payload?_eq := hsized.payload?_eq
  perform?_eq := hsized.perform?_eq

/-- A sequence of edits is carried out in the octets of the view, keeps their number, and leaves a
view that is safe. -/
structure SafeRun (edits : List (Edit h)) (view : View h) : Prop where
  run?_eq : Edit.run? edits view = some (Edit.run edits view)
  length_eq : (Edit.run edits view).octets.length = view.octets.length
  safe : (Edit.run edits view).Safe

theorem View.Sized.safeRun {view : View h} (hsized : view.Sized) (edits : List (Edit h)) :
    SafeRun edits view :=
  ⟨Edit.run?_eq hsized edits, Edit.length_run hsized edits, (Edit.sized_run hsized edits).safe⟩

/-- **A view stays safe whatever is done to it**, in whichever of the three ways it was taken. In a
window the octets behind the view are those of the buffer, and the buffer keeps its length. -/
theorem runs_safely (h : Header) (buf : List UInt8) (edits : List (Edit h)) :
    (∀ view rest, View.split? h buf = .ok (view, rest) →
        view.octets ++ rest = buf ∧ SafeRun edits view) ∧
      (∀ view, View.whole? h buf = .ok view → view.octets = buf ∧ SafeRun edits view) ∧
        ∀ window, Window.over? h buf = .ok window →
          SafeRun edits window.view ∧
            (Edit.runIn edits window).size = window.size ∧
              (Edit.runIn edits window).view = Edit.run edits window.view ∧
                (Edit.runIn edits window).rest = buf.drop window.size ∧
                  (Edit.runIn edits window).buffer.length = buf.length := by
  refine ⟨?_, ?_, ?_⟩
  · intro view rest hview
    obtain ⟨count, hcount, rfl, rfl⟩ := View.split?_eq_ok_iff.mp hview
    obtain ⟨hmin, hmax⟩ := Header.bounds_of_extent? hcount
    have hsized : View.Sized (h := h) ⟨buf.take count⟩ := by
      rw [View.Sized, List.length_take, Nat.min_eq_left hmax]
      exact hmin
    exact ⟨List.take_append_drop count buf, hsized.safeRun edits⟩
  · intro view hview
    obtain ⟨hcount, rfl⟩ := View.whole?_eq_ok_iff.mp hview
    have hsized : View.Sized (h := h) ⟨buf⟩ := (Header.bounds_of_extent? hcount).1
    exact ⟨rfl, hsized.safeRun edits⟩
  · intro window hwindow
    obtain ⟨count, hcount, rfl⟩ := View.over?_eq_ok_iff.mp hwindow
    obtain ⟨hmin, hmax⟩ := Header.bounds_of_extent? hcount
    have hlen : (Window.view (h := h) ⟨buf, count⟩).octets.length = count := Edit.length_view hmax
    have hsized : View.Sized (Window.view (h := h) ⟨buf, count⟩) :=
      Nat.le_trans hmin (Nat.le_of_eq hlen.symm)
    have hrun := (Edit.length_run hsized edits).trans hlen
    rw [Edit.runIn_eq edits hmax hsized]
    refine ⟨hsized.safeRun edits, rfl, ?_, List.drop_left' hrun, ?_⟩
    · rw [Window.view, List.take_left' hrun]
    · rw [List.length_append, hrun, Window.rest, List.length_drop]
      exact Nat.add_sub_of_le hmax

/-- A brief CAN message of three quadlets. -/
def briefOctets : List UInt8 := [4, 3, 0, 1, 0, 0, 0, 9, 1, 2, 3, 4]

/-- Its length is set to zero, its pad count to more than the payload has, and the header is written
over. -/
def briefEdits : List (Edit .canBrief) :=
  [.assign CanBriefSlot.msgLength 0, .set (CanBriefSetter.pad 3), .payload [7, 7, 7, 7, 7],
    .overwrite [255, 255, 255]]

/-- The message is edited with an octet behind it, alone, and in a window. -/
theorem runs_safely_canBrief :
    (View.split? .canBrief (briefOctets ++ [255]) = .ok (⟨briefOctets⟩, [255]) ∧
        SafeRun briefEdits ⟨briefOctets⟩) ∧
      (View.whole? .canBrief briefOctets = .ok ⟨briefOctets⟩ ∧ SafeRun briefEdits ⟨briefOctets⟩) ∧
        Window.over? .canBrief (briefOctets ++ [255]) = .ok ⟨briefOctets ++ [255], 12⟩ ∧
          (Edit.runIn briefEdits ⟨briefOctets ++ [255], 12⟩).rest = [255] :=
  ⟨⟨rfl, ((runs_safely .canBrief (briefOctets ++ [255]) briefEdits).1 _ _ rfl).2⟩,
    ⟨rfl, ((runs_safely .canBrief briefOctets briefEdits).2.1 _ rfl).2⟩, rfl,
    ((runs_safely .canBrief (briefOctets ++ [255]) briefEdits).2.2 _ rfl).2.2.2.1⟩

end Avtp
