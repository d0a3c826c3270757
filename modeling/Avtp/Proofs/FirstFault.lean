import Mathlib.Data.List.Forall2
import Avtp.Proofs.CutPayload
import Avtp.Proofs.EncodeDecode

/-!
# The first fault of a data unit

Decoding a data unit is all or nothing. It succeeds if there is a view, the walk along its payload
finds no fault, and no message in it is refused under the header of its type. Otherwise it tells
one reason, and this is the first one on the wire (`decode_allOrNothing`).

**First, by place and by order.** A fault has a place: where the messages in front of it end
(`FaultAt`). That no other fault is further in front is what a reader of the octets means by first.
The decoder knows no places. It goes along the items of a walk and gives up at one of them.
`firstFault_iff` says that this is the same, since no message is empty.

**What is behind does not matter.** The walk finds the items in front of a fault one by one, each
from its own octets, and the fault from the octets of its item. So it stays where it is and what it
is whatever becomes of the octets behind it (`FirstFault.of_take_eq`). The number of octets is
settled by the header and has to stay the same, since a message can run past it.
-/

namespace Avtp

/-! ### Lists of results -/

section Lists

variable {ε α β : Type} {f : α → Except ε β} {list : List α}

/-- A list is taken if every member is, in order. -/
theorem mapM_eq_ok_iff {results : List β} :
    list.mapM f = .ok results ↔ List.Forall₂ (fun a b ↦ f a = .ok b) list results := by
  induction list generalizing results with
  | nil =>
    rw [List.forall₂_nil_left_iff]
    exact ⟨fun h ↦ (Except.ok.inj h).symm, fun h ↦ h ▸ rfl⟩
  | cons a list ih =>
    simp only [List.mapM_cons, cons_eq_ok_iff, ih, List.forall₂_cons_left_iff]

theorem exists_mapM_eq_ok_iff :
    (∃ results, list.mapM f = .ok results) ↔ ∀ a ∈ list, ∃ result, f a = .ok result := by
  induction list with
  | nil => exact iff_of_true ⟨[], rfl⟩ nofun
  | cons a list ih =>
    simp only [List.forall_mem_cons, ← ih, List.mapM_cons, cons_eq_ok_iff]
    constructor
    · rintro ⟨results, b, bs, hb, hbs, -⟩
      exact ⟨⟨b, hb⟩, bs, hbs⟩
    · rintro ⟨⟨b, hb⟩, bs, hbs⟩
      exact ⟨b :: bs, b, bs, hb, hbs, rfl⟩

/-- **A list is refused for its first member that is.** -/
theorem mapM_eq_error_iff {reason : ε} :
    list.mapM f = .error reason ↔ ∃ front a back, list = front ++ a :: back ∧
      (∀ b ∈ front, ∃ result, f b = .ok result) ∧ f a = .error reason := by
  induction list with
  | nil =>
    refine iff_of_false nofun ?_
    rintro ⟨front, a, back, hlist, -⟩
    exact absurd hlist.symm (List.append_ne_nil_of_right_ne_nil front (List.cons_ne_nil a back))
  | cons b list ih =>
    rw [List.mapM_cons, cons_eq_error_iff, ih]
    constructor
    · rintro (hb | ⟨hb, front, a, back, rfl, hfront, ha⟩)
      · exact ⟨[], b, list, rfl, nofun, hb⟩
      · exact ⟨b :: front, a, back, rfl, List.forall_mem_cons.mpr ⟨hb, hfront⟩, ha⟩
    · rintro ⟨front, a, back, hlist, hfront, ha⟩
      rcases List.cons_eq_append_iff.mp hlist with ⟨rfl, hlist⟩ | ⟨front, rfl, rfl⟩
      · obtain ⟨rfl, rfl⟩ := List.cons.inj hlist
        exact .inl ha
      · obtain ⟨hb, hfront⟩ := List.forall_mem_cons.mp hfront
        exact .inr ⟨hb, front, a, back, rfl, hfront, ha⟩

end Lists

namespace Acf

/-! ### Items of a walk -/

/-- An item of a walk, if it is a message, under the header of its type. -/
def TypedMessage.ofItem? : Except LayoutError AcfView → Except ViewError TypedMessage
  | .ok view => ofView? view
  | .error fault => .error (.ofLayout fault)

theorem Message.ofItem?_eq (item : Except LayoutError AcfView) :
    ofItem? item = (TypedMessage.ofItem? item).map ofTyped := by
  rcases item with fault | view <;> rfl

theorem Message.exists_ofItem?_eq_ok_iff {item : Except LayoutError AcfView} :
    (∃ decoded, ofItem? item = .ok decoded) ↔
      ∃ message typed, item = .ok message ∧ TypedMessage.ofView? message = .ok typed := by
  simp only [ofItem?_eq, map_eq_ok_iff]
  constructor
  · rintro ⟨decoded, typed, htyped, -⟩
    rcases item with fault | message
    · exact nomatch htyped
    · exact ⟨message, typed, rfl, htyped⟩
  · rintro ⟨message, typed, rfl, htyped⟩
    exact ⟨_, typed, htyped, rfl⟩

/-- The number of octets that show what an item is: a message shows its own, and a fault shows those
that all messages start with. -/
def Walk.itemLength : Except LayoutError AcfView → Nat
  | .ok view => view.octets.length
  | .error _ => Header.size .acf

/-- What is found in front of a buffer follows from the first four octets and from how many there
are. -/
theorem MessageExtent.ofOctets?_congr {buf other : List UInt8} (hlength : other.length = buf.length)
    (htake : other.take (Header.size .acf) = buf.take (Header.size .acf)) :
    ofOctets? other = ofOctets? buf := by
  rw [ofOctets?, ofOctets?, hlength]
  by_cases hshort : buf.length < Header.size .acf
  · rw [if_pos hshort, if_pos hshort]
  · have hfront (octets : List UInt8) (hlong : octets.length = buf.length) :
        Header.size .acf ≤ (octets.take (Header.size .acf)).length := by
      rw [List.length_take]
      omega
    have hannounced (octets : List UInt8) (hlong : octets.length = buf.length) :=
      announcedLength_append (octets.drop (Header.size .acf)) (hfront octets hlong)
    have htype (octets : List UInt8) (hlong : octets.length = buf.length) :=
      announcedType_append (octets.drop (Header.size .acf)) (hfront octets hlong)
    simp only [List.take_append_drop] at hannounced htype
    rw [hannounced other hlength, hannounced buf rfl, htype other hlength, htype buf rfl, htake]

namespace Walk

variable {payload : List UInt8}

/-- **In front of an item there are messages**, and the walk over the rest starts with the item. -/
theorem items_split {front : List (Except LayoutError AcfView)}
    {item : Except LayoutError AcfView} {back : List (Except LayoutError AcfView)}
    (hitems : (start payload).items = front ++ item :: back) :
    ∃ (before : List AcfView) (rest : List UInt8), front = before.map .ok ∧
      (∀ message ∈ before, Complete message) ∧ payload = before.flatMap View.octets ++ rest ∧
        (start rest).items = item :: back := by
  induction payload using payload_induction generalizing front with
  | nil =>
    rw [items_start_nil] at hitems
    exact absurd hitems.symm (List.append_ne_nil_of_right_ne_nil front (List.cons_ne_nil _ _))
  | fault payload reason hne hextent =>
    have hsingle := hitems
    rw [items_start_of_error hne hextent] at hsingle
    -- There is one item, so there is none in front of it.
    have hfront : front = [] := by
      have hlength := congrArg List.length hsingle
      rw [List.length_singleton, List.length_append, List.length_cons] at hlength
      exact List.eq_nil_of_length_eq_zero (by omega)
    subst hfront
    exact ⟨[], payload, rfl, nofun, rfl, hitems⟩
  | message payload extent hextent ih =>
    rcases front with - | ⟨first, front⟩
    · exact ⟨[], payload, rfl, nofun, rfl, hitems⟩
    · rw [items_start_of_ok hextent, List.cons_append] at hitems
      obtain ⟨rfl, hothers⟩ := List.cons.inj hitems
      obtain ⟨before, rest, rfl, hcomplete, hpayload, hrest⟩ := ih hothers
      refine ⟨⟨payload.take extent.length⟩ :: before, rest, rfl,
        List.forall_mem_cons.mpr ⟨complete_of_ofOctets? hextent, hcomplete⟩, ?_, hrest⟩
      rw [List.flatMap_cons, List.append_assoc, ← hpayload, List.take_append_drop]

/-- **The item in front is shown by its own octets**, in a payload of a known length. -/
theorem items_start_congr {other : List UInt8} {item : Except LayoutError AcfView}
    {back : List (Except LayoutError AcfView)} (hitems : (start payload).items = item :: back)
    (hlength : other.length = payload.length)
    (htake : other.take (itemLength item) = payload.take (itemLength item)) :
    ∃ back', (start other).items = item :: back' := by
  have hne : payload ≠ [] := by
    rintro rfl
    rw [items_start_nil] at hitems
    exact List.cons_ne_nil _ _ hitems.symm
  have hne' : other ≠ [] := fun h ↦ hne (List.length_eq_zero_iff.mp (hlength ▸ h ▸ rfl))
  rcases hextent : MessageExtent.ofOctets? payload with fault | extent
  · rw [items_start_of_error hne hextent] at hitems
    obtain ⟨rfl, -⟩ := List.cons.inj hitems
    exact ⟨[], items_start_of_error hne'
      ((MessageExtent.ofOctets?_congr hlength htake).trans hextent)⟩
  · rw [items_start_of_ok hextent] at hitems
    obtain ⟨rfl, -⟩ := List.cons.inj hitems
    obtain ⟨hmin, hmax⟩ := MessageExtent.length_of_ofOctets? hextent
    rw [itemLength, List.length_take_of_le hmax] at htake
    -- The message covers what all messages start with.
    have hfront : other.take 4 = payload.take 4 := by
      have hcut := congrArg (List.take 4) htake
      rwa [List.take_take, List.take_take, Nat.min_eq_left hmin] at hcut
    have hother := (MessageExtent.ofOctets?_congr hlength hfront).trans hextent
    exact ⟨_, by rw [items_start_of_ok hother, htake]⟩

end Walk

/-! ### Faults and their places -/

/-- Something is wrong with the payload from `offset` to `stop`: behind the messages in front, the
walk stops, or yields a message that is refused under the header of its type. -/
def FaultAt (payload : List UInt8) (offset stop : Nat) (reason : ViewError) : Prop :=
  ∃ (before : List AcfView) (item : Except LayoutError AcfView) (behind : _),
    (Walk.start payload).items = before.map .ok ++ item :: behind ∧
      offset = (before.flatMap View.octets).length ∧ stop = offset + Walk.itemLength item ∧
        TypedMessage.ofItem? item = .error reason

/-- The fault is the one that begins first. -/
structure FirstFault (payload : List UInt8) (offset stop : Nat) (reason : ViewError) : Prop where
  faultAt : FaultAt payload offset stop reason
  offset_le : ∀ {offset' stop' reason'}, FaultAt payload offset' stop' reason' → offset ≤ offset'

variable {payload : List UInt8} {offset stop : Nat} {reason : ViewError}

/-- **The fault that begins first is the one that all messages in front of have passed.** -/
theorem firstFault_iff : FirstFault payload offset stop reason ↔
    ∃ (before : List AcfView) (item : Except LayoutError AcfView) (behind : _),
      (Walk.start payload).items = before.map .ok ++ item :: behind ∧
        offset = (before.flatMap View.octets).length ∧ stop = offset + Walk.itemLength item ∧
          (∀ message ∈ before, ∃ typed, TypedMessage.ofView? message = .ok typed) ∧
            TypedMessage.ofItem? item = .error reason := by
  constructor
  · rintro ⟨⟨before, item, behind, hitems, rfl, hstop, hreason⟩, hfirst⟩
    refine ⟨before, item, behind, hitems, rfl, hstop, fun message hmem ↦ ?_, hreason⟩
    rcases hmessage : TypedMessage.ofView? message with fault | typed
    · -- A message that is refused is a fault further in front, for it is not empty.
      obtain ⟨front, back, rfl⟩ := List.append_of_mem hmem
      have hle := hfirst ⟨front, .ok message, back.map .ok ++ item :: behind,
        by rw [hitems, List.map_append, List.append_assoc]; rfl, rfl, rfl, hmessage⟩
      have hcomplete : Complete message := Walk.complete_of_mem_views <|
        List.mem_filterMap.mpr ⟨.ok message, hitems ▸ List.mem_append_left _
          (List.mem_map_of_mem hmem), rfl⟩
      have hfour := hcomplete.four_le
      rw [List.flatMap_append, List.flatMap_cons, List.length_append, List.length_append] at hle
      omega
    · exact ⟨typed, rfl⟩
  · rintro ⟨before, item, behind, hitems, rfl, hstop, hgranted, hreason⟩
    refine ⟨⟨before, item, behind, hitems, rfl, hstop, hreason⟩, ?_⟩
    rintro _ _ reason' ⟨before', item', behind', hitems', rfl, -, hreason'⟩
    rcases List.append_eq_append_iff.mp (hitems.symm.trans hitems') with
      ⟨between, hbefore', -⟩ | ⟨between, hbefore, hbetween⟩
    · obtain ⟨front, back, rfl, hfront, -⟩ := List.map_eq_append_iff.mp hbefore'
      obtain rfl := List.map_injective_iff.mpr (fun _ _ ↦ Except.ok.inj) hfront
      rw [List.flatMap_append, List.length_append]
      exact Nat.le_add_right _ _
    · rcases between with - | ⟨first, between⟩
      · rw [List.append_nil] at hbefore
        obtain rfl := List.map_injective_iff.mpr (fun _ _ ↦ Except.ok.inj) hbefore
        exact Nat.le_refl _
      · -- Among the messages in front there would be one that is refused.
        obtain ⟨rfl, -⟩ := List.cons.inj hbetween
        obtain ⟨message, hmem, rfl⟩ := List.mem_map.mp
          (hbefore ▸ List.mem_append_right _ List.mem_cons_self : item' ∈ before.map Except.ok)
        obtain ⟨typed, htyped⟩ := hgranted message hmem
        exact nomatch htyped.symm.trans hreason'

/-! ### Payloads -/

/-- A payload is decoded if it consists of messages, and each of them is decoded. -/
theorem Message.ofPayload?_eq_ok_iff {messages : List Message} :
    Message.ofPayload? payload = .ok messages ↔
      ∃ views : List AcfView, (Walk.start payload).items = views.map .ok ∧
        List.Forall₂ (fun message decoded ↦ ofView? message = .ok decoded) views messages := by
  rw [ofPayload?, mapM_eq_ok_iff]
  constructor
  · intro h
    generalize (Walk.start payload).items = items at h
    induction h with
    | nil => exact ⟨[], rfl, .nil⟩
    | @cons item decoded items messages hitem _ ih =>
      obtain ⟨views, rfl, hviews⟩ := ih
      rcases item with fault | view
      · simp [ofItem?] at hitem
      · exact ⟨view :: views, rfl, .cons hitem hviews⟩
  · rintro ⟨views, hitems, hviews⟩
    rw [hitems, List.forall₂_map_left_iff]
    exact hviews

/-- Messages in a row take a number of quadlets. -/
theorem four_dvd_length_flatMap {messages : List AcfView}
    (hcomplete : ∀ message ∈ messages, Complete message) :
    4 ∣ (messages.flatMap View.octets).length := by
  induction messages with
  | nil => exact Nat.dvd_zero 4
  | cons message messages ih =>
    obtain ⟨hmessage, hmessages⟩ := List.forall_mem_cons.mp hcomplete
    rw [List.flatMap_cons, List.length_append]
    exact Nat.dvd_add ⟨_, hmessage.length_eq⟩ (ih hmessages)

/-- **A payload is refused for its first fault.** -/
theorem Message.ofPayload?_eq_error_iff : Message.ofPayload? payload = .error reason ↔
    ∃ offset stop, FirstFault payload offset stop reason := by
  simp only [Message.ofPayload?, mapM_eq_error_iff, Message.ofItem?_eq, map_eq_error_iff,
    map_eq_ok_iff, firstFault_iff]
  constructor
  · rintro ⟨front, item, back, hitems, hgranted, hreason⟩
    obtain ⟨before, -, rfl, -⟩ := Walk.items_split hitems
    refine ⟨_, _, before, item, back, hitems, rfl, rfl, fun message hmem ↦ ?_, hreason⟩
    obtain ⟨-, typed, htyped, -⟩ := hgranted (.ok message) (List.mem_map_of_mem hmem)
    exact ⟨typed, htyped⟩
  · rintro ⟨_, _, before, item, behind, hitems, -, -, hgranted, hreason⟩
    refine ⟨before.map .ok, item, behind, hitems, fun _ hfront ↦ ?_, hreason⟩
    obtain ⟨message, hmem, rfl⟩ := List.mem_map.mp hfront
    obtain ⟨typed, htyped⟩ := hgranted message hmem
    exact ⟨_, typed, htyped, rfl⟩

/-- **The first fault does not depend on what is behind it.** -/
theorem FirstFault.of_take_eq (h : FirstFault payload offset stop reason) {other : List UInt8}
    (hlength : other.length = payload.length) (htake : other.take stop = payload.take stop) :
    FirstFault other offset stop reason := by
  obtain ⟨before, item, behind, hitems, rfl, rfl, hgranted, hreason⟩ := firstFault_iff.mp h
  obtain ⟨before', rest, hbefore, hcomplete, rfl, hrest⟩ := Walk.items_split hitems
  obtain rfl := List.map_injective_iff.mpr (fun _ _ ↦ Except.ok.inj) hbefore
  rw [List.take_length_add_append] at htake
  -- The other payload has the same messages in front, and another rest.
  obtain ⟨rest', rfl⟩ : ∃ rest', other = before.flatMap View.octets ++ rest' := by
    have hcut := congrArg (List.take (before.flatMap View.octets).length) htake
    rw [List.take_take, Nat.min_eq_left (Nat.le_add_right _ _), List.take_left] at hcut
    exact ⟨other.drop _, hcut ▸ (List.take_append_drop _ other).symm⟩
  rw [List.take_length_add_append] at htake
  rw [List.length_append, List.length_append] at hlength
  obtain ⟨behind', hitems'⟩ := Walk.items_start_congr hrest (Nat.add_left_cancel hlength)
    (List.append_cancel_left htake)
  refine firstFault_iff.mpr ⟨before, item, behind', ?_, rfl, rfl, hgranted, hreason⟩
  rw [Walk.items_start_flatMap_append hcomplete, hitems']

end Acf

/-! ### Data units -/

namespace StreamFormat

variable {format : StreamFormat}

/-- **What is cut off depends on the header alone**, as long as there are enough octets. -/
theorem split?_of_take_eq {view : View format.header} (haccepted : Accepted view)
    {other : List UInt8} (hlength : view.octets.length ≤ other.length)
    (htake : other.take format.header.size = view.octets.take format.header.size) :
    View.split? format.header other =
      .ok (⟨other.take view.octets.length⟩, other.drop view.octets.length) := by
  have hsize := haccepted.length_eq
  have hread (slot : format.header.Slot) : (Header.place slot).read other = view.read slot := by
    have hfront (octets : List UInt8) (hlong : view.octets.length ≤ octets.length) :
        (Header.place slot).read octets =
          (Header.place slot).read (octets.take format.header.size) := by
      have hcut : (octets.take format.header.size).length = format.header.size :=
        List.length_take_of_le (by omega)
      have happend := Header.read_append slot (octets.drop format.header.size)
        (Nat.le_of_eq hcut.symm)
      rwa [List.take_append_drop] at happend
    rw [View.read, hfront other hlength, htake, ← hfront view.octets (Nat.le_refl _)]
  refine View.split?_eq_ok_iff.mpr ⟨view.octets.length, ?_, rfl, rfl⟩
  rw [format.extent?_header, map_eq_ok_iff]
  refine ⟨view.read format.dataLengthSlot, dataLength?_eq_ok_iff.mpr ⟨?_, ?_, ?_, ?_⟩, hsize.symm⟩
  · rw [← format.place_subtypeSlot, hread]
    exact haccepted.subtype_eq
  · rw [← format.place_versionSlot, hread]
    exact haccepted.version_eq
  · exact hread format.dataLengthSlot
  · rwa [← hsize]

/-- The first octets of the payload are those behind the header. -/
theorem Accepted.take_payload {view : View format.header} (haccepted : Accepted view)
    (count : Nat) : view.payload.take count =
      (view.octets.take (format.header.size + count)).drop format.header.size := by
  rw [haccepted.payload_eq, List.drop_take, Nat.add_sub_cancel_left]

end StreamFormat

/-- How decoding a data unit of a format answers. `content` are the messages in what is decoded. -/
structure AllOrNothing {α : Type} (format : StreamFormat)
    (decode? : List UInt8 → Except ViewError (α × List UInt8)) (content : α → List Acf.Message)
    (buf : List UInt8) : Prop where
  /-- It accepts a view if the walk along its payload yields messages that all pass. -/
  accepts_iff : (∃ found, decode? buf = .ok found) ↔
    ∃ view rest, View.split? format.header buf = .ok (view, rest) ∧
      ∀ item ∈ (Acf.Walk.start view.payload).items, ∃ message typed,
        item = .ok message ∧ Acf.TypedMessage.ofView? message = .ok typed
  /-- What it has decoded are the messages of the walk, one by one and in order, and their octets
  are a number of quadlets. -/
  accepted : ∀ found rest, decode? buf = .ok (found, rest) →
    ∃ view views, View.split? format.header buf = .ok (view, rest) ∧
      (Acf.Walk.start view.payload).items = views.map .ok ∧
        List.Forall₂ (fun message decoded ↦ Acf.Message.ofView? message = .ok decoded) views
          (content found) ∧
          4 ∣ view.read format.dataLengthSlot
  /-- If there is no view it says why, and else it tells the first fault. -/
  refuses_iff : ∀ reason, decode? buf = .error reason ↔
    View.split? format.header buf = .error reason ∨
      ∃ view rest offset stop, View.split? format.header buf = .ok (view, rest) ∧
        Acf.FirstFault view.payload offset stop reason
  /-- Whatever is behind the first fault, in the payload and behind it, the answer is the same. -/
  steady : ∀ view rest offset stop reason, View.split? format.header buf = .ok (view, rest) →
    Acf.FirstFault view.payload offset stop reason →
      ∀ other, view.octets.length ≤ other.length →
        (other.take view.octets.length).take (format.header.size + stop) =
          view.octets.take (format.header.size + stop) →
            decode? other = .error reason

/-- Decoding a data unit is decoding the payload of its view. `value` puts the two together. -/
theorem StreamFormat.allOrNothing {format : StreamFormat} {α : Type}
    {decode? : List UInt8 → Except ViewError (α × List UInt8)} {content : α → List Acf.Message}
    {value : View format.header → List Acf.Message → α}
    (hcontent : ∀ view messages, content (value view messages) = messages)
    (hok : ∀ {buf found rest}, decode? buf = .ok (found, rest) ↔
      ∃ view, View.split? format.header buf = .ok (view, rest) ∧
        (Acf.Message.ofPayload? view.payload).map (value view) = .ok found)
    (herror : ∀ {buf reason}, decode? buf = .error reason ↔
      View.split? format.header buf = .error reason ∨
        ∃ view rest, View.split? format.header buf = .ok (view, rest) ∧
          Acf.Message.ofPayload? view.payload = .error reason)
    (buf : List UInt8) : AllOrNothing format decode? content buf where
  accepts_iff := by
    simp only [← Acf.Message.exists_ofItem?_eq_ok_iff, ← exists_mapM_eq_ok_iff]
    constructor
    · rintro ⟨⟨found, rest⟩, hfound⟩
      obtain ⟨view, hsplit, hvalue⟩ := hok.mp hfound
      obtain ⟨messages, hmessages, -⟩ := map_eq_ok_iff.mp hvalue
      exact ⟨view, rest, hsplit, messages, hmessages⟩
    · rintro ⟨view, rest, hsplit, messages, hmessages⟩
      exact ⟨(_, rest), hok.mpr ⟨view, hsplit, map_eq_ok_iff.mpr ⟨messages, hmessages, rfl⟩⟩⟩
  accepted found rest hfound := by
    obtain ⟨view, hsplit, hvalue⟩ := hok.mp hfound
    obtain ⟨messages, hmessages, rfl⟩ := map_eq_ok_iff.mp hvalue
    obtain ⟨views, hitems, hviews⟩ := Acf.Message.ofPayload?_eq_ok_iff.mp hmessages
    obtain ⟨hcomplete, hpayload⟩ := Acf.Walk.eq_flatMap_of_items_eq hitems
    refine ⟨view, views, hsplit, hitems, (hcontent view messages).symm ▸ hviews, ?_⟩
    rw [← (format.accepted_of_split? hsplit).1.length_payload, hpayload]
    exact Acf.four_dvd_length_flatMap hcomplete
  refuses_iff reason := by
    simp only [herror, Acf.Message.ofPayload?_eq_error_iff, exists_and_left]
  steady view rest offset stop reason hsplit hfirst other hlength htake := by
    obtain ⟨haccepted, -⟩ := format.accepted_of_split? hsplit
    -- The fault is behind the header, so the header is the same and claims as many octets.
    have hheader : other.take format.header.size = view.octets.take format.header.size := by
      have hcut := congrArg (List.take format.header.size) htake
      have hsize := haccepted.length_eq
      rwa [List.take_take, List.take_take, List.take_take, Nat.min_eq_left (by omega),
        Nat.min_eq_left (by omega)] at hcut
    have hother := split?_of_take_eq haccepted hlength hheader
    obtain ⟨haccepted', -⟩ := format.accepted_of_split? hother
    refine herror.mpr (.inr ⟨_, _, hother, Acf.Message.ofPayload?_eq_error_iff.mpr
      ⟨offset, stop, hfirst.of_take_eq ?_ ?_⟩⟩)
    · rw [haccepted'.payload_eq, haccepted.payload_eq, List.length_drop, List.length_drop,
        List.length_take_of_le hlength]
    · rw [haccepted'.take_payload, haccepted.take_payload, htake]

/-- **Decoding is all or nothing, and it tells the first fault**, in both formats and whatever the
buffer is. -/
theorem decode_allOrNothing :
    (∀ buf, AllOrNothing .ntscf NtscfPdu.decode? NtscfPdu.messages buf) ∧
      ∀ buf, AllOrNothing .tscf TscfPdu.decode? TscfPdu.messages buf :=
  ⟨StreamFormat.allOrNothing (fun _ _ ↦ rfl) NtscfPdu.decode?_eq_ok_iff
      NtscfPdu.decode?_eq_error_iff,
    StreamFormat.allOrNothing (fun _ _ ↦ rfl) TscfPdu.decode?_eq_ok_iff
      TscfPdu.decode?_eq_error_iff⟩

/-- A LIN message without room for its padding is in front of a message without a length, and it is
told of, although the walk has no fault with it. -/
example : NtscfPdu.decode? ([0x82, 0, 16, 0, 0, 0, 0, 0, 0, 0, 0, 0] ++
    [0x06, 3, 0xC0, 0x2A, 0, 0, 0, 0, 0, 0, 0, 0] ++ [2, 0, 0, 0]) =
      .error (.invalidLayout (.invalidLength (.header .lin) 12 15)) := by
  decide +kernel

end Avtp
