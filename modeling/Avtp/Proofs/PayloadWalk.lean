import Avtp.Proofs.Framing

/-!
# A payload from its first message

A walk is a run of a machine with a state. For a payload as a whole the state does not matter: what
a walk yields is the message in front and then what a walk over the rest yields
(`Walk.items_start_of_ok`), and so the values of a payload are the value in front and then those of
the rest (`Message.ofPayload?_cons_eq_ok_iff`). Everything that is proved about payloads by
induction goes along these equations, from front to back.

## The message in front

It is cut off at the length it announces, so it is `Complete`: it announces its own length. For a
complete message the header of its type is taken or refused by type and pad count alone
(`TypedMessage.ofView?_eq_ok_iff`).
-/

namespace Avtp.Acf

/-! ### Walks -/

namespace Walk

theorem items_of_next_eq_some {walk after : Walk} {item : Except LayoutError AcfView}
    (h : walk.next = some (item, after)) : walk.items = item :: after.items := by
  rw [items, steps_of_next_eq_some h, List.map_cons]
  rfl

theorem items_of_next_eq_none {walk : Walk} (h : walk.next = none) : walk.items = [] := by
  rw [items, steps_of_next_eq_none h, List.map_nil]

@[simp] theorem items_start_nil : (start []).items = [] :=
  items_of_next_eq_none rfl

/-- A message in front is cut off. -/
theorem next_start_of_ok {payload : List UInt8} {extent : MessageExtent}
    (h : MessageExtent.ofOctets? payload = .ok extent) :
    (start payload).next =
      some (.ok ⟨payload.take extent.length⟩, start (payload.drop extent.length)) := by
  have hne : payload.isEmpty = false := by
    obtain ⟨hmin, hlen⟩ := MessageExtent.length_of_ofOctets? h
    rw [List.isEmpty_eq_false_iff_exists_mem]
    exact List.exists_mem_of_length_pos (by omega)
  rw [next, start, hne, h]
  rfl

/-- A fault in front stops the walk where it is. -/
theorem next_start_of_error {payload : List UInt8} {fault : LayoutError} (hne : payload ≠ [])
    (h : MessageExtent.ofOctets? payload = .error fault) :
    (start payload).next = some (.error fault, ⟨payload, true⟩) := by
  have hempty : payload.isEmpty = false := by
    rw [Bool.eq_false_iff, ne_eq, List.isEmpty_iff]
    exact hne
  rw [next, start, hempty, h]
  rfl

/-- **A message in front is yielded, and the walk goes on behind it.** -/
theorem items_start_of_ok {payload : List UInt8} {extent : MessageExtent}
    (h : MessageExtent.ofOctets? payload = .ok extent) :
    (start payload).items =
      .ok ⟨payload.take extent.length⟩ :: (start (payload.drop extent.length)).items :=
  items_of_next_eq_some (next_start_of_ok h)

/-- A fault in front is all that a walk yields. -/
theorem items_start_of_error {payload : List UInt8} {fault : LayoutError} (hne : payload ≠ [])
    (h : MessageExtent.ofOctets? payload = .error fault) :
    (start payload).items = [.error fault] := by
  rw [items_of_next_eq_some (next_start_of_error hne h), items_of_next_eq_none rfl]

/-- The messages that a walk yields. -/
def views (walk : Walk) : List AcfView := walk.items.filterMap Except.toOption

theorem views_start_of_ok {payload : List UInt8} {extent : MessageExtent}
    (h : MessageExtent.ofOctets? payload = .ok extent) :
    (start payload).views =
      ⟨payload.take extent.length⟩ :: (start (payload.drop extent.length)).views := by
  rw [views, items_start_of_ok h]
  rfl

end Walk

/-! ### Values of a payload -/

namespace Message

theorem mapM_ofItem?_cons (item : Except LayoutError AcfView)
    (items : List (Except LayoutError AcfView)) :
    (item :: items).mapM ofItem? =
      (do return (← ofItem? item) :: (← items.mapM ofItem?)) :=
  List.mapM_cons

@[simp] theorem ofPayload?_nil : ofPayload? [] = .ok [] := by
  rw [ofPayload?, Walk.items_start_nil]
  rfl

theorem ofPayload?_of_ok {payload : List UInt8} {extent : MessageExtent}
    (h : MessageExtent.ofOctets? payload = .ok extent) :
    ofPayload? payload =
      (do return (← ofView? ⟨payload.take extent.length⟩) ::
        (← ofPayload? (payload.drop extent.length))) := by
  rw [ofPayload?, Walk.items_start_of_ok h, mapM_ofItem?_cons]
  rfl

theorem ofPayload?_of_error {payload : List UInt8} {fault : LayoutError} (hne : payload ≠ [])
    (h : MessageExtent.ofOctets? payload = .error fault) :
    ofPayload? payload = .error (.ofLayout fault) := by
  rw [ofPayload?, Walk.items_start_of_error hne h, mapM_ofItem?_cons]
  rfl

/-- A payload without messages is empty. -/
theorem ofPayload?_eq_ok_nil_iff {payload : List UInt8} :
    ofPayload? payload = .ok [] ↔ payload = [] := by
  refine ⟨fun h ↦ ?_, fun h ↦ h ▸ ofPayload?_nil⟩
  by_contra hne
  rcases hextent : MessageExtent.ofOctets? payload with fault | extent
  · rw [ofPayload?_of_error hne hextent] at h
    simp at h
  · rw [ofPayload?_of_ok hextent] at h
    obtain ⟨first, others, -, -, hlist⟩ := cons_eq_ok_iff.mp h
    exact absurd hlist.symm (List.cons_ne_nil first others)

/-- **A payload with messages starts with the first one, and the others are the payload behind it.**
-/
theorem ofPayload?_cons_eq_ok_iff {payload : List UInt8} {message : Message}
    {messages : List Message} :
    ofPayload? payload = .ok (message :: messages) ↔
      ∃ extent, MessageExtent.ofOctets? payload = .ok extent ∧
        ofView? ⟨payload.take extent.length⟩ = .ok message ∧
          ofPayload? (payload.drop extent.length) = .ok messages := by
  rcases hextent : MessageExtent.ofOctets? payload with fault | extent
  · simp only [reduceCtorEq, false_and, exists_false, iff_false]
    intro h
    by_cases hne : payload = []
    · rw [hne, ofPayload?_nil] at h
      simp at h
    · rw [ofPayload?_of_error hne hextent] at h
      simp at h
  · rw [ofPayload?_of_ok hextent, cons_eq_ok_iff]
    constructor
    · rintro ⟨first, others, hfirst, hothers, hlist⟩
      obtain ⟨rfl, rfl⟩ := List.cons.inj hlist
      exact ⟨extent, rfl, hfirst, hothers⟩
    · rintro ⟨extent', hextent', hfirst, hothers⟩
      obtain rfl := Except.ok.inj hextent'
      exact ⟨message, messages, hfirst, hothers, rfl⟩

end Message

/-! ### Complete messages -/

/-- The message announces its own length. -/
structure Complete (view : AcfView) : Prop where
  four_le : 4 ≤ view.octets.length
  announced_eq : MessageExtent.announcedLength view.octets = view.octets.length

/-- **A message is complete where it was cut off.** -/
theorem complete_of_ofOctets? {payload : List UInt8} {extent : MessageExtent}
    (h : MessageExtent.ofOctets? payload = .ok extent) :
    Complete ⟨payload.take extent.length⟩ := by
  obtain ⟨hmin, hlen, rfl⟩ := MessageExtent.ofOctets?_eq_ok_iff.mp h
  have hlength : (payload.take (MessageExtent.announcedLength payload)).length =
      MessageExtent.announcedLength payload := by
    rw [List.length_take]
    omega
  have hfour : 4 ≤ (payload.take (MessageExtent.announcedLength payload)).length := by
    rw [hlength]
    exact hmin
  have hannounced := MessageExtent.announcedLength_append
    (payload.drop (MessageExtent.announcedLength payload)) hfour
  rw [List.take_append_drop] at hannounced
  exact ⟨hfour, hannounced.symm.trans hlength.symm⟩

/-- **It is found in front of whatever follows it**, at its own length. -/
theorem Complete.ofOctets?_append {view : AcfView} (h : Complete view) (more : List UInt8) :
    MessageExtent.ofOctets? (view.octets ++ more) =
      .ok ⟨view.msgType, view.octets.length, 4, 0⟩ := by
  have hannounced := (MessageExtent.announcedLength_append more h.four_le).trans h.announced_eq
  have htype : MessageExtent.announcedType (view.octets ++ more) = view.msgType :=
    MessageExtent.announcedType_append more h.four_le
  rw [MessageExtent.ofOctets?_eq_ok_iff, hannounced, htype, List.length_append]
  exact ⟨h.four_le, Nat.le_add_right _ _, rfl⟩

theorem Complete.ofOctets?_eq {view : AcfView} (h : Complete view) :
    MessageExtent.ofOctets? view.octets = .ok ⟨view.msgType, view.octets.length, 4, 0⟩ := by
  have halone := h.ofOctets?_append []
  rwa [List.append_nil] at halone

namespace TypedMessage

/-- A message under the header of a known format. -/
def ofFormat : (format : MessageFormat) → View format.header → TypedMessage
  | .can, view => .can view
  | .canBrief, view => .canBrief view
  | .lin, view => .lin view

theorem ofView?_of_type {view : AcfView} {format : MessageFormat}
    (htype : view.msgType = format.type) :
    ofView? view = (view.as? format).map (ofFormat format) := by
  cases format <;> (rw [ofView?, htype]; rfl)

theorem ofView?_of_not_type {view : AcfView}
    (htype : ∀ format : MessageFormat, view.msgType ≠ format.type) :
    ofView? view = .ok (.other view) := by
  rw [ofView?]
  split
  · next h => exact absurd h (htype .can)
  · next h => exact absurd h (htype .canBrief)
  · next h => exact absurd h (htype .lin)
  · rfl

/-- **What is asked of a complete message** before it is taken as one of a format: its type, then
room for the header, then room for the padding. It is taken as a whole. -/
theorem as?_eq {view : AcfView} (hcomplete : Complete view) (format : MessageFormat) :
    view.as? format =
      if view.msgType ≠ format.type then
        .error (.invalidLayout
          (.unexpectedType (.header format.header) format.type.raw view.rawMsgType))
      else if view.octets.length < format.header.size then
        .error (.invalidLayout
          (.invalidLength (.header format.header) view.octets.length format.header.size))
      else if view.octets.length <
          format.header.size + (Header.place format.padSlot).read view.octets then
        .error (.invalidLayout (.invalidLength (.header format.header) view.octets.length
          (format.header.size + (Header.place format.padSlot).read view.octets)))
      else .ok ⟨view.octets⟩ := by
  have htype : view.msgType.raw = view.rawMsgType := MessageType.raw_ofRaw _
  rw [AcfView.as?, View.split?, View.size?, format.extent?_header, MessageExtent.ofFormat?,
    hcomplete.ofOctets?_eq]
  simp only [MessageExtent.narrow?, htype]
  split_ifs with hother hheader hpadding
  · rfl
  · rfl
  · rfl
  · exact congrArg (Except.ok ∘ View.mk) List.take_length

theorem as?_eq_ok_iff {view : AcfView} (hcomplete : Complete view) {format : MessageFormat}
    {typed : View format.header} :
    view.as? format = .ok typed ↔
      view.msgType = format.type ∧
        format.header.size + (Header.place format.padSlot).read view.octets ≤ view.octets.length ∧
          typed = ⟨view.octets⟩ := by
  rw [as?_eq hcomplete]
  constructor
  · intro h
    split_ifs at h with hother hheader hpadding
    exact ⟨not_not.mp hother, Nat.le_of_not_lt hpadding, (Except.ok.inj h).symm⟩
  · rintro ⟨htype, hroom, rfl⟩
    rw [if_neg (not_not.mpr htype), if_neg (by omega), if_neg (by omega)]

/-- **A complete message is taken under the header of its type**, or as a message of another type.
-/
theorem ofView?_eq_ok_iff {view : AcfView} (hcomplete : Complete view) {typed : TypedMessage} :
    ofView? view = .ok typed ↔
      (∃ format : MessageFormat, view.msgType = format.type ∧
        format.header.size + (Header.place format.padSlot).read view.octets ≤ view.octets.length ∧
          typed = ofFormat format ⟨view.octets⟩) ∨
        (∀ format : MessageFormat, view.msgType ≠ format.type) ∧ typed = .other view := by
  by_cases hknown : ∃ format : MessageFormat, view.msgType = format.type
  · obtain ⟨format, htype⟩ := hknown
    have hnot : ¬ ∀ format : MessageFormat, view.msgType ≠ format.type :=
      fun hall ↦ hall format htype
    rw [ofView?_of_type htype, map_eq_ok_iff]
    simp only [hnot, false_and, or_false, as?_eq_ok_iff hcomplete]
    constructor
    · rintro ⟨typed, ⟨-, hroom, rfl⟩, rfl⟩
      exact ⟨format, htype, hroom, rfl⟩
    · rintro ⟨other, htype', hroom, rfl⟩
      -- There is one format for each type, so the header is the one that was tried.
      obtain rfl := MessageFormat.type_injective (htype.symm.trans htype')
      exact ⟨⟨view.octets⟩, ⟨htype, hroom, rfl⟩, rfl⟩
  · have hnone : ∀ format : MessageFormat, view.msgType ≠ format.type :=
      fun format htype ↦ hknown ⟨format, htype⟩
    rw [ofView?_of_not_type hnone]
    constructor
    · rintro h
      exact .inr ⟨hnone, (Except.ok.inj h).symm⟩
    · rintro (⟨format, htype, -⟩ | ⟨-, rfl⟩)
      · exact absurd htype (hnone format)
      · rfl

end TypedMessage

end Avtp.Acf
