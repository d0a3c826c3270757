import Mathlib.Logic.Function.Iterate
import Avtp.Proofs.PayloadWalk

/-!
# A walk takes its payload apart

No octet of a payload is lost by a walk and none is yielded twice: the messages, one behind the
other, and what remains behind the last of them are the payload again. What remains is nothing, or
it starts with a fault, and the walk has told it (`start_partitions`).

**Two descriptions of one run.** `Walk.items` lists what a walk yields, by recursion on how far it
can still go. A caller does not see this list. It calls `next` again and again and does not know
when to stop. `next_iterate_advance` says that the calls give the items in order and then nothing,
however long one goes on. All other facts are about the list, by induction from the front of the
payload (`payload_induction`).
-/

namespace Avtp.Acf

/-! ### Complete messages -/

/-- A complete message is measured as what it is. -/
theorem Complete.extent?_eq_ok {view : AcfView} (h : Complete view) :
    ∃ extent, view.extent? = .ok extent ∧ extent.length = view.octets.length :=
  ⟨_, h.ofOctets?_eq, rfl⟩

/-- A complete message is as long as its length field says. -/
theorem Complete.length_eq {view : AcfView} (h : Complete view) :
    view.octets.length = 4 * view.msgLength :=
  h.announced_eq.symm

namespace Walk

/-! ### Payloads from the front -/

/-- **A payload is empty, faulty in front, or a message with a payload behind it.** -/
@[elab_as_elim]
theorem payload_induction {motive : List UInt8 → Prop} (payload : List UInt8)
    (nil : motive [])
    (fault : ∀ payload reason, payload ≠ [] →
      MessageExtent.ofOctets? payload = .error reason → motive payload)
    (message : ∀ payload extent, MessageExtent.ofOctets? payload = .ok extent →
      motive (payload.drop extent.length) → motive payload) :
    motive payload := by
  induction hn : payload.length using Nat.strongRecOn generalizing payload with
  | ind n ih =>
    subst hn
    by_cases hne : payload = []
    · rw [hne]
      exact nil
    rcases hextent : MessageExtent.ofOctets? payload with reason | extent
    · exact fault payload reason hne hextent
    · obtain ⟨hmin, hlen⟩ := MessageExtent.length_of_ofOctets? hextent
      have hlt : (payload.drop extent.length).length < payload.length := by
        rw [List.length_drop]
        omega
      exact message payload extent hextent (ih _ hlt _ rfl)

/-! ### The end of a walk -/

theorem finish_of_next_eq_none {walk : Walk} (h : walk.next = none) : walk.finish = walk := by
  rw [finish, steps_of_next_eq_none h]
  rfl

theorem finish_of_next_eq_some {walk after : Walk} {item : Except LayoutError AcfView}
    (h : walk.next = some (item, after)) : walk.finish = after.finish := by
  rw [finish, finish, steps_of_next_eq_some h, List.getLast?_cons, Option.map_some,
    Option.getD_some]
  cases after.steps.getLast? <;> rfl

@[simp] theorem finish_start_nil : (start []).finish = start [] :=
  finish_of_next_eq_none rfl

theorem finish_start_of_ok {payload : List UInt8} {extent : MessageExtent}
    (h : MessageExtent.ofOctets? payload = .ok extent) :
    (start payload).finish = (start (payload.drop extent.length)).finish :=
  finish_of_next_eq_some (next_start_of_ok h)

theorem finish_start_of_error {payload : List UInt8} {fault : LayoutError} (hne : payload ≠ [])
    (h : MessageExtent.ofOctets? payload = .error fault) :
    (start payload).finish = ⟨payload, true⟩ := by
  rw [finish_of_next_eq_some (next_start_of_error hne h), finish_of_next_eq_none rfl]

/-! ### Calling again and again -/

/-- The walk after a call, whether the call yields something or not. -/
def advance (walk : Walk) : Walk := (walk.next.map Prod.snd).getD walk

theorem advance_of_next_eq_none {walk : Walk} (h : walk.next = none) : walk.advance = walk := by
  rw [advance, h]
  rfl

theorem advance_of_next_eq_some {walk after : Walk} {item : Except LayoutError AcfView}
    (h : walk.next = some (item, after)) : walk.advance = after := by
  rw [advance, h]
  rfl

/-- **The calls yield the items in order, and nothing from then on.** -/
theorem next_iterate_advance (walk : Walk) (k : Nat) :
    (advance^[k] walk).next.map Prod.fst = walk.items[k]? := by
  induction k generalizing walk with
  | zero =>
    rw [Function.iterate_zero_apply]
    rcases hnext : walk.next with - | ⟨item, after⟩
    · rw [items_of_next_eq_none hnext]
      rfl
    · rw [items_of_next_eq_some hnext]
      rfl
  | succ k ih =>
    rw [Function.iterate_succ_apply, ih]
    rcases hnext : walk.next with - | ⟨item, after⟩
    · rw [advance_of_next_eq_none hnext, items_of_next_eq_none hnext]
      rfl
    · rw [advance_of_next_eq_some hnext, items_of_next_eq_some hnext, List.getElem?_cons_succ]

/-- Once the items are all yielded, a call changes nothing. -/
theorem iterate_advance_eq_finish (walk : Walk) (k : Nat) (hk : walk.items.length ≤ k) :
    advance^[k] walk = walk.finish := by
  induction k generalizing walk with
  | zero =>
    rcases hnext : walk.next with - | ⟨item, after⟩
    · exact (finish_of_next_eq_none hnext).symm
    · rw [items_of_next_eq_some hnext, List.length_cons] at hk
      omega
  | succ k ih =>
    rw [Function.iterate_succ_apply]
    rcases hnext : walk.next with - | ⟨item, after⟩
    · rw [advance_of_next_eq_none hnext]
      refine ih walk ?_
      rw [items_of_next_eq_none hnext]
      exact Nat.zero_le k
    · rw [advance_of_next_eq_some hnext, finish_of_next_eq_some hnext]
      refine ih after ?_
      rw [items_of_next_eq_some hnext, List.length_cons] at hk
      omega

/-! ### The items along a payload -/

@[simp] theorem views_start_nil : (start []).views = [] := by
  rw [views, items_start_nil]
  rfl

theorem views_start_of_error {payload : List UInt8} {fault : LayoutError} (hne : payload ≠ [])
    (h : MessageExtent.ofOctets? payload = .error fault) : (start payload).views = [] := by
  rw [views, items_start_of_error hne h]
  rfl

/-- Every message takes a quadlet, and there is one fault at most. -/
theorem length_items_start_le (payload : List UInt8) :
    (start payload).items.length ≤ payload.length / 4 + 1 := by
  induction payload using payload_induction with
  | nil =>
    rw [items_start_nil]
    exact Nat.zero_le _
  | fault payload reason hne hextent =>
    rw [items_start_of_error hne hextent]
    exact Nat.le_add_left _ _
  | message payload extent hextent ih =>
    obtain ⟨hmin, hlen⟩ := MessageExtent.length_of_ofOctets? hextent
    rw [List.length_drop] at ih
    rw [items_start_of_ok hextent, List.length_cons]
    omega

/-- **The messages and the rest are the payload.** -/
theorem octets_views_append_rest (payload : List UInt8) :
    (start payload).views.flatMap View.octets ++ (start payload).finish.rest = payload := by
  induction payload using payload_induction with
  | nil =>
    rw [views_start_nil, finish_start_nil]
    rfl
  | fault payload reason hne hextent =>
    rw [views_start_of_error hne hextent, finish_start_of_error hne hextent]
    rfl
  | message payload extent hextent ih =>
    rw [views_start_of_ok hextent, finish_start_of_ok hextent, List.flatMap_cons,
      List.append_assoc, ih, List.take_append_drop]

/-- Every message that is yielded is complete. -/
theorem complete_of_mem_views {payload : List UInt8} {view : AcfView}
    (hview : view ∈ (start payload).views) : Complete view := by
  induction payload using payload_induction with
  | nil =>
    rw [views_start_nil] at hview
    exact absurd hview List.not_mem_nil
  | fault payload reason hne hextent =>
    rw [views_start_of_error hne hextent] at hview
    exact absurd hview List.not_mem_nil
  | message payload extent hextent ih =>
    rw [views_start_of_ok hextent] at hview
    rcases List.mem_cons.mp hview with rfl | hview
    · exact complete_of_ofOctets? hextent
    · exact ih hview

/-- The walk ends with nothing left, or with the fault in front of what is left. -/
def Ends (walk : Walk) : Prop :=
  (walk.items = walk.views.map .ok ∧ walk.finish.rest = []) ∨
    ∃ fault, walk.items = walk.views.map .ok ++ [.error fault] ∧ walk.finish.rest ≠ [] ∧
      MessageExtent.ofOctets? walk.finish.rest = .error fault

/-- **A walk ends with the payload, or with a fault.** -/
theorem ends_start (payload : List UInt8) : (start payload).Ends := by
  induction payload using payload_induction with
  | nil =>
    left
    rw [items_start_nil, views_start_nil, finish_start_nil]
    exact ⟨rfl, rfl⟩
  | fault payload reason hne hextent =>
    right
    rw [items_start_of_error hne hextent, views_start_of_error hne hextent,
      finish_start_of_error hne hextent]
    exact ⟨reason, rfl, hne, hextent⟩
  | message payload extent hextent ih =>
    rw [Ends, items_start_of_ok hextent, views_start_of_ok hextent, finish_start_of_ok hextent]
    rcases ih with ⟨hitems, hrest⟩ | ⟨fault, hitems, hrest, hfault⟩
    · left
      rw [hitems]
      exact ⟨rfl, hrest⟩
    · right
      rw [hitems]
      exact ⟨fault, rfl, hrest, hfault⟩

/-! ### The whole run -/

/-- A walk takes a payload apart. -/
structure Partitions (walk : Walk) (payload : List UInt8) : Prop where
  /-- The walk ends after few items. -/
  length_items_le : walk.items.length ≤ payload.length / 4 + 1
  /-- Calls yield the items in order. Behind the last one every call yields nothing. -/
  next_eq : ∀ k, (advance^[k] walk).next.map Prod.fst = walk.items[k]?
  /-- Behind the last item no call changes what remains. -/
  rest_eq : ∀ k, walk.items.length ≤ k → (advance^[k] walk).rest = walk.finish.rest
  /-- The messages and what remains are the payload, each octet once and in its place. -/
  octets_eq : walk.views.flatMap View.octets ++ walk.finish.rest = payload
  /-- A message is a number of quadlets, the one it announces, and its extent is its length. -/
  message : ∀ view ∈ walk.views,
    4 ≤ view.octets.length ∧ view.octets.length = 4 * view.msgLength ∧
      ∃ extent, view.extent? = .ok extent ∧ extent.length = view.octets.length
  /-- Nothing but the last item is a fault. Without a fault nothing remains, and a fault is the one
  that is found in front of what remains. -/
  ends : walk.Ends

/-- **A walk along a payload takes it apart**, whatever the payload is. -/
theorem start_partitions (payload : List UInt8) : Partitions (start payload) payload where
  length_items_le := length_items_start_le payload
  next_eq := next_iterate_advance (start payload)
  rest_eq k hk := by rw [iterate_advance_eq_finish (start payload) k hk]
  octets_eq := octets_views_append_rest payload
  message view hview := by
    have hcomplete := complete_of_mem_views hview
    exact ⟨hcomplete.four_le, hcomplete.length_eq, hcomplete.extent?_eq_ok⟩
  ends := ends_start payload

end Walk

end Avtp.Acf
