import Avtp.Proofs.WalkPartition

/-!
# Joined and cut payloads

Messages in a row do not say how many of them there are. A walk along them comes to their end and
takes whatever follows for further messages (`Walk.items_start_flatMap_append`). Where the row is
cut, it comes to the cut. A cut between two messages cannot be told from an end; at a cut inside a
message the walk finds that the message breaks off and stops in front of it.

**Cutting is joining.** What a cut leaves is a shorter row, and behind it a part of one message
(`take_flatMap`). So there is no induction over cut payloads: the walk along the shorter row is
known, and then there is the part. A part may be too short for what all messages start with, or
announce more octets than there are, and nothing else can be wrong with it (`brokenOff`).
-/

namespace Avtp.Acf

/-! ### Messages in a row -/

namespace Walk

variable {messages : List AcfView}

/-- **A walk along messages in a row yields them, and then what a walk over the rest yields.** -/
theorem items_start_flatMap_append (hcomplete : ∀ message ∈ messages, Complete message)
    (more : List UInt8) :
    (start (messages.flatMap View.octets ++ more)).items =
      messages.map .ok ++ (start more).items := by
  induction messages with
  | nil => rfl
  | cons message messages ih =>
    obtain ⟨hmessage, hmessages⟩ := List.forall_mem_cons.mp hcomplete
    rw [List.flatMap_cons, List.append_assoc, items_start_of_ok (hmessage.ofOctets?_append _),
      List.take_left, List.drop_left, ih hmessages, List.map_cons, List.cons_append]

/-- And it ends where the walk over the rest ends. -/
theorem finish_start_flatMap_append (hcomplete : ∀ message ∈ messages, Complete message)
    (more : List UInt8) :
    (start (messages.flatMap View.octets ++ more)).finish = (start more).finish := by
  induction messages with
  | nil => rfl
  | cons message messages ih =>
    obtain ⟨hmessage, hmessages⟩ := List.forall_mem_cons.mp hcomplete
    rw [List.flatMap_cons, List.append_assoc, finish_start_of_ok (hmessage.ofOctets?_append _),
      List.drop_left, ih hmessages]

theorem views_of_items_eq {payload : List UInt8}
    (hitems : (start payload).items = messages.map .ok) : (start payload).views = messages := by
  rw [views, hitems, List.filterMap_map]
  exact List.filterMap_some

/-- **A payload without a fault is messages in a row.** -/
theorem eq_flatMap_of_items_eq {payload : List UInt8}
    (hitems : (start payload).items = messages.map .ok) :
    (∀ message ∈ messages, Complete message) ∧ payload = messages.flatMap View.octets := by
  have hviews := views_of_items_eq hitems
  have hrest : (start payload).finish.rest = [] := by
    rcases ends_start payload with ⟨-, hrest⟩ | ⟨fault, hfault, -⟩
    · exact hrest
    · rw [hviews, hitems, List.self_eq_append_right] at hfault
      exact absurd hfault (List.cons_ne_nil _ _)
  have hpartition := octets_views_append_rest payload
  rw [hviews, hrest, List.append_nil] at hpartition
  exact ⟨fun message hmem ↦ complete_of_mem_views (hviews ▸ hmem), hpartition.symm⟩

end Walk

/-! ### Boundaries -/

/-- The number of octets that the first `count` of messages in a row take. This is where the last of
them ends and the next one begins. -/
def boundary (messages : List AcfView) (count : Nat) : Nat :=
  ((messages.take count).flatMap View.octets).length

theorem boundary_cons_succ (message : AcfView) (messages : List AcfView) (count : Nat) :
    boundary (message :: messages) (count + 1) =
      message.octets.length + boundary messages count := by
  rw [boundary, List.take_succ_cons, List.flatMap_cons, List.length_append, boundary]

theorem boundary_mono (messages : List AcfView) {i j : Nat} (h : i ≤ j) :
    boundary messages i ≤ boundary messages j := by
  obtain ⟨k, rfl⟩ := Nat.exists_eq_add_of_le h
  rw [boundary, boundary, List.take_add, List.flatMap_append, List.length_append]
  exact Nat.le_add_right _ _

/-- Among the boundaries up to any place there is a last one. -/
theorem exists_boundary_le_iff {messages : List AcfView}
    (hcomplete : ∀ message ∈ messages, Complete message) (n : Nat) :
    ∃ count ≤ messages.length, ∀ i ≤ messages.length, boundary messages i ≤ n ↔ i ≤ count := by
  induction messages generalizing n with
  | nil =>
    refine ⟨0, Nat.le_refl _, fun i hi ↦ iff_of_true ?_ hi⟩
    rw [boundary, List.take_nil]
    exact Nat.zero_le n
  | cons message messages ih =>
    obtain ⟨hmessage, hmessages⟩ := List.forall_mem_cons.mp hcomplete
    rcases Nat.lt_or_ge n message.octets.length with hshort | hlong
    · refine ⟨0, Nat.zero_le _, fun i hi ↦ ?_⟩
      cases i with
      | zero => exact iff_of_true (Nat.zero_le n) (Nat.le_refl 0)
      | succ i =>
        rw [boundary_cons_succ]
        omega
    · obtain ⟨count, hcount, hiff⟩ := ih hmessages (n - message.octets.length)
      refine ⟨count + 1, Nat.succ_le_succ hcount, fun i hi ↦ ?_⟩
      cases i with
      | zero => exact iff_of_true (Nat.zero_le n) (Nat.zero_le _)
      | succ i =>
        have hrest := hiff i (Nat.le_of_succ_le_succ hi)
        rw [boundary_cons_succ, Nat.succ_le_succ_iff, ← hrest]
        omega

/-- **What a cut leaves is a shorter row and a part of what follows it.** -/
theorem take_flatMap {messages : List AcfView} {n count : Nat} (hle : boundary messages count ≤ n) :
    (messages.flatMap View.octets).take n = (messages.take count).flatMap View.octets ++
      ((messages.drop count).flatMap View.octets).take (n - boundary messages count) := by
  have hrow : messages.flatMap View.octets =
      (messages.take count).flatMap View.octets ++ (messages.drop count).flatMap View.octets := by
    rw [← List.flatMap_append, List.take_append_drop]
  rw [hrow, List.take_append, List.take_of_length_le hle]
  rfl

/-! ### Messages that break off -/

/-- The fault of a message of which there are only the first octets: what all messages start with is
not there, or it is there and announces the others. -/
def brokenOff (message : AcfView) (kept : Nat) : LayoutError :=
  if kept < Header.size .acf then .bufferTooSmall (.header .acf) (Header.size .acf) kept
  else .bufferTooSmall .message message.octets.length kept

/-- **A message that breaks off is a message of which something is missing**, and nothing else. -/
theorem Complete.ofOctets?_take {view : AcfView} (h : Complete view) {kept : Nat}
    (hkept : kept < view.octets.length) :
    MessageExtent.ofOctets? (view.octets.take kept) = .error (brokenOff view kept) := by
  have hlength : (view.octets.take kept).length = kept :=
    List.length_take_of_le (Nat.le_of_lt hkept)
  rw [MessageExtent.ofOctets?, brokenOff, hlength]
  by_cases hfront : kept < Header.size .acf
  · rw [if_pos hfront, if_pos hfront]
  · -- The shared header is there, so the length it announces is that of the whole message.
    have hannounced := MessageExtent.announcedLength_append (view.octets.drop kept)
      (hlength.symm ▸ Nat.le_of_not_lt hfront)
    have hfour : ¬ view.octets.length < Header.size .acf := Nat.not_lt.mpr h.four_le
    rw [List.take_append_drop, h.announced_eq] at hannounced
    rw [if_neg hfront, if_neg hfront, ← hannounced, if_neg hfour, if_pos hkept]

/-- A walk stops in front of a message that breaks off. -/
theorem Walk.start_take {view : AcfView} (h : Complete view) {kept : Nat} (hpos : 0 < kept)
    (hkept : kept < view.octets.length) :
    (start (view.octets.take kept)).items = [.error (brokenOff view kept)] ∧
      (start (view.octets.take kept)).finish.rest = view.octets.take kept := by
  have hfault := h.ofOctets?_take hkept
  have hne : view.octets.take kept ≠ [] := by
    rw [← List.length_pos_iff, List.length_take_of_le (Nat.le_of_lt hkept)]
    exact hpos
  rw [Walk.items_start_of_error hne hfault, Walk.finish_start_of_error hne hfault]
  exact ⟨rfl, rfl⟩

/-! ### The whole payload -/

namespace Walk

/-- What becomes of the walk along a payload if only the first `n` octets of it are there.
`messages` are those in the payload, and `count` of them are left. -/
structure Cut (payload : List UInt8) (messages : List AcfView) (n count : Nat) : Prop where
  count_le : count ≤ messages.length
  /-- The messages that are left are those that end at or before the cut. -/
  boundary_le_iff : ∀ i ≤ messages.length, boundary messages i ≤ n ↔ i ≤ count
  /-- If the cut is at a boundary, they are all that the walk yields, and nothing remains. -/
  between : (∃ i ≤ messages.length, n = boundary messages i) →
    (start (payload.take n)).items = (messages.take count).map .ok ∧
      (start (payload.take n)).finish.rest = []
  /-- If it is not, the message behind them breaks off. The walk yields this fault and no more, and
  what is left of the message remains. -/
  inside : (∀ i ≤ messages.length, n ≠ boundary messages i) →
    ∃ message, messages[count]? = some message ∧
      (start (payload.take n)).items = (messages.take count).map .ok ++
        [.error (brokenOff message (n - boundary messages count))] ∧
      (start (payload.take n)).finish.rest = (payload.take n).drop (boundary messages count)

theorem cut_flatMap {messages : List AcfView}
    (hcomplete : ∀ message ∈ messages, Complete message) {n : Nat}
    (hn : n ≤ (messages.flatMap View.octets).length) :
    ∃ count, Cut (messages.flatMap View.octets) messages n count := by
  obtain ⟨count, hcount, hiff⟩ := exists_boundary_le_iff hcomplete n
  have hle : boundary messages count ≤ n := (hiff count hcount).mpr (Nat.le_refl count)
  have hfront : ∀ message ∈ messages.take count, Complete message :=
    fun message hmem ↦ hcomplete message (List.mem_of_mem_take hmem)
  refine ⟨count, hcount, hiff, ?_, ?_⟩
  · rintro ⟨i, hi, rfl⟩
    have hsame : boundary messages i = boundary messages count :=
      Nat.le_antisymm (boundary_mono messages ((hiff i hi).mp (Nat.le_refl _))) hle
    rw [take_flatMap hle, hsame, Nat.sub_self, List.take_zero, items_start_flatMap_append hfront,
      finish_start_flatMap_append hfront, items_start_nil, List.append_nil, finish_start_nil]
    exact ⟨rfl, rfl⟩
  · intro hinside
    have hlt : boundary messages count < n := Nat.lt_of_le_of_ne hle (hinside count hcount).symm
    -- Behind the messages that are left there is one more, since the cut is not at their end.
    rcases hrest : messages.drop count with - | ⟨message, others⟩
    · have hall : (messages.flatMap View.octets).length = boundary messages count := by
        rw [boundary, List.take_of_length_le (List.drop_eq_nil_iff.mp hrest)]
      omega
    have hlast : count < messages.length := by
      have hlength := congrArg List.length hrest
      rw [List.length_drop, List.length_cons] at hlength
      omega
    have hmessage : messages[count]? = some message := by
      rw [← List.head?_drop, hrest, List.head?_cons]
    have hkept : n - boundary messages count < message.octets.length := by
      have hnext : ¬ boundary messages (count + 1) ≤ n :=
        fun hend ↦ Nat.not_succ_le_self count ((hiff (count + 1) hlast).mp hend)
      rw [boundary, List.take_add_one, hmessage, Option.toList_some, List.flatMap_append,
        List.length_append, List.flatMap_singleton] at hnext
      rw [boundary] at hlt ⊢
      omega
    have hpart := start_take (hcomplete message (List.mem_of_getElem? hmessage))
      (Nat.sub_pos_of_lt hlt) hkept
    refine ⟨message, hmessage, ?_⟩
    rw [take_flatMap hle, hrest, List.flatMap_cons,
      List.take_append_of_le_length (Nat.le_of_lt hkept), items_start_flatMap_append hfront,
      finish_start_flatMap_append hfront, hpart.1, hpart.2, boundary, List.drop_left]
    exact ⟨rfl, rfl⟩

/-- **A walk without a fault can be continued and cut.** Octets behind the payload are walked along
after its messages and as if they were alone. Of the messages in front of a cut all are found, and a
message across the cut is reported as too short and as nothing else. -/
theorem start_joined_and_cut {payload : List UInt8} {messages : List AcfView}
    (hitems : (start payload).items = messages.map .ok) :
    (∀ more, (start (payload ++ more)).items = messages.map .ok ++ (start more).items ∧
        (start (payload ++ more)).finish = (start more).finish) ∧
      ∀ n ≤ payload.length, ∃ count, Cut payload messages n count := by
  obtain ⟨hcomplete, rfl⟩ := eq_flatMap_of_items_eq hitems
  exact ⟨fun more ↦ ⟨items_start_flatMap_append hcomplete more,
    finish_start_flatMap_append hcomplete more⟩, fun n hn ↦ cut_flatMap hcomplete hn⟩

/-- A brief CAN message, a LIN message and a message of a type left to users. -/
def mixedMessages : List AcfView :=
  [⟨[0x04, 3, 0x40, 1, 0, 0, 1, 0x23, 0x11, 0x22, 0x33, 0]⟩,
    ⟨[0x06, 4, 0, 0x2A, 0, 0, 0, 0, 0, 0, 0, 0, 0xA1, 0xA2, 0xA3, 0xA4]⟩,
    ⟨[0xF0, 2, 0, 0, 0xDE, 0xAD, 0xBE, 0xEF]⟩]

/-- They are continued by a message without a length, and cut behind the second of them, two octets
before the end, and inside what the LIN message starts with. -/
theorem start_joined_and_cut_mixed :
    (start (mixedMessages.flatMap View.octets)).items = mixedMessages.map .ok ∧
      (start (mixedMessages.flatMap View.octets ++ [2, 0, 0, 0])).items =
        mixedMessages.map .ok ++ (start [2, 0, 0, 0]).items ∧
      (∃ count, Cut (mixedMessages.flatMap View.octets) mixedMessages 28 count) ∧
        (∃ count, Cut (mixedMessages.flatMap View.octets) mixedMessages 34 count) ∧
          ∃ count, Cut (mixedMessages.flatMap View.octets) mixedMessages 14 count :=
  have hitems : (start (mixedMessages.flatMap View.octets)).items = mixedMessages.map .ok := by
    decide +kernel
  ⟨hitems, ((start_joined_and_cut hitems).1 [2, 0, 0, 0]).1,
    (start_joined_and_cut hitems).2 28 (by decide), (start_joined_and_cut hitems).2 34 (by decide),
    (start_joined_and_cut hitems).2 14 (by decide)⟩

end Walk

end Avtp.Acf
