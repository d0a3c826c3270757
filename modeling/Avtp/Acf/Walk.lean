import Avtp.View.Access

/-!
# Walking along the messages of a payload

The payload of a control stream is a sequence of ACF messages without separators: each message says
how long it is, and the next one starts there. A walk goes along them one by one.

A message whose length makes no sense, or that runs past the payload, ends the walk. The walk yields
the fault and then nothing more, because nothing tells where a further message would begin; the
octets from the faulty message on remain. Every step either consumes at least one quadlet or stops
the walk, which is why it ends (`measure_next_lt`).
-/

namespace Avtp.Acf

/-- The state of a walk. -/
structure Walk where
  /-- The octets that are still ahead. -/
  rest : List UInt8
  /-- A fault has been found. -/
  stopped : Bool
  deriving DecidableEq

namespace Walk

/-- A walk along the messages of a payload. -/
def start (payload : List UInt8) : Walk := ⟨payload, false⟩

/-- The next message or fault, and the walk after it. -/
def next (walk : Walk) : Option (Except LayoutError AcfView × Walk) :=
  if walk.stopped || walk.rest.isEmpty then none
  else
    match MessageExtent.ofOctets? walk.rest with
    | .ok extent =>
      some (.ok ⟨walk.rest.take extent.length⟩, { walk with rest := walk.rest.drop extent.length })
    | .error fault => some (.error fault, { walk with stopped := true })

/-- How far a walk can still go. -/
def measure (walk : Walk) : Nat := if walk.stopped then 0 else walk.rest.length

/-- Every step brings a walk nearer to its end. -/
theorem measure_next_lt {walk after : Walk} {item : Except LayoutError AcfView}
    (h : walk.next = some (item, after)) : after.measure < walk.measure := by
  unfold next at h
  split at h
  · simp at h
  · next hgo =>
    simp only [Bool.or_eq_true, List.isEmpty_iff, not_or, Bool.not_eq_true] at hgo
    have hpos : 0 < walk.rest.length := List.length_pos_iff.mpr hgo.2
    split at h
    · next extent he =>
      obtain ⟨h₁, h₂⟩ := MessageExtent.length_of_ofOctets? he
      obtain ⟨-, rfl⟩ := Prod.mk.inj (Option.some.inj h)
      simp only [measure, hgo.1, Bool.false_eq_true, if_false, List.length_drop]
      omega
    · obtain ⟨-, rfl⟩ := Prod.mk.inj (Option.some.inj h)
      simp only [measure, hgo.1, Bool.false_eq_true, if_false, if_true]
      omega

/-- The steps of a walk up to its end: each item with the walk after it. -/
def steps (walk : Walk) : List (Except LayoutError AcfView × Walk) :=
  match h : walk.next with
  | none => []
  | some (item, after) =>
    have := measure_next_lt h
    (item, after) :: after.steps
termination_by walk.measure

theorem steps_of_next_eq_none {walk : Walk} (h : walk.next = none) : walk.steps = [] := by
  rw [steps]
  split
  · rfl
  · next heq => simp [h] at heq

theorem steps_of_next_eq_some {walk after : Walk} {item : Except LayoutError AcfView}
    (h : walk.next = some (item, after)) : walk.steps = (item, after) :: after.steps := by
  rw [steps]
  split
  · next heq => simp [h] at heq
  · next heq =>
    obtain ⟨rfl, rfl⟩ := Prod.mk.inj (Option.some.inj (h.symm.trans heq))
    rfl

/-- The messages and the fault, if any, that a walk yields. -/
def items (walk : Walk) : List (Except LayoutError AcfView) := walk.steps.map Prod.fst

/-- The walk at its end. -/
def finish (walk : Walk) : Walk := (walk.steps.getLast?.map Prod.snd).getD walk

end Walk

end Avtp.Acf
