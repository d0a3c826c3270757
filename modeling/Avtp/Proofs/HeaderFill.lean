import Mathlib.Data.List.Pairwise
import Avtp.Write
import Avtp.Proofs.FieldStore

/-!
# Filling a header

Encoders write headers in one way: the room is cleared, then some of the fields are set. Whatever
the order and the selection, the result is described by one value for each field, zero for those
that are not set (`Header.read_fill`). That description is complete. The fields of a control stream
or message header leave no bit between them (`Header.isTiled`), so two headers with the same values
are the same octets, and a header that differs from another in some fields differs in the bits of
those fields only (`Header.bit?_eq_of_reads`).

**The old content.** Setting fields keeps the bits around them, so it is the clearing that makes the
result independent of the buffer. In front of a message body nothing is cleared; there the fields
that are set cover all of their octets, and do the same (`Header.assignAll_congr`).
-/

namespace Avtp

theorem lastValue?_map {ι : Type} [DecidableEq ι] (keys : List ι) (value : ι → Nat) (key : ι) :
    lastValue? (keys.map fun key ↦ (key, value key)) key =
      if key ∈ keys then some (value key) else none := by
  induction keys with
  | nil => rfl
  | cons first keys ih =>
    rw [List.map_cons, lastValue?_cons, ih]
    by_cases hkeys : key ∈ keys <;> by_cases hfirst : first = key
    · simp [hkeys]
    · simp [hkeys]
    · simp [hkeys, hfirst]
    · simp [hkeys, hfirst, Ne.symm hfirst]

/-! ### Writes that are not refused -/

namespace Write

theorem run?_cons (write : Write) (writes : List Write) (buf : List UInt8) :
    run? (write :: writes) buf = (write.perform? buf).bind (run? writes) := rfl

theorem perform?_clear {count : Nat} {buf : List UInt8} (hbuf : count ≤ buf.length) :
    (Write.clear count).perform? buf = some (List.replicate count 0 ++ buf.drop count) := by
  rw [perform?, Octets.split?_of_le hbuf, Option.map_some]

/-- Copied octets take the place of as many octets. -/
theorem perform?_copy {start : Nat} {content front old rest : List UInt8}
    (hstart : front.length = start) (hold : old.length = content.length) :
    (Write.copy start content).perform? (front ++ (old ++ rest)) =
      some (front ++ (content ++ rest)) := by
  have hlen : (front ++ old).length = start + content.length := by
    rw [List.length_append, hstart, hold]
  rw [perform?, ← List.append_assoc, Octets.split?_append hlen, Option.map_some,
    List.take_left' hstart]

end Write

namespace Header

variable {h : Header}

/-! ### Fields of one header -/

theorem not_overlaps_place {slot other : h.Slot} (hne : slot ≠ other) :
    (place slot).overlaps (place other) = false := by
  have hpairs := FieldTable.isDisjoint_iff_pairwise.mp (isDisjoint_table h)
  rw [table, List.pairwise_map] at hpairs
  have hsymm : Std.Symm fun slot other : h.Slot ↦ (place slot).overlaps (place other) = false :=
    ⟨fun _ _ hslots ↦ (BitField.overlaps_comm _ _).trans hslots⟩
  exact hpairs.forall (mem_slots slot) (mem_slots other) hne

/-- A bit belongs to one field at most. -/
theorem eq_of_covers {slot other : h.Slot} {i : Nat} (hslot : (place slot).covers i = true)
    (hother : (place other).covers i = true) : slot = other := by
  by_contra hne
  have hover := not_overlaps_place hne
  rw [BitField.overlaps_iff.mpr ⟨i, hslot, hother⟩] at hover
  exact Bool.noConfusion hover

/-- The fields of the header leave no bit between them. -/
def isTiled (h : Header) : Bool :=
  (List.range (8 * h.size)).all fun i ↦ h.slots.any fun slot ↦ (place slot).covers i

theorem exists_covers (htiled : h.isTiled = true) {i : Nat} (hi : i < 8 * h.size) :
    ∃ slot : h.Slot, (place slot).covers i = true := by
  have hbit := List.all_eq_true.mp htiled i (List.mem_range.mpr hi)
  obtain ⟨slot, -, hcov⟩ := List.any_eq_true.mp hbit
  exact ⟨slot, hcov⟩

/-- **The values of the fields decide the bits of the header.** If a header has the values of
another one except for some fields, which are zero, then it has its bits except for those of these
fields, which are zero. -/
theorem bit?_eq_of_reads (htiled : h.isTiled = true) {a b : List UInt8} (ha : h.size ≤ a.length)
    (hb : h.size ≤ b.length) {dropped : List h.Slot}
    (hreads : ∀ slot, (place slot).read a = if slot ∈ dropped then 0 else (place slot).read b)
    {i : Nat} (hi : i < 8 * h.size) :
    Octets.bit? a i =
      if dropped.any fun slot ↦ (place slot).covers i then some false else Octets.bit? b i := by
  obtain ⟨slot, hcov⟩ := exists_covers htiled hi
  have hreqa : (place slot).requiredOctets ≤ a.length :=
    Nat.le_trans (place_requiredOctets_le slot) ha
  have hreqb : (place slot).requiredOctets ≤ b.length :=
    Nat.le_trans (place_requiredOctets_le slot) hb
  have hread := hreads slot
  by_cases hdropped : slot ∈ dropped
  · rw [if_pos hdropped] at hread
    rw [if_pos (List.any_eq_true.mpr ⟨slot, hdropped, hcov⟩), BitField.bit?_of_covers hreqa hcov,
      hread, Nat.zero_testBit]
  · rw [if_neg hdropped] at hread
    rw [if_neg, BitField.bit?_eq_of_read_eq hreqa hreqb hread hcov]
    intro hany
    obtain ⟨other, hother, hcov'⟩ := List.any_eq_true.mp hany
    exact hdropped (eq_of_covers hcov hcov' ▸ hother)

/-! ### Setting fields -/

/-- Sets fields of a header, in the given order. -/
def assignAll (slots : List h.Slot) (value : h.Slot → Nat) (buf : List UInt8) : List UInt8 :=
  BitField.writeAll place (slots.map fun slot ↦ (slot, value slot)) buf

/-- What is written fits, and what is not written is zero. -/
structure Fills (slots : List h.Slot) (value : h.Slot → Nat) : Prop where
  holds : ∀ slot, (place slot).Holds (value slot)
  eq_zero : ∀ slot, slot ∉ slots → value slot = 0

section Assign

variable {slots : List h.Slot} {value : h.Slot → Nat} {buf : List UInt8}

@[simp] theorem length_assignAll (slots : List h.Slot) (value : h.Slot → Nat) (buf : List UInt8) :
    (assignAll slots value buf).length = buf.length :=
  BitField.length_writeAll ..

theorem fit_map (slots : List h.Slot) (hholds : ∀ slot, (place slot).Holds (value slot))
    (hbuf : h.size ≤ buf.length) :
    BitField.Fit place (slots.map fun slot ↦ (slot, value slot)) buf.length := by
  intro entry hentry
  obtain ⟨slot, -, rfl⟩ := List.mem_map.mp hentry
  exact ⟨Nat.le_trans (place_requiredOctets_le slot) hbuf, hholds slot⟩

/-- A field that is set has its new value, any other field has its old one. -/
theorem read_assignAll (hholds : ∀ slot, (place slot).Holds (value slot))
    (hbuf : h.size ≤ buf.length) (slot : h.Slot) :
    (place slot).read (assignAll slots value buf) =
      if slot ∈ slots then value slot else (place slot).read buf := by
  have hread := BitField.read_writeAll place (fit_map slots hholds hbuf)
    (Nat.le_trans (place_requiredOctets_le slot) hbuf) fun entry _ hne ↦ not_overlaps_place hne
  rw [assignAll, hread, lastValue?_map]
  split <;> rfl

/-- A bit outside the fields that are set stays as it is. -/
theorem bit?_assignAll (hholds : ∀ slot, (place slot).Holds (value slot))
    (hbuf : h.size ≤ buf.length) {i : Nat} (hout : ∀ slot ∈ slots, (place slot).covers i = false) :
    Octets.bit? (assignAll slots value buf) i = Octets.bit? buf i := by
  refine BitField.bit?_writeAll place (fit_map slots hholds hbuf) fun entry hentry ↦ ?_
  obtain ⟨slot, hslot, rfl⟩ := List.mem_map.mp hentry
  exact hout slot hslot

/-- A bit of a field that is set does not depend on what the buffer held. -/
theorem bit?_assignAll_congr {a b : List UInt8} (hholds : ∀ slot, (place slot).Holds (value slot))
    (ha : h.size ≤ a.length) (hb : h.size ≤ b.length) {slot : h.Slot} (hslot : slot ∈ slots)
    {i : Nat} (hcov : (place slot).covers i = true) :
    Octets.bit? (assignAll slots value a) i = Octets.bit? (assignAll slots value b) i := by
  have hreq := place_requiredOctets_le slot
  refine BitField.bit?_eq_of_read_eq ?_ ?_ ?_ hcov
  · rw [length_assignAll]
    exact Nat.le_trans hreq ha
  · rw [length_assignAll]
    exact Nat.le_trans hreq hb
  · rw [read_assignAll hholds ha, read_assignAll hholds hb, if_pos hslot, if_pos hslot]

/-- **What was in the fields before they are set does not matter.** -/
theorem assignAll_congr {a b : List UInt8} (hholds : ∀ slot, (place slot).Holds (value slot))
    (ha : h.size ≤ a.length) (hb : h.size ≤ b.length)
    (hout : ∀ i, (∀ slot ∈ slots, (place slot).covers i = false) →
      Octets.bit? a i = Octets.bit? b i) :
    assignAll slots value a = assignAll slots value b := by
  refine Octets.eq_of_bit?_eq fun i ↦ ?_
  -- A bit of a field that is set has its new value on both sides, any other bit its old one.
  by_cases hcov : ∃ slot ∈ slots, (place slot).covers i = true
  · obtain ⟨slot, hslot, hcov⟩ := hcov
    exact bit?_assignAll_congr hholds ha hb hslot hcov
  · have hnone : ∀ slot ∈ slots, (place slot).covers i = false := fun slot hslot ↦
      Bool.eq_false_iff.mpr fun hcov' ↦ hcov ⟨slot, hslot, hcov'⟩
    rw [bit?_assignAll hholds ha hnone, bit?_assignAll hholds hb hnone, hout i hnone]

/-- Setting fields to the values they have changes nothing. -/
theorem assignAll_eq_self (hbuf : h.size ≤ buf.length)
    (hvalue : ∀ slot ∈ slots, (place slot).read buf = value slot) :
    assignAll slots value buf = buf := by
  induction slots with
  | nil => rfl
  | cons slot slots ih =>
    have hreq : (place slot).requiredOctets ≤ buf.length :=
      Nat.le_trans (place_requiredOctets_le slot) hbuf
    have hstep : (place slot).write buf (value slot) = buf := by
      refine Octets.eq_of_bit?_eq fun i ↦ ?_
      rw [BitField.bit?_write _ hreq, ← hvalue slot List.mem_cons_self]
      split
      · next hcov => rw [BitField.bit?_of_covers hreq hcov]
      · rfl
    rw [assignAll, List.map_cons, BitField.writeAll, List.foldl_cons, hstep]
    exact ih fun other hother ↦ hvalue other (List.mem_cons_of_mem slot hother)

/-- Setting the fields of a header does not reach behind it. -/
theorem assignAll_append {front : List UInt8} (hfront : h.size ≤ front.length)
    (slots : List h.Slot) (value : h.Slot → Nat) (rest : List UInt8) :
    assignAll slots value (front ++ rest) = assignAll slots value front ++ rest := by
  unfold assignAll
  induction slots generalizing front with
  | nil => rfl
  | cons slot slots ih =>
    have hreq : (place slot).requiredOctets ≤ front.length :=
      Nat.le_trans (place_requiredOctets_le slot) hfront
    have hlen : h.size ≤ ((place slot).write front (value slot)).length := by
      rwa [BitField.length_write]
    rw [List.map_cons, BitField.writeAll, BitField.writeAll, List.foldl_cons, List.foldl_cons,
      BitField.write_append rest _ hreq]
    exact ih hlen

/-- The writes of an encoder that set fields of a header are not refused. -/
theorem run?_slots (slots : List h.Slot) (hholds : ∀ slot, (place slot).Holds (value slot))
    (hbuf : h.size ≤ buf.length) :
    Write.run? (slots.map fun slot ↦ .slot slot (value slot)) buf =
      some (assignAll slots value buf) := by
  induction slots generalizing buf with
  | nil => rfl
  | cons slot slots ih =>
    have hreq : (place slot).requiredOctets ≤ buf.length :=
      Nat.le_trans (place_requiredOctets_le slot) hbuf
    have hstep : (Write.slot slot (value slot)).perform? buf =
        some ((place slot).write buf (value slot)) := by
      rw [Write.slot, Write.perform?, if_pos (hholds slot),
        BitField.write?_eq_some_write _ hreq]
    have hlen : h.size ≤ ((place slot).write buf (value slot)).length := by
      rwa [BitField.length_write]
    rw [List.map_cons, Write.run?, List.foldlM_cons, hstep]
    exact ih hlen

end Assign

/-! ### Filling -/

/-- The header with the given fields set and zeros everywhere else. -/
def fill (h : Header) (slots : List h.Slot) (value : h.Slot → Nat) : List UInt8 :=
  assignAll slots value (List.replicate h.size 0)

section Fill

variable {slots : List h.Slot} {value : h.Slot → Nat}

@[simp] theorem length_fill (slots : List h.Slot) (value : h.Slot → Nat) :
    (h.fill slots value).length = h.size := by
  rw [fill, length_assignAll, List.length_replicate]

/-- **A field of a header that was filled has the value that was meant for it.** -/
theorem read_fill (hfills : Fills slots value) (slot : h.Slot) (rest : List UInt8) :
    (place slot).read (h.fill slots value ++ rest) = value slot := by
  have hlen : h.size ≤ (List.replicate h.size (0 : UInt8)).length :=
    Nat.le_of_eq List.length_replicate.symm
  have hreq : (place slot).requiredOctets ≤ (h.fill slots value).length := by
    rw [length_fill]
    exact place_requiredOctets_le slot
  rw [BitField.read_append rest hreq, fill, read_assignAll hfills.holds hlen]
  split
  · rfl
  · next hslot => rw [BitField.read_replicate_zero, hfills.eq_zero slot hslot]

/-- The writes of an encoder fill the room that was cleared. -/
theorem run?_fill (slots : List h.Slot) (hholds : ∀ slot, (place slot).Holds (value slot))
    (rest : List UInt8) :
    Write.run? (slots.map fun slot ↦ .slot slot (value slot)) (List.replicate h.size 0 ++ rest) =
      some (h.fill slots value ++ rest) := by
  have hzeros : h.size ≤ (List.replicate h.size (0 : UInt8)).length :=
    Nat.le_of_eq List.length_replicate.symm
  have hroom : h.size ≤ (List.replicate h.size (0 : UInt8) ++ rest).length := by
    rw [List.length_append]
    exact Nat.le_add_right_of_le hzeros
  rw [run?_slots slots hholds hroom, assignAll_append hzeros, fill]

/-- **A header filled with the values of another one has its bits**, except for those of the fields
that were given zero instead. -/
theorem bit?_fill (htiled : h.isTiled = true) (hfills : Fills slots value) {buf : List UInt8}
    (hbuf : h.size ≤ buf.length) {dropped : List h.Slot}
    (hvalue : ∀ slot, value slot = if slot ∈ dropped then 0 else (place slot).read buf)
    (rest : List UInt8) {i : Nat} (hi : i < 8 * h.size) :
    Octets.bit? (h.fill slots value ++ rest) i =
      if dropped.any fun slot ↦ (place slot).covers i then some false else Octets.bit? buf i := by
  have hlen : h.size ≤ (h.fill slots value ++ rest).length := by
    rw [List.length_append, length_fill]
    exact Nat.le_add_right _ _
  refine bit?_eq_of_reads htiled hlen hbuf (fun slot ↦ ?_) hi
  rw [read_fill hfills, hvalue]

end Fill

end Header

end Avtp
