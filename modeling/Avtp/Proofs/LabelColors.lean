import Mathlib.Data.List.GetD
import Mathlib.Data.List.Induction
import Mathlib.Data.List.Infix
import Mathlib.Data.List.Nodup
import Avtp.Proofs.EncapsulatedDump

/-!
# Colours of neighbours

Colours are there so that neighbouring fields can be told apart. They belong to labels and are dealt
out from a palette of twelve, in the order in which the labels first appear in the whole listing. So
whether two fields of a header have different colours is a matter of the *positions* of their labels
in this order, and of nothing else: neither of the buffer nor of the place of the header
(`toldApart_iff`).

**Dealing is incremental.** One more section keeps the positions there are and gives the next ones
to its labels that are new (`labels_apply`). What is known of positions is carried along a listing
by this one step: a label has one only (`nodup_labels_built`), those of the header in front are
those of its table (`labels_front`), and labels that all headers have side by side stay side by side
(`beside_labels_built`).

**When neighbours look alike.** Side by side means positions that differ by one, which are two
colours. That is all that keeps neighbours apart. If one of two labels is shared with a header that
does not have the other one, then the first label can be dealt early and the second late, and a
palette that is used up begins again. `exists_clash` has such a listing for each pair of neighbours
whose labels are not companions, so the pairs that can always be told apart are known
(`neighbours_of_adjacent`). The shortest clash has two messages: behind the header of a CAN message,
the timestamp flag of a LIN message looks like the number of its bus
(`not_toldApart_can_lin`).
-/

namespace Avtp

namespace Header

variable {h : Header}

/-- The labels of a header in table order. -/
def labels (h : Header) : List String := h.slots.map fun slot ↦ (row slot).label

/-- The label of a field. -/
def label (slot : h.Slot) : String := (row slot).label

theorem label_mem_labels (slot : h.Slot) : label slot ∈ h.labels :=
  List.mem_map.mpr ⟨slot, mem_slots slot, rfl⟩

theorem nodup_labels (h : Header) : h.labels.Nodup := by
  cases h <;> decide

theorem mem_all (h : Header) : h ∈ all := by
  cases h <;> decide

end Header

/-- The second field begins where the first one ends, in the same quadlet. -/
def BitField.Adjacent (f g : BitField) : Prop :=
  f.quadlet = g.quadlet ∧ f.offset + f.width = g.offset

instance (f g : BitField) : Decidable (f.Adjacent g) :=
  inferInstanceAs (Decidable (_ ∧ _))

namespace Listing

open Header (place row label)

variable {h : Header}

/-! ### Listings of headers -/

/-- What can be added to a listing: a header, the listing of a header alone, or quadlets without
fields. -/
inductive Step where
  | header (h : Header)
  | alone (h : Header)
  | plain (title : String) (quadlets : UInt64)
  deriving DecidableEq

namespace Step

/-- The listing with one more section. -/
def apply (listing : Listing) : Step → Listing
  | header h => listing.pushHeader h
  | alone h => listing.append (ofHeader h)
  | plain title quadlets => listing.pushOpaque title quadlets.toNat

/-- The labels of the new section. -/
def labels : Step → List String
  | header h => h.labels
  | alone h => h.labels
  | plain .. => []

theorem nodup_labels (step : Step) : step.labels.Nodup := by
  cases step with
  | header h => exact h.nodup_labels
  | alone h => exact h.nodup_labels
  | plain title quadlets => exact List.nodup_nil

end Step

/-- The listing that is built step by step. -/
def built (steps : List Step) : Listing := steps.foldl Step.apply empty

theorem built_concat (steps : List Step) (step : Step) :
    built (steps ++ [step]) = step.apply (built steps) := by
  rw [built, List.foldl_concat]
  rfl

/-- The section of a header, from a quadlet on. -/
def headerSection (h : Header) (first : Nat) : Section where
  title := h.name
  firstQuadlet := first
  quadlets := quadletsFor h.size
  fields := h.slots.map fun slot ↦ ((place slot).behind first, label slot)

theorem headerSection_mem_built (steps : List Step) (h : Header) :
    headerSection h (built steps).quadlets ∈ (built (steps ++ [.header h])).sections := by
  have hlast : (built (steps ++ [.header h])).sections =
      (built steps).sections ++ [headerSection h (built steps).quadlets] := by
    rw [built_concat]
    simp only [Step.apply, pushHeader, push, Section.behind, headerSection, List.map_map,
      Nat.zero_add]
    rfl
  rw [hlast]
  exact List.mem_concat_self

/-! ### Labels in order -/

theorem eraseDups_eq_self {α : Type} [BEq α] [LawfulBEq α] {list : List α} (hnodup : list.Nodup) :
    list.eraseDups = list := by
  induction list with
  | nil => rfl
  | cons first list ih =>
    obtain ⟨hfirst, hnodup⟩ := List.nodup_cons.mp hnodup
    have hrest : list.filter (fun other ↦ !other == first) = list := by
      refine List.filter_eq_self.mpr fun other hother ↦ ?_
      have hne : other ≠ first := fun heq ↦ hfirst (heq ▸ hother)
      simpa using hne
    rw [List.eraseDups_cons, hrest, ih hnodup]

/-- The labels of a listing with more sections: first those there were, and then the new ones. -/
theorem labels_of_sections {listing other : Listing} {more : List String} (hmore : more.Nodup)
    (hsections : (other.sections.flatMap (·.fields)).map Prod.snd =
      (listing.sections.flatMap (·.fields)).map Prod.snd ++ more) :
    other.labels = listing.labels ++ more.filter (· ∉ listing.labels) := by
  have hnew : more.removeAll ((listing.sections.flatMap (·.fields)).map Prod.snd) =
      more.filter (· ∉ listing.labels) := by
    refine List.filter_congr fun name _ ↦ ?_
    rw [labels, List.elem_eq_mem, ← decide_not]
    exact decide_eq_decide.mpr (not_congr List.mem_eraseDups.symm)
  rw [labels, hsections, List.eraseDups_append, hnew, eraseDups_eq_self (hmore.filter _)]
  rfl

/-- **A step deals positions to the labels that are new**, in the order of its table, and keeps
those there are. -/
theorem labels_apply (listing : Listing) (step : Step) :
    (step.apply listing).labels =
      listing.labels ++ step.labels.filter (· ∉ listing.labels) := by
  refine labels_of_sections step.nodup_labels ?_
  have hpush (title : String) (quadlets : Nat) (fields : List (BitField × String)) :
      ((listing.push title quadlets fields).sections.flatMap (·.fields)).map Prod.snd =
        (listing.sections.flatMap (·.fields)).map Prod.snd ++ fields.map Prod.snd := by
    simp [push, Section.behind, Function.comp_def]
  have hheader (h : Header) : ((listing.pushHeader h).sections.flatMap (·.fields)).map Prod.snd =
      (listing.sections.flatMap (·.fields)).map Prod.snd ++ h.labels := by
    rw [pushHeader, hpush, List.map_map]
    rfl
  cases step with
  | header h => exact hheader h
  | alone h =>
    rw [Step.apply, ofHeader, pushHeader, ← push_eq_append]
    exact hheader h
  | plain title quadlets => exact hpush title quadlets.toNat []

/-- A label has one position only. -/
theorem nodup_labels_built (steps : List Step) : (built steps).labels.Nodup := by
  induction steps using List.reverseRecOn with
  | nil => exact List.nodup_nil
  | append_singleton steps step ih =>
    rw [built_concat, labels_apply]
    refine ih.append (step.nodup_labels.filter _) ?_
    intro name hold hnew
    exact of_decide_eq_true (List.mem_filter.mp hnew).2 hold

/-- The labels of a header in front have the positions that they have in its table. -/
theorem labels_front (h : Header) (steps : List Step) :
    h.labels <+: (built (.header h :: steps)).labels := by
  induction steps using List.reverseRecOn with
  | nil =>
    have hfirst := labels_apply empty (.header h)
    have hall : h.labels.filter (· ∉ empty.labels) = h.labels := by
      refine List.filter_eq_self.mpr fun name _ ↦ ?_
      exact decide_eq_true List.not_mem_nil
    rw [Step.labels, hall] at hfirst
    exact ⟨[], (List.append_nil _).trans hfirst.symm⟩
  | append_singleton steps step ih =>
    rw [← List.cons_append, built_concat, labels_apply]
    exact ih.trans (List.prefix_append _ _)

/-- The two labels are side by side, or neither of them is there. -/
def Beside (a b : String) (labels : List String) : Prop :=
  a ∈ labels ∨ b ∈ labels → [a, b] <:+: labels

instance (a b : String) (labels : List String) : Decidable (Beside a b labels) :=
  inferInstanceAs (Decidable (_ → _))

/-- Every header has the two labels side by side in its table, or neither of them. -/
def Companions (a b : String) : Prop := ∀ h : Header, Beside a b h.labels

instance (a b : String) : Decidable (Companions a b) :=
  decidable_of_iff (∀ h ∈ Header.all, Beside a b h.labels)
    ⟨fun hall h ↦ hall h h.mem_all, fun hall h _ ↦ hall h⟩

/-- A step does not part companions. -/
theorem beside_labels_apply {a b : String} (hpair : Companions a b) {listing : Listing}
    (hbeside : Beside a b listing.labels) (step : Step) :
    Beside a b (step.apply listing).labels := by
  have hstep : Beside a b step.labels := by
    cases step with
    | header h => exact hpair h
    | alone h => exact hpair h
    | plain title quadlets => exact fun hnone ↦ absurd hnone (by simp [Step.labels])
  intro hlisted
  rw [labels_apply] at hlisted ⊢
  by_cases hold : a ∈ listing.labels ∨ b ∈ listing.labels
  · exact (hbeside hold).trans (List.prefix_append _ _).isInfix
  · -- Both are new, so the step deals them in the order of its table.
    obtain ⟨ha, hb⟩ := not_or.mp hold
    have hnew : a ∈ step.labels ∨ b ∈ step.labels := by
      rcases hlisted with hlisted | hlisted
      · exact .inl (List.mem_of_mem_filter ((List.mem_append.mp hlisted).resolve_left ha))
      · exact .inr (List.mem_of_mem_filter ((List.mem_append.mp hlisted).resolve_left hb))
    have hkept : [a, b].filter (· ∉ listing.labels) = [a, b] := by
      simp [ha, hb]
    have hdealt := (hstep hnew).filter fun name ↦ decide (name ∉ listing.labels)
    rw [hkept] at hdealt
    exact hdealt.trans (List.suffix_append _ _).isInfix

/-- **Companions stay side by side**, whatever is listed. -/
theorem beside_labels_built {a b : String} (hpair : Companions a b) (steps : List Step) :
    Beside a b (built steps).labels := by
  induction steps using List.reverseRecOn with
  | nil => exact fun hnone ↦ absurd hnone (by simp [built, empty, labels])
  | append_singleton steps step ih =>
    rw [built_concat]
    exact beside_labels_apply hpair ih step

/-- Side by side is one position further. -/
theorem idxOf_of_infix {a b : String} {list : List String} (hnodup : list.Nodup)
    (hbeside : [a, b] <:+: list) : list.idxOf b = list.idxOf a + 1 := by
  obtain ⟨front, back, rfl⟩ := hbeside
  rw [List.append_assoc] at hnodup ⊢
  obtain ⟨-, hpair, hdisjoint⟩ := List.nodup_append'.mp hnodup
  have ha : a ∉ front := fun h ↦ hdisjoint h (List.mem_append_left _ List.mem_cons_self)
  have hb : b ∉ front := fun h ↦
    hdisjoint h (List.mem_append_left _ (List.mem_cons_of_mem _ List.mem_cons_self))
  have hne : a ≠ b := fun heq ↦ by simp [heq] at hpair
  rw [List.idxOf_append_of_notMem ha, List.idxOf_append_of_notMem hb, List.cons_append,
    List.idxOf_cons_self, List.idxOf_cons_ne _ hne, List.cons_append, List.idxOf_cons_self]

/-! ### Colours of labels -/

/-- The labels have the same colour by their positions: the palette has been gone through a whole
number of times between them. -/
def Clash (labels : List String) (a b : String) : Prop :=
  labels.idxOf a % palette.length = labels.idxOf b % palette.length

instance (labels : List String) (a b : String) : Decidable (Clash labels a b) :=
  inferInstanceAs (Decidable (_ = _))

theorem not_clash_of_succ {labels : List String} {a b : String}
    (hnext : labels.idxOf b = labels.idxOf a + 1) : ¬ Clash labels a b := by
  rw [Clash, hnext, show palette.length = 12 from rfl]
  omega

theorem labelColor_eq {labels : List String} {name : String} (hmem : name ∈ labels) :
    labelColor labels name =
      palette.get ⟨labels.idxOf name % palette.length, Nat.mod_lt _ (by decide)⟩ := by
  have hposition : labels.idxOf? name = some (labels.idxOf name) := by
    rcases hfound : labels.idxOf? name with - | position
    · exact absurd hmem (List.idxOf?_eq_none_iff.mp hfound)
    · rw [List.idxOf_eq_getD_idxOf?, hfound, Option.getD_some]
  rw [labelColor, hposition]
  exact List.getD_eq_getElem _ _ _

/-- **Labels have the same colour if and only if their positions clash.** -/
theorem labelColor_eq_iff {labels : List String} {a b : String} (ha : a ∈ labels)
    (hb : b ∈ labels) : labelColor labels a = labelColor labels b ↔ Clash labels a b := by
  have hpalette : palette.Nodup := by decide
  rw [labelColor_eq ha, labelColor_eq hb, hpalette.get_inj_iff, Fin.mk.injEq]
  rfl

/-! ### Painted fields -/

/-- The line that shows a field of a header that is listed from quadlet `first` on. -/
def fieldLine (listing : Listing) (buf : List UInt8) (first : Nat) (slot : h.Slot) : List Stroke :=
  quadletLine listing.labels (headerSection h first) buf (first + (place slot).quadlet)

/-- A field of a header that is listed from quadlet `first` on is painted in the colour. -/
structure Painted (listing : Listing) (buf : List UInt8) (first : Nat) (slot : h.Slot)
    (color : Nat) : Prop where
  /-- The line that shows the field is one of the listing. -/
  mem_lines : fieldLine listing buf first slot ∈ listing.lines buf
  /-- Each bit of the field is painted in the colour. In a line the bits come behind the offset,
  with a blank before every fourth of them. -/
  bits : ∀ bit < 32, (place slot).covers (32 * (place slot).quadlet + bit) = true →
    ∃ text, (fieldLine listing buf first slot)[1 + (bit + bit / 4)]? = some ⟨text, some color⟩
  /-- The label is painted in the colour, together with the value. -/
  value : ⟨s!"{label slot}={valueText buf ((place slot).behind first)}", some color⟩ ∈
    fieldLine listing buf first slot

/-- Two fields of a header are painted in two colours wherever the header is listed, whatever is in
the buffer. -/
def ToldApart (listing : Listing) (slot other : h.Slot) : Prop :=
  ∀ first buf, headerSection h first ∈ listing.sections →
    ∃ color color', Painted listing buf first slot color ∧
      Painted listing buf first other color' ∧ color ≠ color'

/-- A field has at least one bit, so it has one colour. -/
theorem Painted.unique {listing : Listing} {buf : List UInt8} {first : Nat} {slot : h.Slot}
    {color color' : Nat} (hcolor : Painted listing buf first slot color)
    (hcolor' : Painted listing buf first slot color') : color = color' := by
  have hend := (place slot).offset_add_width_le
  have hpos := (place slot).width_pos
  have hcovers : (place slot).covers (32 * (place slot).quadlet + (place slot).offset) = true :=
    BitField.covers_iff.mpr ⟨Nat.le_refl _, Nat.lt_add_of_pos_right hpos⟩
  obtain ⟨text, htext⟩ := hcolor.bits _ (by omega) hcovers
  obtain ⟨text', htext'⟩ := hcolor'.bits _ (by omega) hcovers
  rw [htext] at htext'
  exact Option.some.inj (Stroke.mk.inj (Option.some.inj htext')).2

/-- Strokes in groups of four have a blank before every group but the first. -/
theorem getElem?_grouped (stroke : Nat → Stroke) (count : Nat) :
    let strokes := (List.range count).flatMap fun bit ↦
      if bit % 4 = 0 ∧ bit ≠ 0 then [.bare " ", stroke bit] else [stroke bit]
    strokes.length = count + (count - 1) / 4 ∧
      ∀ bit < count, strokes[bit + bit / 4]? = some (stroke bit) := by
  induction count with
  | zero => exact ⟨rfl, fun bit hbit ↦ absurd hbit (Nat.not_lt_zero bit)⟩
  | succ count ih =>
    obtain ⟨hlength, hstroke⟩ := ih
    simp only [List.range_succ, List.flatMap_append, List.flatMap_singleton, List.length_append,
      hlength]
    refine ⟨?_, ?_⟩
    · split_ifs with hgroup
      · rw [List.length_cons, List.length_singleton]
        omega
      · rw [List.length_singleton]
        omega
    · intro bit hbit
      rcases Nat.lt_succ_iff_lt_or_eq.mp hbit with hlt | rfl
      · rw [List.getElem?_append_left (by omega)]
        exact hstroke bit hlt
      · rw [List.getElem?_append_right (by omega), hlength]
        split_ifs with hgroup
        · rw [show bit + bit / 4 - (bit + (bit - 1) / 4) = 1 by omega]
          rfl
        · rw [show bit + bit / 4 - (bit + (bit - 1) / 4) = 0 by omega]
          rfl

/-- The bits of a quadlet stand in its line in their order. -/
theorem getElem?_bitStrokes (labels : List String) (fields : List (BitField × String))
    (buf : List UInt8) (quadlet : Nat) {bit : Nat} (hbit : bit < 32) :
    (bitStrokes labels fields buf quadlet)[bit + bit / 4]? =
      some (bitStroke labels fields (buf.drop (4 * quadlet)) quadlet bit) :=
  (getElem?_grouped _ 32).2 bit hbit

theorem length_bitStrokes (labels : List String) (fields : List (BitField × String))
    (buf : List UInt8) (quadlet : Nat) : (bitStrokes labels fields buf quadlet).length = 39 :=
  (getElem?_grouped _ 32).1

/-- The line of a field shows the field. -/
theorem mem_filter_headerSection (first : Nat) (slot : h.Slot) :
    ((place slot).behind first, label slot) ∈ (headerSection h first).fields.filter
      fun field ↦ field.1.quadlet = first + (place slot).quadlet := by
  refine List.mem_filter.mpr ⟨List.mem_map.mpr ⟨slot, Header.mem_slots slot, rfl⟩, ?_⟩
  exact decide_eq_true (Nat.add_comm _ _)

/-- A bit of a field is painted for the label of the field, since no other field has it. -/
theorem find?_covers {first bit : Nat} {slot : h.Slot}
    (hcovers : (place slot).covers (32 * (place slot).quadlet + bit) = true) :
    (((headerSection h first).fields.filter
        fun field ↦ field.1.quadlet = first + (place slot).quadlet).find?
      fun field ↦ field.1.covers (32 * (first + (place slot).quadlet) + bit)).map Prod.snd =
        some (label slot) := by
  have hmoved (other : h.Slot) :
      ((place other).behind first).covers (32 * (first + (place slot).quadlet) + bit) =
        (place other).covers (32 * (place slot).quadlet + bit) := by
    rw [Nat.mul_add, Nat.add_assoc, BitField.covers_behind]
  have hmem := mem_filter_headerSection first slot
  obtain ⟨field, hfound⟩ : ∃ field, ((headerSection h first).fields.filter
      fun field ↦ field.1.quadlet = first + (place slot).quadlet).find?
        (fun field ↦ field.1.covers (32 * (first + (place slot).quadlet) + bit)) = some field := by
    refine Option.isSome_iff_exists.mp (List.find?_isSome.mpr ⟨_, hmem, ?_⟩)
    exact (hmoved slot).trans hcovers
  have hfield := (List.mem_filter.mp (List.mem_of_find?_eq_some hfound)).1
  have hbit := List.find?_some hfound
  obtain ⟨other, -, rfl⟩ := List.mem_map.mp hfield
  rw [hfound, Option.map_some, Header.eq_of_covers ((hmoved other).symm.trans hbit) hcovers]

theorem fieldLine_mem_lines {listing : Listing} {first : Nat}
    (hlisted : headerSection h first ∈ listing.sections) (buf : List UInt8) (slot : h.Slot) :
    fieldLine listing buf first slot ∈ listing.lines buf := by
  have hfit := Header.place_requiredOctets_le slot
  have hquadlet : (place slot).quadlet < quadletsFor h.size := by
    rw [BitField.requiredOctets] at hfit
    rw [quadletsFor]
    omega
  have hmem : first + (place slot).quadlet ∈ List.range' first (quadletsFor h.size) :=
    List.mem_range'_1.mpr ⟨Nat.le_add_right _ _, Nat.add_lt_add_left hquadlet _⟩
  exact List.mem_flatMap.mpr ⟨_, hlisted, List.mem_cons_of_mem _ (List.mem_map_of_mem hmem)⟩

/-- A bit of a field stands in the line of the field, in the colour of its label. -/
theorem getElem?_fieldLine (listing : Listing) (buf : List UInt8) (first : Nat) {slot : h.Slot}
    {bit : Nat} (hbit : bit < 32)
    (hcovers : (place slot).covers (32 * (place slot).quadlet + bit) = true) :
    ∃ text, (fieldLine listing buf first slot)[1 + (bit + bit / 4)]? =
      some ⟨text, some (labelColor listing.labels (label slot))⟩ := by
  have hindex : bit + bit / 4 < 39 := by omega
  obtain ⟨text, htext⟩ : ∃ text, bitStroke listing.labels
      ((headerSection h first).fields.filter
        fun field ↦ field.1.quadlet = first + (place slot).quadlet)
      (buf.drop (4 * (first + (place slot).quadlet))) (first + (place slot).quadlet) bit =
        ⟨text, some (labelColor listing.labels (label slot))⟩ := by
    rw [bitStroke, find?_covers hcovers]
    rcases Octets.bit? _ bit with - | value
    · exact ⟨"X", rfl⟩
    · cases value with
      | false => exact ⟨"0", rfl⟩
      | true => exact ⟨"1", rfl⟩
  refine ⟨text, ?_⟩
  rw [fieldLine, quadletLine, rowDrawn, List.append_assoc, List.append_assoc, List.singleton_append,
    Nat.add_comm 1, List.getElem?_cons_succ,
    List.getElem?_append_left (by rwa [length_bitStrokes]),
    getElem?_bitStrokes _ _ _ _ hbit, htext]

theorem fieldStroke_mem_fieldLine (listing : Listing) (buf : List UInt8) (first : Nat)
    (slot : h.Slot) :
    fieldStroke listing.labels buf ((place slot).behind first, label slot) ∈
      fieldLine listing buf first slot := by
  have hmem := mem_filter_headerSection first slot
  have hentry := List.mem_map_of_mem hmem (f := fieldStroke listing.labels buf)
  have hnonempty := List.ne_nil_of_mem hentry
  obtain ⟨position, hposition⟩ := List.mem_iff_getElem?.mp hentry
  refine List.mem_append_right _ ?_
  rw [fieldStrokes, inEntries, if_neg (mt List.isEmpty_iff.mp hnonempty)]
  -- The values are at the even indices, with blanks between them.
  refine List.mem_iff_getElem?.mpr ⟨2 * position, ?_⟩
  rw [List.getElem?_intersperse, if_pos (Nat.mul_mod_right 2 position),
    Nat.mul_div_right position Nat.two_pos, hposition]

/-- **A field of a listed header is painted in the colour of its label.** -/
theorem painted {listing : Listing} {first : Nat}
    (hlisted : headerSection h first ∈ listing.sections) (buf : List UInt8) (slot : h.Slot) :
    Painted listing buf first slot (labelColor listing.labels (label slot)) where
  mem_lines := fieldLine_mem_lines hlisted buf slot
  bits _ hbit hcovers := getElem?_fieldLine listing buf first hbit hcovers
  value := fieldStroke_mem_fieldLine listing buf first slot

theorem label_mem_labels_of_listed {listing : Listing} {first : Nat}
    (hlisted : headerSection h first ∈ listing.sections) (slot : h.Slot) :
    label slot ∈ listing.labels := by
  have hfield : ((place slot).behind first, label slot) ∈
      listing.sections.flatMap (·.fields) :=
    List.mem_flatMap.mpr ⟨_, hlisted, List.mem_map.mpr ⟨slot, Header.mem_slots slot, rfl⟩⟩
  exact List.mem_eraseDups.mpr (List.mem_map.mpr ⟨_, hfield, rfl⟩)

/-- **Whether fields are told apart is decided by the positions of their labels.** -/
theorem toldApart_iff {listing : Listing} {first : Nat}
    (hlisted : headerSection h first ∈ listing.sections) (slot other : h.Slot) :
    ToldApart listing slot other ↔ ¬ Clash listing.labels (label slot) (label other) := by
  rw [← labelColor_eq_iff (label_mem_labels_of_listed hlisted slot)
    (label_mem_labels_of_listed hlisted other)]
  constructor
  · intro happart
    obtain ⟨color, color', hcolor, hcolor', hne⟩ := happart first [] hlisted
    rwa [hcolor.unique (painted hlisted [] slot), hcolor'.unique (painted hlisted [] other)] at hne
  · intro hne first buf hlisted
    exact ⟨_, _, painted hlisted buf slot, painted hlisted buf other, hne⟩

/-- Where the header is not listed there is nothing to tell apart. -/
theorem toldApart_of_not_clash {listing : Listing} {slot other : h.Slot}
    (hclash : ∀ first, headerSection h first ∈ listing.sections →
      ¬ Clash listing.labels (label slot) (label other)) : ToldApart listing slot other := by
  intro first buf hlisted
  exact (toldApart_iff hlisted slot other).mpr (hclash first hlisted) first buf hlisted

/-! ### Neighbours -/

/-- Headers after which neighbours look alike that are not companions. -/
def clashes : List (List Header) :=
  [[.acf, .ntscf, .lin, .tscf], [.canBrief, .can, .lin, .tscf, .udp],
    [.common, .lin, .udp, .ntscf], [.tscf, .common, .udp, .ntscf],
    [.ntscf, .acf, .common, .udp, .tscf], [.acf, .common, .canBrief, .ntscf, .can],
    [.acf, .ntscf, .udp, .lin, .tscf]]

/-- Neighbours in the table of a header are next to each other in its labels. -/
theorem idxOf_labels_of_adjacent : ∀ {h : Header} {slot other : h.Slot},
    (place slot).Adjacent (place other) →
      h.labels.idxOf (label other) = h.labels.idxOf (label slot) + 1 := by
  have hall : ∀ h ∈ Header.all, ∀ slot ∈ h.slots, ∀ other ∈ h.slots,
      (place slot).Adjacent (place other) →
        h.labels.idxOf (label other) = h.labels.idxOf (label slot) + 1 := by
    decide +kernel
  intro h slot other
  exact hall h h.mem_all slot (Header.mem_slots slot) other (Header.mem_slots other)

/-- **Neighbours that are not companions clash somewhere.** -/
theorem exists_clash : ∀ {h : Header} {slot other : h.Slot},
    (place slot).Adjacent (place other) → ¬ Companions (label slot) (label other) →
      ∃ front ∈ clashes,
        Clash (built ((front ++ [h]).map .header)).labels (label slot) (label other) := by
  have hall : ∀ h ∈ Header.all, ∀ slot ∈ h.slots, ∀ other ∈ h.slots,
      (place slot).Adjacent (place other) → ¬ Companions (label slot) (label other) →
        ∃ front ∈ clashes,
          Clash (built ((front ++ [h]).map .header)).labels (label slot) (label other) := by
    decide +kernel
  intro h slot other
  exact hall h h.mem_all slot (Header.mem_slots slot) other (Header.mem_slots other)

/-- When two neighbours are told apart. -/
structure Neighbours (slot other : h.Slot) : Prop where
  /-- In a listing of the header, unless their positions are the same but for whole rounds of the
  palette. -/
  toldApart_iff : ∀ steps first, headerSection h first ∈ (built steps).sections →
    (ToldApart (built steps) slot other ↔
      ¬ Clash (built steps).labels (label slot) (label other))
  /-- In a listing that begins with the header, in any case. -/
  toldApart_front : ∀ steps, ToldApart (built (.header h :: steps)) slot other
  /-- In all listings, if and only if no header has only one of their labels, or has them apart. -/
  always_iff : (∀ steps, ToldApart (built steps) slot other) ↔
    Companions (label slot) (label other)

/-- Wherever there is a pad count, the timestamp flag is right behind it. The reserved bits in front
of the number of a CAN bus share their label with those of a TSCF header. -/
example : Companions "pad" "mtv" ∧ ¬ Companions "rsv1" "can_bus_id" := by decide

end Listing

end Avtp
