import Mathlib.Algebra.Group.Nat.Defs
import Mathlib.Data.List.Basic
import Avtp.Header

/-!
# Positions in machine words

A descriptor computes in machine words what a field has in exact numbers. The largest of these
numbers is that of the first bit behind the field, and if it is below the range of the words then
nothing wraps, neither on the way to it nor elsewhere (`BitField.Addressable`). Everything that a
descriptor computes is then what the field has, function by function, and so is every access.

`Descriptor.Addressable` asks the same of a descriptor, in terms of its three words only. Such a
descriptor is that of a field (`Descriptor.Addressable.exists_field`), so what is known of fields
holds of it. All fields of the headers are among them (`Header.addressable_place`).

Access alone needs less, as it counts octets and not bits. If the number of octets that a field
asks for does not wrap, they end with the quadlet that is reached, and no access that has passed the
check of the length leaves the buffer (`Descriptor.Reachable`).
-/

namespace Avtp

namespace BitField

variable {f g : BitField}

/-- The numbers of all bits of the field, and the one behind them, fit into a machine word. -/
def Addressable (f : BitField) : Prop := f.endBit < 2 ^ 64

instance (f : BitField) : Decidable f.Addressable :=
  inferInstanceAs (Decidable (f.endBit < 2 ^ 64))

/-! ### The field inside its quadlet -/

theorem toNat_offset_descriptor (f : BitField) : f.descriptor.offset.toNat = f.offset := by
  have hend := f.offset_add_width_le
  rw [descriptor, UInt32.toNat_ofNat']
  omega

theorem toNat_width_descriptor (f : BitField) : f.descriptor.width.toNat = f.width := by
  have hend := f.offset_add_width_le
  rw [descriptor, UInt32.toNat_ofNat']
  omega

@[simp] theorem maxValue_descriptor (f : BitField) : f.descriptor.maxValue = f.maxValue := by
  rw [Descriptor.maxValue, toNat_width_descriptor, maxValue]

@[simp] theorem holds_descriptor (f : BitField) (value : Nat) :
    f.descriptor.Holds value ↔ f.Holds value := by
  rw [Descriptor.Holds, maxValue_descriptor, Holds]

@[simp] theorem shift_descriptor (f : BitField) : f.descriptor.shift = f.trailing := by
  have hpos := f.width_pos
  have hend := f.offset_add_width_le
  have hoffset := f.toNat_offset_descriptor
  have hwidth := f.toNat_width_descriptor
  rw [Descriptor.shift, Descriptor.trailing, trailing]
  simp only [UInt32.toNat_mod, UInt32.toNat_sub, UInt32.reduceToNat, hoffset, hwidth]
  omega

@[simp] theorem mask_descriptor (f : BitField) : f.descriptor.mask = f.mask := by
  rw [Descriptor.mask, maxValue_descriptor, shift_descriptor, mask]

theorem extract_descriptor (f : BitField) (word : Quadlet) :
    f.descriptor.extract word = f.extract word := by
  rw [Descriptor.extract, mask_descriptor, shift_descriptor, extract]

theorem insert_descriptor (f : BitField) (word : Quadlet) (value : Nat) :
    f.descriptor.insert word value = f.insert word value := by
  rw [Descriptor.insert, mask_descriptor, maxValue_descriptor, shift_descriptor, insert]

/-! ### The field inside a buffer -/

namespace Addressable

variable (hf : f.Addressable)

include hf

theorem quadlet_lt : 32 * f.quadlet + f.offset + f.width < 2 ^ 64 := hf

theorem toNat_quadlet : f.descriptor.quadlet.toNat = f.quadlet := by
  have hlt := hf.quadlet_lt
  rw [descriptor, UInt64.toNat_ofNat']
  omega

theorem toNat_requiredOctets : f.descriptor.requiredOctets.toNat = f.requiredOctets := by
  have hlt := hf.quadlet_lt
  have hpos := f.width_pos
  rw [Descriptor.requiredOctets, requiredOctets]
  simp only [UInt64.toNat_mul, UInt64.toNat_add, UInt64.reduceToNat, hf.toNat_quadlet]
  omega

theorem toNat_firstBit : f.descriptor.firstBit.toNat = f.firstBit := by
  have hlt := hf.quadlet_lt
  rw [Descriptor.firstBit, firstBit]
  simp only [UInt64.toNat_add, UInt64.toNat_mul, UInt64.reduceToNat, UInt32.toNat_toUInt64,
    hf.toNat_quadlet, toNat_offset_descriptor]
  omega

theorem toNat_endBit : f.descriptor.endBit.toNat = f.endBit := by
  have hlt := hf.quadlet_lt
  rw [Descriptor.endBit, endBit, UInt64.toNat_add, hf.toNat_firstBit, UInt32.toNat_toUInt64,
    toNat_width_descriptor]
  exact Nat.mod_eq_of_lt hf

theorem covers_descriptor (bit : UInt64) : f.descriptor.covers bit = f.covers bit.toNat := by
  rw [Descriptor.covers, covers]
  simp only [UInt64.le_iff_toNat_le, UInt64.lt_iff_toNat_lt, hf.toNat_firstBit, hf.toNat_endBit]

/-- The quadlet of the field is the one that is reached. -/
theorem reached_quadlet : Quadlet.reached f.descriptor.quadlet = f.quadlet := by
  have hlt := hf.quadlet_lt
  rw [Quadlet.reached]
  simp only [UInt64.toNat_mul, UInt64.reduceToNat, hf.toNat_quadlet]
  omega

theorem read?_descriptor (buf : List UInt8) : f.descriptor.read? buf = f.read? buf := by
  rw [Descriptor.read?, Quadlet.readAt?, hf.reached_quadlet, read?]
  exact Option.map_congr fun word _ ↦ extract_descriptor f word

theorem write?_descriptor (buf : List UInt8) (value : Nat) :
    f.descriptor.write? buf value = f.write? buf value := by
  rw [Descriptor.write?, Quadlet.readAt?, hf.reached_quadlet, write?]
  simp only [Quadlet.writeAt?, hf.reached_quadlet, insert_descriptor]

theorem overlaps_descriptor (hg : g.Addressable) :
    f.descriptor.overlaps g.descriptor = f.overlaps g := by
  have hquadlet : (f.descriptor.quadlet == g.descriptor.quadlet) = (f.quadlet == g.quadlet) := by
    rw [Bool.eq_iff_iff, beq_iff_eq, beq_iff_eq, ← UInt64.toNat_inj, hf.toNat_quadlet,
      hg.toNat_quadlet]
  rw [Descriptor.overlaps, hquadlet, mask_descriptor, mask_descriptor, overlaps]

end Addressable

end BitField

/-! ### Descriptors -/

namespace Descriptor

variable {d : Descriptor}

/-- Neither the check of the placement nor the number of the first bit behind the field wraps. -/
def Addressable (d : Descriptor) : Prop :=
  d.offset.toNat + d.width.toNat < 2 ^ 32 ∧
    32 * d.quadlet.toNat + d.offset.toNat + d.width.toNat < 2 ^ 64

instance (d : Descriptor) : Decidable d.Addressable :=
  inferInstanceAs (Decidable (_ ∧ _))

/-- **A descriptor that does not wrap is that of a field.** -/
theorem Addressable.exists_field (h : d.Addressable) :
    ∃ f : BitField, f.Addressable ∧ f.descriptor = d := by
  obtain ⟨hplaced, hend⟩ := h
  obtain ⟨hpos, -, hinside⟩ := d.isPlaced
  simp only [UInt32.le_iff_toNat_le, UInt32.toNat_add, UInt32.reduceToNat] at hpos hinside
  have hinside : d.offset.toNat + d.width.toNat ≤ 32 := by omega
  let f : BitField :=
    { quadlet := d.quadlet.toNat
      offset := d.offset.toNat
      width := d.width.toNat
      isPlaced := Bool.and_eq_true_iff.mpr
        ⟨Nat.ble_eq_true_of_le hpos, Nat.ble_eq_true_of_le hinside⟩ }
  refine ⟨f, hend, ?_⟩
  simp only [BitField.descriptor, f, UInt64.ofNat_toNat, UInt32.ofNat_toNat]

/-- The number of octets that the field asks for does not wrap. -/
def Reachable (d : Descriptor) : Prop := 4 * (d.quadlet.toNat + 1) < 2 ^ 64

instance (d : Descriptor) : Decidable d.Reachable :=
  inferInstanceAs (Decidable (_ < _))

namespace Reachable

variable (hd : d.Reachable)

include hd

theorem quadlet_lt : 4 * (d.quadlet.toNat + 1) < 2 ^ 64 := hd

theorem toNat_requiredOctets : d.requiredOctets.toNat = 4 * d.quadlet.toNat + 4 := by
  have hlt := hd.quadlet_lt
  rw [requiredOctets]
  simp only [UInt64.toNat_mul, UInt64.toNat_add, UInt64.reduceToNat]
  omega

theorem reached_quadlet : Quadlet.reached d.quadlet = d.quadlet.toNat := by
  have hlt := hd.quadlet_lt
  rw [Quadlet.reached]
  simp only [UInt64.toNat_mul, UInt64.reduceToNat]
  omega

variable {buf : List UInt8} (hlength : d.requiredOctets.toNat ≤ buf.length)

include hlength

/-- A reading that asked for its octets does not leave the buffer. -/
theorem isSome_read? : (d.read? buf).isSome := by
  rw [hd.toNat_requiredOctets] at hlength
  rwa [read?, Option.isSome_map, Quadlet.readAt?, hd.reached_quadlet, Quadlet.isSome_read?_iff]

/-- Neither does a writing. -/
theorem isSome_write? (value : Nat) : (d.write? buf value).isSome := by
  have hread := hd.isSome_read? hlength
  rw [hd.toNat_requiredOctets] at hlength
  rw [read?, Option.isSome_map] at hread
  obtain ⟨word, hword⟩ := Option.isSome_iff_exists.mp hread
  rw [write?, hword, Option.bind_eq_bind, Option.bind_some, Quadlet.writeAt?, hd.reached_quadlet]
  exact Quadlet.isSome_write?_iff.mpr hlength

end Reachable

end Descriptor

namespace BitField

theorem Addressable.descriptor {f : BitField} (hf : f.Addressable) :
    f.descriptor.Addressable := by
  have hend := f.offset_add_width_le
  rw [Descriptor.Addressable, hf.toNat_quadlet, toNat_offset_descriptor, toNat_width_descriptor]
  exact ⟨by omega, hf⟩

end BitField

/-! ### Tables -/

namespace DescriptorTable

/-- No descriptor of the table wraps. -/
def Addressable (table : DescriptorTable) : Prop := ∀ d ∈ table, d.Addressable

instance (table : DescriptorTable) : Decidable table.Addressable :=
  inferInstanceAs (Decidable (∀ d ∈ table, d.Addressable))

theorem Addressable.exists_fields {table : DescriptorTable} (h : table.Addressable) :
    ∃ fields : FieldTable, (∀ f ∈ fields, f.Addressable) ∧
      fields.map BitField.descriptor = table := by
  induction table with
  | nil => exact ⟨[], nofun, rfl⟩
  | cons d table ih =>
    obtain ⟨hd, htable⟩ := List.forall_mem_cons.mp h
    obtain ⟨f, hf, rfl⟩ := hd.exists_field
    obtain ⟨fields, hfields, rfl⟩ := ih htable
    exact ⟨f :: fields, List.forall_mem_cons.mpr ⟨hf, hfields⟩, rfl⟩

/-- No number of octets that a field of the table asks for wraps. -/
def Reachable (table : DescriptorTable) : Prop := ∀ d ∈ table, d.Reachable

instance (table : DescriptorTable) : Decidable table.Reachable :=
  inferInstanceAs (Decidable (∀ d ∈ table, d.Reachable))

section

variable {table : DescriptorTable}

theorem mem_of_lookup {length index : Nat} {d : Descriptor}
    (h : table.lookup length index = .ok d) : d ∈ table ∧ d.requiredOctets.toNat ≤ length := by
  rw [lookup] at h
  split at h
  · cases h
  next hentry =>
    split at h
    · cases h
    next hlength =>
      obtain rfl := Except.ok.inj h
      exact ⟨List.mem_of_getElem? hentry, Nat.not_lt.mp hlength⟩

variable (hreachable : table.Reachable)

include hreachable

/-- No reading by index leaves the buffer. -/
theorem get_ne_none (buf : List UInt8) (index : Nat) : table.get buf index ≠ .ok none := by
  intro hget
  rw [get] at hget
  rcases hlookup : table.lookup buf.length index with reason | d
  · rw [hlookup] at hget
    cases hget
  · obtain ⟨hmem, hlength⟩ := mem_of_lookup hlookup
    obtain ⟨value, hvalue⟩ := Option.isSome_iff_exists.mp ((hreachable d hmem).isSome_read? hlength)
    simp only [hlookup, bind, Except.bind, pure, Except.pure, hvalue] at hget
    cases hget

/-- No writing by index leaves the buffer. -/
theorem set_ne_none (buf : List UInt8) (index value : Nat) :
    table.set buf index value ≠ .ok none := by
  intro hset
  rw [set] at hset
  rcases hlookup : table.lookup buf.length index with reason | d
  · rw [hlookup] at hset
    cases hset
  · obtain ⟨hmem, hlength⟩ := mem_of_lookup hlookup
    obtain ⟨out, hout⟩ :=
      Option.isSome_iff_exists.mp ((hreachable d hmem).isSome_write? hlength value)
    simp only [hlookup, bind, Except.bind, pure, Except.pure, hout] at hset
    split at hset
    · cases hset
    · cases hset

end

end DescriptorTable

namespace FieldTable

variable {table : FieldTable} (htable : ∀ f ∈ table, f.Addressable)

include htable

omit htable in
theorem mem_of_lookup {length index : Nat} {field : BitField}
    (h : table.lookup length index = .ok field) :
    field ∈ table ∧ field.requiredOctets ≤ length := by
  rw [lookup] at h
  split at h
  · cases h
  next hfield =>
    split at h
    · cases h
    next hlength =>
      obtain rfl := Except.ok.inj h
      exact ⟨List.mem_of_getElem? hfield, Nat.not_lt.mp hlength⟩

theorem lookup_map (length index : Nat) :
    DescriptorTable.lookup (table.map BitField.descriptor) length index =
      (table.lookup length index).map BitField.descriptor := by
  rw [DescriptorTable.lookup, lookup, List.getElem?_map, List.length_map]
  rcases hfield : table[index]? with - | field
  · rfl
  have hrequired := (htable field (List.mem_of_getElem? hfield)).toNat_requiredOctets
  simp only [Option.map_some, hrequired]
  split
  · rfl
  · rfl

/-- **Reading by index is reading the field**, and no octets outside the buffer. -/
theorem get_map (buf : List UInt8) (index : Nat) :
    DescriptorTable.get (table.map BitField.descriptor) buf index =
      (table.get buf index).map some := by
  rw [DescriptorTable.get, get, lookup_map htable]
  rcases hlookup : table.lookup buf.length index with reason | field
  · rfl
  obtain ⟨hmem, hlength⟩ := mem_of_lookup hlookup
  exact congrArg Except.ok
    (((htable field hmem).read?_descriptor buf).trans (BitField.read?_eq_some_read hlength))

/-- **Writing by index is writing the field**, and no octets outside the buffer. -/
theorem set_map (buf : List UInt8) (index value : Nat) :
    DescriptorTable.set (table.map BitField.descriptor) buf index value =
      (table.set buf index value).map some := by
  rw [DescriptorTable.set, set, lookup_map htable]
  rcases hlookup : table.lookup buf.length index with reason | field
  · rfl
  obtain ⟨hmem, hlength⟩ := mem_of_lookup hlookup
  have hwrite := ((htable field hmem).write?_descriptor buf value).trans
    (BitField.write?_eq_some_write value hlength)
  simp only [Except.map, bind, Except.bind, pure, Except.pure, hwrite, BitField.holds_descriptor,
    BitField.toNat_width_descriptor]
  split
  · rfl
  · rfl

theorem isDisjoint_map :
    DescriptorTable.isDisjoint (table.map BitField.descriptor) = table.isDisjoint := by
  induction table with
  | nil => rfl
  | cons field rest ih =>
    obtain ⟨hfield, hrest⟩ := List.forall_mem_cons.mp htable
    rw [List.map_cons, DescriptorTable.isDisjoint, isDisjoint, ih hrest, List.all_map]
    congr 1
    rw [Bool.eq_iff_iff, List.all_eq_true, List.all_eq_true]
    refine forall₂_congr fun other hother ↦ ?_
    rw [Function.comp_apply, hfield.overlaps_descriptor (hrest other hother)]

end FieldTable

/-! ### Headers -/

namespace Header

variable {h : Header}

theorem addressable_place (slot : h.Slot) : (place slot).Addressable := by
  have hrequired := place_requiredOctets_le slot
  have hend := (place slot).offset_add_width_le
  have hsize : h.size ≤ 24 := by cases h <;> decide
  rw [BitField.requiredOctets] at hrequired
  rw [BitField.Addressable, BitField.endBit, BitField.firstBit]
  omega

theorem addressable_table (h : Header) : ∀ field ∈ h.table, field.Addressable :=
  List.forall_mem_map.mpr fun slot _ ↦ addressable_place slot

/-- **The fields of a header are accessed in machine words as they are in exact numbers.** -/
theorem access_descriptors (buf : List UInt8) (slot : h.Slot) :
    h.descriptors.get buf (index slot) = (get buf slot).map some ∧
      ∀ value, h.descriptors.set buf (index slot) value = (set buf slot value).map some :=
  ⟨FieldTable.get_map h.addressable_table buf (index slot),
    FieldTable.set_map h.addressable_table buf (index slot)⟩

end Header

end Avtp
