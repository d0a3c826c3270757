import Avtp.Proofs.FieldStore

/-!
# Two notions of position

A field has two positions. In its quadlet it is a mask, and this is what the codec computes with and
what tables are validated by. In a buffer it is a range of bit numbers, and this is what the wire
diagrams and the lines of a listing go by. Nothing in the definitions ties the two to each other.

Here they are shown to agree, on three levels. Two masks meet in one quadlet if and only if the two
ranges do (`Descriptor.overlaps_iff_meets`). A table passes its validation if and only if no bit
number belongs to two of its entries (`isDisjoint_iff`), although the validation compares each entry
only with those behind it. And a table fits into a size if and only if no access by index to a
buffer of that size can be refused for its length (`fitsIn_iff`).

The numbers of bits are machine words. The mask does not depend on the number of the quadlet, and
the test of two masks compares these numbers as they are, so it never wraps; the ranges do, and then
they meet where the masks do not (`not_positions_agree_wrapped`). So the first two levels are about
descriptors that are `Addressable`. The third one counts octets only, and `Reachable` is enough.
-/

namespace Avtp

/-! ### Exact positions -/

namespace BitField

variable {f g : BitField}

/-- There is a bit number that belongs to the ranges of both fields. -/
def Meets (f g : BitField) : Prop :=
  ∃ bit, (f.firstBit ≤ bit ∧ bit < f.endBit) ∧ g.firstBit ≤ bit ∧ bit < g.endBit

/-- **The masks of two fields meet if and only if their ranges do.** -/
theorem overlaps_iff_meets : f.overlaps g = true ↔ f.Meets g := by
  simp only [overlaps_iff, covers_iff, Meets]

theorem overlaps_eq_false_iff : f.overlaps g = false ↔ ¬ f.Meets g := by
  rw [← Bool.not_eq_true, overlaps_iff_meets]

end BitField

namespace FieldTable

variable {table : FieldTable} {buf : List UInt8} {index : Nat}

/-- **A table is valid if and only if no bit number belongs to two entries.** -/
theorem isDisjoint_iff :
    table.isDisjoint = true ↔ ∀ (i j : Nat) (f g : BitField),
      table[i]? = some f → table[j]? = some g → i ≠ j → ¬ f.Meets g := by
  constructor
  · intro hdisjoint i j f g hf hg hne
    exact BitField.overlaps_eq_false_iff.mp (not_overlaps_of_ne hdisjoint hf hg hne)
  · intro hapart
    rw [isDisjoint_iff_pairwise, List.pairwise_iff_getElem]
    intro i j hi hj hlt
    have hi' := List.getElem?_eq_getElem hi
    have hj' := List.getElem?_eq_getElem hj
    exact BitField.overlaps_eq_false_iff.mpr (hapart i j _ _ hi' hj' (Nat.ne_of_lt hlt))

end FieldTable

/-! ### Positions in machine words -/

namespace Descriptor

variable {d e : Descriptor}

/-- There is a bit number that belongs to the ranges of both fields. -/
def Meets (d e : Descriptor) : Prop :=
  ∃ bit : UInt64, (d.firstBit ≤ bit ∧ bit < d.endBit) ∧ e.firstBit ≤ bit ∧ bit < e.endBit

/-- Overlapping is symmetric, whether the descriptors wrap or not. -/
theorem overlaps_comm (d e : Descriptor) : d.overlaps e = e.overlaps d := by
  rw [overlaps, overlaps, BEq.comm, BitVec.and_comm]

theorem meets_descriptor {f g : BitField} (hf : f.Addressable) (hg : g.Addressable) :
    f.descriptor.Meets g.descriptor ↔ f.Meets g := by
  simp only [Meets, UInt64.le_iff_toNat_le, UInt64.lt_iff_toNat_lt, hf.toNat_firstBit,
    hf.toNat_endBit, hg.toNat_firstBit, hg.toNat_endBit]
  constructor
  · rintro ⟨bit, hbit⟩
    exact ⟨bit.toNat, hbit⟩
  · rintro ⟨bit, hbit⟩
    -- A bit in front of the end of an addressable field has a word for its number.
    have hword : (UInt64.ofNat bit).toNat = bit := Nat.mod_eq_of_lt (Nat.lt_trans hbit.1.2 hf)
    exact ⟨.ofNat bit, by rwa [hword]⟩

/-- **The masks of two fields meet if and only if their ranges do.** -/
theorem overlaps_iff_meets (hd : d.Addressable) (he : e.Addressable) :
    d.overlaps e = true ↔ d.Meets e := by
  obtain ⟨f, hf, rfl⟩ := hd.exists_field
  obtain ⟨g, hg, rfl⟩ := he.exists_field
  rw [hf.overlaps_descriptor hg, meets_descriptor hf hg, BitField.overlaps_iff_meets]

/-- Every field has room for zero. -/
theorem holds_zero (d : Descriptor) : d.Holds 0 := Nat.zero_le d.maxValue

end Descriptor

namespace DescriptorTable

variable {table : DescriptorTable} {buf : List UInt8}

/-! ### Disjoint tables -/

/-- **A table is valid if and only if no bit number belongs to two entries.** -/
theorem isDisjoint_iff (haddressable : table.Addressable) :
    table.isDisjoint = true ↔ ∀ (i j : Nat) (d e : Descriptor),
      table[i]? = some d → table[j]? = some e → i ≠ j → ¬ d.Meets e := by
  obtain ⟨fields, hfields, rfl⟩ := haddressable.exists_fields
  have hmeets {i j : Nat} {f g : BitField} (hf : fields[i]? = some f) (hg : fields[j]? = some g) :
      f.descriptor.Meets g.descriptor ↔ f.Meets g :=
    Descriptor.meets_descriptor (hfields f (List.mem_of_getElem? hf))
      (hfields g (List.mem_of_getElem? hg))
  rw [FieldTable.isDisjoint_map hfields, FieldTable.isDisjoint_iff]
  simp only [List.getElem?_map, Option.map_eq_some_iff]
  constructor
  · rintro hapart i j - - ⟨f, hf, rfl⟩ ⟨g, hg, rfl⟩ hne
    rw [hmeets hf hg]
    exact hapart i j f g hf hg hne
  · intro hapart i j f g hf hg hne
    rw [← hmeets hf hg]
    exact hapart i j f.descriptor g.descriptor ⟨f, hf, rfl⟩ ⟨g, hg, rfl⟩ hne

/-! ### Tables that fit -/

/-- Every entry of the table can be read, and can be written. -/
def Accessible (table : DescriptorTable) (buf : List UInt8) : Prop :=
  ∀ index < table.length, (∃ value, table.get buf index = .ok (some value)) ∧
    ∃ out, table.set buf index 0 = .ok (some out)

/-- An entry whose octets are there is read and written inside the buffer. -/
theorem accessible_entry {index : Nat} {d : Descriptor} (hd : d.Reachable)
    (hentry : table[index]? = some d) (hlength : d.requiredOctets.toNat ≤ buf.length) :
    (∃ value, table.get buf index = .ok (some value)) ∧
      ∃ out, table.set buf index 0 = .ok (some out) := by
  obtain ⟨value, hvalue⟩ := Option.isSome_iff_exists.mp (hd.isSome_read? hlength)
  obtain ⟨out, hout⟩ := Option.isSome_iff_exists.mp (hd.isSome_write? hlength 0)
  rw [get_eq_ok hentry hlength, set_eq_ite hentry hlength, if_pos d.holds_zero, hvalue, hout]
  exact ⟨⟨value, rfl⟩, out, rfl⟩

/-- What can be read by index has passed the check of its length. -/
theorem requiredOctets_le_of_get {index : Nat} {d : Descriptor} {value : Option Nat}
    (hentry : table[index]? = some d) (hvalue : table.get buf index = .ok value) :
    d.requiredOctets.toNat ≤ buf.length := by
  by_contra hshort
  simp only [get, lookup, hentry, Nat.lt_of_not_le hshort, if_true] at hvalue
  cases hvalue

theorem accessible_iff (hreachable : table.Reachable) :
    table.Accessible buf ↔ ∀ d ∈ table, d.requiredOctets.toNat ≤ buf.length := by
  constructor
  · intro hall d hmem
    obtain ⟨index, hindex, hd⟩ := List.getElem_of_mem hmem
    obtain ⟨value, hvalue⟩ := (hall index hindex).1
    exact requiredOctets_le_of_get (List.getElem?_eq_some_iff.mpr ⟨hindex, hd⟩) hvalue
  · intro hall index hindex
    have hmem := List.getElem_mem hindex
    exact accessible_entry (hreachable _ hmem) (List.getElem?_eq_getElem hindex) (hall _ hmem)

/-- **A table fits into a size if and only if every buffer of that size gives access to it.** -/
theorem fitsIn_iff (hreachable : table.Reachable) {size : Nat} :
    table.fitsIn size = true ↔ ∀ buf : List UInt8, buf.length = size → table.Accessible buf := by
  simp only [fitsIn, List.all_eq_true, decide_eq_true_eq, accessible_iff hreachable]
  constructor
  · rintro hall buf rfl
    exact hall
  · intro hall
    have hzeros := hall (List.replicate size 0) List.length_replicate
    rwa [List.length_replicate] at hzeros

/-! ### Agreement -/

/-- **Masks and bit numbers agree**: on two fields, on the validity of a table, and on the size that
it needs, as long as the numbers that each of these is about do not wrap. -/
theorem positions_agree :
    ((∀ d e : Descriptor, d.Addressable → e.Addressable → (d.overlaps e = true ↔ d.Meets e)) ∧
      ∀ d e : Descriptor, d.overlaps e = e.overlaps d) ∧
      (∀ table : DescriptorTable, table.Addressable →
        (table.isDisjoint = true ↔ ∀ (i j : Nat) (d e : Descriptor),
          table[i]? = some d → table[j]? = some e → i ≠ j → ¬ d.Meets e)) ∧
        ∀ table : DescriptorTable, table.Reachable → ∀ size, table.fitsIn size = true ↔
          ∀ buf : List UInt8, buf.length = size → table.Accessible buf :=
  ⟨⟨fun _ _ hd he ↦ Descriptor.overlaps_iff_meets hd he, Descriptor.overlaps_comm⟩,
    fun _ htable ↦ isDisjoint_iff htable, fun _ htable _ ↦ fitsIn_iff htable⟩

/-- Two fields share the bits in the middle of a quadlet, and one of them is apart from a third one,
which has the same place in the next quadlet. -/
theorem positions_agree_shared_middle :
    (Descriptor.Addressable (.mk 0 0 20) ∧ Descriptor.Addressable (.mk 0 12 20) ∧
      Descriptor.Meets (.mk 0 0 20) (.mk 0 12 20)) ∧
      (Addressable [.mk 0 0 20, .mk 1 12 20] ∧
        ∀ (i j : Nat) (d e : Descriptor), [Descriptor.mk 0 0 20, .mk 1 12 20][i]? = some d →
          [Descriptor.mk 0 0 20, .mk 1 12 20][j]? = some e → i ≠ j → ¬ d.Meets e) ∧
        Reachable [.mk 0 0 20, .mk 1 12 20] ∧
          ∀ buf : List UInt8, buf.length = 8 → Accessible [.mk 0 0 20, .mk 1 12 20] buf :=
  have hfront : Descriptor.Addressable (.mk 0 0 20) := by decide
  have hback : Descriptor.Addressable (.mk 0 12 20) := by decide
  have haddressable : Addressable [.mk 0 0 20, .mk 1 12 20] := by decide
  have hreachable : Reachable [.mk 0 0 20, .mk 1 12 20] := by decide
  have hagree := positions_agree
  ⟨⟨hfront, hback, (hagree.1.1 _ _ hfront hback).mp (by decide)⟩,
    ⟨haddressable, (hagree.2.1 _ haddressable).mp (by decide)⟩,
    hreachable, (hagree.2.2 _ hreachable 8).mp (by decide)⟩

/-- **A position that wraps breaks the agreement.** The bits of a field far behind have the numbers
of those of the first octet, but the masks are in different quadlets. -/
theorem not_positions_agree_wrapped :
    Descriptor.overlaps (.mk 0 0 8) (.mk 0x800000000000000 0 8) = false ∧
      isDisjoint [.mk 0 0 8, .mk 0x800000000000000 0 8] = true ∧
        Descriptor.Meets (.mk 0 0 8) (.mk 0x800000000000000 0 8) :=
  ⟨by decide +kernel, by decide +kernel, 0, by decide +kernel⟩

end DescriptorTable

end Avtp
