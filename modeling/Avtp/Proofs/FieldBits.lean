import Mathlib.Algebra.Group.Nat.Defs
import Mathlib.Tactic.ByContra
import Avtp.Proofs.Bits

/-!
# A field as its bits

The codec computes with masks and shifts on 32-bit words, the wire diagrams number the bits of a
whole buffer. This module proves that the two say the same: `testBit_read` spells the value of a
field out of the bits of the buffer that the field covers, and `bit?_write` says which bits a write
sets, to what, and that it leaves all others alone.

## What the rest rests on

Everything about one field and one write follows from these two by comparing bits, without opening
a word again: reading back what was written (`read_write_self`), not disturbing a field elsewhere
(`read_write_of_not_overlaps`), and depending on no other bit (`read_congr`). That two masks meet
exactly when the two ranges of bits do is `overlaps_iff`.
-/

namespace Avtp.BitField

variable {f g : BitField}

/-! ### The field inside its word -/

theorem trailing_add (f : BitField) : f.trailing + f.width + f.offset = 32 := by
  have h := f.offset_add_width_le
  rw [trailing]
  omega

theorem maxValue_eq (f : BitField) : f.maxValue = 2 ^ f.width - 1 := by
  rw [maxValue, Nat.one_shiftLeft]

theorem holds_iff_lt_two_pow {value : Nat} : f.Holds value ↔ value < 2 ^ f.width := by
  rw [holds_iff_lt, Nat.one_shiftLeft]

theorem getLsbD_mask (f : BitField) (j : Nat) :
    f.mask.getLsbD j = decide (f.trailing ≤ j ∧ j < f.trailing + f.width) := by
  have h := f.trailing_add
  rw [mask, maxValue_eq, BitVec.getLsbD_shiftLeft, BitVec.getLsbD_ofNat,
    Nat.testBit_two_pow_sub_one, Bool.eq_iff_iff]
  simp only [Bool.and_eq_true, Bool.not_eq_true', decide_eq_true_eq, decide_eq_false_iff_not]
  omega

/-- The value of a field is spelled by the bits of the word under its mask. -/
theorem testBit_extract (f : BitField) (word : Quadlet) (j : Nat) :
    (f.extract word).testBit j = (decide (j < f.width) && word.getLsbD (f.trailing + j)) := by
  rw [extract, BitVec.testBit_toNat, BitVec.getLsbD_ushiftRight, BitVec.getLsbD_and, getLsbD_mask,
    Bool.and_comm]
  congr 1
  rw [decide_eq_decide]
  omega

/-- Inserting a value sets the bits under the mask and keeps the others. -/
theorem getLsbD_insert (f : BitField) (word : Quadlet) (value : Nat) {j : Nat} (hj : j < 32) :
    (f.insert word value).getLsbD j =
      if f.trailing ≤ j ∧ j < f.trailing + f.width then value.testBit (j - f.trailing)
      else word.getLsbD j := by
  have h := f.trailing_add
  rw [insert, maxValue_eq, Nat.and_two_pow_sub_one_eq_mod, BitVec.getLsbD_or, BitVec.getLsbD_and,
    BitVec.getLsbD_not, getLsbD_mask, BitVec.getLsbD_shiftLeft, BitVec.getLsbD_ofNat,
    Nat.testBit_mod_two_pow]
  split
  · next hin =>
    simp [hin, hj, show j - f.trailing < 32 by omega, show j - f.trailing < f.width by omega]
  · next hout =>
    have hlow : j < f.trailing ∨ ¬ j - f.trailing < f.width := by omega
    rcases hlow with hlow | hlow <;> simp [hout, hj, hlow]

/-! ### The field inside a buffer -/

theorem covers_iff {i : Nat} : f.covers i = true ↔ f.firstBit ≤ i ∧ i < f.endBit := by
  rw [covers, Bool.and_eq_true, decide_eq_true_eq, decide_eq_true_eq]

/-- The bits of a field belong to its quadlet. -/
theorem bounds_of_covers {i : Nat} (h : f.covers i = true) :
    32 * f.quadlet + f.offset ≤ i ∧ i < 32 * f.quadlet + f.offset + f.width ∧
      i < 32 * f.quadlet + 32 := by
  have hcov := covers_iff.mp h
  have hend := f.offset_add_width_le
  simp only [endBit, firstBit] at hcov
  omega

/-- **The value of a field is spelled, most significant bit first, by the bits it covers.** -/
theorem testBit_read {buf : List UInt8} (h : f.requiredOctets ≤ buf.length) {j : Nat}
    (hj : j < f.width) :
    Octets.bit? buf (f.endBit - 1 - j) = some ((f.read buf).testBit j) := by
  have hw := f.trailing_add
  have hread := read?_eq_some_read h
  obtain ⟨word, hword, hvalue⟩ := Option.map_eq_some_iff.mp hread
  have hi : f.endBit - 1 - j = 32 * f.quadlet + (31 - (f.trailing + j)) := by
    simp only [endBit, firstBit]
    omega
  rw [hi, Quadlet.bit?_eq_of_read? hword (by omega), ← hvalue, testBit_extract,
    BitVec.getMsbD_eq_getLsbD]
  simp only [hj, show 31 - (f.trailing + j) < 32 by omega, decide_true, Bool.true_and]
  congr 2
  omega

/-- **Writing a field sets the bits it covers and no others.** -/
theorem bit?_write {buf : List UInt8} (value : Nat) (h : f.requiredOctets ≤ buf.length) (i : Nat) :
    Octets.bit? (f.write buf value) i =
      if f.covers i = true then some (value.testBit (f.endBit - 1 - i)) else Octets.bit? buf i := by
  have hw := f.trailing_add
  have hwrite := write?_eq_some_write value h
  simp only [write?, Option.bind_eq_bind, Option.bind_eq_some_iff] at hwrite
  obtain ⟨word, hread, hout⟩ := hwrite
  rw [Quadlet.bit?_of_write? hout]
  -- All of the quadlet is written back, but outside of the field with the bits that were read.
  rcases Decidable.em (32 * f.quadlet ≤ i ∧ i < 32 * f.quadlet + 32) with hquad | hquad
  · have hk : i - 32 * f.quadlet < 32 := by omega
    rw [if_pos hquad, BitVec.getMsbD_eq_getLsbD, getLsbD_insert _ _ _ (by omega)]
    simp only [hk, decide_true, Bool.true_and]
    rcases Decidable.em (f.covers i = true) with hcov | hcov
    · have hb := bounds_of_covers hcov
      rw [if_pos (by omega), if_pos hcov]
      congr 2
      simp only [endBit, firstBit]
      omega
    · have hb := mt covers_iff.mpr hcov
      simp only [endBit, firstBit] at hb
      have hword := Quadlet.bit?_eq_of_read? hread hk
      rw [if_neg (by omega), if_neg hcov]
      rw [BitVec.getMsbD_eq_getLsbD,
        show 32 * f.quadlet + (i - 32 * f.quadlet) = i by omega] at hword
      simp only [hk, decide_true, Bool.true_and] at hword
      exact hword.symm
  · rw [if_neg hquad, if_neg]
    intro hcov
    have hb := bounds_of_covers hcov
    omega

/-! ### Reading -/

theorem read_lt_two_pow (f : BitField) (buf : List UInt8) : f.read buf < 2 ^ f.width := by
  have hbound (word : Quadlet) : f.extract word < 2 ^ f.width := by
    refine Nat.lt_pow_two_of_testBit _ fun j hj ↦ ?_
    rw [testBit_extract, decide_eq_false (by omega), Bool.false_and]
  rw [read, read?]
  cases Quadlet.read? buf f.quadlet with
  | none => exact Nat.two_pow_pos f.width
  | some word => exact hbound word

/-- Every value of a field fits into a word. -/
theorem read_lt_word (f : BitField) (buf : List UInt8) : f.read buf < 2 ^ 32 :=
  Nat.lt_of_lt_of_le (f.read_lt_two_pow buf)
    (Nat.pow_le_pow_right (by decide) (Nat.le_of_add_left_le f.offset_add_width_le))

/-- The value of a field of up to eight bits is an octet. -/
theorem toNat_ofNat_read (hwidth : f.width ≤ 8) (buf : List UInt8) :
    (UInt8.ofNat (f.read buf)).toNat = f.read buf := by
  have hlt : f.read buf < 2 ^ 8 :=
    Nat.lt_of_lt_of_le (f.read_lt_two_pow buf) (Nat.pow_le_pow_right (by decide) hwidth)
  rw [UInt8.toNat_ofNat', Nat.mod_eq_of_lt hlt]

theorem holds_read (f : BitField) (buf : List UInt8) : f.Holds (f.read buf) :=
  holds_iff_lt_two_pow.mpr (f.read_lt_two_pow buf)

/-- The number of a bit that a field covers, counted from its least significant bit. -/
theorem endBit_sub_of_covers {i : Nat} (h : f.covers i = true) :
    f.endBit - 1 - i < f.width ∧ f.endBit - 1 - (f.endBit - 1 - i) = i := by
  have hcov := covers_iff.mp h
  have hend : f.endBit = f.firstBit + f.width := rfl
  omega

theorem covers_endBit_sub {j : Nat} (h : j < f.width) : f.covers (f.endBit - 1 - j) = true := by
  have hend : f.endBit = f.firstBit + f.width := rfl
  exact covers_iff.mpr (by omega)

/-- **A field depends on the bits it covers and on nothing else.** -/
theorem read_congr {a b : List UInt8} (ha : f.requiredOctets ≤ a.length)
    (hb : f.requiredOctets ≤ b.length)
    (h : ∀ i, f.covers i = true → Octets.bit? a i = Octets.bit? b i) : f.read a = f.read b := by
  refine Nat.eq_of_testBit_eq fun j ↦ ?_
  rcases Nat.lt_or_ge j f.width with hj | hj
  · have hbit := h _ (covers_endBit_sub hj)
    rw [testBit_read ha hj, testBit_read hb hj] at hbit
    exact Option.some.inj hbit
  · have hpow : 2 ^ f.width ≤ 2 ^ j := Nat.pow_le_pow_right (by omega) hj
    rw [Nat.testBit_lt_two_pow (Nat.lt_of_lt_of_le (f.read_lt_two_pow a) hpow),
      Nat.testBit_lt_two_pow (Nat.lt_of_lt_of_le (f.read_lt_two_pow b) hpow)]

/-- A bit of a field, out of the value of the field. -/
theorem bit?_of_covers {buf : List UInt8} (h : f.requiredOctets ≤ buf.length) {i : Nat}
    (hcov : f.covers i = true) :
    Octets.bit? buf i = some ((f.read buf).testBit (f.endBit - 1 - i)) := by
  obtain ⟨hj, hi⟩ := endBit_sub_of_covers hcov
  rw [← testBit_read h hj, hi]

/-- Where two buffers have the same value of a field, they have the same bits. -/
theorem bit?_eq_of_read_eq {a b : List UInt8} (ha : f.requiredOctets ≤ a.length)
    (hb : f.requiredOctets ≤ b.length) (h : f.read a = f.read b) {i : Nat}
    (hcov : f.covers i = true) : Octets.bit? a i = Octets.bit? b i := by
  rw [bit?_of_covers ha hcov, bit?_of_covers hb hcov, h]

/-- Octets behind the quadlet of a field do not matter to it. -/
theorem read_append {front : List UInt8} (rest : List UInt8) (h : f.requiredOctets ≤ front.length) :
    f.read (front ++ rest) = f.read front := by
  refine read_congr (by rw [List.length_append]; omega) h fun i hcov ↦ ?_
  have hb := bounds_of_covers hcov
  rw [requiredOctets] at h
  exact Octets.bit?_append_left rest (by omega)

theorem read_replicate_zero (f : BitField) (n : Nat) : f.read (List.replicate n 0) = 0 := by
  -- A buffer without the quadlet reads as zero, too, so no length is asked for.
  rcases Nat.lt_or_ge (List.replicate n (0 : UInt8)).length f.requiredOctets with h | h
  · have hnone : f.read? (List.replicate n 0) = none := by
      rw [← Option.not_isSome_iff_eq_none, isSome_read?_iff]
      omega
    rw [read, hnone]
    rfl
  · refine Nat.eq_of_testBit_eq fun j ↦ ?_
    rw [Nat.zero_testBit]
    rcases Nat.lt_or_ge j f.width with hj | hj
    · have hcov := bounds_of_covers (covers_endBit_sub hj)
      have hbit := testBit_read h hj
      rw [List.length_replicate, requiredOctets] at h
      rw [Octets.bit?_replicate_zero (by omega)] at hbit
      exact (Option.some.inj hbit).symm
    · refine Nat.testBit_lt_two_pow (Nat.lt_of_lt_of_le (f.read_lt_two_pow _) ?_)
      exact Nat.pow_le_pow_right (by omega) hj

/-! ### Reading after writing -/

theorem read_write_self {buf : List UInt8} (value : Nat) (h : f.requiredOctets ≤ buf.length) :
    f.read (f.write buf value) = value % 2 ^ f.width := by
  refine Nat.eq_of_testBit_eq fun j ↦ ?_
  rw [Nat.testBit_mod_two_pow]
  rcases Nat.lt_or_ge j f.width with hj | hj
  · have hcov := covers_endBit_sub hj
    have hlen : f.requiredOctets ≤ (f.write buf value).length := by rwa [length_write]
    have hbit := testBit_read hlen hj
    rw [bit?_write value h, if_pos hcov] at hbit
    rw [← Option.some.inj hbit, decide_eq_true hj, Bool.true_and]
    congr 1
    have hend : f.endBit = f.firstBit + f.width := rfl
    omega
  · rw [decide_eq_false (by omega), Bool.false_and]
    refine Nat.testBit_lt_two_pow (Nat.lt_of_lt_of_le (f.read_lt_two_pow _) ?_)
    exact Nat.pow_le_pow_right (by omega) hj

/-- **A value that fits is read back.** -/
theorem read_write_of_holds {buf : List UInt8} {value : Nat} (hv : f.Holds value)
    (h : f.requiredOctets ≤ buf.length) : f.read (f.write buf value) = value := by
  rw [read_write_self value h, Nat.mod_eq_of_lt (holds_iff_lt_two_pow.mp hv)]

/-- **Two fields overlap exactly if they share the number of a bit.** -/
theorem overlaps_iff :
    f.overlaps g = true ↔ ∃ i, f.covers i = true ∧ g.covers i = true := by
  have hf := f.trailing_add
  have hg := g.trailing_add
  rw [overlaps, Bool.and_eq_true, beq_iff_eq, bne_iff_ne]
  constructor
  · rintro ⟨hquad, hmask⟩
    -- A mask says nothing above bit 31, so the common bit is one of the word.
    have hmeet : ∃ j, j < 32 ∧ (f.mask &&& g.mask).getLsbD j = true := by
      by_contra hnone
      refine hmask (BitVec.eq_of_getLsbD_eq fun j hj ↦ ?_)
      show (f.mask &&& g.mask).getLsbD j = (0#32).getLsbD j
      rw [BitVec.getLsbD_zero, ← Bool.not_eq_true]
      exact fun hbit ↦ hnone ⟨j, hj, hbit⟩
    obtain ⟨j, hj, hbit⟩ := hmeet
    rw [BitVec.getLsbD_and, Bool.and_eq_true, getLsbD_mask, getLsbD_mask, decide_eq_true_eq,
      decide_eq_true_eq] at hbit
    refine ⟨32 * f.quadlet + (31 - j), covers_iff.mpr ?_, covers_iff.mpr ?_⟩
    · simp only [endBit, firstBit]
      omega
    · simp only [endBit, firstBit]
      omega
  · rintro ⟨i, hi, hi'⟩
    have hbf := bounds_of_covers hi
    have hbg := bounds_of_covers hi'
    have hquad : f.quadlet = g.quadlet := by omega
    refine ⟨hquad, fun hzero ↦ ?_⟩
    have hbit : (f.mask &&& g.mask).getLsbD (31 - (i - 32 * f.quadlet)) = false := by
      rw [hzero]
      exact BitVec.getLsbD_zero
    rw [BitVec.getLsbD_and, getLsbD_mask, getLsbD_mask, Bool.and_eq_false_iff,
      decide_eq_false_iff_not, decide_eq_false_iff_not] at hbit
    omega

theorem overlaps_comm (f g : BitField) : f.overlaps g = g.overlaps f := by
  rw [Bool.eq_iff_iff, overlaps_iff, overlaps_iff]
  exact exists_congr fun i ↦ and_comm

/-- **Writing a field leaves a field elsewhere as it is.** -/
theorem read_write_of_not_overlaps {buf : List UInt8} (value : Nat)
    (hover : g.overlaps f = false) (hf : f.requiredOctets ≤ buf.length)
    (hg : g.requiredOctets ≤ buf.length) : f.read (g.write buf value) = f.read buf := by
  refine read_congr (by rwa [length_write]) hf fun i hcov ↦ ?_
  rw [bit?_write value hg, if_neg]
  intro hcov'
  rw [overlaps_iff.mpr ⟨i, hcov', hcov⟩] at hover
  exact Bool.noConfusion hover

/-- Writing inside the front of a buffer happens in the front. -/
theorem write_append {front : List UInt8} (rest : List UInt8) (value : Nat)
    (h : f.requiredOctets ≤ front.length) :
    f.write (front ++ rest) value = f.write front value ++ rest := by
  have hall : f.requiredOctets ≤ (front ++ rest).length := by
    rw [List.length_append]
    omega
  refine Octets.eq_of_bit?_eq fun i ↦ ?_
  rw [bit?_write value hall]
  rcases Nat.lt_or_ge i (8 * front.length) with hi | hi
  · rw [Octets.bit?_append_left rest hi, Octets.bit?_append_left rest (by rwa [length_write]),
      bit?_write value h]
  · have hnot : ¬ f.covers i = true := by
      intro hcov
      have hb := bounds_of_covers hcov
      rw [requiredOctets] at h
      omega
    rw [if_neg hnot, Octets.bit?_append_right rest hi,
      Octets.bit?_append_right rest (by rwa [length_write]), length_write]

end Avtp.BitField
