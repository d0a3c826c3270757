import Avtp.FieldTable

/-!
# A buffer as its bits

The numbering of bits in transmission order is the one view under which everything else in this
library can be compared: an octet list is determined by its bits (`eq_of_bit?_eq`), a quadlet is 32
consecutive bits of it (`bit?_eq_of_read?`), and writing a quadlet replaces exactly those
(`bit?_of_write?`). Whoever has these three never opens the list of octets again.

**Lengths first.** `bit?` is `none` behind the end, so two buffers with the same bits have the same
length, and no statement below needs a length hypothesis of its own.
-/

namespace Avtp

/-! ### Lists of octets -/

namespace Octets

theorem bit?_append_left {front : List UInt8} (rest : List UInt8) {i : Nat}
    (h : i < 8 * front.length) : bit? (front ++ rest) i = bit? front i := by
  rw [bit?, bit?, List.getElem?_append_left (by omega)]

theorem bit?_append_right {front : List UInt8} (rest : List UInt8) {i : Nat}
    (h : 8 * front.length ≤ i) : bit? (front ++ rest) i = bit? rest (i - 8 * front.length) := by
  have hdrop : (front ++ rest).drop front.length = rest := List.drop_left
  have hi : 8 * front.length + (i - 8 * front.length) = i := by omega
  rw [← hi, ← bit?_drop, hdrop, hi]

/-- Counted from the start of a quadlet, bits have the numbers that they have in it. -/
theorem bit?_drop_quadlet (buf : List UInt8) (quadlet bit : Nat) :
    bit? (buf.drop (4 * quadlet)) bit = bit? buf (32 * quadlet + bit) := by
  rw [bit?_drop, show 8 * (4 * quadlet) = 32 * quadlet by omega]

theorem bit?_take {buf : List UInt8} {n i : Nat} (h : i < 8 * n) :
    bit? (buf.take n) i = bit? buf i := by
  rw [bit?, bit?, List.getElem?_take_of_lt (by omega)]

/-- Zeros have the bit `false` everywhere. -/
theorem bit?_replicate_zero {n i : Nat} (h : i < 8 * n) :
    bit? (List.replicate n 0) i = some false := by
  rw [bit?, List.getElem?_replicate_of_lt (by omega)]
  simp [BitVec.getMsbD]

/-- Two buffers with the same bits have the same length. -/
theorem length_eq_of_bit?_eq {a b : List UInt8} (h : ∀ i, bit? a i = bit? b i) :
    a.length = b.length := by
  have hiff (i : Nat) : i < 8 * a.length ↔ i < 8 * b.length := by
    rw [← isSome_bit?_iff, ← isSome_bit?_iff, h i]
  have ha := hiff (8 * a.length)
  have hb := hiff (8 * b.length)
  omega

/-- What holds of the octets with the first 256 numbers holds of all octets. -/
theorem forall_octet {P : UInt8 → Prop} (h : ∀ number < 256, P (.ofNat number)) :
    ∀ octet, P octet := by
  intro octet
  have hoctet := h octet.toNat octet.toNat_lt
  rwa [UInt8.ofNat_toNat] at hoctet

/-- An octet is determined by its eight bits. -/
theorem octet_eq_of_getMsbD_eq {x y : UInt8}
    (h : ∀ k < 8, x.toBitVec.getMsbD k = y.toBitVec.getMsbD k) : x = y :=
  UInt8.toBitVec_inj.mp (BitVec.eq_of_getMsbD_eq h)

/-- **A buffer is determined by its bits.** -/
theorem eq_of_bit?_eq {a b : List UInt8} (h : ∀ i, bit? a i = bit? b i) : a = b := by
  have hlen := length_eq_of_bit?_eq h
  refine List.ext_getElem hlen fun n ha hb ↦ octet_eq_of_getMsbD_eq fun k hk ↦ ?_
  have hn : (8 * n + k) / 8 = n := by omega
  have hr : (8 * n + k) % 8 = k := by omega
  have hbit := h (8 * n + k)
  rw [bit?, bit?, hn, hr, List.getElem?_eq_getElem ha, List.getElem?_eq_getElem hb] at hbit
  exact Option.some.inj hbit

end Octets

/-! ### Quadlets -/

namespace Quadlet

/-- The bits of four octets in a row, by number. -/
theorem getMsbD_ofOctets (a b c d : UInt8) (rest : List UInt8) {k : Nat} (hk : k < 32) :
    Octets.bit? (a :: b :: c :: d :: rest) k = some ((ofOctets a b c d).getMsbD k) := by
  have hquarter : k / 8 = 0 ∨ k / 8 = 1 ∨ k / 8 = 2 ∨ k / 8 = 3 := by omega
  simp only [Octets.bit?, ofOctets, BitVec.getMsbD_append]
  rcases hquarter with h | h | h | h <;> rw [h]
  · simp [show k % 8 = k by omega, show ¬ 24 ≤ k by omega, show ¬ 16 ≤ k by omega,
      show ¬ 8 ≤ k by omega]
  · simp [show k % 8 = k - 8 by omega, show ¬ 24 ≤ k by omega, show ¬ 16 ≤ k by omega,
      show 8 ≤ k by omega]
  · simp [show k % 8 = k - 16 by omega, show ¬ 24 ≤ k by omega, show 16 ≤ k by omega]
  · simp [show k % 8 = k - 24 by omega, show 24 ≤ k by omega]

/-- The octets of a quadlet have the bits of the quadlet. -/
theorem bit?_octets (word : Quadlet) {k : Nat} (hk : k < 32) :
    Octets.bit? (octets word) k = some (word.getMsbD k) := by
  -- `extractLsb'` numbers the bits of the word from the other end, so each octet is one instance.
  have hpiece (start : Nat) (h : start ≤ 31 - k ∧ 31 - k < start + 8) :
      (word.extractLsb' start 8).getMsbD (start + 7 - (31 - k)) = word.getMsbD k := by
    rw [BitVec.getMsbD_eq_getLsbD, BitVec.getMsbD_eq_getLsbD, BitVec.getLsbD_extractLsb']
    simp only [show start + 7 - (31 - k) < 8 by omega,
      show 8 - 1 - (start + 7 - (31 - k)) < 8 by omega, hk, decide_true, Bool.true_and]
    congr 1
    omega
  have hquarter : k / 8 = 0 ∨ k / 8 = 1 ∨ k / 8 = 2 ∨ k / 8 = 3 := by omega
  simp only [Octets.bit?, octets]
  rcases hquarter with h | h | h | h <;> rw [h]
  · exact congrArg some (show k % 8 = 24 + 7 - (31 - k) by omega ▸ hpiece 24 (by omega))
  · exact congrArg some (show k % 8 = 16 + 7 - (31 - k) by omega ▸ hpiece 16 (by omega))
  · exact congrArg some (show k % 8 = 8 + 7 - (31 - k) by omega ▸ hpiece 8 (by omega))
  · exact congrArg some (show k % 8 = 0 + 7 - (31 - k) by omega ▸ hpiece 0 (by omega))

/-- **A quadlet of a buffer is 32 consecutive bits of it.** -/
theorem bit?_eq_of_read? {buf : List UInt8} {index : Nat} {word : Quadlet}
    (h : read? buf index = some word) {k : Nat} (hk : k < 32) :
    Octets.bit? buf (32 * index + k) = some (word.getMsbD k) := by
  unfold read? at h
  split at h
  · next a b c d rest heq =>
    obtain rfl := Option.some.inj h
    rw [← Octets.bit?_drop_quadlet, heq]
    exact getMsbD_ofOctets a b c d rest hk
  · simp at h

/-- **Writing a quadlet replaces its 32 bits and no others.** -/
theorem bit?_of_write? {buf out : List UInt8} {index : Nat} {word : Quadlet}
    (h : write? buf index word = some out) (i : Nat) :
    Octets.bit? out i =
      if 32 * index ≤ i ∧ i < 32 * index + 32 then some (word.getMsbD (i - 32 * index))
      else Octets.bit? buf i := by
  unfold write? at h
  split at h
  · next a b c d rest heq =>
    obtain rfl := Option.some.inj h
    have hlen : (buf.take (4 * index)).length = 4 * index := by
      have hdrop := congrArg List.length heq
      simp only [List.length_drop, List.length_cons] at hdrop
      rw [List.length_take]
      omega
    -- The bit is in front of the quadlet, in it, or behind it.
    rcases Nat.lt_or_ge i (32 * index) with hfront | hfront
    · rw [if_neg (by omega), Octets.bit?_append_left _ (by omega), Octets.bit?_take (by omega)]
    rw [Octets.bit?_append_right _ (by omega), hlen]
    rcases Nat.lt_or_ge i (32 * index + 32) with hmid | hmid
    · rw [if_pos ⟨hfront, hmid⟩, Octets.bit?_append_left _ (by rw [length_octets]; omega),
        bit?_octets word (by omega)]
      congr 2
      omega
    · have hrest : rest = buf.drop (4 * index + 4) := by
        rw [← List.drop_drop, heq]
        rfl
      rw [if_neg (by omega), Octets.bit?_append_right _ (by rw [length_octets]; omega),
        length_octets, hrest, Octets.bit?_drop]
      congr 1
      omega
  · simp at h

end Quadlet

end Avtp
