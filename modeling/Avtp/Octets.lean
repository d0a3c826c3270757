/-!
# Octets and their bits

A buffer is a list of octets. Its bits are numbered from 0 in transmission order: bit 0 is the most
significant bit of the first octet, bit 8 the most significant bit of the second, and so on. Every
field position in this library comes down to this one numbering.

Slicing is partial: a range that does not lie inside the buffer has no slice. Whoever cuts a range
computed from data on the wire therefore says what happens when the data lies.
-/

namespace Avtp.Octets

/-! ### Bits -/

/-- Bit `i` of the buffer in transmission order, `none` behind its end. -/
def bit? (buf : List UInt8) (i : Nat) : Option Bool :=
  buf[i / 8]?.map fun octet ↦ octet.toBitVec.getMsbD (i % 8)

/-- A buffer has exactly eight bits per octet. -/
theorem isSome_bit?_iff {buf : List UInt8} {i : Nat} :
    (bit? buf i).isSome ↔ i < 8 * buf.length := by
  simp only [bit?, Option.isSome_map, isSome_getElem?]
  omega

/-- Dropping octets renumbers the remaining bits. -/
theorem bit?_drop (buf : List UInt8) (n i : Nat) : bit? (buf.drop n) i = bit? buf (8 * n + i) := by
  simp only [bit?, List.getElem?_drop]
  rw [show n + i / 8 = (8 * n + i) / 8 by omega, show i % 8 = (8 * n + i) % 8 by omega]

/-! ### Slices -/

/-- The octets from `start` up to, not including, `stop`; `none` unless `start ≤ stop` and the
buffer reaches `stop`. -/
def slice? (buf : List UInt8) (start stop : Nat) : Option (List UInt8) :=
  if start ≤ stop ∧ stop ≤ buf.length then some ((buf.drop start).take (stop - start)) else none

/-- The first `count` octets and the rest, `none` if there are fewer. Only the octets in front are
counted, so cutting short pieces off a long buffer stays cheap. -/
def split? (buf : List UInt8) (count : Nat) : Option (List UInt8 × List UInt8) :=
  let front := buf.take count
  if front.length = count then some (front, buf.drop count) else none

theorem split?_eq_some_iff {buf front rest : List UInt8} {count : Nat} :
    split? buf count = some (front, rest) ↔
      count ≤ buf.length ∧ front = buf.take count ∧ rest = buf.drop count := by
  have hfront : (buf.take count).length = count ↔ count ≤ buf.length := by
    rw [List.length_take]
    omega
  simp only [split?, hfront, Option.ite_none_right_eq_some, Option.some.injEq, Prod.mk.injEq]
  exact and_congr_right fun _ ↦ and_congr eq_comm eq_comm

theorem split?_of_le {buf : List UInt8} {count : Nat} (hcount : count ≤ buf.length) :
    split? buf count = some (buf.take count, buf.drop count) :=
  split?_eq_some_iff.mpr ⟨hcount, rfl, rfl⟩

/-- Two pieces are taken apart where they were put together. -/
theorem split?_append {front : List UInt8} {count : Nat} (hfront : front.length = count)
    (rest : List UInt8) : split? (front ++ rest) count = some (front, rest) := by
  rw [split?_eq_some_iff, List.take_left' hfront, List.drop_left' hfront, List.length_append]
  exact ⟨hfront ▸ Nat.le_add_right _ _, rfl, rfl⟩

theorem isSome_split?_iff {buf : List UInt8} {count : Nat} :
    (split? buf count).isSome ↔ count ≤ buf.length := by
  constructor
  · intro hsome
    obtain ⟨parts, hparts⟩ := Option.isSome_iff_exists.mp hsome
    exact (split?_eq_some_iff.mp hparts).1
  · intro hcount
    rw [split?_of_le hcount]
    rfl

/-- Replaces the start of the range `start .. stop` by as many of the given octets as fit into it.
The rest of the buffer, the end of the range included, stays as it is. -/
def overlay (buf : List UInt8) (start stop : Nat) (octets : List UInt8) : List UInt8 :=
  let octets := octets.take (stop - start)
  buf.take start ++ (octets ++ buf.drop (start + octets.length))

/-- Overlaying a range inside the buffer keeps the length of the buffer. -/
theorem length_overlay {buf : List UInt8} {start stop : Nat} (octets : List UInt8)
    (h : stop ≤ buf.length) (h' : start ≤ stop) :
    (overlay buf start stop octets).length = buf.length := by
  simp only [overlay, List.length_append, List.length_take, List.length_drop]
  omega

end Avtp.Octets
