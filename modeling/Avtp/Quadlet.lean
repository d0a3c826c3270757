import Avtp.Octets

/-!
# Quadlets

Everything on an AVTP wire is laid out in quadlets: words of four octets in network order, most
significant octet first. A quadlet is a 32-bit vector, whose bits are numbered from the most
significant end as in the wire diagrams.

Reading and writing a quadlet of a buffer is partial. The buffer has to hold all four octets; there
is no reading of a truncated quadlet and no writing that makes a buffer grow. What a caller promises
about the length of a buffer is therefore visible as `isSome`.
-/

namespace Avtp

/-- A word of 32 bits. -/
abbrev Quadlet := BitVec 32

namespace Quadlet

/-! ### Four octets in network order -/

/-- The quadlet transmitted as the octets `a b c d`. -/
def ofOctets (a b c d : UInt8) : Quadlet :=
  a.toBitVec ++ b.toBitVec ++ c.toBitVec ++ d.toBitVec

/-- The octets of a quadlet in transmission order. -/
def octets (word : Quadlet) : List UInt8 :=
  [.ofBitVec (word.extractLsb' 24 8), .ofBitVec (word.extractLsb' 16 8),
    .ofBitVec (word.extractLsb' 8 8), .ofBitVec (word.extractLsb' 0 8)]

@[simp] theorem length_octets (word : Quadlet) : (octets word).length = 4 := rfl

/-! ### Quadlets of a buffer -/

/-- The quadlet with the given index, `none` if the buffer ends before its last octet. -/
def read? (buf : List UInt8) (index : Nat) : Option Quadlet :=
  match buf.drop (4 * index) with
  | a :: b :: c :: d :: _ => some (ofOctets a b c d)
  | _ => none

/-- Replaces the quadlet with the given index, `none` if the buffer ends before its last octet. -/
def write? (buf : List UInt8) (index : Nat) (word : Quadlet) : Option (List UInt8) :=
  match buf.drop (4 * index) with
  | _ :: _ :: _ :: _ :: rest => some (buf.take (4 * index) ++ (octets word ++ rest))
  | _ => none

/-- A list of at least four octets starts with four octets. -/
theorem exists_of_four_le_length {octets : List UInt8} (h : 4 ≤ octets.length) :
    ∃ a b c d rest, octets = a :: b :: c :: d :: rest := by
  match octets, h with
  | a :: b :: c :: d :: rest, _ => exact ⟨a, b, c, d, rest, rfl⟩

/-- Exactly the quadlets that lie wholly inside the buffer can be read. -/
theorem isSome_read?_iff {buf : List UInt8} {index : Nat} :
    (read? buf index).isSome ↔ 4 * index + 4 ≤ buf.length := by
  have hl : (buf.drop (4 * index)).length = buf.length - 4 * index := List.length_drop
  unfold read?
  split
  · next h => simp only [h, List.length_cons] at hl; simp only [Option.isSome_some, true_iff]; omega
  · next h =>
    simp only [Option.isSome_none, Bool.false_eq_true, false_iff]
    intro hle
    have hfour : 4 ≤ (buf.drop (4 * index)).length := by omega
    obtain ⟨a, b, c, d, rest, he⟩ := exists_of_four_le_length hfour
    exact h a b c d rest he

/-- Exactly the quadlets that can be read can be written. -/
theorem isSome_write?_iff {buf : List UInt8} {index : Nat} {word : Quadlet} :
    (write? buf index word).isSome ↔ 4 * index + 4 ≤ buf.length := by
  rw [← isSome_read?_iff]
  unfold write? read?
  split <;> simp_all

/-- Writing a quadlet never changes the length of the buffer. -/
theorem length_of_write? {buf out : List UInt8} {index : Nat} {word : Quadlet}
    (h : write? buf index word = some out) : out.length = buf.length := by
  have hl : (buf.drop (4 * index)).length = buf.length - 4 * index := List.length_drop
  unfold write? at h
  split at h
  · next he =>
    obtain rfl := Option.some.inj h
    simp only [he, List.length_cons] at hl
    simp only [List.length_append, List.length_take, length_octets]
    omega
  · simp at h

end Quadlet

end Avtp
