import Avtp.Quadlet

/-!
# Bit fields

A header is described by the places of its fields. A field is a run of one to 32 bits inside a
single quadlet; values wider than that travel as two fields. The two conditions, a positive width
and an end inside the quadlet, are part of the type, so a `BitField` always names existing bits and
no operation on it has to check them again.

## Two notions of position

* On the level of quadlets a field is a mask: `mask`, `extract` and `insert` work on whole words,
  and `overlaps` asks whether two masks meet. This is how the codec computes.
* On the level of the buffer a field is a range of bit numbers, `firstBit` up to `firstBit + width`.
  This is what the wire diagrams draw.

Distance is counted from opposite ends: `offset` from the most significant bit, as in the diagrams,
and `trailing` from the least significant one, as a shift amount.

Positions are exact numbers here. The fields of the headers are in their first few quadlets, and a
buffer that is in memory has numbers for its bits that fit into a machine word. A program that is
given a position from outside has no more than the word: that is a `Descriptor`, which computes the
same as long as no number is too large for the words (`BitField.Addressable`).
-/

namespace Avtp

/-- The place of a field: a run of bits inside one quadlet. -/
structure BitField where
  /-- Index of the quadlet. -/
  quadlet : Nat
  /-- Distance of the first bit from the most significant bit of the quadlet. -/
  offset : Nat
  /-- Number of bits. -/
  width : Nat
  /-- There is at least one bit, and the last one is inside the quadlet. For a field given by
  numerals this is a computation. -/
  isPlaced : (Nat.ble 1 width && Nat.ble (offset + width) 32) = true := by exact Eq.refl true
  deriving DecidableEq

namespace BitField

theorem width_pos (f : BitField) : 1 ≤ f.width :=
  Nat.le_of_ble_eq_true (Bool.and_eq_true_iff.mp f.isPlaced).1

theorem offset_add_width_le (f : BitField) : f.offset + f.width ≤ 32 :=
  Nat.le_of_ble_eq_true (Bool.and_eq_true_iff.mp f.isPlaced).2

/-! ### The field as a set of values -/

/-- The largest value of the field. -/
def maxValue (f : BitField) : Nat := (1 <<< f.width) - 1

/-- The value can be stored without loss. -/
def Holds (f : BitField) (value : Nat) : Prop := value ≤ f.maxValue

instance (f : BitField) (value : Nat) : Decidable (f.Holds value) :=
  inferInstanceAs (Decidable (value ≤ f.maxValue))

theorem holds_iff_lt {f : BitField} {value : Nat} : f.Holds value ↔ value < 1 <<< f.width := by
  have hpos : 0 < 1 <<< f.width := by
    rw [Nat.one_shiftLeft]
    exact Nat.two_pow_pos f.width
  simp only [Holds, maxValue]
  omega

/-! ### The field inside its quadlet -/

/-- Number of bits between the field and the least significant end of the quadlet. -/
def trailing (f : BitField) : Nat := 32 - f.offset - f.width

/-- The bits of the field inside its quadlet. -/
def mask (f : BitField) : Quadlet := BitVec.ofNat 32 f.maxValue <<< f.trailing

/-- The value of the field in a quadlet. -/
def extract (f : BitField) (word : Quadlet) : Nat := ((word &&& f.mask) >>> f.trailing).toNat

/-- Replaces the field in a quadlet and keeps all other bits. Bits of the value above the width of
the field are dropped. -/
def insert (f : BitField) (word : Quadlet) (value : Nat) : Quadlet :=
  (word &&& ~~~f.mask) ||| (BitVec.ofNat 32 (value &&& f.maxValue) <<< f.trailing)

/-- The fields share a bit. -/
def overlaps (f g : BitField) : Bool := f.quadlet == g.quadlet && (f.mask &&& g.mask) != 0

/-! ### The field inside a buffer -/

/-- Number of octets a buffer needs to contain the quadlet. -/
def requiredOctets (f : BitField) : Nat := 4 * (f.quadlet + 1)

/-- Number of the first bit in the buffer. -/
def firstBit (f : BitField) : Nat := 32 * f.quadlet + f.offset

/-- Number of the first bit behind the field. -/
def endBit (f : BitField) : Nat := f.firstBit + f.width

/-- The bit with the given number belongs to the field. -/
def covers (f : BitField) (bit : Nat) : Bool := f.firstBit ≤ bit && bit < f.endBit

/-- The same field, `count` quadlets further behind. This places the fields of a header that follows
other headers in one buffer. -/
def behind (f : BitField) (count : Nat) : BitField := { f with quadlet := f.quadlet + count }

@[simp] theorem quadlet_behind (f : BitField) (count : Nat) :
    (f.behind count).quadlet = f.quadlet + count := rfl

@[simp] theorem behind_zero (f : BitField) : f.behind 0 = f := rfl

theorem behind_behind (f : BitField) (m n : Nat) : (f.behind m).behind n = f.behind (m + n) := by
  simp [behind, Nat.add_assoc]

end BitField

end Avtp
