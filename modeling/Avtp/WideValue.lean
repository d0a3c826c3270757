/-!
# Values of 64 bits

A field ends with its quadlet, so a value of 64 bits (a stream id, a message timestamp) travels as
two fields of 32 bits, the more significant half first.
-/

namespace Avtp.WideValue

/-- The more significant half. -/
def hi (value : UInt64) : Nat := value.toNat / UInt32.size

/-- The less significant half. -/
def lo (value : UInt64) : Nat := value.toNat % UInt32.size

/-- The value with the given halves. -/
def join (hi lo : Nat) : UInt64 := .ofNat (hi * UInt32.size + lo)

/-- A value is the join of its halves. -/
@[simp] theorem join_hi_lo (value : UInt64) : join (hi value) (lo value) = value := by
  rw [join, hi, lo, Nat.div_add_mod', UInt64.ofNat_toNat]

end Avtp.WideValue
