import Avtp.Text.Numeral

/-!
# Flags of a CAN message

Six one-bit flags stand side by side in the third octet of a CAN message. A flag set is the octet of
their values, with the flags in their order on the wire: MTV is the most significant of the six, ESI
the least.

A set may also have one of the two bits above MTV. Such bits name no flag and never reach the wire;
they are kept, compared and shown, so that a set taken over from elsewhere can be told from its
known part `CanFlags.known`.
-/

namespace Avtp.Acf

/-- A set of CAN flags, one bit each. -/
structure CanFlags where
  bits : UInt8
  deriving DecidableEq

namespace CanFlags

/-! ### The flags -/

/-- Message timestamp valid. -/
def mtv : CanFlags := ⟨0x20⟩

/-- Remote transmission request. -/
def rtr : CanFlags := ⟨0x10⟩

/-- Extended frame format: the identifier has 29 bits. -/
def eff : CanFlags := ⟨0x08⟩

/-- Bit rate switch. -/
def brs : CanFlags := ⟨0x04⟩

/-- Flexible data rate format. -/
def fdf : CanFlags := ⟨0x02⟩

/-- Error state indicator. -/
def esi : CanFlags := ⟨0x01⟩

/-- The flags with their names, in wire order. -/
def named : List (String × CanFlags) :=
  [("MTV", mtv), ("RTR", rtr), ("EFF", eff), ("BRS", brs), ("FDF", fdf), ("ESI", esi)]

/-! ### Sets -/

/-- No flag. -/
def empty : CanFlags := ⟨0⟩

/-- All six flags. -/
def all : CanFlags := ⟨0x3F⟩

/-- Every bit of `other` is set. -/
def contains (flags other : CanFlags) : Bool := flags.bits &&& other.bits == other.bits

/-- The bits of either set. -/
def union (flags other : CanFlags) : CanFlags := ⟨flags.bits ||| other.bits⟩

/-- The bits that `other` does not have. -/
def diff (flags other : CanFlags) : CanFlags := ⟨flags.bits &&& ~~~other.bits⟩

/-- The bits that name a flag. -/
def known (flags : CanFlags) : CanFlags := ⟨flags.bits &&& all.bits⟩

/-- The set itself if all of its bits name a flag. -/
def known? (flags : CanFlags) : Option CanFlags := if flags.known = flags then some flags else none

/-- The given flag if the condition holds, no flag otherwise. -/
def only (flag : CanFlags) (condition : Bool) : CanFlags := if condition then flag else empty

/-- The set of the flags that are true, given one by one in wire order. -/
def ofBools (mtv rtr eff brs fdf esi : Bool) : CanFlags :=
  [(CanFlags.mtv, mtv), (CanFlags.rtr, rtr), (CanFlags.eff, eff), (CanFlags.brs, brs),
    (CanFlags.fdf, fdf), (CanFlags.esi, esi)].foldl
    (fun flags flag ↦ flags.union (flag.1.only flag.2)) empty

/-- The message is a CAN FD frame. -/
def isFd (flags : CanFlags) : Bool := flags.contains fdf

/-- The identifier has 29 bits. -/
def isExtended (flags : CanFlags) : Bool := flags.contains eff

/-! ### Text -/

/-- The names of the flags in wire order, then the bits without a name as one number. The empty set
is shown as that number alone. -/
def describe (flags : CanFlags) : String :=
  let names := (named.filter fun flag ↦ flags.contains flag.2).map Prod.fst
  let rest := flags.diff all
  let number := s!"0x{Text.hex 1 rest.bits.toNat}"
  let parts := if rest = empty ∧ names ≠ [] then names else names ++ [number]
  "CanFlags(" ++ " | ".intercalate parts ++ ")"

end CanFlags

end Avtp.Acf
