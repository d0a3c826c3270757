import Avtp.FieldTable
import Avtp.Text.Record

/-!
# Descriptors

A descriptor has the place of a field in machine words: the quadlet in 64 bits, offset and width in
32 bits each. This is what a program is given and computes with. Its sums and products are those of
the words, so they wrap, and that goes for everything here: for the check of a placement, for the
numbers of octets and bits, and for moving a field.

A `BitField` is a place in exact numbers. There is one for a descriptor whose numbers are what they
are meant to be, and then both say the same. A quadlet far behind all memory is another matter: its
number of octets can wrap to that of a quadlet in front, and an access that was checked is one to
another field, or to no octets of the buffer at all.

## Leaving the buffer

An access without a check has a result only if all four octets are in the buffer. What it does
otherwise is undefined, and here it is `none`. An access by index checks the length of the buffer
before, and still it can be `none`, if the length that is asked for has wrapped.
-/

namespace Avtp

/-- The place of a field in machine words. -/
structure Descriptor where
  /-- Index of the quadlet. -/
  quadlet : UInt64
  /-- Distance of the first bit from the most significant bit of the quadlet. -/
  offset : UInt32
  /-- Number of bits. -/
  width : UInt32
  /-- There is at least one bit and there are at most 32, and the end, as a word, is inside the
  quadlet. -/
  isPlaced : 1 ≤ width ∧ width ≤ 32 ∧ offset + width ≤ 32 := by decide
  deriving DecidableEq

/-- Reasons why a quadlet index, an offset and a width do not describe a field. -/
inductive PlacementError where
  | empty
  | tooWide
  | spansQuadlets
  deriving DecidableEq

/-- The wording of a placement error. -/
def PlacementError.message : PlacementError → String
  | .empty => "field must be at least one bit wide"
  | .tooWide => "field must be at most 32 bits wide"
  | .spansQuadlets => "field must not span two quadlets"

namespace Descriptor

/-! ### Construction -/

/-- Checks a placement. An empty field is refused before a wide one, and a field wider than a
quadlet before one that crosses its end. -/
def place? (quadlet : UInt64) (offset width : UInt32) : Except PlacementError Descriptor :=
  if hpos : 1 ≤ width then
    if hwidth : width ≤ 32 then
      if hend : offset + width ≤ 32 then
        .ok { quadlet, offset, width, isPlaced := ⟨hpos, hwidth, hend⟩ }
      else .error .spansQuadlets
    else .error .tooWide
  else .error .empty

/-! ### The field as a set of values -/

/-- The largest value of the field. -/
def maxValue (d : Descriptor) : Nat := (1 <<< d.width.toNat) - 1

/-- The value can be stored without loss. -/
def Holds (d : Descriptor) (value : Nat) : Prop := value ≤ d.maxValue

instance (d : Descriptor) (value : Nat) : Decidable (d.Holds value) :=
  inferInstanceAs (Decidable (value ≤ d.maxValue))

/-! ### The field inside its quadlet -/

/-- Number of bits between the field and the least significant end of the quadlet. -/
def trailing (d : Descriptor) : UInt32 := 32 - d.offset - d.width

/-- How far words are shifted for the field: the last five bits of the number. -/
def shift (d : Descriptor) : Nat := (d.trailing % 32).toNat

/-- The bits of the field inside its quadlet. -/
def mask (d : Descriptor) : Quadlet := BitVec.ofNat 32 d.maxValue <<< d.shift

/-- The value of the field in a quadlet. -/
def extract (d : Descriptor) (word : Quadlet) : Nat := ((word &&& d.mask) >>> d.shift).toNat

/-- Replaces the field in a quadlet and keeps all other bits. Bits of the value above the width of
the field are dropped. -/
def insert (d : Descriptor) (word : Quadlet) (value : Nat) : Quadlet :=
  (word &&& ~~~d.mask) ||| (BitVec.ofNat 32 (value &&& d.maxValue) <<< d.shift)

/-- The fields share a bit. -/
def overlaps (d e : Descriptor) : Bool := d.quadlet == e.quadlet && (d.mask &&& e.mask) != 0

/-! ### The field inside a buffer -/

/-- Index of the first octet of the quadlet. -/
def firstOctet (d : Descriptor) : UInt64 := d.quadlet * 4

/-- Index of the first octet behind the quadlet. -/
def endOctet (d : Descriptor) : UInt64 := d.firstOctet + 4

/-- Number of octets that a buffer is asked to have. -/
def requiredOctets (d : Descriptor) : UInt64 := (d.quadlet + 1) * 4

/-- Number of the first bit in the buffer. -/
def firstBit (d : Descriptor) : UInt64 := d.quadlet * 32 + d.offset.toUInt64

/-- Number of the first bit behind the field. -/
def endBit (d : Descriptor) : UInt64 := d.firstBit + d.width.toUInt64

/-- The bit with the given number belongs to the field. -/
def covers (d : Descriptor) (bit : UInt64) : Bool := d.firstBit ≤ bit && bit < d.endBit

/-- The same field, `count` quadlets further behind. -/
def behind (d : Descriptor) (count : UInt64) : Descriptor :=
  { d with quadlet := d.quadlet + count }

theorem behind_behind (d : Descriptor) (m n : UInt64) :
    (d.behind m).behind n = d.behind (m + n) := by
  simp only [behind, UInt64.add_assoc]

@[simp] theorem behind_zero (d : Descriptor) : d.behind 0 = d := by
  simp only [behind, UInt64.add_zero]

/-- The coordinates in one line. -/
def describe (d : Descriptor) : String :=
  Text.record "FieldDescriptor"
    [("quadlet", Text.decimal d.quadlet.toNat), ("offset", Text.decimal d.offset.toNat),
      ("bits", Text.decimal d.width.toNat)]

end Descriptor

/-- The place of a field in machine words. -/
def BitField.descriptor (f : BitField) : Descriptor where
  quadlet := .ofNat f.quadlet
  offset := .ofNat f.offset
  width := .ofNat f.width
  isPlaced := by
    have hpos := f.width_pos
    have hend := f.offset_add_width_le
    simp only [UInt32.le_iff_toNat_le, UInt32.toNat_add, UInt32.toNat_ofNat', UInt32.reduceToNat]
    omega

/-! ### Access without a check -/

namespace Quadlet

/-- The quadlet that an index in a machine word leads to. The first octet is found by a product,
which wraps, and is a multiple of four all the same. -/
def reached (index : UInt64) : Nat := (index * 4).toNat / 4

/-- The quadlet with the given index, `none` if that leads out of the buffer. -/
def readAt? (buf : List UInt8) (index : UInt64) : Option Quadlet := read? buf (reached index)

/-- Replaces the quadlet with the given index, `none` if that leads out of the buffer. -/
def writeAt? (buf : List UInt8) (index : UInt64) (word : Quadlet) : Option (List UInt8) :=
  write? buf (reached index) word

end Quadlet

namespace Descriptor

/-- The value of the field, `none` if its quadlet leads out of the buffer. -/
def read? (d : Descriptor) (buf : List UInt8) : Option Nat :=
  (Quadlet.readAt? buf d.quadlet).map d.extract

/-- Writes the field and keeps all other bits of the quadlet, `none` if the quadlet leads out of the
buffer. Bits of the value above the width of the field are dropped. -/
def write? (d : Descriptor) (buf : List UInt8) (value : Nat) : Option (List UInt8) := do
  let word ← Quadlet.readAt? buf d.quadlet
  Quadlet.writeAt? buf d.quadlet (d.insert word value)

end Descriptor

/-! ### Access by index -/

/-- Descriptors, addressed by index. -/
abbrev DescriptorTable := List Descriptor

namespace DescriptorTable

/-- The descriptor with the given index, provided that a buffer of the given length has the octets
that it asks for. -/
def lookup (table : DescriptorTable) (length index : Nat) : Except FieldError Descriptor :=
  match table[index]? with
  | none => .error (.unknownField index table.length)
  | some d =>
    if length < d.requiredOctets.toNat then
      .error (.bufferTooSmall index d.requiredOctets.toNat length)
    else .ok d

/-- The value of the field with the given index. -/
def get (table : DescriptorTable) (buf : List UInt8) (index : Nat) :
    Except FieldError (Option Nat) := do
  let d ← lookup table buf.length index
  return d.read? buf

/-- The buffer after writing the field with the given index. -/
def set (table : DescriptorTable) (buf : List UInt8) (index value : Nat) :
    Except FieldError (Option (List UInt8)) := do
  let d ← lookup table buf.length index
  if d.Holds value then
    return d.write? buf value
  else
    .error (.valueOutOfRange value d.width.toNat)

section

variable {table : DescriptorTable} {buf : List UInt8} {index : Nat} {d : Descriptor}

/-- What is asked for is a length, so it is the same for all buffers that are long enough. -/
theorem lookup_eq_ok {length : Nat} (h : table[index]? = some d)
    (hlength : d.requiredOctets.toNat ≤ length) : table.lookup length index = .ok d := by
  simp only [lookup, h, Nat.not_lt.mpr hlength, if_false]

theorem get_eq_ok (h : table[index]? = some d) (hlength : d.requiredOctets.toNat ≤ buf.length) :
    table.get buf index = .ok (d.read? buf) := by
  rw [get, lookup_eq_ok h hlength]
  rfl

theorem set_eq_ite (h : table[index]? = some d) (hlength : d.requiredOctets.toNat ≤ buf.length)
    (value : Nat) :
    table.set buf index value =
      if d.Holds value then .ok (d.write? buf value)
      else .error (.valueOutOfRange value d.width.toNat) := by
  rw [set, lookup_eq_ok h hlength]
  rfl

end

/-! ### Properties of tables -/

/-- No two fields of the table share a bit. -/
def isDisjoint : DescriptorTable → Bool
  | [] => true
  | d :: rest => rest.all (fun other ↦ !d.overlaps other) && isDisjoint rest

/-- Every field of the table asks for `size` octets at most. -/
def fitsIn (table : DescriptorTable) (size : Nat) : Bool :=
  table.all fun d ↦ d.requiredOctets.toNat ≤ size

/-- The ordered pairs of different indices whose fields share a bit. -/
def overlapPairs (table : DescriptorTable) : List (Nat × Nat) :=
  table.zipIdx.flatMap fun (d, i) ↦
    table.zipIdx.filterMap fun (e, j) ↦ if i ≠ j ∧ d.overlaps e then some (i, j) else none

end DescriptorTable

end Avtp
