import Avtp.BitField
import Avtp.Text.Numeral

/-!
# Reading and writing fields

Fields are accessed in two ways. The plain accesses `BitField.read?` and `BitField.write?` only need
the quadlet to be there. The table accesses `FieldTable.get` and `FieldTable.set` take the index of
a field and account for everything that can be wrong: an index outside the table, then a buffer
without the quadlet, then (for writing) a value that the field does not hold. A refused write has no
result, so it cannot have changed anything.

## Reading without a promise

`BitField.read` and `BitField.write` give the plain accesses a value on every buffer: a field
outside the buffer reads as zero and ignores writes. Where the length of a buffer has been checked
once, this case does not arise, and `isSome_read?_iff` and `isSome_write?_iff` are how to show it.
-/

namespace Avtp

/-- Reasons to refuse an access to a field by its index in a table. -/
inductive FieldError where
  /-- The table has no field with this index. -/
  | unknownField (index tableLength : Nat)
  /-- The buffer does not contain the quadlet of the field. -/
  | bufferTooSmall (index required actual : Nat)
  /-- The value needs more bits than the field has. -/
  | valueOutOfRange (value width : Nat)
  deriving DecidableEq

/-- The wording of a refused access. -/
def FieldError.message : FieldError → String
  | .unknownField index tableLength =>
    s!"Unknown field {Text.decimal index}: table has {Text.decimal tableLength} entries"
  | .bufferTooSmall index required actual =>
    s!"Buffer too small for field {Text.decimal index}: required {Text.decimal required}, " ++
      s!"actual {Text.decimal actual}"
  | .valueOutOfRange value width =>
    s!"Value {Text.decimal value} does not fit into {Text.decimal width} bits"

namespace BitField

/-! ### Plain access -/

/-- The value of the field, `none` if the buffer does not contain its quadlet. -/
def read? (f : BitField) (buf : List UInt8) : Option Nat :=
  (Quadlet.read? buf f.quadlet).map f.extract

/-- Writes the field and keeps all other bits of the buffer, `none` if the buffer does not contain
its quadlet. Bits of the value above the width of the field are dropped. -/
def write? (f : BitField) (buf : List UInt8) (value : Nat) : Option (List UInt8) := do
  let word ← Quadlet.read? buf f.quadlet
  Quadlet.write? buf f.quadlet (f.insert word value)

/-- The value of the field, zero outside the buffer. -/
def read (f : BitField) (buf : List UInt8) : Nat := (f.read? buf).getD 0

/-- Writes the field; outside the buffer nothing happens. -/
def write (f : BitField) (buf : List UInt8) (value : Nat) : List UInt8 :=
  (f.write? buf value).getD buf

theorem isSome_read?_iff {f : BitField} {buf : List UInt8} :
    (f.read? buf).isSome ↔ f.requiredOctets ≤ buf.length := by
  simp only [read?, Option.isSome_map, Quadlet.isSome_read?_iff, requiredOctets]
  omega

theorem isSome_write?_iff {f : BitField} {buf : List UInt8} {value : Nat} :
    (f.write? buf value).isSome ↔ f.requiredOctets ≤ buf.length := by
  have hr : (Quadlet.read? buf f.quadlet).isSome ↔ 4 * f.quadlet + 4 ≤ buf.length :=
    Quadlet.isSome_read?_iff
  have hw (word : Quadlet) :
      (Quadlet.write? buf f.quadlet word).isSome ↔ 4 * f.quadlet + 4 ≤ buf.length :=
    Quadlet.isSome_write?_iff
  simp only [write?, requiredOctets]
  cases h : Quadlet.read? buf f.quadlet with
  | none =>
    simp only [h, Option.isSome_none, Bool.false_eq_true, false_iff] at hr
    simp only [Option.bind_eq_bind, Option.bind_none, Option.isSome_none, Bool.false_eq_true,
      false_iff]
    omega
  | some word =>
    simp only [Option.bind_eq_bind, Option.bind_some, hw]
    omega

/-- The two plain reads agree wherever the field is present. -/
theorem read?_eq_some_read {f : BitField} {buf : List UInt8}
    (h : f.requiredOctets ≤ buf.length) : f.read? buf = some (f.read buf) := by
  obtain ⟨value, hv⟩ := Option.isSome_iff_exists.mp (isSome_read?_iff.mpr h)
  simp [read, hv]

/-- The two plain writes agree wherever the field is present. -/
theorem write?_eq_some_write {f : BitField} {buf : List UInt8} (value : Nat)
    (h : f.requiredOctets ≤ buf.length) : f.write? buf value = some (f.write buf value) := by
  have hs : (f.write? buf value).isSome := isSome_write?_iff.mpr h
  obtain ⟨out, ho⟩ := Option.isSome_iff_exists.mp hs
  simp [write, ho]

theorem length_of_write? {f : BitField} {buf out : List UInt8} {value : Nat}
    (h : f.write? buf value = some out) : out.length = buf.length := by
  simp only [write?, Option.bind_eq_bind, Option.bind_eq_some_iff] at h
  obtain ⟨word, -, hw⟩ := h
  exact Quadlet.length_of_write? hw

/-- Writing a field never changes the length of the buffer. -/
@[simp] theorem length_write (f : BitField) (buf : List UInt8) (value : Nat) :
    (f.write buf value).length = buf.length := by
  unfold write
  cases h : f.write? buf value with
  | none => rfl
  | some out => exact length_of_write? h

end BitField

/-- The fields of a header, addressed by index. -/
abbrev FieldTable := List BitField

namespace FieldTable

/-! ### Access by index -/

/-- The field with the given index, provided that a buffer of the given length contains it. -/
def lookup (table : FieldTable) (length index : Nat) : Except FieldError BitField :=
  match table[index]? with
  | none => .error (.unknownField index table.length)
  | some field =>
    if length < field.requiredOctets then
      .error (.bufferTooSmall index field.requiredOctets length)
    else .ok field

/-- The value of the field with the given index. -/
def get (table : FieldTable) (buf : List UInt8) (index : Nat) : Except FieldError Nat := do
  let field ← lookup table buf.length index
  return field.read buf

/-- The buffer after writing the field with the given index. -/
def set (table : FieldTable) (buf : List UInt8) (index value : Nat) :
    Except FieldError (List UInt8) := do
  let field ← lookup table buf.length index
  if field.Holds value then
    return field.write buf value
  else
    .error (.valueOutOfRange value field.width)

/-! ### Properties of tables -/

/-- No two fields of the table share a bit. -/
def isDisjoint : FieldTable → Bool
  | [] => true
  | field :: rest => rest.all (fun other ↦ !field.overlaps other) && isDisjoint rest

end FieldTable

end Avtp
