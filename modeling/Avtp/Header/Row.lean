import Avtp.FieldTable

/-!
# Rows of a header table

A header is described as data: one row for each field, with the place of the field and its two
names. Each header has a type of its own for its fields (a *slot* type, such as `NtscfSlot`), so the
field of one header cannot be used on another; the rows are a function of the slots.
-/

namespace Avtp

/-- What a header table says about one field. -/
structure Row where
  /-- The name of the field as an identifier. -/
  name : String
  /-- The name of the field in listings and messages. -/
  label : String
  /-- Where the field is. -/
  place : BitField
  deriving DecidableEq

end Avtp
