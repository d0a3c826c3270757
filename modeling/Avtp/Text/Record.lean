import Avtp.Text.Numeral

/-!
# One-line record texts

Log lines and reports show structured values in one line: the name of the value, then its fields in
order between braces, each as name and value. The texts of the leaves (truth values, lists of
numbers) are fixed here as well, so that every report agrees on them.
-/

namespace Avtp.Text

/-- A truth value in words. -/
def truth (b : Bool) : String := if b then "true" else "false"

/-- A value with named fields, such as a point with its coordinates. -/
def record (name : String) (fields : List (String × String)) : String :=
  let entries := fields.map fun field ↦ field.1 ++ ": " ++ field.2
  name ++ " \x7b " ++ ", ".intercalate entries ++ " \x7d"

/-- Octets as decimal numbers in square brackets. -/
def octetList (octets : List UInt8) : String :=
  "[" ++ ", ".intercalate (octets.map fun octet ↦ decimal octet.toNat) ++ "]"

end Avtp.Text
