/-!
# Numerals

The three spellings of a natural number that appear in messages and listings: plain decimal, decimal
padded with zeros, and hexadecimal padded with zeros. Padding is a minimum; a number that needs more
digits is never cut.
-/

namespace Avtp.Text

/-- The character of a hexadecimal digit; letters are lower case. -/
def hexDigit (digit : Nat) : Char := Nat.digitChar digit

/-- Fills up with zeros on the left to at least `width` characters. -/
def padZeros (width : Nat) (digits : List Char) : List Char :=
  List.replicate (width - digits.length) '0' ++ digits

/-- Decimal, without padding. -/
def decimal (n : Nat) : String := String.ofList (Nat.toDigits 10 n)

/-- Decimal, at least `width` digits. -/
def decimalPadded (width n : Nat) : String := String.ofList (padZeros width (Nat.toDigits 10 n))

/-- Hexadecimal in lower case, at least `width` digits. -/
def hex (width n : Nat) : String := String.ofList (padZeros width (Nat.toDigits 16 n))

/-- Hexadecimal in upper case, at least `width` digits. -/
def hexUpper (width n : Nat) : String :=
  String.ofList ((padZeros width (Nat.toDigits 16 n)).map Char.toUpper)

/-- The two lower case hexadecimal digits of an octet. -/
def hexOctet (octet : UInt8) : List Char :=
  [hexDigit (octet.toNat / 16), hexDigit (octet.toNat % 16)]

/-- A buffer as one run of lower case hexadecimal digits, two for each octet. -/
def hexOctets (octets : List UInt8) : String := String.ofList (octets.flatMap hexOctet)

end Avtp.Text
