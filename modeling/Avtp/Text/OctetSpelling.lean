import Avtp.Text.Blank
import Avtp.Text.Quoted

/-!
# Octets spelled in hexadecimal

A buffer is entered as hexadecimal digits of either case. The digits may be broken up anywhere by
white space and colons, between the two digits of an octet too, and every piece may start with the
marker `0x`.

Reading takes out the separators and the markers and leaves what remains to a decoder of digits
(`spelledBy?`). The one that is used measures it in UTF-8: an odd number of octets is refused first,
and only then the first octet that is no digit, with its position in what is left.
-/

namespace Avtp.Text

/-- Reasons why a text spells no octets. -/
inductive SpellingError where
  /-- The last octet lacks a digit. -/
  | oddLength
  /-- The octet at the position is no digit. -/
  | invalidDigit (octet : UInt8) (position : Nat)
  deriving DecidableEq

/-- The wording of the reason. The octet is shown as the character with its number. -/
def SpellingError.message : SpellingError → String
  | .oddLength => "Odd number of digits"
  | .invalidDigit octet position =>
    s!"Invalid character {quoted (Char.ofNat octet.toNat)} at position {decimal position}"

/-- The character separates pieces. -/
def isSeparator (c : Char) : Bool := isBlank c || c == ':'

/-- A piece without its marker. -/
def withoutMarker : List Char → List Char
  | '0' :: 'x' :: digits => digits
  | digits => digits

/-- The digits of all pieces. -/
def spelledDigits (text : List Char) : List Char :=
  (text.splitOnP isSeparator).flatMap withoutMarker

/-- The value of a digit, given as the octet of an ASCII character. -/
def digitValue? (octet : UInt8) : Option UInt8 :=
  if 0x30 ≤ octet ∧ octet ≤ 0x39 then some (octet - 0x30)
  else if 0x41 ≤ octet ∧ octet ≤ 0x46 then some (octet - 0x41 + 10)
  else if 0x61 ≤ octet ∧ octet ≤ 0x66 then some (octet - 0x61 + 10)
  else none

/-- The octets that pairs of digits spell, given the position of the first digit. -/
def pairUp? (position : Nat) : List UInt8 → Except SpellingError (List UInt8)
  | hi :: lo :: rest =>
    match digitValue? hi, digitValue? lo with
    | none, _ => .error (.invalidDigit hi position)
    | some _, none => .error (.invalidDigit lo (position + 1))
    | some high, some low => (pairUp? (position + 2) rest).map ((16 * high + low) :: ·)
  | [_] => .error .oddLength
  | [] => .ok []

/-- Reads digits that are run together. -/
def decodeDigits? (digits : List UInt8) : Except SpellingError (List UInt8) :=
  if digits.length % 2 ≠ 0 then .error .oddLength else pairUp? 0 digits

/-- The octets that a text spells, given what reads digits that are run together. -/
def spelledBy? (decode? : List UInt8 → Except SpellingError (List UInt8)) (text : String) :
    Except SpellingError (List UInt8) :=
  decode? ((spelledDigits text.toList).flatMap String.utf8EncodeChar)

/-- The octets that a text spells. -/
def spelledOctets? (text : String) : Except SpellingError (List UInt8) :=
  spelledBy? decodeDigits? text

end Avtp.Text
