import Avtp.Text.Numeral

/-!
# Quoted characters

Messages show a character between single quotes. Null, tab, line feed and carriage return have a
short form; the quote itself and the backslash are preceded by a backslash; characters without a
visible form are shown by their number. The rule covers the characters below 256, which is all that
a message about a single octet can show: of those the controls, the no-break space and the soft
hyphen are invisible.
-/

namespace Avtp.Text

/-- The character has no visible form. -/
def isInvisible (c : Char) : Bool :=
  c.toNat < 0x20 || (0x7F ≤ c.toNat && c.toNat ≤ 0xA0) || c.toNat == 0xAD

/-- The character between the quotes. -/
def escape (c : Char) : String :=
  match c with
  | '\x00' => "\\0"
  | '\t' => "\\t"
  | '\n' => "\\n"
  | '\r' => "\\r"
  | '\'' => "\\'"
  | '\\' => "\\\\"
  | c => if isInvisible c then s!"\\u\x7b{hex 1 c.toNat}\x7d" else String.singleton c

/-- The character with its quotes. -/
def quoted (c : Char) : String := s!"'{escape c}'"

end Avtp.Text
