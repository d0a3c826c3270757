/-!
# White space

The characters with the Unicode property White_Space: the ASCII controls from tab to carriage
return, the space, next line and the no-break space, the space of Ogham, the spaces of typography,
the two separators of lines and paragraphs, and the ideographic space. The zero-width space is not
among them.
-/

namespace Avtp.Text

/-- The code points of white space as ranges, both ends included. -/
def blankRanges : List (Nat × Nat) :=
  [(0x09, 0x0D), (0x20, 0x20), (0x85, 0x85), (0xA0, 0xA0), (0x1680, 0x1680), (0x2000, 0x200A),
    (0x2028, 0x2029), (0x202F, 0x202F), (0x205F, 0x205F), (0x3000, 0x3000)]

/-- The character is white space. -/
def isBlank (c : Char) : Bool :=
  blankRanges.any fun range ↦ range.1 ≤ c.toNat && c.toNat ≤ range.2

end Avtp.Text
