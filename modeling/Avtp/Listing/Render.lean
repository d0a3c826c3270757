import Avtp.Listing

/-!
# Listings as text

A rendered listing shows the bits of a buffer under the names of a listing. Each section has a line
for its title and a line for each quadlet: offset, quadlet number, the 32 bits in groups of four,
and the values of the fields that start in the quadlet.

```text
                | AcfCommon
0x0000  q000   | 0000 0010 0000 0011 0000 0000 0000 0000 | acf_msg_type=1 acf_msg_length=3
```

A bit behind the end of the buffer is shown as `X` if it belongs to a field, and as a blank
otherwise. The value of a field that the buffer does not contain is `n/a`.

## Paint before text

A line is first a list of *strokes*, characters with the paint they are drawn in, and only then
text. Colour is an attribute of the strokes, so the coloured and the plain text show the same
characters: the plain text drops the paint, the coloured one spells it as escape sequences.

Colours belong to labels. They are dealt out from a fixed palette in the order in which the labels
first appear in the whole listing, so the same label has the same colour in all sections.
-/

namespace Avtp

/-! ### Paint -/

/-- Text with the paint it is drawn in. -/
structure Stroke where
  text : String
  /-- A colour of the 256-colour palette, none for what is never painted. -/
  paint : Option Nat
  deriving DecidableEq

namespace Stroke

/-- Text that is never painted. -/
def bare (text : String) : Stroke := ⟨text, none⟩

/-- The stroke as text. Without colour it is the text alone. -/
def render (color : Bool) (stroke : Stroke) : String :=
  match stroke.paint with
  | some paint =>
    if color then s!"\x1b[38;5;{Text.decimal paint}m{stroke.text}\x1b[0m" else stroke.text
  | none => stroke.text

/-- A line of strokes as text. -/
def renderAll (color : Bool) (strokes : List Stroke) : String :=
  String.join (strokes.map (render color))

end Stroke

namespace Listing

/-- The colours for labels, dealt out in turn. Neighbours in the palette are easy to tell apart. -/
def palette : List Nat := [160, 34, 27, 130, 161, 35, 33, 136, 162, 36, 69, 142]

/-- The colour of bits that belong to no field. -/
def plainColor : Nat := 244

/-- The labels of all sections in order of first appearance. -/
def labels (listing : Listing) : List String :=
  ((listing.sections.flatMap (·.fields)).map Prod.snd).eraseDups

/-- The colour of a label among all labels. -/
def labelColor (labels : List String) (label : String) : Nat :=
  match labels.idxOf? label with
  | some position => palette.getD (position % palette.length) plainColor
  | none => plainColor

/-! ### What a line is made of -/

/-- A bit that may be missing, in the colour of the label of the field that it belongs to. -/
def bitDrawn (labels : List String) (label : Option String) (bit : Option Bool) : Stroke :=
  let color := (label.map (labelColor labels)).getD plainColor
  match bit, label with
  | some true, _ => ⟨"1", some color⟩
  | some false, _ => ⟨"0", some color⟩
  | none, some _ => ⟨"X", some color⟩
  | none, none => .bare " "

/-- The 32 bits of a quadlet, with a blank before every fourth one. -/
def inGroups (drawn : Nat → Stroke) : List Stroke :=
  (List.range 32).flatMap fun bit ↦
    if bit % 4 = 0 ∧ bit ≠ 0 then [.bare " ", drawn bit] else [drawn bit]

/-- A label with a value. -/
def entryDrawn (labels : List String) (label value : String) : Stroke :=
  ⟨s!"{label}={value}", some (labelColor labels label)⟩

/-- Entries with blanks between them, or a dash if there are none. -/
def inEntries (entries : List Stroke) : List Stroke :=
  if entries.isEmpty then [.bare "-"] else entries.intersperse (.bare " ")

/-- The line of a title. -/
def titleDrawn (title : String) : List Stroke := [.bare s!"                | {title}"]

/-- The line of a quadlet, given its octet, its number, its bits and its entries. -/
def rowDrawn (octet quadlet : Nat) (bits entries : List Stroke) : List Stroke :=
  [.bare s!"0x{Text.hexUpper 4 octet}  q{Text.decimalPadded 3 quadlet}   | "] ++ bits ++
    [.bare " | "] ++ entries

/-! ### Lines -/

/-- Bit `bit` of a quadlet, given the octets from the start of the quadlet on and the fields of the
section that lie in it. The first field that covers the bit gives it its colour. -/
def bitStroke (labels : List String) (fields : List (BitField × String)) (octets : List UInt8)
    (quadlet bit : Nat) : Stroke :=
  let label := (fields.find? fun field ↦ field.1.covers (32 * quadlet + bit)).map Prod.snd
  bitDrawn labels label (Octets.bit? octets bit)

/-- The bits of a quadlet. -/
def bitStrokes (labels : List String) (fields : List (BitField × String)) (buf : List UInt8)
    (quadlet : Nat) : List Stroke :=
  let octets := buf.drop (4 * quadlet)
  inGroups (bitStroke labels fields octets quadlet)

/-- The text of the value of a field in the buffer. -/
def valueText (buf : List UInt8) (place : BitField) : String :=
  match place.read? buf with
  | some value => Text.decimal value
  | none => "n/a"

/-- A field with its value. -/
def fieldStroke (labels : List String) (buf : List UInt8) (field : BitField × String) : Stroke :=
  entryDrawn labels field.2 (valueText buf field.1)

/-- The fields of a quadlet with their values. -/
def fieldStrokes (labels : List String) (fields : List (BitField × String)) (buf : List UInt8) :
    List Stroke :=
  inEntries (fields.map (fieldStroke labels buf))

/-- The line of a quadlet. -/
def quadletLine (labels : List String) (part : Section) (buf : List UInt8) (quadlet : Nat) :
    List Stroke :=
  let fields := part.fields.filter fun field ↦ field.1.quadlet = quadlet
  rowDrawn (4 * quadlet) quadlet (bitStrokes labels fields buf quadlet)
    (fieldStrokes labels fields buf)

/-- The lines of a section: its title, then its quadlets. -/
def sectionLines (labels : List String) (part : Section) (buf : List UInt8) : List (List Stroke) :=
  titleDrawn part.title ::
    (List.range' part.firstQuadlet part.quadlets).map (quadletLine labels part buf)

/-- The lines of a listing on a buffer. -/
def lines (listing : Listing) (buf : List UInt8) : List (List Stroke) :=
  let labels := listing.labels
  listing.sections.flatMap fun part ↦ sectionLines labels part buf

/-- The text of a listing on a buffer; every line ends with a line feed. -/
def render (listing : Listing) (buf : List UInt8) (color : Bool) : String :=
  String.join ((listing.lines buf).map fun line ↦ Stroke.renderAll color line ++ "\n")

end Listing

end Avtp
