import Avtp.Annotations
import Avtp.Listing.Render

/-!
# Annotations as text

Annotations are drawn as listings are, with positions in machine words. A bucket has lines from its
first quadlet up to the word behind its last one; if that has wrapped, there are none. The numbers
of bits are words, too, both those in a quadlet and the number of all bits of the buffer.
-/

namespace Avtp.Annotations

open Listing (bitDrawn inGroups entryDrawn inEntries titleDrawn rowDrawn)

/-- The labels of all buckets in order of first appearance. -/
def labels (annotations : Annotations) : List String :=
  ((annotations.buckets.flatMap (·.fields)).map Prod.snd).eraseDups

/-- The bit of the buffer with the given number, if that is below the number of its bits. -/
def bitAt? (buf : List UInt8) (number : UInt64) : Option Bool :=
  if number < .ofNat buf.length * 8 then Octets.bit? buf number.toNat else none

/-- Bit `bit` of a quadlet under the fields that lie in it. The first field that covers the bit
gives it its colour. -/
def bitStroke (labels : List String) (fields : List (Descriptor × String)) (buf : List UInt8)
    (quadlet : UInt64) (bit : Nat) : Stroke :=
  let number := quadlet * 32 + .ofNat bit
  let label := (fields.find? fun field ↦ field.1.covers number).map Prod.snd
  bitDrawn labels label (bitAt? buf number)

/-- The text of the value of a field in the buffer. It is the value that the access by index gives,
and an access that leaves the buffer gives none. -/
def valueText (buf : List UInt8) (d : Descriptor) : String :=
  match DescriptorTable.get [d] buf 0 with
  | .ok value => (value.map Text.decimal).getD ""
  | .error _ => "n/a"

/-- A field with its value. -/
def fieldStroke (labels : List String) (buf : List UInt8) (field : Descriptor × String) : Stroke :=
  entryDrawn labels field.2 (valueText buf field.1)

/-- The line of a quadlet. -/
def quadletLine (labels : List String) (bucket : Bucket) (buf : List UInt8) (quadlet : UInt64) :
    List Stroke :=
  let fields := bucket.fields.filter fun field ↦ field.1.quadlet = quadlet
  rowDrawn (quadlet * 4).toNat quadlet.toNat (inGroups (bitStroke labels fields buf quadlet))
    (inEntries (fields.map (fieldStroke labels buf)))

/-- The quadlets of a bucket. -/
def rows (bucket : Bucket) : List UInt64 :=
  let first := bucket.firstQuadlet.toNat
  (List.range' first ((bucket.firstQuadlet + bucket.quadlets).toNat - first)).map .ofNat

/-- The lines of a bucket: its title, then its quadlets. -/
def bucketLines (labels : List String) (bucket : Bucket) (buf : List UInt8) : List (List Stroke) :=
  titleDrawn bucket.title :: (rows bucket).map (quadletLine labels bucket buf)

/-- The lines of annotations on a buffer. -/
def lines (annotations : Annotations) (buf : List UInt8) : List (List Stroke) :=
  let labels := annotations.labels
  annotations.buckets.flatMap fun bucket ↦ bucketLines labels bucket buf

/-- The text of annotations on a buffer; every line ends with a line feed. -/
def render (annotations : Annotations) (buf : List UInt8) (color : Bool) : String :=
  String.join ((annotations.lines buf).map fun line ↦ Stroke.renderAll color line ++ "\n")

end Avtp.Annotations
