import Mathlib.Data.List.Forall2
import Mathlib.Tactic.IntervalCases
import Avtp.Annotations.Render
import Avtp.Proofs.AnnotationAssembly
import Avtp.Proofs.PlainListing

/-!
# What the text of annotations shows

Annotations are drawn on a buffer that may have any length: it can end before the annotations do,
and in the middle of a quadlet. Then there are bits of a field, but no value, and what is shown of
the two comes from two computations. One goes along the bits of a quadlet, counted from the start of
the quadlet; the other one reads a whole quadlet of the buffer.

`ShowsBucket` says what is to be shown, in terms of the whole buffer and of exact numbers only: its
bits (`Octets.bit?`), the numbers of bits that the fields of the bucket cover, and the access by a
table (`DescriptorTable.get`). `Faithful` reads this from the text, line by line and column by
column. A title or a label with a line feed would make a line of its own, and one with an escape
character could swallow what comes after it, so neither may have them (`Clean`).

Lines and bits are numbered in machine words. The text is faithful if none of these numbers wraps
(`Addressable`). Otherwise a bit that belongs to a field by its number can be in another quadlet
than the field, and then it is not shown as missing (`not_render_faithful_wrapped`).

With colours the text has escape sequences in front of and behind a stroke, and nothing else. They
are closed before the next stroke begins (`fades_render`), so deleting them stroke by stroke
is deleting them from the text.
-/

namespace Avtp

/-- The numbers of all bits of the bucket, and those of its fields, are machine words. -/
def Bucket.Addressable (bucket : Bucket) : Prop :=
  32 * (bucket.firstQuadlet.toNat + bucket.quadlets.toNat) ≤ 2 ^ 64 ∧
    ∀ field ∈ bucket.fields, field.1.Addressable

instance (bucket : Bucket) : Decidable bucket.Addressable :=
  inferInstanceAs (Decidable (_ ∧ _))

namespace Annotations

open Listing (bitDrawn inGroups entryDrawn inEntries titleDrawn rowDrawn)

/-- No bucket of the annotations wraps. -/
def Addressable (annotations : Annotations) : Prop :=
  ∀ bucket ∈ annotations.buckets, bucket.Addressable

instance (annotations : Annotations) : Decidable annotations.Addressable :=
  inferInstanceAs (Decidable (∀ bucket ∈ annotations.buckets, bucket.Addressable))

/-! ### What is shown -/

/-- A field of the bucket covers the bit with the given number. -/
def Covered (bucket : Bucket) (bit : Nat) : Prop :=
  ∃ field ∈ bucket.fields, field.1.firstBit.toNat ≤ bit ∧ bit < field.1.endBit.toNat

instance (bucket : Bucket) (bit : Nat) : Decidable (Covered bucket bit) :=
  inferInstanceAs (Decidable (∃ field ∈ bucket.fields, _))

/-- The character for a bit of the buffer, given by its number, under the fields of a bucket. -/
def bitChar (bucket : Bucket) (buf : List UInt8) (bit : Nat) : Char :=
  match Octets.bit? buf bit with
  | some true => '1'
  | some false => '0'
  | none => if Covered bucket bit then 'X' else ' '

/-- The characters of a column of groups of four, without the one that stands behind each group. -/
def ungrouped : List Char → List Char
  | a :: b :: c :: d :: _ :: rest => a :: b :: c :: d :: ungrouped rest
  | rest => rest

/-- The column shows the bits of the quadlet. -/
structure ShowsBits (bucket : Bucket) (buf : List UInt8) (quadlet : Nat) (column : String) : Prop
    where
  length_eq : column.toList.length = 39
  /-- There are blanks between the groups. -/
  blank : ∀ group < 7, column.toList[5 * group + 4]? = some ' '
  /-- The groups are the 32 bits, each at its number in the buffer. -/
  bits_eq : ungrouped column.toList =
    (List.range 32).map fun bit ↦ bitChar bucket buf (32 * quadlet + bit)

/-- The entry shows the value that the field has in the buffer. -/
def ShowsField (buf : List UInt8) (field : Descriptor × String) (entry : String) : Prop :=
  ∃ value, entry = s!"{field.2}={value}" ∧
    (∀ number, value = Text.decimal number ↔
      DescriptorTable.get [field.1] buf 0 = .ok (some number)) ∧
      (value = "n/a" ↔ buf.length < field.1.requiredOctets.toNat)

/-- The fields of the bucket that lie in the quadlet. -/
def fieldsIn (bucket : Bucket) (quadlet : Nat) : List (Descriptor × String) :=
  bucket.fields.filter fun field ↦ field.1.quadlet.toNat = quadlet

/-- The column shows the fields in the quadlet in their order, or a dash. -/
structure ShowsFields (bucket : Bucket) (buf : List UInt8) (quadlet : Nat) (column : String) : Prop
    where
  dash : fieldsIn bucket quadlet = [] → column = "-"
  entries : fieldsIn bucket quadlet ≠ [] →
    ∃ entries, column = String.join (entries.intersperse " ") ∧
      List.Forall₂ (ShowsField buf) (fieldsIn bucket quadlet) entries

/-- The line shows the quadlet: offset, number, bits and fields. The first two are known, and the
bits have a fixed width, so the columns can be read off the line in one way only. -/
def ShowsQuadlet (bucket : Bucket) (buf : List UInt8) (quadlet : Nat) (line : String) : Prop :=
  ∃ bits fields,
    line = s!"0x{Text.hexUpper 4 (4 * quadlet)}  q{Text.decimalPadded 3 quadlet}   | " ++
      bits ++ " | " ++ fields ∧
    ShowsBits bucket buf quadlet bits ∧ ShowsFields bucket buf quadlet fields

/-- The lines show the bucket. -/
structure ShowsBucket (buf : List UInt8) (bucket : Bucket) (lines : List String) : Prop where
  /-- The title is in front of the quadlets. -/
  head?_eq : lines.head? = some s!"                | {bucket.title}"
  length_eq : lines.length = bucket.quadlets.toNat + 1
  quadlet : ∀ row < bucket.quadlets.toNat, ∃ line, lines[row + 1]? = some line ∧
    ShowsQuadlet bucket buf (bucket.firstQuadlet.toNat + row) line

/-- The text of annotations shows the buffer, with colours and without. -/
structure Faithful (annotations : Annotations) (buf : List UInt8) : Prop where
  /-- There are lines for each bucket in their order, and no others. -/
  buckets : ∃ groups, Text.lines (annotations.render buf false) = groups.flatten ++ [""] ∧
    List.Forall₂ (ShowsBucket buf) annotations.buckets groups
  /-- Colours are all that is added. -/
  colors : Text.withoutEscapes (annotations.render buf true) = annotations.render buf false

/-! ### Clean texts -/

/-- A text with neither line feeds nor escape characters. -/
def Clean (text : String) : Prop := Text.Within (fun c ↦ c ≠ '\n' ∧ c ≠ Text.esc) text

instance (text : String) : Decidable (Clean text) :=
  inferInstanceAs (Decidable (Text.Within _ text))

/-- Title and labels of the bucket are clean. -/
def CleanBucket (bucket : Bucket) : Prop :=
  Clean bucket.title ∧ ∀ field ∈ bucket.fields, Clean field.2

theorem clean_valueText (buf : List UInt8) (d : Descriptor) : Clean (valueText buf d) := by
  rw [valueText]
  split
  · next value _ =>
    cases value with
    | none => exact show Clean "" by decide
    | some number => exact Text.Within.decimal (by decide) number
  · decide

theorem clean_bitDrawn (labels : List String) (label : Option String) (bit : Option Bool) :
    Clean (bitDrawn labels label bit).text := by
  rcases bit with - | value
  · cases label with
    | none => exact show Clean " " by decide
    | some label => exact show Clean "X" by decide
  · cases value with
    | false => exact show Clean "0" by decide
    | true => exact show Clean "1" by decide

theorem clean_inGroups {drawn : Nat → Stroke} (hdrawn : ∀ bit, Clean (drawn bit).text) :
    ∀ stroke ∈ inGroups drawn, Clean stroke.text := by
  intro stroke hstroke
  obtain ⟨bit, -, hstroke⟩ := List.mem_flatMap.mp hstroke
  split_ifs at hstroke
  · rcases List.mem_cons.mp hstroke with rfl | hstroke
    · exact show Clean " " by decide
    · exact List.mem_singleton.mp hstroke ▸ hdrawn bit
  · exact List.mem_singleton.mp hstroke ▸ hdrawn bit

theorem clean_inEntries {entries : List Stroke} (hentries : ∀ entry ∈ entries, Clean entry.text) :
    ∀ stroke ∈ inEntries entries, Clean stroke.text := by
  intro stroke hstroke
  have htext : stroke.text ∈ (inEntries entries).map Stroke.text := List.mem_map_of_mem hstroke
  rw [Listing.text_inEntries] at htext
  split_ifs at htext
  · exact List.mem_singleton.mp htext ▸ show Clean "-" by decide
  · exact Text.Within.intersperse (show Clean " " by decide) (List.forall_mem_map.mpr hentries) _
      htext

theorem clean_rowDrawn {octet quadlet : Nat} {bits entries : List Stroke}
    (hbits : ∀ stroke ∈ bits, Clean stroke.text)
    (hentries : ∀ stroke ∈ entries, Clean stroke.text) :
    ∀ stroke ∈ rowDrawn octet quadlet bits entries, Clean stroke.text := by
  intro stroke hstroke
  simp only [rowDrawn, List.mem_append, List.mem_singleton] at hstroke
  rcases hstroke with ((rfl | hstroke) | rfl) | hstroke
  · have hoffset := (show Clean "0x" by decide).append
      (Text.Within.hexUpper (by decide) 4 octet)
    have hnumber := (show Clean "  q" by decide).append
      (Text.Within.decimalPadded (by decide) 3 quadlet)
    have hfront := (hoffset.append hnumber).append (show Clean "   | " by decide)
    rwa [← String.append_assoc] at hfront
  · exact hbits stroke hstroke
  · exact show Clean " | " by decide
  · exact hentries stroke hstroke

/-- **All strokes of a bucket are clean** if title and labels are. -/
theorem clean_bucketLines (labels : List String) {bucket : Bucket} (hbucket : CleanBucket bucket)
    (buf : List UInt8) :
    ∀ line ∈ bucketLines labels bucket buf, ∀ stroke ∈ line, Clean stroke.text := by
  intro line hline
  rcases List.mem_cons.mp hline with rfl | hline
  · intro stroke hstroke
    rw [List.mem_singleton.mp hstroke]
    exact (show Clean "                | " by decide).append hbucket.1
  obtain ⟨quadlet, -, rfl⟩ := List.mem_map.mp hline
  refine clean_rowDrawn (clean_inGroups fun bit ↦ clean_bitDrawn labels _ _) (clean_inEntries ?_)
  refine List.forall_mem_map.mpr fun field hfield ↦ ?_
  have hlabel := (hbucket.2 field (List.mem_of_mem_filter hfield)).append
    (show Clean "=" by decide)
  exact hlabel.append (clean_valueText buf field.1)

/-! ### Numbers of bits -/

/-- **The number of a bit is exact** in a quadlet that ends inside the words. -/
theorem toNat_bit {quadlet : UInt64} (hquadlet : 32 * quadlet.toNat + 32 ≤ 2 ^ 64) {bit : Nat}
    (hbit : bit < 32) : (quadlet * 32 + .ofNat bit).toNat = 32 * quadlet.toNat + bit := by
  simp only [UInt64.toNat_add, UInt64.toNat_mul, UInt64.toNat_ofNat', UInt64.reduceToNat]
  omega

theorem bitAt?_eq {buf : List UInt8} (hbuf : 8 * buf.length < 2 ^ 64) (number : UInt64) :
    bitAt? buf number = Octets.bit? buf number.toNat := by
  have hbits : (UInt64.ofNat buf.length * 8).toNat = 8 * buf.length := by
    simp only [UInt64.toNat_mul, UInt64.toNat_ofNat', UInt64.reduceToNat]
    omega
  rw [bitAt?]
  split
  · rfl
  next hbehind =>
    rw [UInt64.lt_iff_toNat_lt, hbits, ← Octets.isSome_bit?_iff,
      Option.not_isSome_iff_eq_none] at hbehind
    exact hbehind.symm

theorem covers_iff {d : Descriptor} {number : UInt64} :
    d.covers number = true ↔ d.firstBit.toNat ≤ number.toNat ∧ number.toNat < d.endBit.toNat := by
  simp only [Descriptor.covers, Bool.and_eq_true, decide_eq_true_eq, UInt64.le_iff_toNat_le,
    UInt64.lt_iff_toNat_lt]

/-- A field that does not wrap has its bits in its quadlet. -/
theorem quadlet_eq_of_covers {d : Descriptor} (hd : d.Addressable) {quadlet bit : Nat}
    (hbit : bit < 32)
    (hcovers : d.firstBit.toNat ≤ 32 * quadlet + bit ∧ 32 * quadlet + bit < d.endBit.toNat) :
    d.quadlet.toNat = quadlet := by
  obtain ⟨f, hf, rfl⟩ := hd.exists_field
  rw [hf.toNat_firstBit, hf.toNat_endBit, ← BitField.covers_iff] at hcovers
  have hbounds := BitField.bounds_of_covers hcovers
  rw [hf.toNat_quadlet]
  omega

theorem filter_fields_eq (bucket : Bucket) (quadlet : UInt64) :
    bucket.fields.filter (fun field ↦ field.1.quadlet = quadlet) =
      fieldsIn bucket quadlet.toNat := by
  simp only [fieldsIn, UInt64.toNat_inj]

section

variable {bucket : Bucket} {buf : List UInt8} {quadlet : UInt64}
  (hbucket : bucket.Addressable) (hbuf : 8 * buf.length < 2 ^ 64)
  (hquadlet : 32 * quadlet.toNat + 32 ≤ 2 ^ 64) (labels : List String)

include hbucket hquadlet

omit hquadlet in
/-- A bit is covered by a field of the bucket if and only if one in its quadlet covers it. -/
theorem covered_iff {quadlet bit : Nat} (hbit : bit < 32) :
    Covered bucket (32 * quadlet + bit) ↔
      ∃ field ∈ fieldsIn bucket quadlet, field.1.firstBit.toNat ≤ 32 * quadlet + bit ∧
        32 * quadlet + bit < field.1.endBit.toNat := by
  constructor
  · rintro ⟨field, hfield, hcovers⟩
    have hin := quadlet_eq_of_covers (hbucket.2 field hfield) hbit hcovers
    exact ⟨field, List.mem_filter.mpr ⟨hfield, decide_eq_true hin⟩, hcovers⟩
  · rintro ⟨field, hfield, hcovers⟩
    exact ⟨field, List.mem_of_mem_filter hfield, hcovers⟩

/-- A bit finds a field among those of its quadlet if and only if it is covered. -/
theorem isSome_find?_covers {bit : Nat} (hbit : bit < 32) :
    ((fieldsIn bucket quadlet.toNat).find?
      fun field ↦ field.1.covers (quadlet * 32 + .ofNat bit)).isSome ↔
        Covered bucket (32 * quadlet.toNat + bit) := by
  rw [covered_iff hbucket hbit, List.find?_isSome]
  simp only [covers_iff, toNat_bit hquadlet hbit]

include hbuf in
/-- A bit is drawn as it is shown in the whole buffer. -/
theorem text_bitStroke_eq {bit : Nat} (hbit : bit < 32) :
    (bitStroke labels (fieldsIn bucket quadlet.toNat) buf quadlet bit).text =
      String.singleton (bitChar bucket buf (32 * quadlet.toNat + bit)) := by
  have hfound := isSome_find?_covers hbucket hquadlet hbit
  simp only [bitStroke, bitChar, bitAt?_eq hbuf, toNat_bit hquadlet hbit, ← hfound]
  rcases Octets.bit? buf (32 * quadlet.toNat + bit) with - | value
  · rcases (fieldsIn bucket quadlet.toNat).find? _ with - | field
    · rfl
    · rfl
  · cases value <;> rfl

omit hbucket hquadlet in
/-- Characters in groups of four, with a blank in front of every group but the first, are found
again as they were. -/
theorem ungrouped_grouped (char : Nat → Char) :
    let column := (List.range 32).flatMap fun bit ↦
      if bit % 4 = 0 ∧ bit ≠ 0 then [' ', char bit] else [char bit]
    column.length = 39 ∧ (∀ group < 7, column[5 * group + 4]? = some ' ') ∧
      ungrouped column = (List.range 32).map char := by
  refine ⟨rfl, fun group hgroup ↦ ?_, rfl⟩
  interval_cases group <;> rfl

include hbuf in
theorem showsBits :
    ShowsBits bucket buf quadlet.toNat (String.join
      ((inGroups (bitStroke labels (fieldsIn bucket quadlet.toNat) buf quadlet)).map
        Stroke.text)) := by
  have hcolumn : (String.join
      ((inGroups (bitStroke labels (fieldsIn bucket quadlet.toNat) buf quadlet)).map
        Stroke.text)).toList =
        (List.range 32).flatMap fun bit ↦
          if bit % 4 = 0 ∧ bit ≠ 0 then [' ', bitChar bucket buf (32 * quadlet.toNat + bit)]
          else [bitChar bucket buf (32 * quadlet.toNat + bit)] := by
    rw [String.toList_join, Listing.text_inGroups, List.flatMap_assoc]
    refine List.flatMap_congr fun bit hbit ↦ ?_
    have htext := text_bitStroke_eq hbucket hbuf hquadlet labels (List.mem_range.mp hbit)
    split_ifs
    · rw [List.flatMap_cons, List.flatMap_singleton, htext, String.toList_singleton]
      rfl
    · rw [List.flatMap_singleton, htext, String.toList_singleton]
  obtain ⟨hlength, hblank, hbits⟩ :=
    ungrouped_grouped fun bit ↦ bitChar bucket buf (32 * quadlet.toNat + bit)
  rw [← hcolumn] at hlength hblank hbits
  exact ⟨hlength, hblank, hbits⟩

end

/-! ### Fields -/

/-- **A value is that of the access by a table**, on the whole buffer. -/
theorem showsField (labels : List String) (buf : List UInt8) {field : Descriptor × String}
    (hfield : field.1.Addressable) : ShowsField buf field (fieldStroke labels buf field).text := by
  refine ⟨valueText buf field.1, rfl, ?_⟩
  have hmissing (number : Nat) : "n/a" ≠ Text.decimal number := by
    intro heq
    have hslash := Text.Within.decimal (p := (· ≠ '/')) (by decide) number '/'
    rw [← heq] at hslash
    exact hslash (by decide) rfl
  have hentry : [field.1][0]? = some field.1 := rfl
  rw [valueText]
  by_cases hshort : buf.length < field.1.requiredOctets.toNat
  · have hget : DescriptorTable.get [field.1] buf 0 =
        .error (.bufferTooSmall 0 field.1.requiredOctets.toNat buf.length) := by
      simp only [DescriptorTable.get, DescriptorTable.lookup, hentry, hshort, if_true]
      rfl
    rw [hget]
    refine ⟨fun number ↦ iff_of_false (hmissing number) fun hvalue ↦ ?_, fun _ ↦ hshort,
      fun _ ↦ rfl⟩
    cases hvalue
  · have hlength := Nat.not_lt.mp hshort
    obtain ⟨f, hf, hdescriptor⟩ := hfield.exists_field
    rw [← hdescriptor, hf.toNat_requiredOctets] at hlength
    have hread : field.1.read? buf = some (f.read buf) := by
      rw [← hdescriptor, hf.read?_descriptor, BitField.read?_eq_some_read hlength]
    rw [DescriptorTable.get_eq_ok hentry (Nat.not_lt.mp hshort), hread]
    refine ⟨fun number ↦ ?_, fun heq ↦ absurd heq.symm (hmissing _), fun h ↦ absurd h hshort⟩
    rw [Except.ok.injEq, Option.some.injEq]
    exact Text.decimal_inj

theorem showsFields (labels : List String) {bucket : Bucket} (hbucket : bucket.Addressable)
    (buf : List UInt8) (quadlet : Nat) :
    ShowsFields bucket buf quadlet (String.join
      ((inEntries ((fieldsIn bucket quadlet).map (fieldStroke labels buf))).map Stroke.text)) := by
  rw [Listing.text_inEntries, List.map_map]
  constructor
  · intro hnone
    rw [hnone]
    rfl
  · intro hsome
    rw [if_neg (by rwa [List.map_eq_nil_iff])]
    refine ⟨_, rfl, List.forall₂_map_right_iff.mpr (List.forall₂_same.mpr fun field hfield ↦ ?_)⟩
    exact showsField labels buf (hbucket.2 field (List.mem_of_mem_filter hfield))

/-! ### Lines -/

theorem rows_eq {bucket : Bucket}
    (hwords : bucket.firstQuadlet.toNat + bucket.quadlets.toNat < 2 ^ 64) :
    rows bucket =
      (List.range' bucket.firstQuadlet.toNat bucket.quadlets.toNat).map .ofNat := by
  have hcount : (bucket.firstQuadlet + bucket.quadlets).toNat - bucket.firstQuadlet.toNat =
      bucket.quadlets.toNat := by
    rw [UInt64.toNat_add, Nat.mod_eq_of_lt hwords, Nat.add_sub_cancel_left]
  simp only [rows, hcount]

section

variable {bucket : Bucket} {buf : List UInt8} (hbucket : bucket.Addressable)
  (hbuf : 8 * buf.length < 2 ^ 64) (labels : List String)

include hbucket hbuf

theorem showsQuadlet {quadlet : UInt64} (hquadlet : 32 * quadlet.toNat + 32 ≤ 2 ^ 64) :
    ShowsQuadlet bucket buf quadlet.toNat
      (Stroke.renderAll false (quadletLine labels bucket buf quadlet)) := by
  have hoctet : (quadlet * 4).toNat = 4 * quadlet.toNat := by
    simp only [UInt64.toNat_mul, UInt64.reduceToNat]
    omega
  refine ⟨_, _, ?_, showsBits hbucket hbuf hquadlet labels,
    showsFields labels hbucket buf quadlet.toNat⟩
  simp only [quadletLine, filter_fields_eq, Listing.plain_rowDrawn, hoctet]

theorem showsBucket :
    ShowsBucket buf bucket ((bucketLines labels bucket buf).map (Stroke.renderAll false)) := by
  have hbits := hbucket.1
  have hwords : bucket.firstQuadlet.toNat + bucket.quadlets.toNat < 2 ^ 64 := by omega
  have hrows := rows_eq hwords
  refine ⟨?_, ?_, fun row hrow ↦ ?_⟩
  · rw [bucketLines, List.map_cons, List.head?_cons, Listing.plain_titleDrawn]
  · rw [List.length_map, bucketLines, List.length_cons, List.length_map, hrows, List.length_map,
      List.length_range']
  · have hnumber : (UInt64.ofNat (bucket.firstQuadlet.toNat + row)).toNat =
        bucket.firstQuadlet.toNat + row := by
      rw [UInt64.toNat_ofNat']
      omega
    have hquadlet : 32 * (UInt64.ofNat (bucket.firstQuadlet.toNat + row)).toNat + 32 ≤ 2 ^ 64 := by
      omega
    have hshows := showsQuadlet hbucket hbuf labels hquadlet
    rw [hnumber] at hshows
    refine ⟨_, ?_, hshows⟩
    rw [bucketLines, hrows, List.map_map, List.map_cons, List.getElem?_cons_succ, List.getElem?_map,
      List.getElem?_map, List.getElem?_range' hrow, Nat.one_mul]
    rfl

end

section

variable {annotations : Annotations}
  (hclean : ∀ bucket ∈ annotations.buckets, CleanBucket bucket) (buf : List UInt8)

include hclean

theorem clean_lines : ∀ line ∈ annotations.lines buf, ∀ stroke ∈ line, Clean stroke.text := by
  intro line hline
  obtain ⟨bucket, hbucket, hline⟩ := List.mem_flatMap.mp hline
  exact clean_bucketLines annotations.labels (hclean bucket hbucket) buf line hline

/-- **The lines of the text are those of the buckets.** -/
theorem lines_render :
    Text.lines (annotations.render buf false) =
      (annotations.buckets.map fun bucket ↦
        (bucketLines annotations.labels bucket buf).map (Stroke.renderAll false)).flatten ++
          [""] := by
  have hfeeds : ∀ text ∈ (annotations.lines buf).map (Stroke.renderAll false),
      Text.Within (· ≠ '\n') text := by
    refine List.forall_mem_map.mpr fun line hline ↦ ?_
    rw [Listing.plain_renderAll]
    refine Text.Within.join (List.forall_mem_map.mpr fun stroke hstroke ↦ ?_)
    exact (clean_lines hclean buf line hline stroke hstroke).mono fun c hc ↦ hc.1
  have hlines := Text.lines_join hfeeds
  rw [List.map_map] at hlines
  rw [render]
  refine hlines.trans ?_
  rw [lines, List.map_flatMap, List.flatMap_def]

end

/-! ### Colours -/

/-- **A painted stroke is the plain one** between escape sequences. -/
theorem fades_render {stroke : Stroke} (h : Clean stroke.text) :
    Text.Fades (stroke.render true) (stroke.render false) := by
  have htext : Text.Fades stroke.text stroke.text := Text.fades_self (h.mono fun c hc ↦ hc.2)
  obtain ⟨text, - | paint⟩ := stroke
  · exact htext
  · have hpaint : Text.Within (Text.isFinal · = false) ("38;5;" ++ Text.decimal paint) :=
      .append (by decide) (.decimal (by decide) paint)
    have hreset : Text.Within (Text.isFinal · = false) "0" := by decide
    have hdrawn := ((Text.fades_color hpaint).append htext).append (Text.fades_color hreset)
    have hsplit : Stroke.render true ⟨text, some paint⟩ =
        "\x1b[" ++ ("38;5;" ++ Text.decimal paint) ++ "m" ++ text ++ ("\x1b[" ++ "0" ++ "m") := by
      rw [show "\x1b[" ++ ("38;5;" ++ Text.decimal paint) =
        "\x1b[" ++ "38;5;" ++ Text.decimal paint from String.append_assoc.symm]
      rfl
    rw [String.append_empty, String.empty_append] at hdrawn
    rw [hsplit]
    exact hdrawn

/-- **Without escape sequences the painted text is the plain one.** -/
theorem withoutEscapes_render {annotations : Annotations}
    (hclean : ∀ bucket ∈ annotations.buckets, CleanBucket bucket) (buf : List UInt8) :
    Text.withoutEscapes (annotations.render buf true) = annotations.render buf false := by
  refine Text.withoutEscapes_eq (Text.Fades.join fun line hline ↦ .append ?_ ?_)
  · exact Text.Fades.join fun stroke hstroke ↦
      fades_render (clean_lines hclean buf line hline stroke hstroke)
  · exact Text.fades_self (by decide)

/-! ### Assembled annotations -/

/-- The title and the labels that are given for a push are clean. Those of a header are its own. -/
def Push.Clean : Push → Prop
  | .header _ => True
  | .plain title _ => Annotations.Clean title
  | .labelled title _ fields =>
    Annotations.Clean title ∧ ∀ field ∈ fields, Annotations.Clean field.2

instance : (push : Push) → Decidable push.Clean
  | .header _ => inferInstanceAs (Decidable True)
  | .plain title _ => inferInstanceAs (Decidable (Annotations.Clean title))
  | .labelled _ _ _ => inferInstanceAs (Decidable (_ ∧ _))

theorem cleanBucket_bucketAt {push : Push} (hclean : push.Clean) (first : UInt64) :
    CleanBucket (push.bucketAt first) := by
  have hpush : Clean push.title ∧ ∀ field ∈ push.fields, Clean field.2 := by
    cases push with
    | header h => cases h <;> decide
    | plain title quadlets => exact ⟨hclean, nofun⟩
    | labelled title quadlets fields => exact hclean
  exact ⟨hpush.1, List.forall_mem_map.mpr hpush.2⟩

open Operation (pushesAll)

theorem cleanBucket_assembled {operations : List Operation}
    (hclean : ∀ push ∈ pushesAll operations, push.Clean) :
    ∀ bucket ∈ (assembled operations).buckets, CleanBucket bucket := by
  intro bucket hbucket
  have hcomposed := composed operations
  obtain ⟨k, hk⟩ := List.getElem?_of_mem hbucket
  obtain ⟨hlt, -⟩ := List.getElem?_eq_some_iff.mp hk
  rw [hcomposed.length_eq] at hlt
  have hpush := List.getElem?_eq_getElem hlt
  obtain ⟨first, hfirst⟩ := hcomposed.bucket_eq k _ hpush
  rw [hfirst] at hk
  obtain rfl := Option.some.inj hk
  exact cleanBucket_bucketAt (hclean _ (List.mem_of_getElem? hpush)) first

/-- **The text of annotations shows every bit and every value as it is in the buffer**, whatever was
pushed and however the operations are nested, as long as no number of a bit wraps. With colours it
shows the same. -/
theorem render_faithful {operations : List Operation}
    (hclean : ∀ push ∈ pushesAll operations, push.Clean)
    (haddressable : (assembled operations).Addressable) {buf : List UInt8}
    (hbuf : 8 * buf.length < 2 ^ 64) : Faithful (assembled operations) buf := by
  have hbuckets := cleanBucket_assembled hclean
  refine ⟨⟨_, lines_render hbuckets buf, ?_⟩, withoutEscapes_render hbuckets buf⟩
  exact List.forall₂_map_right_iff.mpr (List.forall₂_same.mpr fun bucket hbucket ↦
    showsBucket (haddressable bucket hbucket) hbuf (assembled operations).labels)

/-- A common header, two levels down, of which the buffer has one octet. -/
def cutOperations : List Operation :=
  [.push (.header .udp), .extend [.extend [.push (.header .common)], .push (.plain "Payload" 1)]]

theorem render_faithful_cut :
    (∀ push ∈ pushesAll cutOperations, push.Clean) ∧ (assembled cutOperations).Addressable ∧
      8 * [0, 0, 0, 7, 0xFF].length < 2 ^ 64 ∧
        Faithful (assembled cutOperations) [0, 0, 0, 7, 0xFF] :=
  ⟨by decide, by decide, by decide, render_faithful (by decide) (by decide) (by decide)⟩

theorem head?_ungrouped (chars : List Char) : (ungrouped chars).head? = chars.head? := by
  unfold ungrouped
  split <;> rfl

/-- The bits of a quadlet stand in its line from the eighteenth character on. -/
theorem ShowsQuadlet.getElem?_toList {bucket : Bucket} {buf : List UInt8} {line : String}
    (h : ShowsQuadlet bucket buf 0 line) : line.toList[17]? = some (bitChar bucket buf 0) := by
  obtain ⟨bits, fields, rfl, hbits, -⟩ := h
  have hhead := congrArg List.head? hbits.bits_eq
  rw [head?_ungrouped] at hhead
  have hfront : s!"0x{Text.hexUpper 4 (4 * 0)}  q{Text.decimalPadded 3 0}   | ".toList.length =
      17 := by decide +kernel
  have hlength := hbits.length_eq
  generalize s!"0x{Text.hexUpper 4 (4 * 0)}  q{Text.decimalPadded 3 0}   | " = front at hfront ⊢
  rw [String.append_assoc, String.append_assoc, String.toList_append, String.toList_append,
    List.getElem?_append_right (Nat.le_of_eq hfront), hfront, Nat.sub_self,
    List.getElem?_append_left (by omega), ← List.head?_eq_getElem?, hhead]
  rfl

/-- A field far behind its bucket, whose bits have the numbers of the first octet. -/
def farOperations : List Operation :=
  [.push (.labelled "A" 1 [(.mk 0x800000000000000 0 8, "a")])]

/-- **The bits of a field that wraps are not shown as missing.** They are in the first quadlet by
their numbers, and the field is in another one. -/
theorem not_render_faithful_wrapped :
    (∀ push ∈ pushesAll farOperations, push.Clean) ∧ ¬ Faithful (assembled farOperations) [] := by
  refine ⟨by decide, fun hfaithful ↦ ?_⟩
  obtain ⟨groups, hlines, hshows⟩ := hfaithful.buckets
  have htext : Text.lines ((assembled farOperations).render [] false) =
      ["                | A", "0x0000  q000   |                                         | -",
        ""] := by
    decide +kernel
  have hbuckets : (assembled farOperations).buckets =
      [⟨"A", 0, 1, [(.mk 0x800000000000000 0 8, "a")]⟩] := by decide
  rw [hbuckets, List.forall₂_cons_left_iff] at hshows
  obtain ⟨group, rest, hgroup, hrest, rfl⟩ := hshows
  obtain rfl := List.forall₂_nil_left_iff.mp hrest
  obtain ⟨line, hline, hquadlet⟩ := hgroup.quadlet 0 (by decide)
  rw [htext, List.flatten_cons, List.flatten_nil, List.append_nil] at hlines
  have hshown := congrArg (·[1]?) hlines
  simp only [List.getElem?_append_left (List.getElem?_eq_some_iff.mp hline).1, hline] at hshown
  obtain rfl := Option.some.inj hshown
  exact absurd hquadlet.getElem?_toList (by decide +kernel)

end Annotations

end Avtp
