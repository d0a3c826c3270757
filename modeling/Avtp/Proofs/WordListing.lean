import Avtp.Proofs.FaithfulText

/-!
# Listings in machine words

The listing of a capture is put together in exact numbers, and annotations are put together in
machine words. The operations are the same, so what they put together is the same, up to the numbers
that wrap: `Annotations.ofListing` takes each operation on listings to that on annotations, whatever
the numbers are (`ofListing_append`, `ofListing_operations`).

The text is drawn from these numbers, and it is the same if none of them wraps
(`render_ofListing`). The sections of a capture have no more quadlets than the capture has octets,
so for a capture that fits into memory the exact listing is all that there is to know
(`Dump.render_ofListing_listing?`).
-/

namespace Avtp

/-! ### Moving -/

theorem BitField.descriptor_behind (f : BitField) (count : Nat) :
    (f.behind count).descriptor = f.descriptor.behind (.ofNat count) := by
  simp only [descriptor, behind, Descriptor.behind, UInt64.ofNat_add]

/-- The section as a bucket. -/
def Section.bucket (part : Section) : Bucket where
  title := part.title
  firstQuadlet := .ofNat part.firstQuadlet
  quadlets := .ofNat part.quadlets
  fields := part.fields.map fun field ↦ (field.1.descriptor, field.2)

theorem Section.bucket_behind (part : Section) (count : Nat) :
    (part.behind count).bucket = part.bucket.behind (.ofNat count) := by
  simp only [bucket, behind, Bucket.behind, UInt64.ofNat_add, List.map_map, Function.comp_def,
    BitField.descriptor_behind]

/-! ### Operations -/

namespace Annotations

/-- The listing in machine words. -/
def ofListing (listing : Listing) : Annotations :=
  ⟨listing.sections.map Section.bucket, .ofNat listing.quadlets⟩

/-- **Pushing is pushing in words.** -/
theorem ofListing_push (listing : Listing) (title : String) (quadlets : Nat)
    (fields : List (BitField × String)) :
    ofListing (listing.push title quadlets fields) =
      (ofListing listing).push title (.ofNat quadlets)
        (fields.map fun field ↦ (field.1.descriptor, field.2)) := by
  simp only [ofListing, Listing.push, push, List.map_append, List.map_singleton,
    Section.bucket_behind, UInt64.ofNat_add]
  rfl

/-- **Extending is extending in words.** -/
theorem ofListing_append (listing other : Listing) :
    ofListing (listing.append other) = (ofListing listing).append (ofListing other) := by
  simp only [ofListing, Listing.append, append, List.map_append, List.map_map, Function.comp_def,
    Section.bucket_behind, UInt64.ofNat_add]

/-- **A listing is put together as the annotations are**, by whatever operation. -/
theorem ofListing_operations (listing : Listing) :
    (∀ h, ofListing (listing.pushHeader h) = (ofListing listing).pushHeader h) ∧
      (∀ title quadlets, ofListing (listing.pushOpaque title quadlets) =
        (ofListing listing).pushOpaque title (.ofNat quadlets)) ∧
        ∀ h, ofListing (listing.append (.ofHeader h)) =
          (ofListing listing).append (.ofHeader h) := by
  have hheader (listing : Listing) (h : Header) :
      ofListing (listing.pushHeader h) = (ofListing listing).pushHeader h := by
    rw [Listing.pushHeader, ofListing_push, List.map_map]
    rfl
  refine ⟨hheader listing, fun title quadlets ↦ ofListing_push listing title quadlets [],
    fun h ↦ ?_⟩
  rw [ofListing_append, Listing.ofHeader, hheader]
  rfl

theorem labels_ofListing (listing : Listing) : (ofListing listing).labels = listing.labels := by
  simp only [labels, Listing.labels, ofListing, Section.bucket, List.flatMap_map, List.map_flatMap,
    List.map_map, Function.comp_def]

end Annotations

/-! ### Lines -/

/-- The numbers of all bits of the section, and those of its fields, are machine words. -/
def Section.Addressable (part : Section) : Prop :=
  32 * (part.firstQuadlet + part.quadlets) ≤ 2 ^ 64 ∧ ∀ field ∈ part.fields, field.1.Addressable

namespace Annotations

open Listing (inGroups)

section

variable {part : Section} {buf : List UInt8} (hpart : part.Addressable)
  (hbuf : 8 * buf.length < 2 ^ 64) (labels : List String)

include hpart

theorem toNat_firstQuadlet_bucket : part.bucket.firstQuadlet.toNat = part.firstQuadlet := by
  have hbits := hpart.1
  rw [Section.bucket, UInt64.toNat_ofNat']
  omega

theorem toNat_quadlets_bucket : part.bucket.quadlets.toNat = part.quadlets := by
  have hbits := hpart.1
  rw [Section.bucket, UInt64.toNat_ofNat']
  omega

/-- Those fields of the bucket lie in a quadlet that do so in the section. -/
theorem filter_fields_bucket {quadlet : UInt64} :
    part.bucket.fields.filter (fun field ↦ field.1.quadlet = quadlet) =
      (part.fields.filter fun field ↦ field.1.quadlet = quadlet.toNat).map
        fun field ↦ (field.1.descriptor, field.2) := by
  rw [Section.bucket, List.filter_map]
  congr 1
  refine List.filter_congr fun field hfield ↦ ?_
  rw [Function.comp_apply, decide_eq_decide, ← UInt64.toNat_inj,
    (hpart.2 field hfield).toNat_quadlet]

omit hpart in
/-- The first field that covers a bit is the same. -/
theorem find?_covers_map {fields : List (BitField × String)}
    (hfields : ∀ field ∈ fields, field.1.Addressable) (number : UInt64) :
    ((fields.map fun field ↦ (field.1.descriptor, field.2)).find?
      fun field ↦ field.1.covers number).map Prod.snd =
        (fields.find? fun field ↦ field.1.covers number.toNat).map Prod.snd := by
  have hcovers : ∀ field ∈ fields,
      field.1.descriptor.covers number = field.1.covers number.toNat :=
    fun field hfield ↦ (hfields field hfield).covers_descriptor number
  rw [List.find?_map, Option.map_map, ← List.head?_filter, ← List.head?_filter]
  exact congrArg (fun found ↦ found.head?.map Prod.snd) (List.filter_congr hcovers)

omit hpart in
theorem valueText_descriptor {f : BitField} (hf : f.Addressable) (buf : List UInt8) :
    valueText buf f.descriptor = Listing.valueText buf f := by
  have hget := FieldTable.get_map (List.forall_mem_singleton.mpr hf) buf 0
  rw [List.map_singleton] at hget
  rw [valueText, hget, Listing.valueText]
  by_cases hlength : f.requiredOctets ≤ buf.length
  · rw [FieldTable.get_eq_ok rfl hlength, BitField.read?_eq_some_read hlength]
    rfl
  · have hread : f.read? buf = none := by
      rwa [← Option.not_isSome_iff_eq_none, BitField.isSome_read?_iff]
    simp only [FieldTable.get, FieldTable.lookup, List.getElem?_cons_zero,
      Nat.lt_of_not_le hlength, if_true, hread]
    rfl

include hbuf

/-- **A line is the same in words.** -/
theorem quadletLine_bucket {quadlet : UInt64} (hquadlet : 32 * quadlet.toNat + 32 ≤ 2 ^ 64) :
    quadletLine labels part.bucket buf quadlet =
      Listing.quadletLine labels part buf quadlet.toNat := by
  have hoctet : (quadlet * 4).toNat = 4 * quadlet.toNat := by
    simp only [UInt64.toNat_mul, UInt64.reduceToNat]
    omega
  have hfields : ∀ field ∈ part.fields.filter fun field ↦ field.1.quadlet = quadlet.toNat,
      field.1.Addressable :=
    fun field hfield ↦ hpart.2 field (List.mem_of_mem_filter hfield)
  have hbits : inGroups (bitStroke labels ((part.fields.filter
      fun field ↦ field.1.quadlet = quadlet.toNat).map fun field ↦ (field.1.descriptor, field.2))
        buf quadlet) =
      Listing.bitStrokes labels (part.fields.filter fun field ↦ field.1.quadlet = quadlet.toNat) buf
        quadlet.toNat := by
    rw [Listing.bitStrokes, inGroups, inGroups]
    refine List.flatMap_congr fun bit hbit ↦ ?_
    have hnumber := toNat_bit hquadlet (List.mem_range.mp hbit)
    simp only [bitStroke, Listing.bitStroke, find?_covers_map hfields, bitAt?_eq hbuf, hnumber,
      Octets.bit?_drop_quadlet]
  have hentries : ((part.fields.filter fun field ↦ field.1.quadlet = quadlet.toNat).map
      fun field ↦ (field.1.descriptor, field.2)).map (fieldStroke labels buf) =
        (part.fields.filter fun field ↦ field.1.quadlet = quadlet.toNat).map
          (Listing.fieldStroke labels buf) := by
    rw [List.map_map]
    refine List.map_congr_left fun field hfield ↦ ?_
    rw [Function.comp_apply, fieldStroke, valueText_descriptor (hfields field hfield)]
    rfl
  simp only [quadletLine, filter_fields_bucket hpart, hoctet, hbits, hentries]
  rfl

theorem bucketLines_bucket :
    bucketLines labels part.bucket buf = Listing.sectionLines labels part buf := by
  have hbits := hpart.1
  have hfirst := toNat_firstQuadlet_bucket hpart
  have hcount := toNat_quadlets_bucket hpart
  rw [bucketLines, rows_eq (by omega), List.map_map, Listing.sectionLines, hfirst, hcount]
  congr 1
  refine List.map_congr_left fun quadlet hquadlet ↦ ?_
  obtain ⟨-, hlt⟩ := List.mem_range'_1.mp hquadlet
  have hnumber : (UInt64.ofNat quadlet).toNat = quadlet := by
    rw [UInt64.toNat_ofNat']
    omega
  have hword : 32 * (UInt64.ofNat quadlet).toNat + 32 ≤ 2 ^ 64 := by omega
  have hline := quadletLine_bucket hpart hbuf labels hword
  rwa [hnumber] at hline

end

/-- **The text of a listing is that of the annotations** in machine words, if none of them wraps. -/
theorem render_ofListing {listing : Listing} (hparts : ∀ part ∈ listing.sections, part.Addressable)
    {buf : List UInt8} (hbuf : 8 * buf.length < 2 ^ 64) (color : Bool) :
    (ofListing listing).render buf color = listing.render buf color := by
  have hlines : (ofListing listing).lines buf = listing.lines buf := by
    rw [lines, labels_ofListing, ofListing, List.flatMap_map, Listing.lines]
    exact List.flatMap_congr fun part hpart ↦
      bucketLines_bucket (hparts part hpart) hbuf listing.labels
  rw [render, hlines, Listing.render]

end Annotations

/-! ### Captures -/

namespace Dump

open Listing (Block octetsOf quadletsOf)

/-- Blocks have no more quadlets than octets. -/
theorem quadletsOf_le_length (blocks : List Block) :
    quadletsOf blocks ≤ (octetsOf blocks).length := by
  induction blocks with
  | nil => exact Nat.le_refl 0
  | cons block blocks ih =>
    rw [quadletsOf, Listing.octetsOf_cons, List.length_append, Block.quadlets, quadletsFor]
    omega

/-- The sections of a capture are addressable, if its octets are. -/
theorem addressable_sections {udp : Bool} {buf : List UInt8} {listing : Listing}
    (h : listing? udp buf = .ok listing) (hbuf : 32 * buf.length < 2 ^ 64) :
    ∀ part ∈ listing.sections, part.Addressable := by
  rw [listing?_eq] at h
  obtain ⟨parts, hparts, rfl⟩ := map_eq_ok_iff.mp h
  have hof := parts?_of hparts
  intro part hpart
  obtain ⟨k, hk⟩ := List.mem_iff_getElem?.mp hpart
  rw [Listing.getElem?_sections_ofBlocks] at hk
  obtain ⟨block, hblock, rfl⟩ := Option.map_eq_some_iff.mp hk
  -- A section ends where the blocks up to its own do, and these are in the capture.
  have hend : quadletsOf (parts.blocks.take k) + block.quadlets ≤ buf.length := by
    have hlength : k + 1 ≤ parts.blocks.length := (List.getElem?_eq_some_iff.mp hblock).1
    have hle := Listing.quadletsOf_take_le parts.blocks hlength
    rw [List.take_length, Listing.quadletsOf_take_succ hblock] at hle
    have hoctets := quadletsOf_le_length parts.blocks
    rw [hof.octets_eq] at hoctets
    exact Nat.le_trans hle hoctets
  refine ⟨Nat.le_of_lt (Nat.lt_of_le_of_lt (Nat.mul_le_mul_left 32 hend) hbuf), ?_⟩
  cases block with
  | plain title octets => exact nofun
  | header h octets =>
    have hsize := Parts.length_of_header hof (List.mem_of_getElem? hblock)
    rw [Block.quadlets, Block.octets, hsize, quadletsFor] at hend
    simp only [Block.sectionAt, Block.fields, List.map_map, List.forall_mem_map,
      Function.comp_apply]
    intro slot _
    have hrequired := Header.place_requiredOctets_le slot
    have hplaced := (Header.place slot).offset_add_width_le
    simp only [BitField.requiredOctets] at hrequired
    simp only [BitField.Addressable, BitField.endBit, BitField.firstBit, BitField.behind]
    omega

/-- **The text of a capture is the one in machine words**, if the numbers of its bits are. -/
theorem render_ofListing_listing? {udp : Bool} {buf : List UInt8} {listing : Listing}
    (h : listing? udp buf = .ok listing) (hbuf : 32 * buf.length < 2 ^ 64) (color : Bool) :
    (Annotations.ofListing listing).render buf color = listing.render buf color :=
  Annotations.render_ofListing (addressable_sections h hbuf) (by omega) color

end Dump

end Avtp
