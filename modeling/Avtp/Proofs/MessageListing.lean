import Avtp.Proofs.PlainListing

/-!
# The listing of a message

The listing of a message is made from its type and its length. No octet is looked at for it, and yet
it has to fit the octets: if a message were listed under a header that it is too short for, there
would be fields behind its end, without a value, or with one that belongs to the next message.

That it fits is shown on blocks. Those that have been taken apart (`Known`) take whole quadlets, so
their sections begin where their octets do, and a header is as long as its fields need
(`inside_ofBlocks`). So nothing is missing when their listing is drawn on their octets
(`unmarked_ofBlocks`), and colours only add escape sequences (`Unmarked.render`).

A message consists of such blocks, whether its extent was read as that of any message or as that of
a format. The latter adds the length of the header and the padding, and the listing depends on
neither.
-/

namespace Avtp

/-! ### Drawing in colour -/

namespace Listing.Unmarked

theorem stroke {drawn : Stroke} (h : Unmarked drawn.text) (color : Bool) :
    Unmarked (drawn.render color) := by
  obtain ⟨text, - | paint⟩ := drawn
  · exact h
  · cases color with
    | false => exact h
    | true =>
      have hpaint := (show Unmarked "\x1b[38;5;" by decide).append (decimal paint)
      exact ((hpaint.append (show Unmarked "m" by decide)).append h).append
        (show Unmarked "\x1b[0m" by decide)

/-- **What is not missing without colour is not missing with it.** -/
theorem render {listing : Listing} {buf : List UInt8} (h : Unmarked (listing.render buf false))
    (color : Bool) : Unmarked (listing.render buf color) := by
  refine join (List.forall_mem_map.mpr fun line hline ↦ ?_)
  have hplain : Unmarked (Stroke.renderAll false line ++ "\n") :=
    Text.Within.of_join h _ (List.mem_map_of_mem hline)
  have htexts : Unmarked (String.join (line.map Stroke.text)) := by
    rw [← plain_renderAll]
    exact Text.Within.of_append_left hplain
  refine append (join (List.forall_mem_map.mpr fun drawn hdrawn ↦ ?_)) (by decide)
  exact stroke (Text.Within.of_join htexts _ (List.mem_map_of_mem hdrawn)) color

end Listing.Unmarked

/-! ### Blocks that were taken apart -/

namespace Listing

open Dump (Known whole_of_known)

/-- All fields of the listing lie inside that many octets. -/
def Inside (listing : Listing) (length : Nat) : Prop :=
  ∀ part ∈ listing.sections, ∀ field ∈ part.fields, field.1.requiredOctets ≤ length

/-- Every field of the listing is in a line of its section. -/
def Lined (listing : Listing) : Prop :=
  ∀ part ∈ listing.sections, ∀ field ∈ part.fields,
    part.firstQuadlet ≤ field.1.quadlet ∧ field.1.quadlet < part.firstQuadlet + part.quadlets

theorem exists_of_mem_sections {blocks : List Block} {part : Section}
    (hpart : part ∈ (ofBlocks blocks).sections) :
    ∃ (k : Nat) (block : Block), blocks[k]? = some block ∧
      part = block.sectionAt (quadletsOf (blocks.take k)) := by
  obtain ⟨k, hk⟩ := List.getElem?_of_mem hpart
  rw [getElem?_sections_ofBlocks, Option.map_eq_some_iff] at hk
  obtain ⟨block, hblock, rfl⟩ := hk
  exact ⟨k, block, hblock, rfl⟩

/-- The fields of a header need no more octets than it has. -/
theorem requiredOctets_le_of_known {block : Block} (hknown : Known block)
    {field : BitField × String} (hfield : field ∈ block.fields) :
    field.1.requiredOctets ≤ block.octets.length := by
  cases hknown with
  | header hlength =>
    obtain ⟨slot, -, rfl⟩ := List.mem_map.mp hfield
    rw [Block.octets, hlength]
    exact Header.place_requiredOctets_le slot
  | payload _ => exact absurd hfield List.not_mem_nil

section

variable {blocks : List Block} (hknown : ∀ block ∈ blocks, Known block)

include hknown

/-- **Every field lies inside the octets of the blocks.** -/
theorem inside_ofBlocks : (ofBlocks blocks).Inside (octetsOf blocks).length := by
  intro part hpart field hfield
  obtain ⟨k, block, hblock, rfl⟩ := exists_of_mem_sections hpart
  obtain ⟨own, hown, rfl⟩ := List.mem_map.mp hfield
  have hroom := requiredOctets_le_of_known (hknown block (List.mem_of_getElem? hblock)) hown
  -- The field is moved by the octets in front of its block, and these are there as well.
  have hfront := four_mul_quadletsOf_take (whole_of_known hknown) k
  have hlength := congrArg List.length (drop_octetsOf hblock)
  have hpos : 0 < own.1.requiredOctets := Nat.mul_pos (by decide) (Nat.succ_pos _)
  rw [List.length_drop, List.length_append] at hlength
  rw [BitField.requiredOctets_behind]
  omega

theorem lined_ofBlocks : (ofBlocks blocks).Lined := by
  intro part hpart field hfield
  obtain ⟨k, block, hblock, rfl⟩ := exists_of_mem_sections hpart
  obtain ⟨own, hown, rfl⟩ := List.mem_map.mp hfield
  have hroom := requiredOctets_le_of_known (hknown block (List.mem_of_getElem? hblock)) hown
  simp only [Block.sectionAt, BitField.quadlet_behind, Block.quadlets, quadletsFor]
  rw [BitField.requiredOctets] at hroom
  omega

/-- **The listing is drawn on the octets of the blocks with nothing missing.** -/
theorem unmarked_ofBlocks (color : Bool) :
    Unmarked ((ofBlocks blocks).render (octetsOf blocks) color) := by
  have hplaced : ∀ k (block : Block), blocks[k]? = some block →
      block.PlacedAt (octetsOf blocks) (quadletsOf (blocks.take k)) := by
    rintro k _ hblock h octets rfl
    obtain ⟨hlength⟩ := hknown _ (List.mem_of_getElem? hblock)
    refine ⟨hlength, octetsOf (blocks.drop (k + 1)), ?_⟩
    rw [four_mul_quadletsOf_take (whole_of_known hknown) k]
    exact drop_octetsOf hblock
  refine Unmarked.render ?_ color
  rw [render_ofBlocks hplaced]
  refine .join (List.forall_mem_map.mpr fun line hline ↦ .append ?_ (by decide))
  exact Unmarked.linesFrom (fun block hblock ↦ (hknown block hblock).unmarked_title) line hline

end

end Listing

/-! ### Messages -/

namespace Acf.MessageExtent

open Dump (messageBlocks known_messageBlocks octetsOf_messageBlocks)
open Listing (Unmarked ofBlocks octetsOf)

variable {extent : MessageExtent} {buf : List UInt8}

/-- The extent was read from the start of the buffer, either as that of any message or as that of a
message of some format. -/
def ReadFrom (extent : MessageExtent) (buf : List UInt8) : Prop :=
  ofOctets? buf = .ok extent ∨ ∃ format, ofFormat? format buf = .ok extent

/-- The octets from the start of the buffer on, up to the length of the message. -/
def view (extent : MessageExtent) (buf : List UInt8) : AcfView := ⟨buf.take extent.length⟩

namespace ReadFrom

/-- **A message has the type and the length that it announces**, in whichever way it was read. -/
theorem announced (h : extent.ReadFrom buf) :
    4 ≤ extent.length ∧ extent.length ≤ buf.length ∧
      extent.type = announcedType buf ∧ extent.length = announcedLength buf := by
  rcases h with hextent | ⟨format, hextent⟩
  · obtain ⟨hmin, hmax, rfl⟩ := ofOctets?_eq_ok_iff.mp hextent
    exact ⟨hmin, hmax, rfl, rfl⟩
  · obtain ⟨hmin, hmax, -, -, rfl⟩ := ofFormat?_eq_ok_iff.mp hextent
    exact ⟨hmin, hmax, rfl, rfl⟩

theorem length_view (h : extent.ReadFrom buf) :
    (extent.view buf).octets.length = extent.length := by
  rw [view, List.length_take, Nat.min_eq_left h.announced.2.1]

theorem complete (h : extent.ReadFrom buf) : Complete (extent.view buf) := by
  obtain ⟨hmin, hmax, -, hlength⟩ := h.announced
  have hextent := complete_of_ofOctets?
    (ofOctets?_eq_ok_iff.mpr ⟨hlength ▸ hmin, hlength ▸ hmax, rfl⟩)
  rwa [← hlength] at hextent

theorem type_eq (h : extent.ReadFrom buf) : extent.type = (extent.view buf).msgType := by
  have hannounced := announcedType_append (buf.drop extent.length) h.complete.four_le
  rw [view, List.take_append_drop] at hannounced
  exact h.announced.2.2.1.trans hannounced

/-- The listing is that of the header and of the octets behind it. -/
theorem listing_eq (h : extent.ReadFrom buf) :
    extent.listing = ofBlocks (messageBlocks (extent.view buf)) :=
  Dump.listing_eq_ofBlocks h.complete h.type_eq h.length_view.symm

end ReadFrom

/-- The listing covers the message at the start of the buffer, and nothing else. -/
structure Covered (extent : MessageExtent) (buf : List UInt8) : Prop where
  /-- A message is not empty. -/
  length_pos : 0 < extent.length
  /-- It ends with a quadlet. -/
  four_dvd_length : 4 ∣ extent.length
  /-- It lies in the buffer. -/
  length_le : extent.length ≤ buf.length
  /-- It is listed as its header and the octets behind it. -/
  listing_eq : extent.listing = ofBlocks (messageBlocks (extent.view buf))
  /-- The listing has its quadlets. -/
  four_mul_quadlets : 4 * extent.listing.quadlets = extent.length
  /-- All fields of the listing lie inside of it. -/
  inside : extent.listing.Inside extent.length
  /-- Each of them is in a line of its section. -/
  lined : extent.listing.Lined
  /-- Drawn on the octets of the message, with colours or without, neither a bit nor a value is
  missing. -/
  unmarked : ∀ color, Unmarked (extent.listing.render (buf.take extent.length) color)

/-- **The listing of a message covers exactly the message**, whatever its type is and however short
it is for its type. -/
theorem listing_covered (h : extent.ReadFrom buf) : extent.Covered buf := by
  obtain ⟨hmin, hmax, -⟩ := h.announced
  have hknown := known_messageBlocks h.complete
  have hoctets : octetsOf (messageBlocks (extent.view buf)) = buf.take extent.length :=
    octetsOf_messageBlocks _
  have hlength : (octetsOf (messageBlocks (extent.view buf))).length = extent.length :=
    (congrArg List.length hoctets).trans h.length_view
  have hquadlets : 4 * extent.listing.quadlets = extent.length := by
    rw [h.listing_eq, Listing.quadlets_ofBlocks,
      Listing.four_mul_quadletsOf (Dump.whole_of_known hknown), hlength]
  have hinside := Listing.inside_ofBlocks hknown
  have hlined := Listing.lined_ofBlocks hknown
  rw [← h.listing_eq] at hlined
  rw [← h.listing_eq, hlength] at hinside
  refine ⟨by omega, hquadlets ▸ Nat.dvd_mul_right 4 _, hmax, h.listing_eq, hquadlets, hinside,
    hlined, fun color ↦ ?_⟩
  have hunmarked := Listing.unmarked_ofBlocks hknown color
  rwa [← h.listing_eq, hoctets] at hunmarked

/-- A message of the CAN type that is too short for a CAN header, in front of something else. -/
def shortMessage : List UInt8 := [0x02, 0x02, 0xC0, 0, 0xAA, 0xBB, 0xCC, 0xDD, 0xFF]

/-- A LIN message with an octet of payload and three of padding. -/
def paddedMessage : List UInt8 := [0x06, 0x04, 0xC0, 0x11, 0, 0, 0, 0, 0, 0, 0, 0, 0x5A, 0, 0, 0]

/-- The one is listed under the header that all messages share, and the other one under its own. -/
theorem listing_covered_short :
    ofOctets? shortMessage = .ok ⟨.can, 8, 4, 0⟩ ∧ Covered ⟨.can, 8, 4, 0⟩ shortMessage ∧
      ofFormat? .lin paddedMessage = .ok ⟨.lin, 16, 12, 3⟩ ∧
        Covered ⟨.lin, 16, 12, 3⟩ paddedMessage :=
  have hshort : ofOctets? shortMessage = .ok ⟨.can, 8, 4, 0⟩ := by decide +kernel
  have hpadded : ofFormat? .lin paddedMessage = .ok ⟨.lin, 16, 12, 3⟩ := by decide +kernel
  ⟨hshort, listing_covered (.inl hshort), hpadded, listing_covered (.inr ⟨.lin, hpadded⟩)⟩

end Acf.MessageExtent

end Avtp
