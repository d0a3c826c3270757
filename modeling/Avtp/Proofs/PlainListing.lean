import Avtp.Listing.Render
import Avtp.Proofs.CaptureTiling
import Avtp.Proofs.FieldPlacement
import Avtp.Proofs.TextReading

/-!
# The text of a dump

A line of a listing is drawn from the whole buffer, at the places to which the sections in front
have moved its fields. `Block.row` is the same line drawn from the octets of its own block: the
values in it are those that the header has when nothing is in front of it. For a dump the two agree,
because every header begins where its section does (`plain_quadletLine`).

A listing that reaches behind its buffer shows it, by `X` for a bit and by `n/a` for a value. No
dump does (`listing?_shows`): a header is only listed where it is complete, and octets without
fields have nothing to miss.
-/

namespace Avtp

namespace Listing

/-! ### Lines of a block -/

/-- A bit as a character. Behind the end of the buffer there is a blank. -/
def bitText (buf : List UInt8) (bit : Nat) : String :=
  match Octets.bit? buf bit with
  | some true => "1"
  | some false => "0"
  | none => " "

/-- The bits of a quadlet in groups of four. -/
def quadletText (buf : List UInt8) (quadlet : Nat) : String :=
  String.join ((List.range 32).flatMap fun bit ↦
    if bit % 4 = 0 ∧ bit ≠ 0 then [" ", bitText buf (32 * quadlet + bit)]
    else [bitText buf (32 * quadlet + bit)])

namespace Block

/-- The fields in a quadlet of the block with their values, in the order of the table. They are read
from the octets of the block. -/
def entries : Block → Nat → List String
  | header h octets, row =>
    (h.slots.filter fun slot ↦ (Header.place slot).quadlet = row).map fun slot ↦
      s!"{(Header.row slot).label}={Text.decimal ((Header.place slot).read octets)}"
  | plain .., _ => []

/-- The fields in a quadlet of the block with their values, or a dash if there are none. -/
def entriesText (block : Block) (row : Nat) : String :=
  if block.entries row = [] then "-" else String.join ((block.entries row).intersperse " ")

/-- The line of a quadlet of a block that is listed from quadlet `first` on. -/
def row (block : Block) (buf : List UInt8) (first row : Nat) : String :=
  s!"0x{Text.hexUpper 4 (4 * (first + row))}  q{Text.decimalPadded 3 (first + row)}   | " ++
    quadletText buf (first + row) ++ " | " ++ block.entriesText row

/-- The lines of a block: its title, then its quadlets. -/
def lines (block : Block) (buf : List UInt8) (first : Nat) : List String :=
  s!"                | {block.title}" :: (List.range block.quadlets).map (block.row buf first)

end Block

/-- The lines of blocks that follow each other from a quadlet on. -/
def linesFrom (buf : List UInt8) : Nat → List Block → List String
  | _, [] => []
  | first, block :: blocks => block.lines buf first ++ linesFrom buf (first + block.quadlets) blocks

/-! ### Drawing without colour -/

theorem plain_renderAll (strokes : List Stroke) :
    Stroke.renderAll false strokes = String.join (strokes.map Stroke.text) := by
  rw [Stroke.renderAll]
  congr 1
  refine List.map_congr_left fun stroke _ ↦ ?_
  rw [Stroke.render]
  split <;> rfl

theorem map_intersperse {α β : Type} (f : α → β) (between : α) (list : List α) :
    (list.intersperse between).map f = (list.map f).intersperse (f between) := by
  induction list with
  | nil => rfl
  | cons first list ih =>
    cases list with
    | nil => rfl
    | cons second list => simpa using ih

theorem plain_titleDrawn (title : String) :
    Stroke.renderAll false (titleDrawn title) = s!"                | {title}" := by
  rw [plain_renderAll, titleDrawn, List.map_singleton, String.join_cons, String.join_nil,
    String.append_empty]
  rfl

theorem plain_rowDrawn (octet quadlet : Nat) (bits entries : List Stroke) :
    Stroke.renderAll false (rowDrawn octet quadlet bits entries) =
      s!"0x{Text.hexUpper 4 octet}  q{Text.decimalPadded 3 quadlet}   | " ++
        String.join (bits.map Stroke.text) ++ " | " ++ String.join (entries.map Stroke.text) := by
  rw [plain_renderAll, rowDrawn]
  simp only [List.map_append, String.join_append]
  rfl

/-- The text of the bits is that of each of them. -/
theorem text_inGroups (drawn : Nat → Stroke) :
    (inGroups drawn).map Stroke.text = (List.range 32).flatMap fun bit ↦
      if bit % 4 = 0 ∧ bit ≠ 0 then [" ", (drawn bit).text] else [(drawn bit).text] := by
  rw [inGroups, List.map_flatMap]
  refine List.flatMap_congr fun bit _ ↦ ?_
  split_ifs
  · rfl
  · rfl

theorem text_inGroups_congr {drawn other : Nat → Stroke}
    (h : ∀ bit < 32, (drawn bit).text = (other bit).text) :
    (inGroups drawn).map Stroke.text = (inGroups other).map Stroke.text := by
  rw [text_inGroups, text_inGroups]
  exact List.flatMap_congr fun bit hbit ↦ by rw [h bit (List.mem_range.mp hbit)]

/-- The text of the entries is that of each of them. -/
theorem text_inEntries (entries : List Stroke) :
    (inEntries entries).map Stroke.text =
      if entries.map Stroke.text = [] then ["-"]
      else (entries.map Stroke.text).intersperse " " := by
  simp only [inEntries, List.isEmpty_iff, List.map_eq_nil_iff]
  split_ifs
  · rfl
  · exact map_intersperse Stroke.text (.bare " ") entries

/-- A block is in the buffer where its section begins. Octets without fields are nowhere in
particular. -/
def Block.PlacedAt (block : Block) (buf : List UInt8) (first : Nat) : Prop :=
  ∀ h octets, block = .header h octets →
    octets.length = h.size ∧ ∃ rest, buf.drop (4 * first) = octets ++ rest

theorem valueText_behind {h : Header} {octets buf : List UInt8} {first : Nat}
    (hplaced : (Block.header h octets).PlacedAt buf first) (slot : h.Slot) :
    valueText buf ((Header.place slot).behind first) =
      Text.decimal ((Header.place slot).read octets) := by
  obtain ⟨hlength, rest, hdrop⟩ := hplaced h octets rfl
  have hfit : (Header.place slot).requiredOctets ≤ octets.length := by
    rw [hlength]
    exact Header.place_requiredOctets_le slot
  have hread : (Header.place slot).read? (octets ++ rest) =
      some ((Header.place slot).read octets) := by
    rw [BitField.read?_eq_some_read, BitField.read_append rest hfit]
    rw [List.length_append]
    exact Nat.le_trans hfit (Nat.le_add_right _ _)
  rw [valueText, BitField.read?_behind, hdrop, hread]

/-- Of moved fields, those in a moved quadlet are those in the quadlet, moved. -/
theorem filter_map_behind (fields : List (BitField × String)) (count quadlet : Nat) :
    (fields.map fun field ↦ (field.1.behind count, field.2)).filter
        (fun field ↦ field.1.quadlet = count + quadlet) =
      (fields.filter fun field ↦ field.1.quadlet = quadlet).map
        fun field ↦ (field.1.behind count, field.2) := by
  rw [List.filter_map]
  congr 1
  refine List.filter_congr fun field _ ↦ ?_
  rw [Function.comp_apply, BitField.quadlet_behind]
  exact decide_eq_decide.mpr (by omega)

/-- The fields of a section that lie in one of its quadlets are those of the block, moved. -/
theorem filter_fields_sectionAt (block : Block) (first row : Nat) :
    (block.sectionAt first).fields.filter (fun field ↦ field.1.quadlet = first + row) =
      (block.fields.filter fun field ↦ field.1.quadlet = row).map
        fun field ↦ (field.1.behind first, field.2) :=
  filter_map_behind block.fields first row

/-- **The values in a line are those that the block has on its own.** -/
theorem plain_fieldStrokes (labels : List String) {block : Block} {buf : List UInt8} {first : Nat}
    (hplaced : block.PlacedAt buf first) (row : Nat) :
    String.join ((fieldStrokes labels ((block.sectionAt first).fields.filter
      fun field ↦ field.1.quadlet = first + row) buf).map Stroke.text) = block.entriesText row := by
  have htexts : ((block.sectionAt first).fields.filter
      fun field ↦ field.1.quadlet = first + row).map
        (fun field ↦ (fieldStroke labels buf field).text) = block.entries row := by
    rw [filter_fields_sectionAt]
    cases block with
    | header h octets =>
      rw [Block.fields, List.filter_map, List.map_map, List.map_map]
      refine List.map_congr_left fun slot _ ↦ ?_
      show s!"{(Header.row slot).label}={valueText buf ((Header.place slot).behind first)}" = _
      rw [valueText_behind hplaced]
    | plain title octets => rfl
  rw [fieldStrokes, text_inEntries, List.map_map, Block.entriesText, ← htexts]
  exact apply_ite String.join _ _ _

theorem text_bitStroke (labels : List String) (fields : List (BitField × String))
    {buf : List UInt8} {quadlet bit : Nat} (hbit : bit < 32)
    (hfit : fields = [] ∨ 4 * quadlet + 4 ≤ buf.length) :
    (bitStroke labels fields (buf.drop (4 * quadlet)) quadlet bit).text =
      bitText buf (32 * quadlet + bit) := by
  rw [bitStroke, bitText, Octets.bit?_drop_quadlet]
  rcases hvalue : Octets.bit? buf (32 * quadlet + bit) with - | value
  · -- A bit behind the buffer is blank, for no field is there.
    rcases hfit with rfl | hfit
    · rfl
    · have hthere : (Octets.bit? buf (32 * quadlet + bit)).isSome :=
        Octets.isSome_bit?_iff.mpr (by omega)
      rw [hvalue] at hthere
      exact Bool.noConfusion hthere
  · cases value <;> rfl

theorem plain_bitStrokes (labels : List String) (fields : List (BitField × String))
    {buf : List UInt8} {quadlet : Nat} (hfit : fields = [] ∨ 4 * quadlet + 4 ≤ buf.length) :
    String.join ((bitStrokes labels fields buf quadlet).map Stroke.text) =
      quadletText buf quadlet := by
  rw [bitStrokes, quadletText, text_inGroups]
  congr 1
  refine List.flatMap_congr fun bit hbit ↦ ?_
  rw [text_bitStroke labels fields (List.mem_range.mp hbit) hfit]

/-- **A line of a dump is that of its block.** -/
theorem plain_quadletLine (labels : List String) {block : Block} {buf : List UInt8}
    {first row : Nat} (hplaced : block.PlacedAt buf first) (hrow : row < block.quadlets) :
    Stroke.renderAll false (quadletLine labels (block.sectionAt first) buf (first + row)) =
      block.row buf first row := by
  have hfit : (block.sectionAt first).fields.filter
        (fun field ↦ field.1.quadlet = first + row) = [] ∨
      4 * (first + row) + 4 ≤ buf.length := by
    cases block with
    | header h octets =>
      right
      obtain ⟨hlength, rest, hdrop⟩ := hplaced h octets rfl
      have hbuf := congrArg List.length hdrop
      have hdvd := h.four_dvd_size
      rw [List.length_drop, List.length_append] at hbuf
      rw [Block.quadlets, Block.octets, quadletsFor] at hrow
      omega
    | plain title octets => exact .inl rfl
  rw [quadletLine, plain_rowDrawn, plain_bitStrokes labels _ hfit,
    plain_fieldStrokes labels hplaced, Block.row]

/-- The lines of a section are those of its block. -/
theorem plain_sectionLines (labels : List String) {block : Block} {buf : List UInt8} {first : Nat}
    (hplaced : block.PlacedAt buf first) :
    (sectionLines labels (block.sectionAt first) buf).map (Stroke.renderAll false) =
      block.lines buf first := by
  have htitle : Stroke.renderAll false (titleDrawn (block.sectionAt first).title) =
      s!"                | {block.title}" := plain_titleDrawn block.title
  have hlines : (List.range' first block.quadlets).map
      (Stroke.renderAll false ∘ quadletLine labels (block.sectionAt first) buf) =
        (List.range block.quadlets).map (block.row buf first) := by
    rw [List.range'_eq_map_range, List.map_map]
    refine List.map_congr_left fun row hrow ↦ ?_
    rw [Function.comp_apply, Function.comp_apply]
    exact plain_quadletLine labels hplaced (List.mem_range.mp hrow)
  rw [sectionLines, Block.lines, List.map_cons, List.map_map, htitle]
  exact congrArg _ hlines

/-- **The text of a listing is that of its blocks**, if each of them is where its section begins. -/
theorem plain_sectionsFrom (labels : List String) {buf : List UInt8} {first : Nat}
    {blocks : List Block} (hplaced : ∀ k (block : Block), blocks[k]? = some block →
      block.PlacedAt buf (first + quadletsOf (blocks.take k))) :
    ((sectionsFrom first blocks).flatMap fun part ↦ sectionLines labels part buf).map
        (Stroke.renderAll false) = linesFrom buf first blocks := by
  -- The labels are those of the whole listing, and stay the same along the blocks.
  induction blocks generalizing first with
  | nil => rfl
  | cons block blocks ih =>
    have htail : ∀ k (other : Block), blocks[k]? = some other →
        other.PlacedAt buf (first + block.quadlets + quadletsOf (blocks.take k)) := by
      intro k other hother
      have h := hplaced (k + 1) other hother
      rwa [List.take_succ_cons, quadletsOf, ← Nat.add_assoc] at h
    have hhead : block.PlacedAt buf first := hplaced 0 block rfl
    rw [sectionsFrom, List.flatMap_cons, List.map_append, ih htail,
      plain_sectionLines labels hhead, linesFrom]

theorem render_ofBlocks {buf : List UInt8} {blocks : List Block}
    (hplaced : ∀ k (block : Block), blocks[k]? = some block →
      block.PlacedAt buf (quadletsOf (blocks.take k))) :
    (ofBlocks blocks).render buf false =
      String.join ((linesFrom buf 0 blocks).map (· ++ "\n")) := by
  have hplaced' : ∀ k (block : Block), blocks[k]? = some block →
      block.PlacedAt buf (0 + quadletsOf (blocks.take k)) := by
    intro k block hblock
    rw [Nat.zero_add]
    exact hplaced k block hblock
  have htext := plain_sectionsFrom (ofBlocks blocks).labels hplaced'
  rw [render, lines, sections_ofBlocks, ← htext, List.map_map]
  rfl

/-! ### Nothing missing -/

/-- Nothing in the text is shown as missing: there is no `X`, and no `/` as in `n/a`. -/
def Unmarked (text : String) : Prop := ∀ c ∈ text.toList, c ≠ 'X' ∧ c ≠ '/'

instance (text : String) : Decidable (Unmarked text) :=
  decidable_of_iff ((text.toList.all fun c ↦ c != 'X' && c != '/') = true) (by simp [Unmarked])

namespace Unmarked

variable {a b : String} {texts : List String}

theorem append (ha : Unmarked a) (hb : Unmarked b) : Unmarked (a ++ b) :=
  Text.Within.append ha hb

theorem join (h : ∀ text ∈ texts, Unmarked text) : Unmarked (String.join texts) :=
  Text.Within.join h

theorem intersperse (ha : Unmarked a) (h : ∀ text ∈ texts, Unmarked text) :
    ∀ text ∈ texts.intersperse a, Unmarked text :=
  Text.Within.intersperse ha h

theorem decimal (n : Nat) : Unmarked (Text.decimal n) := Text.Within.decimal (by decide) n

theorem decimalPadded (width n : Nat) : Unmarked (Text.decimalPadded width n) :=
  Text.Within.decimalPadded (by decide) width n

theorem hexUpper (width n : Nat) : Unmarked (Text.hexUpper width n) :=
  Text.Within.hexUpper (by decide) width n

theorem label : {h : Header} → (slot : h.Slot) → Unmarked (Header.row slot).label
  | .common, slot => by cases slot <;> decide
  | .udp, slot => by cases slot; decide
  | .ntscf, slot => by cases slot <;> decide
  | .tscf, slot => by cases slot <;> decide
  | .acf, slot => by cases slot <;> decide
  | .can, slot => by cases slot <;> decide
  | .canBrief, slot => by cases slot <;> decide
  | .lin, slot => by cases slot <;> decide

theorem name (h : Header) : Unmarked h.name := by
  cases h <;> decide

theorem bitText (buf : List UInt8) (bit : Nat) : Unmarked (bitText buf bit) := by
  rw [Listing.bitText]
  split <;> decide

theorem quadletText (buf : List UInt8) (quadlet : Nat) : Unmarked (quadletText buf quadlet) := by
  refine join fun text htext ↦ ?_
  obtain ⟨bit, -, htext⟩ := List.mem_flatMap.mp htext
  split_ifs at htext
  · rcases List.mem_cons.mp htext with rfl | htext
    · decide
    · exact List.mem_singleton.mp htext ▸ bitText buf _
  · exact List.mem_singleton.mp htext ▸ bitText buf _

theorem entriesText (block : Block) (row : Nat) : Unmarked (block.entriesText row) := by
  rw [Block.entriesText]
  split_ifs
  · decide
  · refine join (intersperse (by decide) fun text htext ↦ ?_)
    cases block with
    | header h octets =>
      obtain ⟨slot, -, rfl⟩ := List.mem_map.mp htext
      exact ((label slot).append (show Unmarked "=" by decide)).append (decimal _)
    | plain title octets => exact absurd htext List.not_mem_nil

theorem row (block : Block) (buf : List UInt8) (first row : Nat) :
    Unmarked (block.row buf first row) := by
  have hoffset := (show Unmarked "0x" by decide).append (hexUpper 4 (4 * (first + row)))
  have hnumber := (show Unmarked "  q" by decide).append (decimalPadded 3 (first + row))
  have hfront := (hoffset.append hnumber).append (show Unmarked "   | " by decide)
  rw [← String.append_assoc] at hfront
  exact ((hfront.append (quadletText buf _)).append (show Unmarked " | " by decide)).append
    (entriesText block row)

/-- **The text of blocks has no marks**, if their titles have none. -/
theorem linesFrom {buf : List UInt8} {first : Nat} {blocks : List Block}
    (h : ∀ block ∈ blocks, Unmarked block.title) : ∀ line ∈ linesFrom buf first blocks,
      Unmarked line := by
  induction blocks generalizing first with
  | nil => nofun
  | cons block blocks ih =>
    obtain ⟨hblock, hblocks⟩ := List.forall_mem_cons.mp h
    intro line hline
    rcases List.mem_append.mp hline with hline | hline
    · rcases List.mem_cons.mp hline with rfl | hline
      · exact (show Unmarked "                | " by decide).append hblock
      · obtain ⟨index, -, rfl⟩ := List.mem_map.mp hline
        exact row block buf first index
    · exact ih hblocks line hline

end Unmarked

end Listing

namespace Dump

open Listing (Block ofBlocks octetsOf quadletsOf linesFrom Unmarked)

/-! ### The text of a capture -/

theorem Known.unmarked_title {block : Block} (hknown : Known block) : Unmarked block.title := by
  cases hknown with
  | @header h octets _ => exact Unmarked.name h
  | payload _ => exact show Unmarked "AcfPayload" by decide

namespace Parts

variable {parts : Parts} {buf : List UInt8}

/-- A block that has not been taken apart is what is left of the data unit or what trails it. -/
theorem mem_known_or_eq {block : Block} (hblock : block ∈ parts.blocks) :
    block ∈ parts.known ∨ block = .plain parts.title parts.left ∨
      block = .plain "Trailing" parts.trailing := by
  rw [blocks, dataUnit, List.append_assoc, List.mem_append, List.mem_append] at hblock
  rcases hblock with hknown | hleft | htrailing
  · exact .inl hknown
  · exact .inr (.inl (Block.eq_of_mem_ofOctets hleft))
  · exact .inr (.inr (Block.eq_of_mem_ofOctets htrailing))

theorem known_header (hparts : parts.Of buf) {h : Header} {octets : List UInt8}
    (hblock : Block.header h octets ∈ parts.blocks) : Known (.header h octets) := by
  rcases mem_known_or_eq hblock with hknown | hleft | htrailing
  · exact hparts.known _ hknown
  · exact Block.noConfusion hleft
  · exact Block.noConfusion htrailing

theorem length_of_header (hparts : parts.Of buf) {h : Header} {octets : List UInt8}
    (hblock : Block.header h octets ∈ parts.blocks) : octets.length = h.size := by
  obtain ⟨hlength⟩ := known_header hparts hblock
  exact hlength

/-- **Every header is where its section begins.** -/
theorem placedAt (hparts : parts.Of buf) {k : Nat} {block : Block}
    (hblock : parts.blocks[k]? = some block) :
    block.PlacedAt buf (quadletsOf (parts.blocks.take k)) := by
  rintro h octets rfl
  have hmem := List.mem_of_getElem? hblock
  have htitle := (known_header hparts hmem).title_ne
  have hfour := four_mul_quadletsFor (four_dvd_offset hparts hblock (.inl htitle))
  refine ⟨length_of_header hparts hmem, octetsOf (parts.blocks.drop (k + 1)), ?_⟩
  rw [quadletsOf_take hparts hblock, hfour, offset]
  conv_lhs => rw [← hparts.octets_eq]
  exact Listing.drop_octetsOf hblock

theorem unmarked_title (hparts : parts.Of buf) : ∀ block ∈ parts.blocks, Unmarked block.title := by
  intro block hblock
  rcases mem_known_or_eq hblock with hknown | rfl | rfl
  · exact (hparts.known block hknown).unmarked_title
  · show Unmarked parts.title
    rcases hparts.title_eq with htitle | htitle
    · rw [htitle]
      decide
    · rw [htitle]
      decide
  · exact show Unmarked "Trailing" by decide

end Parts

/-- The text shows the parts of the buffer with the values of their fields. -/
structure Shows (text : String) (parts : Parts) (buf : List UInt8) : Prop where
  /-- The blocks are the buffer, each octet once and in its place. -/
  octets_eq : octetsOf parts.blocks = buf
  /-- Each block has its lines, and each line the values that the block has on its own. -/
  text_eq : text = String.join ((linesFrom buf 0 parts.blocks).map (· ++ "\n"))
  /-- A block with fields is the fixed part of a header. Each field is in one of its lines, and has
  a value. -/
  get_eq : ∀ h octets, Block.header h octets ∈ parts.blocks → octets.length = h.size ∧
    ∀ slot : h.Slot, (Header.place slot).quadlet < quadletsFor octets.length ∧
      Header.get octets slot = .ok ((Header.place slot).read octets)
  /-- Neither a bit nor a value is shown as missing. -/
  unmarked : Unmarked text

/-- **The text of a dump has the values of all headers in the capture.** -/
theorem listing?_shows {udp : Bool} {buf : List UInt8} {listing : Listing}
    (h : listing? udp buf = .ok listing) :
    ∃ parts, parts? udp buf = .ok parts ∧ Shows (listing.render buf false) parts buf := by
  rw [listing?_eq, map_eq_ok_iff] at h
  obtain ⟨parts, hparts, rfl⟩ := h
  have hof := parts?_of hparts
  have htext := Listing.render_ofBlocks fun k block hblock ↦ Parts.placedAt hof hblock
  refine ⟨parts, hparts, hof.octets_eq, htext, fun h octets hmem ↦ ?_, ?_⟩
  · have hlength := Parts.length_of_header hof hmem
    refine ⟨hlength, fun slot ↦ ?_⟩
    have hfit := Header.place_requiredOctets_le slot
    rw [← hlength] at hfit
    refine ⟨?_, FieldTable.get_eq_ok (Header.getElem?_table_index slot) hfit⟩
    rw [BitField.requiredOctets] at hfit
    rw [quadletsFor]
    omega
  · rw [htext]
    refine .join fun line hline ↦ ?_
    obtain ⟨front, hfront, rfl⟩ := List.mem_map.mp hline
    exact (Unmarked.linesFrom (Parts.unmarked_title hof) front hfront).append
      (show Unmarked "\n" by decide)

/-- An NTSCF data unit with a brief CAN message, a message of the CAN type that is too short for a
CAN header, and an octet that is no message. -/
def crowdedCapture : List UInt8 :=
  [0x82, 0x80, 17, 5, 0, 0, 0, 0, 0, 0, 0, 9, 0x04, 0x03, 0x40, 0x01, 0, 0, 0x01, 0x23, 0x11, 0x22,
    0x33, 0, 0x02, 0x01, 0x80, 0, 0xAA]

/-- Its text, behind an encapsulation header and with an octet behind it. -/
theorem listing?_shows_crowded :
    ∃ parts, parts? true ([0, 0, 0, 7] ++ crowdedCapture ++ [0xBB]) = .ok parts ∧
      Shows ((ofBlocks [.header .udp [0, 0, 0, 7], .header .ntscf (crowdedCapture.take 12),
            .header .canBrief [0x04, 0x03, 0x40, 0x01, 0, 0, 0x01, 0x23],
            .plain "AcfPayload" [0x11, 0x22, 0x33, 0], .header .acf [0x02, 0x01, 0x80, 0],
            .plain "Undecoded" [0xAA], .plain "Trailing" [0xBB]]).render
          ([0, 0, 0, 7] ++ crowdedCapture ++ [0xBB]) false)
        parts ([0, 0, 0, 7] ++ crowdedCapture ++ [0xBB]) :=
  listing?_shows (by decide +kernel)

end Dump

end Avtp
