import Mathlib.Tactic.SplitIfs
import Avtp.Listing

/-!
# Listings and the octets they list

A listing counts quadlets, and knows nothing of the octets that they hold. Most of what there is to
say about a listing is about octets: which of them a section is meant for, and whether they are the
ones in its quadlets. A `Block` has both, a title and the octets under it, and `ofBlocks` is the
listing of blocks that follow each other.

Listings put together are a monoid (`append_assoc`), so a listing of parts is the listing of all
their blocks (`ofBlocks_append`), in whatever way it has been put together. Where a section begins
is then settled by the blocks in front of it (`getElem?_sectionsFrom`). It is a number of
quadlets: each block in front counts with its last quadlet, even if that is not full. This is the
place of the octets only as long as none of them breaks off inside a quadlet
(`four_mul_quadletsOf`); from the first such block on, sections begin at or behind their octets
(`quadletsOf_concat`).
-/

namespace Avtp

/-! ### Quadlets for octets -/

theorem quadletsFor_eq_zero_iff {count : Nat} : quadletsFor count = 0 ↔ count = 0 := by
  rw [quadletsFor]
  omega

theorem four_mul_quadletsFor {count : Nat} (h : 4 ∣ count) : 4 * quadletsFor count = count := by
  rw [quadletsFor]
  omega

/-- Whole quadlets in front are counted apart. -/
theorem quadletsFor_add {front : Nat} (h : 4 ∣ front) (back : Nat) :
    quadletsFor (front + back) = quadletsFor front + quadletsFor back := by
  simp only [quadletsFor]
  omega

theorem Header.four_dvd_size (h : Header) : 4 ∣ h.size := by
  cases h <;> decide

namespace Section

/-- The section has a line for the quadlet of the octet. -/
def Shows (part : Section) (octet : Nat) : Prop :=
  part.firstQuadlet ≤ octet / 4 ∧ octet / 4 < part.firstQuadlet + part.quadlets

@[simp] theorem behind_zero (part : Section) : part.behind 0 = part := by
  simp [behind]

theorem behind_behind (part : Section) (m n : Nat) :
    (part.behind m).behind n = part.behind (n + m) := by
  simp only [behind, List.map_map, Function.comp_def, BitField.behind_behind, Nat.add_assoc,
    Nat.add_comm n]

end Section

namespace Listing

/-! ### Putting listings together -/

@[simp] theorem empty_append (listing : Listing) : empty.append listing = listing := by
  simp [append, empty]

@[simp] theorem append_empty (listing : Listing) : listing.append empty = listing := by
  simp [append, empty]

theorem append_assoc (first second third : Listing) :
    (first.append second).append third = first.append (second.append third) := by
  simp only [append, List.map_append, List.map_map, Function.comp_def, Section.behind_behind,
    List.append_assoc, Nat.add_assoc]

/-- A new section is a listing behind the one that there is. -/
theorem push_eq_append (listing : Listing) (title : String) (quadlets : Nat)
    (fields : List (BitField × String)) :
    listing.push title quadlets fields = listing.append (empty.push title quadlets fields) := by
  simp [push, append, empty]

/-! ### Blocks -/

/-- Octets that are listed under one title. -/
inductive Block where
  /-- The fixed part of a header. -/
  | header (h : Header) (octets : List UInt8)
  /-- Octets without fields. -/
  | plain (title : String) (octets : List UInt8)
  deriving DecidableEq

namespace Block

def title : Block → String
  | header h _ => h.name
  | plain title _ => title

def octets : Block → List UInt8
  | header _ octets => octets
  | plain _ octets => octets

/-- The fields with their labels, placed relative to the block. -/
def fields : Block → List (BitField × String)
  | header h _ => h.slots.map fun slot ↦ (Header.place slot, (Header.row slot).label)
  | plain .. => []

/-- The number of quadlets that hold the octets. -/
def quadlets (block : Block) : Nat := quadletsFor block.octets.length

/-- Octets as a block without fields; no octets make no block. -/
def ofOctets (title : String) (octets : List UInt8) : List Block :=
  if octets = [] then [] else [plain title octets]

theorem length_ofOctets_le (title : String) (octets : List UInt8) :
    (ofOctets title octets).length ≤ 1 := by
  rw [ofOctets]
  split_ifs <;> simp

theorem eq_of_mem_ofOctets {title : String} {octets : List UInt8} {block : Block}
    (h : block ∈ ofOctets title octets) : block = plain title octets := by
  rw [ofOctets] at h
  split_ifs at h
  · exact absurd h List.not_mem_nil
  · exact List.mem_singleton.mp h

/-- The section for the block, from a quadlet on. -/
def sectionAt (block : Block) (first : Nat) : Section :=
  { title := block.title
    firstQuadlet := first
    quadlets := block.quadlets
    fields := block.fields.map fun field ↦ (field.1.behind first, field.2) }

/-- The listing of the block alone. -/
def listing (block : Block) : Listing := empty.push block.title block.quadlets block.fields

theorem listing_eq (block : Block) : block.listing = ⟨[block.sectionAt 0], block.quadlets⟩ := by
  simp [listing, push, empty, sectionAt, Section.behind]

theorem behind_sectionAt (block : Block) (first count : Nat) :
    (block.sectionAt first).behind count = block.sectionAt (count + first) := by
  simp only [sectionAt, Section.behind, List.map_map, Function.comp_def, BitField.behind_behind,
    Nat.add_comm count]

end Block

/-- The octets of blocks, one behind the other. -/
def octetsOf (blocks : List Block) : List UInt8 := blocks.flatMap Block.octets

/-- The number of quadlets of blocks that follow each other, the last one of each possibly in part.
-/
def quadletsOf : List Block → Nat
  | [] => 0
  | block :: blocks => block.quadlets + quadletsOf blocks

/-- The listing of blocks that follow each other. -/
def ofBlocks : List Block → Listing
  | [] => empty
  | block :: blocks => block.listing.append (ofBlocks blocks)

theorem octetsOf_cons (block : Block) (blocks : List Block) :
    octetsOf (block :: blocks) = block.octets ++ octetsOf blocks :=
  List.flatMap_cons

theorem octetsOf_append (front back : List Block) :
    octetsOf (front ++ back) = octetsOf front ++ octetsOf back :=
  List.flatMap_append

/-- A block is where the octets of the blocks in front of it end. -/
theorem drop_octetsOf {blocks : List Block} {k : Nat} {block : Block}
    (hblock : blocks[k]? = some block) :
    (octetsOf blocks).drop (octetsOf (blocks.take k)).length =
      block.octets ++ octetsOf (blocks.drop (k + 1)) := by
  obtain ⟨hk, hget⟩ := List.getElem?_eq_some_iff.mp hblock
  have hcut : octetsOf blocks =
      octetsOf (blocks.take k) ++ (block.octets ++ octetsOf (blocks.drop (k + 1))) := by
    rw [← octetsOf_cons, ← octetsOf_append, ← hget, ← List.drop_eq_getElem_cons hk,
      List.take_append_drop]
  rw [hcut, List.drop_left]

theorem quadletsOf_append (front back : List Block) :
    quadletsOf (front ++ back) = quadletsOf front + quadletsOf back := by
  induction front with
  | nil => rw [List.nil_append, quadletsOf, Nat.zero_add]
  | cons block front ih => rw [List.cons_append, quadletsOf, quadletsOf, ih, Nat.add_assoc]

/-- **The listing of blocks is put together from those of its parts.** -/
theorem ofBlocks_append (front back : List Block) :
    ofBlocks (front ++ back) = (ofBlocks front).append (ofBlocks back) := by
  induction front with
  | nil => rw [List.nil_append, ofBlocks, empty_append]
  | cons block front ih => rw [List.cons_append, ofBlocks, ofBlocks, ih, append_assoc]

theorem quadlets_ofBlocks (blocks : List Block) :
    (ofBlocks blocks).quadlets = quadletsOf blocks := by
  induction blocks with
  | nil => rfl
  | cons block blocks ih =>
    rw [ofBlocks, Block.listing_eq, append, ih]
    rfl

@[simp] theorem quadletsOf_ofOctets (title : String) (octets : List UInt8) :
    quadletsOf (Block.ofOctets title octets) = quadletsFor octets.length := by
  rw [Block.ofOctets]
  split_ifs with hempty
  · rw [hempty]
    rfl
  · exact Nat.add_zero _

@[simp] theorem octetsOf_ofOctets (title : String) (octets : List UInt8) :
    octetsOf (Block.ofOctets title octets) = octets := by
  rw [Block.ofOctets]
  split_ifs with hempty
  · exact hempty.symm
  · exact List.append_nil octets

/-- The listing of a header is that of its octets. -/
theorem ofHeader_eq {h : Header} {octets : List UInt8} (hlength : octets.length = h.size) :
    ofHeader h = ofBlocks [.header h octets] := by
  rw [ofBlocks, ofBlocks, append_empty, Block.listing, Block.quadlets]
  show _ = empty.push _ (quadletsFor octets.length) _
  rw [hlength]
  rfl

/-- The sections of blocks that follow each other from a quadlet on. -/
def sectionsFrom : Nat → List Block → List Section
  | _, [] => []
  | first, block :: blocks => block.sectionAt first :: sectionsFrom (first + block.quadlets) blocks

theorem map_behind_sectionsFrom (first count : Nat) (blocks : List Block) :
    (sectionsFrom first blocks).map (·.behind count) = sectionsFrom (count + first) blocks := by
  induction blocks generalizing first with
  | nil => rfl
  | cons block blocks ih =>
    rw [sectionsFrom, List.map_cons, Block.behind_sectionAt, ih, sectionsFrom, Nat.add_assoc]

theorem sections_ofBlocks (blocks : List Block) :
    (ofBlocks blocks).sections = sectionsFrom 0 blocks := by
  induction blocks with
  | nil => rfl
  | cons block blocks ih =>
    rw [ofBlocks, Block.listing_eq, append, ih, map_behind_sectionsFrom, Nat.add_comm]
    rfl

/-- **Each block has a section, behind the quadlets of all blocks in front of it.** -/
theorem getElem?_sectionsFrom (first : Nat) (blocks : List Block) (k : Nat) :
    (sectionsFrom first blocks)[k]? =
      blocks[k]?.map fun block ↦ block.sectionAt (first + quadletsOf (blocks.take k)) := by
  induction blocks generalizing first k with
  | nil => rfl
  | cons block blocks ih =>
    cases k with
    | zero => rfl
    | succ k =>
      rw [sectionsFrom, List.getElem?_cons_succ, List.getElem?_cons_succ, ih, List.take_succ_cons,
        quadletsOf, Nat.add_assoc]

theorem getElem?_sections_ofBlocks (blocks : List Block) (k : Nat) :
    (ofBlocks blocks).sections[k]? =
      blocks[k]?.map fun block ↦ block.sectionAt (quadletsOf (blocks.take k)) := by
  rw [sections_ofBlocks, getElem?_sectionsFrom]
  simp only [Nat.zero_add]

theorem length_sections_ofBlocks (blocks : List Block) :
    (ofBlocks blocks).sections.length = blocks.length := by
  have hlength (first : Nat) : (sectionsFrom first blocks).length = blocks.length := by
    induction blocks generalizing first with
    | nil => rfl
    | cons block blocks ih => rw [sectionsFrom, List.length_cons, ih, List.length_cons]
  rw [sections_ofBlocks, hlength]

theorem quadletsOf_take_succ {blocks : List Block} {k : Nat} {block : Block}
    (hblock : blocks[k]? = some block) :
    quadletsOf (blocks.take (k + 1)) = quadletsOf (blocks.take k) + block.quadlets := by
  rw [List.take_add_one, hblock, quadletsOf_append]
  rfl

theorem quadletsOf_take_le (blocks : List Block) {j k : Nat} (h : j ≤ k) :
    quadletsOf (blocks.take j) ≤ quadletsOf (blocks.take k) := by
  obtain ⟨more, rfl⟩ := Nat.exists_eq_add_of_le h
  rw [List.take_add, quadletsOf_append]
  exact Nat.le_add_right _ _

/-! ### Lines -/

/-- **No octet is shown by two sections.** -/
theorem eq_of_shows {blocks : List Block} {j k octet : Nat} {first second : Section}
    (hfirst : (ofBlocks blocks).sections[j]? = some first)
    (hsecond : (ofBlocks blocks).sections[k]? = some second)
    (hshows : first.Shows octet) (hshows' : second.Shows octet) : j = k := by
  rw [getElem?_sections_ofBlocks, Option.map_eq_some_iff] at hfirst hsecond
  obtain ⟨block, hblock, rfl⟩ := hfirst
  obtain ⟨other, hother, rfl⟩ := hsecond
  have hbefore := quadletsOf_take_succ hblock
  have hbefore' := quadletsOf_take_succ hother
  simp only [Section.Shows, Block.sectionAt] at hshows hshows'
  -- Of two sections, the one in front ends before the other one begins.
  rcases Nat.lt_trichotomy j k with hlt | heq | hlt
  · have hle := quadletsOf_take_le blocks (show j + 1 ≤ k from hlt)
    omega
  · exact heq
  · have hle := quadletsOf_take_le blocks (show k + 1 ≤ j from hlt)
    omega

/-! ### Octets and quadlets -/

/-- None of the blocks breaks off inside a quadlet. -/
def Whole (blocks : List Block) : Prop := ∀ block ∈ blocks, 4 ∣ block.octets.length

/-- **Whole blocks have the quadlets of their octets.** -/
theorem four_mul_quadletsOf {blocks : List Block} (hwhole : Whole blocks) :
    4 * quadletsOf blocks = (octetsOf blocks).length := by
  induction blocks with
  | nil => rfl
  | cons block blocks ih =>
    obtain ⟨hblock, hblocks⟩ := List.forall_mem_cons.mp hwhole
    rw [quadletsOf, Nat.mul_add, ih hblocks, octetsOf_cons, List.length_append, Block.quadlets,
      four_mul_quadletsFor hblock]

theorem four_mul_quadletsOf_take {blocks : List Block} (hwhole : Whole blocks) (k : Nat) :
    4 * quadletsOf (blocks.take k) = (octetsOf (blocks.take k)).length :=
  four_mul_quadletsOf fun block hblock ↦ hwhole block (List.mem_of_mem_take hblock)

/-- Only the last of several blocks may break off inside a quadlet. -/
theorem quadletsOf_concat {front : List Block} (hwhole : Whole front) (last : Block) :
    quadletsOf (front ++ [last]) = quadletsFor (octetsOf (front ++ [last])).length := by
  have hfront := four_mul_quadletsOf hwhole
  have hlast : quadletsOf [last] = quadletsFor last.octets.length := Nat.add_zero _
  have hoctets : octetsOf [last] = last.octets := List.append_nil _
  rw [quadletsOf_append, octetsOf_append, List.length_append, hlast, hoctets, ← hfront,
    quadletsFor_add (Nat.dvd_mul_right 4 _)]
  simp only [quadletsFor]
  omega

end Listing

end Avtp
