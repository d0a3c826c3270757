import Avtp.Dump.Dissection
import Avtp.Proofs.EncodeDecode
import Avtp.Proofs.Listings
import Avtp.Proofs.WalkPartition

/-!
# A dump covers its capture

A dump goes along a capture and adds a section for everything it finds. `parts?` describes the same
capture by octets alone: the headers and messages in front, what is left of the data unit behind
them, and what trails the data unit. The listing is that of these parts (`listing?_eq`).

A section takes whole quadlets. Headers and messages do so on their own, but what is left of a data
unit may break off inside a quadlet, and then the section of what trails begins with a quadlet of
its own, although the first of its octets belong to the quadlet before. So all sections but this one
begin with their octets, and the listing may have one quadlet more than the capture
(`listing?_tiles`).
-/

namespace Avtp

namespace Dump

open Listing (Block ofBlocks octetsOf quadletsOf Whole)

/-! ### The parts of a capture -/

/-- The header that a message is listed under: that of its type if the message covers it, and
otherwise the one that all messages share. -/
def messageHeader (view : AcfView) : Header :=
  match Acf.MessageFormat.ofType? view.msgType with
  | some format => if format.header.size ≤ view.octets.length then format.header else .acf
  | none => .acf

/-- A message as its header and the octets behind it. -/
def messageBlocks (view : AcfView) : List Block :=
  .header (messageHeader view) (view.octets.take (messageHeader view).size) ::
    Block.ofOctets "AcfPayload" (view.octets.drop (messageHeader view).size)

/-- What a capture consists of. -/
structure Parts where
  /-- The headers and messages. -/
  known : List Block
  /-- The title of what is left of the data unit. -/
  title : String
  /-- The octets of the data unit behind headers and messages. -/
  left : List UInt8
  /-- The octets behind the data unit. -/
  trailing : List UInt8

namespace Parts

/-- The blocks of the data unit. -/
def dataUnit (parts : Parts) : List Block := parts.known ++ Block.ofOctets parts.title parts.left

/-- The blocks of the capture. -/
def blocks (parts : Parts) : List Block :=
  parts.dataUnit ++ Block.ofOctets "Trailing" parts.trailing

/-- The parts with another block in front. -/
def behind (parts : Parts) (block : Block) : Parts := { parts with known := block :: parts.known }

end Parts

/-- The parts of a control stream and of what follows it. The messages are those that a walk along
the payload yields. -/
def streamParts {format : StreamFormat} (view : View format.header) (rest : List UInt8) : Parts :=
  let walk := Acf.Walk.start view.payload
  { known := .header format.header (view.octets.take format.header.size) ::
      walk.views.flatMap messageBlocks
    title := "Undecoded"
    left := walk.finish.rest
    trailing := rest }

/-- The parts of a data unit and of what follows it. A data unit that is no control stream has no
end of its own. -/
def pduParts? (pdu : List UInt8) : Except DumpError Parts :=
  match View.split? .common pdu with
  | .error reason => .error (.commonHeader reason)
  | .ok (common, rest) =>
    match StreamFormat.ofSubtype? (CommonView.subtype common) with
    | some format =>
      match format.dataLength? pdu, View.split? format.header pdu with
      | .ok _, .ok (view, rest) => .ok (streamParts view rest)
      | .error fault, _ => .error (.streamHeader format fault)
      | .ok _, .error reason => .error (.streamView format reason)
    | none => .ok ⟨[.header .common common.octets], "Payload", rest, []⟩

/-- The parts of a capture. -/
def parts? (udp : Bool) (buf : List UInt8) : Except DumpError Parts :=
  match splitCapture? udp buf with
  | .error reason => .error reason
  | .ok (none, pdu) => pduParts? pdu
  | .ok (some view, pdu) => (pduParts? pdu).map fun parts ↦ parts.behind (.header .udp view.octets)

/-! ### The listing of the parts -/

theorem pushOctets_eq (listing : Listing) (title : String) (octets : List UInt8) :
    pushOctets listing title octets.length =
      listing.append (ofBlocks (Block.ofOctets title octets)) := by
  simp only [pushOctets, quadletsFor_eq_zero_iff, List.length_eq_zero_iff, Block.ofOctets]
  split_ifs with hempty
  · rw [ofBlocks, Listing.append_empty]
  · rw [Listing.pushOpaque, Listing.push_eq_append, ofBlocks, ofBlocks, Listing.append_empty]
    rfl

theorem messageHeader_size_le {view : AcfView} (hcomplete : Acf.Complete view) :
    (messageHeader view).size ≤ view.octets.length := by
  rw [messageHeader]
  split
  · split_ifs with hcovers
    · exact hcovers
    · exact hcomplete.four_le
  · exact hcomplete.four_le

theorem listing_eq_pushOctets {view : AcfView} {extent : Acf.MessageExtent}
    (htype : extent.type = view.msgType) (hlength : extent.length = view.octets.length) :
    extent.listing = pushOctets (Listing.ofHeader (messageHeader view)) "AcfPayload"
      (extent.length - (messageHeader view).size) := by
  have hremaining : quadletsFor extent.length - quadletsFor (messageHeader view).size =
      quadletsFor (extent.length - (messageHeader view).size) := by
    have hdvd := (messageHeader view).four_dvd_size
    simp only [quadletsFor]
    omega
  have hheader : extent.listing =
      if quadletsFor extent.length - quadletsFor (messageHeader view).size = 0 then
        Listing.ofHeader (messageHeader view)
      else (Listing.ofHeader (messageHeader view)).pushOpaque "AcfPayload"
        (quadletsFor extent.length - quadletsFor (messageHeader view).size) := by
    have hquadlets (h : Header) : (Listing.ofHeader h).quadlets = quadletsFor h.size :=
      Nat.zero_add _
    rw [← hquadlets, Acf.MessageExtent.listing, htype, messageHeader, ← hlength]
    cases view.msgType <;> rfl
  rw [hheader, hremaining, pushOctets]

/-- **A message is listed as its header and the octets behind it**, by type and length alone. -/
theorem listing_eq_ofBlocks {view : AcfView} (hcomplete : Acf.Complete view)
    {extent : Acf.MessageExtent} (htype : extent.type = view.msgType)
    (hlength : extent.length = view.octets.length) :
    extent.listing = ofBlocks (messageBlocks view) := by
  have hfront : (view.octets.take (messageHeader view).size).length =
      (messageHeader view).size := by
    rw [List.length_take, Nat.min_eq_left (messageHeader_size_le hcomplete)]
  rw [listing_eq_pushOctets htype hlength, hlength, ← List.length_drop, pushOctets_eq,
    Listing.ofHeader_eq hfront, ← Listing.ofBlocks_append]
  rfl

theorem listing_message {view : AcfView} (hcomplete : Acf.Complete view)
    {extent : Acf.MessageExtent} (hextent : view.extent? = .ok extent) :
    extent.listing = ofBlocks (messageBlocks view) := by
  obtain ⟨-, -, heq⟩ := Acf.MessageExtent.ofOctets?_eq_ok_iff.mp hextent
  have htype : extent.type = view.msgType := by rw [heq]; rfl
  have hlength : extent.length = view.octets.length := by rw [heq]; exact hcomplete.announced_eq
  exact listing_eq_ofBlocks hcomplete htype hlength

/-- **The messages of a payload are listed one behind the other.** -/
theorem pushMessages_eq (payload : List UInt8) (listing : Listing) :
    pushMessages listing (Acf.Walk.start payload).items =
      .ok (listing.append
        (ofBlocks ((Acf.Walk.start payload).views.flatMap messageBlocks))) := by
  induction payload using Acf.Walk.payload_induction generalizing listing with
  | nil =>
    rw [Acf.Walk.items_start_nil, Acf.Walk.views_start_nil, List.flatMap_nil, ofBlocks,
      Listing.append_empty]
    rfl
  | fault payload reason hne hfault =>
    rw [Acf.Walk.items_start_of_error hne hfault, Acf.Walk.views_start_of_error hne hfault,
      List.flatMap_nil, ofBlocks, Listing.append_empty]
    rfl
  | message payload extent hextent ih =>
    have hcomplete := Acf.complete_of_ofOctets? hextent
    obtain ⟨found, hfound, -⟩ := hcomplete.extent?_eq_ok
    rw [Acf.Walk.items_start_of_ok hextent, Acf.Walk.views_start_of_ok hextent, pushMessages,
      hfound]
    simp only [ih]
    rw [listing_message hcomplete hfound, Listing.append_assoc, ← Listing.ofBlocks_append]
    rfl

/-! ### The listing of a capture -/

theorem pushStream?_eq {format : StreamFormat} {pdu rest : List UInt8} {count : Nat}
    {view : View format.header} (listing : Listing) (hlength : format.dataLength? pdu = .ok count)
    (hsplit : View.split? format.header pdu = .ok (view, rest)) :
    pushStream? listing format pdu =
      .ok (listing.append (ofBlocks (streamParts view rest).blocks)) := by
  have hfront : (view.octets.take format.header.size).length = format.header.size := by
    rw [List.length_take, Nat.min_eq_left (View.size_le_of_split? hsplit)]
  rw [pushStream?, hlength]
  simp only [hsplit, Listing.ofHeader_eq hfront, pushMessages_eq, Except.map, pushOctets_eq,
    Listing.append_assoc, ← Listing.ofBlocks_append]
  simp [Parts.blocks, Parts.dataUnit, streamParts]

theorem pushPdu?_eq (listing : Listing) (pdu : List UInt8) :
    pushPdu? listing pdu =
      (pduParts? pdu).map fun parts ↦ listing.append (ofBlocks parts.blocks) := by
  rw [pushPdu?, pduParts?]
  rcases hcommon : View.split? .common pdu with reason | ⟨common, rest⟩
  · rfl
  rcases hformat : StreamFormat.ofSubtype? (CommonView.subtype common) with - | format
  · simp only [hformat, Listing.ofHeader_eq (View.length_of_split? rfl hcommon), pushOctets_eq,
      Listing.append_assoc, ← Listing.ofBlocks_append]
    simp [Except.map, Parts.blocks, Parts.dataUnit, Block.ofOctets]
  · simp only [hformat]
    rcases hlength : format.dataLength? pdu with fault | count
    · rw [pushStream?, hlength]
      rfl
    rcases hsplit : View.split? format.header pdu with reason | ⟨view, behind⟩
    · rw [pushStream?, hlength]
      simp only [hsplit]
      rfl
    · exact pushStream?_eq listing hlength hsplit

theorem splitCapture?_eq_ok_none_iff {udp : Bool} {buf pdu : List UInt8} :
    splitCapture? udp buf = .ok (none, pdu) ↔ udp = false ∧ pdu = buf := by
  rw [splitCapture?]
  cases udp with
  | false => simp [eq_comm]
  | true => cases View.split? .udp buf <;> simp

theorem splitCapture?_eq_ok_some_iff {udp : Bool} {buf pdu : List UInt8} {view : UdpView} :
    splitCapture? udp buf = .ok (some view, pdu) ↔
      udp = true ∧ View.split? .udp buf = .ok (view, pdu) := by
  rw [splitCapture?]
  cases udp with
  | false => simp
  | true => cases View.split? .udp buf <;> simp [Prod.ext_iff]

/-- **The listing of a capture is that of its parts.** -/
theorem listing?_eq (udp : Bool) (buf : List UInt8) :
    listing? udp buf = (parts? udp buf).map fun parts ↦ ofBlocks parts.blocks := by
  rw [listing?, parts?]
  rcases hcapture : splitCapture? udp buf with reason | ⟨view | view, pdu⟩
  · rfl
  · simp only [pushPdu?_eq, Listing.empty_append]
  · obtain ⟨-, hsplit⟩ := splitCapture?_eq_ok_some_iff.mp hcapture
    simp only [pushPdu?_eq, Listing.ofHeader_eq (View.length_of_split? rfl hsplit)]
    rcases pduParts? pdu with reason | parts
    · rfl
    · simp only [Except.map, Listing.empty_append, ← Listing.ofBlocks_append]
      rfl

/-! ### Known parts -/

/-- A part that has been taken apart: the fixed part of a header, or what is behind it in a message.
-/
inductive Known : Block → Prop where
  | header {h : Header} {octets : List UInt8} : octets.length = h.size → Known (.header h octets)
  | payload {octets : List UInt8} : 4 ∣ octets.length → Known (.plain "AcfPayload" octets)

theorem Known.four_dvd {block : Block} (hknown : Known block) : 4 ∣ block.octets.length := by
  cases hknown with
  | @header h octets hlength =>
    rw [Block.octets, hlength]
    exact h.four_dvd_size
  | payload hlength => exact hlength

theorem whole_of_known {blocks : List Block} (hknown : ∀ block ∈ blocks, Known block) :
    Whole blocks :=
  fun block hblock ↦ (hknown block hblock).four_dvd

theorem Known.title_ne {block : Block} (hknown : Known block) : block.title ≠ "Trailing" := by
  cases hknown with
  | @header h octets hlength =>
    show h.name ≠ "Trailing"
    cases h <;> decide
  | payload hlength =>
    show "AcfPayload" ≠ "Trailing"
    decide

theorem known_messageBlocks {view : AcfView} (hcomplete : Acf.Complete view) :
    ∀ block ∈ messageBlocks view, Known block := by
  have hsize := messageHeader_size_le hcomplete
  refine List.forall_mem_cons.mpr ⟨.header ?_, fun block hblock ↦ ?_⟩
  · rw [List.length_take, Nat.min_eq_left hsize]
  · rw [Block.eq_of_mem_ofOctets hblock]
    refine .payload ?_
    rw [List.length_drop, hcomplete.length_eq]
    exact Nat.dvd_sub (Nat.dvd_mul_right 4 _) (messageHeader view).four_dvd_size

theorem octetsOf_messageBlocks (view : AcfView) : octetsOf (messageBlocks view) = view.octets := by
  rw [messageBlocks, Listing.octetsOf_cons, Listing.octetsOf_ofOctets]
  exact List.take_append_drop _ _

theorem octetsOf_flatMap_messageBlocks (views : List AcfView) :
    octetsOf (views.flatMap messageBlocks) = views.flatMap View.octets := by
  induction views with
  | nil => rfl
  | cons view views ih =>
    rw [List.flatMap_cons, List.flatMap_cons, Listing.octetsOf_append, octetsOf_messageBlocks, ih]

/-- The parts are those of the capture. -/
structure Parts.Of (parts : Parts) (buf : List UInt8) : Prop where
  /-- Each octet is in one of them, in its place. -/
  octets_eq : octetsOf parts.blocks = buf
  known : ∀ block ∈ parts.known, Known block
  title_eq : parts.title = "Undecoded" ∨ parts.title = "Payload"

theorem streamParts_of {format : StreamFormat} {pdu rest : List UInt8} {view : View format.header}
    (hsplit : View.split? format.header pdu = .ok (view, rest)) :
    (streamParts view rest).Of pdu where
  octets_eq := by
    have hpayload := (format.accepted_of_split? hsplit).1.payload_eq
    have hwalk := Acf.Walk.octets_views_append_rest view.payload
    rw [← View.append_of_split? hsplit, Parts.blocks, Parts.dataUnit, streamParts]
    simp only [Listing.octetsOf_append, Listing.octetsOf_cons, Listing.octetsOf_ofOctets,
      octetsOf_flatMap_messageBlocks]
    rw [List.append_assoc (Block.octets _), hwalk, hpayload]
    exact congrArg (· ++ rest) (List.take_append_drop _ _)
  known := by
    refine List.forall_mem_cons.mpr ⟨.header ?_, fun block hblock ↦ ?_⟩
    · rw [List.length_take, Nat.min_eq_left (View.size_le_of_split? hsplit)]
    · obtain ⟨message, hmessage, hblock⟩ := List.mem_flatMap.mp hblock
      exact known_messageBlocks (Acf.Walk.complete_of_mem_views hmessage) block hblock
  title_eq := .inl rfl

theorem pduParts?_of {pdu : List UInt8} {parts : Parts} (h : pduParts? pdu = .ok parts) :
    parts.Of pdu := by
  rw [pduParts?] at h
  rcases hcommon : View.split? .common pdu with reason | ⟨common, rest⟩
  · rw [hcommon] at h
    simp at h
  rw [hcommon] at h
  rcases hformat : StreamFormat.ofSubtype? (CommonView.subtype common) with - | format
  · simp only [hformat] at h
    obtain rfl := Except.ok.inj h
    refine ⟨?_, ?_, .inr rfl⟩
    · simp only [Parts.blocks, Parts.dataUnit, Listing.octetsOf_append, Listing.octetsOf_cons,
        Listing.octetsOf_ofOctets]
      rw [octetsOf, List.flatMap_nil, List.append_nil, List.append_nil]
      exact View.append_of_split? hcommon
    · exact List.forall_mem_singleton.mpr (.header (View.length_of_split? rfl hcommon))
  · simp only [hformat] at h
    split at h
    · next view behind _ hsplit =>
      obtain rfl := Except.ok.inj h
      exact streamParts_of hsplit
    · simp at h
    · simp at h

/-- **A capture is taken apart without loss.** -/
theorem parts?_of {udp : Bool} {buf : List UInt8} {parts : Parts} (h : parts? udp buf = .ok parts) :
    parts.Of buf := by
  rw [parts?] at h
  rcases hcapture : splitCapture? udp buf with reason | ⟨view | view, pdu⟩
  · rw [hcapture] at h
    simp at h
  · rw [hcapture] at h
    obtain ⟨-, rfl⟩ := splitCapture?_eq_ok_none_iff.mp hcapture
    exact pduParts?_of h
  · rw [hcapture] at h
    obtain ⟨-, hsplit⟩ := splitCapture?_eq_ok_some_iff.mp hcapture
    obtain ⟨inner, hinner, rfl⟩ := map_eq_ok_iff.mp h
    obtain ⟨hoctets, hknown, htitle⟩ := pduParts?_of hinner
    have hheader : Known (.header .udp view.octets) := .header (View.length_of_split? rfl hsplit)
    refine ⟨?_, List.forall_mem_cons.mpr ⟨hheader, hknown⟩, htitle⟩
    show view.octets ++ octetsOf inner.blocks = buf
    rw [hoctets, View.append_of_split? hsplit]

/-! ### Sections and offsets -/

namespace Parts

variable {parts : Parts} {buf : List UInt8}

/-- The offset of a block in the capture. -/
def offset (parts : Parts) (k : Nat) : Nat := (octetsOf (parts.blocks.take k)).length

theorem whole_known (hparts : parts.Of buf) : Whole parts.known := whole_of_known hparts.known

theorem quadletsOf_dataUnit (hparts : parts.Of buf) :
    quadletsOf parts.dataUnit = quadletsFor (octetsOf parts.dataUnit).length := by
  rw [dataUnit, Block.ofOctets]
  split_ifs with hempty
  · rw [List.append_nil, ← Listing.four_mul_quadletsOf (whole_known hparts), quadletsFor]
    omega
  · exact Listing.quadletsOf_concat (whole_known hparts) _

theorem length_dataUnit (hparts : parts.Of buf) :
    (octetsOf parts.dataUnit).length = buf.length - parts.trailing.length := by
  rw [← hparts.octets_eq, blocks, Listing.octetsOf_append, Listing.octetsOf_ofOctets,
    List.length_append, Nat.add_sub_cancel]

/-- **In front of a block everything is known**, except in front of what trails the data unit. -/
theorem take_blocks {k : Nat} {block : Block} (hblock : parts.blocks[k]? = some block) :
    parts.blocks.take k = parts.known.take k ∨
      parts.blocks.take k = parts.dataUnit ∧ block = .plain "Trailing" parts.trailing := by
  rcases Nat.lt_or_ge k parts.dataUnit.length with hk | hk
  · left
    have hone := Block.length_ofOctets_le parts.title parts.left
    rw [blocks, List.take_append_of_le_length (Nat.le_of_lt hk), dataUnit]
    rw [dataUnit, List.length_append] at hk
    exact List.take_append_of_le_length (by omega)
  · right
    have hlength := (List.getElem?_eq_some_iff.mp hblock).1
    have hone := Block.length_ofOctets_le "Trailing" parts.trailing
    rw [blocks, List.length_append] at hlength
    rw [blocks, List.getElem?_append_right hk] at hblock
    refine ⟨?_, Block.eq_of_mem_ofOctets (List.mem_of_getElem? hblock)⟩
    rw [blocks, show k = parts.dataUnit.length by omega, List.take_left]

/-- **Every section begins with the first quadlet that begins in or behind its block.** -/
theorem quadletsOf_take (hparts : parts.Of buf) {k : Nat} {block : Block}
    (hblock : parts.blocks[k]? = some block) :
    quadletsOf (parts.blocks.take k) = quadletsFor (parts.offset k) := by
  rcases take_blocks hblock with htake | ⟨htake, -⟩
  · have hoctets := Listing.four_mul_quadletsOf_take (whole_known hparts) k
    rw [offset, htake, quadletsFor]
    omega
  · rw [offset, htake, quadletsOf_dataUnit hparts]

/-- **Only what trails the data unit may begin inside a quadlet.** -/
theorem four_dvd_offset (hparts : parts.Of buf) {k : Nat} {block : Block}
    (hblock : parts.blocks[k]? = some block)
    (hfit : block.title ≠ "Trailing" ∨ 4 ∣ buf.length - parts.trailing.length) :
    4 ∣ parts.offset k := by
  rcases take_blocks hblock with htake | ⟨htake, rfl⟩
  · rw [offset, htake, ← Listing.four_mul_quadletsOf_take (whole_known hparts) k]
    exact Nat.dvd_mul_right 4 _
  · rw [offset, htake, length_dataUnit hparts]
    exact hfit.resolve_left fun htitle ↦ htitle rfl

end Parts

/-! ### The tiling -/

/-- The listing has a section for each part of the buffer. -/
structure Tiles (listing : Listing) (parts : Parts) (buf : List UInt8) : Prop where
  /-- The blocks are the buffer, each octet once and in its place. -/
  octets_eq : octetsOf parts.blocks = buf
  /-- There is a section for each block. -/
  length_eq : listing.sections.length = parts.blocks.length
  /-- It has the title, the fields and the quadlets of the block, from the first quadlet on that
  begins at its octets or behind. -/
  section_eq : ∀ k (block : Block), parts.blocks[k]? = some block →
    listing.sections[k]? = some (block.sectionAt (quadletsFor (parts.offset k)))
  /-- The quadlet begins at its octets, unless the data unit breaks off inside a quadlet and the
  block is what trails it. -/
  begins : ∀ k (block : Block), parts.blocks[k]? = some block →
    (block.title ≠ "Trailing" ∨ 4 ∣ buf.length - parts.trailing.length) →
      4 * quadletsFor (parts.offset k) = parts.offset k
  /-- An octet of a block is shown there and nowhere else, unless it is in front of the section. -/
  shows_iff : ∀ k (block : Block) octet, parts.blocks[k]? = some block →
    parts.offset k ≤ octet → octet < parts.offset k + block.octets.length →
      4 * quadletsFor (parts.offset k) ≤ octet →
        ∀ j part, listing.sections[j]? = some part → (part.Shows octet ↔ j = k)
  /-- The data unit and what trails it have quadlets of their own. -/
  quadlets_eq : listing.quadlets =
    quadletsFor (buf.length - parts.trailing.length) + quadletsFor parts.trailing.length
  /-- These are the quadlets of the buffer, if there is no quadlet with octets of both. -/
  quadlets_eq_of : (parts.trailing = [] ∨ 4 ∣ buf.length - parts.trailing.length) →
    listing.quadlets = quadletsFor buf.length

theorem Parts.Of.tiles {parts : Parts} {buf : List UInt8} (hparts : parts.Of buf) :
    Tiles (ofBlocks parts.blocks) parts buf := by
  have hsection : ∀ k (block : Block), parts.blocks[k]? = some block →
      (ofBlocks parts.blocks).sections[k]? =
        some (block.sectionAt (quadletsFor (parts.offset k))) := by
    intro k block hblock
    rw [Listing.getElem?_sections_ofBlocks, hblock, Option.map_some,
      Parts.quadletsOf_take hparts hblock]
  have hquadlets : (ofBlocks parts.blocks).quadlets =
      quadletsFor (buf.length - parts.trailing.length) + quadletsFor parts.trailing.length := by
    rw [Listing.quadlets_ofBlocks, Parts.blocks, Listing.quadletsOf_append,
      Listing.quadletsOf_ofOctets, Parts.quadletsOf_dataUnit hparts, Parts.length_dataUnit hparts]
  have hlength : parts.trailing.length ≤ buf.length := by
    rw [← hparts.octets_eq, Parts.blocks, Listing.octetsOf_append, Listing.octetsOf_ofOctets,
      List.length_append]
    exact Nat.le_add_left _ _
  refine ⟨hparts.octets_eq, Listing.length_sections_ofBlocks _, hsection, ?_, ?_, hquadlets, ?_⟩
  · intro k block hblock hfit
    exact four_mul_quadletsFor (Parts.four_dvd_offset hparts hblock hfit)
  · intro k block octet hblock hmin hmax hline j part hpart
    have hshows : (block.sectionAt (quadletsFor (parts.offset k))).Shows octet := by
      simp only [Section.Shows, Block.sectionAt, Block.quadlets]
      simp only [quadletsFor] at hline ⊢
      omega
    constructor
    · intro hother
      exact Listing.eq_of_shows hpart (hsection k block hblock) hother hshows
    · rintro rfl
      rw [hsection j block hblock] at hpart
      exact Option.some.inj hpart ▸ hshows
  · rintro (hnone | hdvd)
    · rw [hquadlets, hnone]
      rfl
    · rw [hquadlets, ← quadletsFor_add hdvd, Nat.sub_add_cancel hlength]

/-- **A listing tiles the capture**, except that what trails a data unit begins with a quadlet of
its own. -/
theorem listing?_tiles {udp : Bool} {buf : List UInt8} {listing : Listing}
    (h : listing? udp buf = .ok listing) :
    ∃ parts, parts? udp buf = .ok parts ∧ Tiles listing parts buf := by
  rw [listing?_eq, map_eq_ok_iff] at h
  obtain ⟨parts, hparts, rfl⟩ := h
  exact ⟨parts, hparts, (parts?_of hparts).tiles⟩

/-- A data unit of 13 octets and two octets behind it. The one octet of payload is no message. -/
def unevenCapture : List UInt8 := [0x82, 0, 1, 0, 0, 0, 0, 0, 0, 0, 0, 0, 0xAA, 0xBB, 0xCC]

/-- With an encapsulation header in front it is listed in four sections. -/
theorem listing?_tiles_uneven :
    ∃ parts, parts? true ([0, 0, 0, 7] ++ unevenCapture) = .ok parts ∧
      Tiles (ofBlocks [.header .udp [0, 0, 0, 7], .header .ntscf (unevenCapture.take 12),
          .plain "Undecoded" [0xAA], .plain "Trailing" [0xBB, 0xCC]])
        parts ([0, 0, 0, 7] ++ unevenCapture) :=
  listing?_tiles (by decide +kernel)

/-- The two octets behind the data unit are at offset 13, in its last quadlet, and their section
begins with the next one, where the capture has none. -/
theorem listing?_uneven :
    View.split? .ntscf unevenCapture = .ok (⟨unevenCapture.take 13⟩, [0xBB, 0xCC]) ∧
      (listing? false unevenCapture).map (fun listing ↦ (listing.quadlets,
          listing.sections.map fun part ↦ (part.title, part.firstQuadlet))) =
        .ok (5, [("Ntscf", 0), ("Undecoded", 3), ("Trailing", 4)]) ∧
      quadletsFor unevenCapture.length ≠ 5 ∧ 4 * 4 ≠ (unevenCapture.take 13).length := by
  decide +kernel

end Dump

end Avtp
