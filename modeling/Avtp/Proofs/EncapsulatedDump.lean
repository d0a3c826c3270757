import Avtp.Proofs.PlainListing

/-!
# Dumps behind an encapsulation header

An encapsulation header moves what is behind it by four octets, and that is all it does to a dump.
There are two reasons, and neither is about data units.

**Taking apart.** A dump adds to the listing that there is, and never looks at it. So what a data
unit adds is the same behind any listing, moved to where that listing ends (`pushPdu?_append`). The
induction is on the items of the walk along the messages; for everything else one call is compared
with one call.

**Drawing.** A line of a section is drawn from the octets of its quadlet on and from the fields in
it. If section and octets are moved together, a line changes by its number and by the offset that
goes with it (`plainLines_append`). To say so, a line is first a `Line` and only then text. Colour
is left out, because colours are dealt out along the whole listing: a label in front takes one of
them.
-/

namespace Avtp

namespace Listing

/-! ### Lines without colour -/

/-- A line of a listing without colour. -/
inductive Line where
  /-- The line in front of a section. -/
  | title (name : String)
  /-- The line of a quadlet: its number, and what is shown of it. -/
  | quadlet (number : Nat) (content : String)
  deriving DecidableEq

namespace Line

/-- The text of the line. The offset of a quadlet follows from its number. -/
def text : Line → String
  | title name => s!"                | {name}"
  | quadlet number content =>
    s!"0x{Text.hexUpper 4 (4 * number)}  q{Text.decimalPadded 3 number}   | " ++ content

/-- The same line for a quadlet that is `count` quadlets further behind. -/
def behind : Line → Nat → Line
  | title name, _ => title name
  | quadlet number content, count => quadlet (number + count) content

/-- Lines as text; every line ends with a line feed. -/
def textAll (lines : List Line) : String := String.join (lines.map fun line ↦ line.text ++ "\n")

end Line

/-- What is drawn of a quadlet behind its offset and its number. -/
def contentStrokes (labels : List String) (part : Section) (buf : List UInt8) (quadlet : Nat) :
    List Stroke :=
  let fields := part.fields.filter fun field ↦ field.1.quadlet = quadlet
  bitStrokes labels fields buf quadlet ++ ([.bare " | "] ++ fieldStrokes labels fields buf)

/-- What a quadlet shows without colour. Labels are there for colour only. -/
def content (part : Section) (buf : List UInt8) (quadlet : Nat) : String :=
  Stroke.renderAll false (contentStrokes [] part buf quadlet)

/-- The lines of a section without colour. -/
def plainSection (buf : List UInt8) (part : Section) : List Line :=
  .title part.title ::
    (List.range' part.firstQuadlet part.quadlets).map fun quadlet ↦
      .quadlet quadlet (content part buf quadlet)

/-- The lines of a listing without colour. -/
def plainLines (listing : Listing) (buf : List UInt8) : List Line :=
  listing.sections.flatMap (plainSection buf)

/-- The characters of a bit do not depend on its colour. -/
theorem text_bitDrawn_labels (labels : List String) (label : Option String) (bit : Option Bool) :
    (bitDrawn labels label bit).text = (bitDrawn [] label bit).text := by
  rcases bit with - | value
  · cases label <;> rfl
  · cases value <;> rfl

theorem text_contentStrokes_labels (labels : List String) (part : Section) (buf : List UInt8)
    (quadlet : Nat) :
    (contentStrokes labels part buf quadlet).map Stroke.text =
      (contentStrokes [] part buf quadlet).map Stroke.text := by
  have hfields (fields : List (BitField × String)) :
      (fieldStrokes labels fields buf).map Stroke.text =
        (fieldStrokes [] fields buf).map Stroke.text := by
    rw [fieldStrokes, fieldStrokes, text_inEntries, text_inEntries, List.map_map, List.map_map]
    rfl
  have hbits (fields : List (BitField × String)) :
      (bitStrokes labels fields buf quadlet).map Stroke.text =
        (bitStrokes [] fields buf quadlet).map Stroke.text := by
    rw [bitStrokes, bitStrokes]
    refine text_inGroups_congr fun bit _ ↦ ?_
    rw [bitStroke, bitStroke, text_bitDrawn_labels]
  simp only [contentStrokes, List.map_append, hfields, hbits]

theorem plain_quadletLine_eq (labels : List String) (part : Section) (buf : List UInt8)
    (quadlet : Nat) :
    Stroke.renderAll false (quadletLine labels part buf quadlet) =
      (Line.quadlet quadlet (content part buf quadlet)).text := by
  have hline (content : String) : (Line.quadlet quadlet content).text =
      s!"0x{Text.hexUpper 4 (4 * quadlet)}  q{Text.decimalPadded 3 quadlet}   | " ++ content := rfl
  have hbetween : String.join ([Stroke.bare " | "].map Stroke.text) = " | " := by
    rw [List.map_singleton, String.join_cons, String.join_nil, String.append_empty]
    rfl
  rw [quadletLine, plain_rowDrawn, hline, content, plain_renderAll,
    ← text_contentStrokes_labels labels, contentStrokes]
  simp only [List.map_append, String.join_append, hbetween, String.append_assoc]

theorem plain_sectionLines_eq (labels : List String) (part : Section) (buf : List UInt8) :
    (sectionLines labels part buf).map (Stroke.renderAll false) =
      (plainSection buf part).map Line.text := by
  have htitle : Stroke.renderAll false (titleDrawn part.title) = (Line.title part.title).text :=
    plain_titleDrawn part.title
  have hquadlets : (List.range' part.firstQuadlet part.quadlets).map
      (Stroke.renderAll false ∘ quadletLine labels part buf) =
        (List.range' part.firstQuadlet part.quadlets).map
          (Line.text ∘ fun quadlet ↦ .quadlet quadlet (content part buf quadlet)) := by
    refine List.map_congr_left fun quadlet _ ↦ ?_
    rw [Function.comp_apply, Function.comp_apply, plain_quadletLine_eq]
  rw [sectionLines, plainSection, List.map_cons, List.map_cons, htitle, List.map_map,
    List.map_map, hquadlets]

/-- **Without colour the text of a listing is that of its lines.** -/
theorem render_plain (listing : Listing) (buf : List UInt8) :
    listing.render buf false = Line.textAll (listing.plainLines buf) := by
  have hlines : (listing.lines buf).map (Stroke.renderAll false) =
      (listing.plainLines buf).map Line.text := by
    simp only [lines, plainLines, List.map_flatMap, plain_sectionLines_eq]
  have hfeeds := congrArg (List.map (· ++ "\n")) hlines
  rw [List.map_map, List.map_map] at hfeeds
  exact congrArg String.join hfeeds

/-! ### Moved sections -/

section

variable {front back : List UInt8} {count : Nat}

/-- The fields of a moved section that lie in a moved quadlet are those of the section in the
quadlet, moved. -/
theorem filter_fields_behind (part : Section) (count quadlet : Nat) :
    (part.behind count).fields.filter (fun field ↦ field.1.quadlet = quadlet + count) =
      (part.fields.filter fun field ↦ field.1.quadlet = quadlet).map
        fun field ↦ (field.1.behind count, field.2) := by
  rw [Nat.add_comm quadlet]
  exact filter_map_behind part.fields count quadlet

/-- The bits are drawn as if section and octets had not been moved. -/
theorem bitStroke_moved (labels : List String) (fields : List (BitField × String))
    (octets : List UInt8) (count quadlet : Nat) :
    bitStroke labels (fields.map fun field ↦ (field.1.behind count, field.2)) octets
        (quadlet + count) =
      bitStroke labels fields octets quadlet := by
  funext bit
  have hlabel : ((fields.map fun field ↦ (field.1.behind count, field.2)).find?
      fun field ↦ field.1.covers (32 * (quadlet + count) + bit)).map Prod.snd =
        (fields.find? fun field ↦ field.1.covers (32 * quadlet + bit)).map Prod.snd := by
    rw [List.find?_map, Option.map_map]
    simp only [Function.comp_def,
      show 32 * (quadlet + count) + bit = 32 * count + (32 * quadlet + bit) by omega,
      BitField.covers_behind]
  rw [bitStroke, hlabel]
  rfl

theorem valueText_moved (hfront : front.length = 4 * count) (place : BitField) :
    valueText (front ++ back) (place.behind count) = valueText back place := by
  rw [valueText, BitField.read?_placed hfront]
  rfl

/-- **A quadlet shows the same where it has been moved to.** -/
theorem content_moved (hfront : front.length = 4 * count) (part : Section) (quadlet : Nat) :
    content (part.behind count) (front ++ back) (quadlet + count) = content part back quadlet := by
  have hfields (fields : List (BitField × String)) :
      fieldStrokes [] (fields.map fun field ↦ (field.1.behind count, field.2)) (front ++ back) =
        fieldStrokes [] fields back := by
    have hfield (field : BitField × String) :
        fieldStroke [] (front ++ back) (field.1.behind count, field.2) =
          fieldStroke [] back field := by
      rw [fieldStroke, valueText_moved hfront]
      rfl
    simp only [fieldStrokes, List.map_map, Function.comp_def, hfield]
  rw [content, content, contentStrokes, contentStrokes, filter_fields_behind]
  simp only [bitStrokes, Octets.drop_placed hfront, bitStroke_moved, hfields]

theorem plainSection_moved (hfront : front.length = 4 * count) (part : Section) :
    plainSection (front ++ back) (part.behind count) =
      (plainSection back part).map (·.behind count) := by
  have hquadlets : List.range' (part.firstQuadlet + count) part.quadlets =
      (List.range' part.firstQuadlet part.quadlets).map (· + count) := by
    simp only [List.range'_eq_map_range, List.map_map, Function.comp_def]
    refine List.map_congr_left fun k _ ↦ ?_
    omega
  rw [plainSection, plainSection, List.map_cons, List.map_map]
  show Line.title part.title ::
    (List.range' (part.firstQuadlet + count) part.quadlets).map _ = _
  rw [hquadlets, List.map_map]
  simp only [Function.comp_def, content_moved hfront]
  rfl

end

/-- **A listing behind another one has its own lines, moved.** -/
theorem plainLines_append (listing other : Listing) {front : List UInt8}
    (hfront : front.length = 4 * listing.quadlets) (back : List UInt8) :
    (listing.append other).plainLines (front ++ back) =
      listing.plainLines (front ++ back) ++
        (other.plainLines back).map (·.behind listing.quadlets) := by
  rw [plainLines, append, List.flatMap_append, List.flatMap_map]
  simp only [plainSection_moved hfront]
  rw [plainLines, plainLines, List.map_flatMap]

end Listing

namespace Dump

open Listing (Line Block)

/-! ### Adding to a listing -/

theorem pushOctets_append (front back : Listing) (title : String) (count : Nat) :
    pushOctets (front.append back) title count = front.append (pushOctets back title count) := by
  rw [pushOctets, pushOctets]
  split_ifs
  · rfl
  · rw [Listing.pushOpaque, Listing.push_eq_append, Listing.append_assoc, Listing.pushOpaque,
      ← Listing.push_eq_append]

/-- Messages are added behind any listing alike. -/
theorem pushMessages_append (front back : Listing) (items : List (Except LayoutError AcfView)) :
    pushMessages (front.append back) items = (pushMessages back items).map front.append := by
  induction items generalizing back with
  | nil => rfl
  | cons item items ih =>
    rcases item with fault | view
    · rfl
    · rw [pushMessages, pushMessages]
      rcases view.extent? with fault | extent
      · rfl
      · simp only [Listing.append_assoc, ih]

theorem pushStream?_append (front back : Listing) (format : StreamFormat) (pdu : List UInt8) :
    pushStream? (front.append back) format pdu =
      (pushStream? back format pdu).map front.append := by
  rw [pushStream?, pushStream?]
  rcases format.dataLength? pdu with fault | count
  · rfl
  rcases View.split? format.header pdu with reason | ⟨view, rest⟩
  · rfl
  simp only [Listing.append_assoc, pushMessages_append]
  rcases pushMessages _ _ with reason | listing
  · rfl
  · simp only [Except.map, pushOctets_append]

/-- **A data unit is added behind any listing alike**, and fails for the same reasons. -/
theorem pushPdu?_append (front back : Listing) (pdu : List UInt8) :
    pushPdu? (front.append back) pdu = (pushPdu? back pdu).map front.append := by
  rw [pushPdu?, pushPdu?]
  rcases View.split? .common pdu with reason | ⟨common, rest⟩
  · rfl
  rcases hformat : StreamFormat.ofSubtype? (CommonView.subtype common) with - | format
  · simp only [hformat, Listing.append_assoc, pushOctets_append]
    rfl
  · simp only [hformat, pushStream?_append]

/-! ### Encapsulated captures -/

/-- The section of the encapsulation header. -/
def udpSection : Section where
  title := "UdpEncapsulation"
  firstQuadlet := 0
  quadlets := 1
  fields := [(.mk 0 0 32, "encapsulation_seq_no")]

theorem ofHeader_udp : Listing.ofHeader .udp = ⟨[udpSection], 1⟩ := rfl

/-- The lines of the encapsulation header: its title, and its only quadlet with the sequence number.
-/
def udpLines (view : UdpView) : List Line :=
  [.title "UdpEncapsulation",
    .quadlet 0 (Listing.quadletText view.octets 0 ++ " | " ++
      s!"encapsulation_seq_no={Text.decimal view.sequenceNumber.toNat}")]

/-- Four octets are an encapsulation header, whatever they are. -/
theorem split?_udp_append {front : List UInt8} (hfront : front.length = 4) (pdu : List UInt8) :
    View.split? .udp (front ++ pdu) = .ok (⟨front⟩, pdu) := by
  have hroom : ¬ (front ++ pdu).length < Header.size .udp := by
    rw [List.length_append, hfront]
    exact Nat.not_lt.mpr (Nat.le_add_right 4 _)
  refine View.split?_eq_ok_iff.mpr ⟨4, ?_, ?_, ?_⟩
  · exact if_neg hroom
  · rw [List.take_left' hfront]
  · rw [List.drop_left' hfront]

/-- **A capture is taken apart behind its encapsulation header**, as it would be without one. -/
theorem listing?_true_append {front : List UInt8} (hfront : front.length = 4) (pdu : List UInt8) :
    listing? true (front ++ pdu) = (listing? false pdu).map (Listing.ofHeader .udp).append := by
  have hcapture : splitCapture? true (front ++ pdu) = .ok (some ⟨front⟩, pdu) :=
    splitCapture?_eq_ok_some_iff.mpr ⟨rfl, split?_udp_append hfront pdu⟩
  have hplain : splitCapture? false pdu = .ok (none, pdu) :=
    splitCapture?_eq_ok_none_iff.mpr ⟨rfl, rfl⟩
  rw [listing?, listing?, hcapture, hplain]
  simp only [Listing.empty_append]
  rw [← pushPdu?_append, Listing.append_empty]

theorem quadletText_append {front : List UInt8} (hfront : front.length = 4) (pdu : List UInt8) :
    Listing.quadletText (front ++ pdu) 0 = Listing.quadletText front 0 := by
  have hbit (bit : Nat) (hbit : bit < 32) :
      Listing.bitText (front ++ pdu) (32 * 0 + bit) = Listing.bitText front (32 * 0 + bit) := by
    rw [Listing.bitText, Listing.bitText, Octets.bit?_append_left pdu (by omega)]
  rw [Listing.quadletText, Listing.quadletText]
  congr 1
  refine List.flatMap_congr fun bit hmem ↦ ?_
  rw [hbit bit (List.mem_range.mp hmem)]

/-- The only field of an encapsulation header is its sequence number. -/
theorem entriesText_udp (front : List UInt8) :
    (Block.header .udp front).entriesText 0 =
      s!"encapsulation_seq_no={Text.decimal (UdpView.sequenceNumber ⟨front⟩).toNat}" := by
  have hvalue : (UdpView.sequenceNumber ⟨front⟩).toNat =
      (Header.place (h := .udp) UdpSlot.sequenceNumber).read front := by
    rw [UdpView.sequenceNumber, UInt32.toNat_ofNat']
    exact Nat.mod_eq_of_lt (BitField.read_lt_two_pow _ front)
  have hentries : (Block.header .udp front).entries 0 =
      [s!"encapsulation_seq_no={Text.decimal
        ((Header.place (h := .udp) UdpSlot.sequenceNumber).read front)}"] := rfl
  rw [hvalue, Block.entriesText, hentries, if_neg (List.cons_ne_nil _ _),
    List.intersperse_singleton, String.join_cons, String.join_nil, String.append_empty]

/-- **The encapsulation header has two lines**, whatever is behind it. -/
theorem plainLines_udp {front : List UInt8} (hfront : front.length = 4) (pdu : List UInt8) :
    (Listing.ofHeader .udp).plainLines (front ++ pdu) = udpLines ⟨front⟩ := by
  have hplaced : (Block.header .udp front).PlacedAt (front ++ pdu) 0 := by
    intro h octets hblock
    cases hblock
    exact ⟨hfront, pdu, rfl⟩
  have hlength : 4 * 0 + 4 ≤ (front ++ pdu).length := by
    rw [List.length_append]
    omega
  have hfields := Listing.plain_fieldStrokes [] hplaced 0
  rw [show ((Block.header .udp front).sectionAt 0).fields = udpSection.fields from rfl] at hfields
  simp only [Nat.add_zero, entriesText_udp] at hfields
  have hcontent : Listing.content udpSection (front ++ pdu) 0 =
      Listing.quadletText front 0 ++ " | " ++
        s!"encapsulation_seq_no={Text.decimal (UdpView.sequenceNumber ⟨front⟩).toNat}" := by
    rw [Listing.content, Listing.plain_renderAll, Listing.contentStrokes, List.map_append,
      List.map_append, String.join_append, String.join_append,
      Listing.plain_bitStrokes [] _ (.inr hlength), quadletText_append hfront, hfields,
      List.map_singleton, String.join_cons, String.join_nil, String.append_empty,
      String.append_assoc]
    rfl
  rw [udpLines, ← hcontent]
  rfl

/-- An encapsulation header moves the dump of what is behind it. -/
structure Moves (front pdu : List UInt8) : Prop where
  /-- With the header a capture is listed if and only if it is without. -/
  isOk_iff : (∃ listing, listing? true (front ++ pdu) = .ok listing) ↔
    ∃ listing, listing? false pdu = .ok listing
  /-- It is refused for the same reason. -/
  error_iff : ∀ reason, listing? true (front ++ pdu) = .error reason ↔
    listing? false pdu = .error reason
  /-- The sections are that of the header and then the others, each with its fields one quadlet
  further behind and otherwise unchanged. -/
  sections_eq : ∀ listing, listing? false pdu = .ok listing →
    listing? true (front ++ pdu) =
      .ok ⟨udpSection :: listing.sections.map (·.behind 1), 1 + listing.quadlets⟩
  /-- Without colour the lines are the two of the header and then the others, each with its number
  and its offset one quadlet further behind and otherwise unchanged. -/
  render_eq : ∀ listing moved, listing? false pdu = .ok listing →
    listing? true (front ++ pdu) = .ok moved →
      listing.render pdu false = Line.textAll (listing.plainLines pdu) ∧
        moved.render (front ++ pdu) false =
          Line.textAll (udpLines ⟨front⟩ ++ (listing.plainLines pdu).map (·.behind 1))

/-- **Encapsulation only moves a dump**, whatever the four octets in front and the octets behind
them are. -/
theorem listing?_moves {front : List UInt8} (hfront : front.length = 4) (pdu : List UInt8) :
    Moves front pdu := by
  have hlisting := listing?_true_append hfront pdu
  refine ⟨?_, ?_, ?_, ?_⟩
  · rw [hlisting]
    cases listing? false pdu <;> simp [Except.map]
  · intro reason
    rw [hlisting]
    cases listing? false pdu <;> simp [Except.map]
  · intro listing hplain
    rw [hlisting, hplain, ofHeader_udp]
    rfl
  · intro listing moved hplain hmoved
    rw [hlisting, hplain] at hmoved
    obtain rfl := Except.ok.inj hmoved
    refine ⟨Listing.render_plain listing pdu, ?_⟩
    rw [Listing.render_plain, Listing.plainLines_append _ _ hfront, plainLines_udp hfront]
    rfl

/-- A data unit of 13 octets and two octets behind it, behind a sequence number. -/
theorem listing?_moves_uneven :
    [0, 0, 1, 7].length = 4 ∧ Moves [0, 0, 1, 7] unevenCapture :=
  ⟨rfl, listing?_moves rfl unevenCapture⟩

end Dump

end Avtp
