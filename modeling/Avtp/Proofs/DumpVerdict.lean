import Avtp.Dump
import Avtp.Proofs.EncapsulatedDump
import Avtp.Proofs.NetworkOrder

/-!
# When a capture is dumped

A dump takes several steps that can be refused: the text has to be read, then come the headers from
the outside to the inside, and a control stream is first measured and then viewed. Each message that
the walk finds is measured once more before it is listed. `CaptureReady` says in octets and bits
what all of this comes to, without any of these steps: a run succeeds if and only if the text spells
octets and the headers in them are complete, of version zero, and announce no more than there is
(`Decided`).

**Late steps are never refused.** A stream that has been measured has a view, since both go by the
same announcement, and a message that the walk has found is where its own length says. So the
octets behind the headers decide nothing (`PayloadInert`): whatever they are, they are listed, as
messages or as undecoded.
-/

namespace Avtp

namespace Octets

/-- The first octet is spelled by the first eight bits. -/
theorem spells_head (octet : UInt8) (rest : List UInt8) :
    Spells (octet :: rest) 0 8 octet.toNat := by
  refine ⟨(List.range 8).map fun k ↦ octet.toNat.testBit (8 - 1 - k), ?_, ?_⟩
  · rw [List.map_map, ← List.range_eq_range']
    refine List.map_congr_left fun k hk ↦ ?_
    have hk := List.mem_range.mp hk
    rw [bit?, show k / 8 = 0 by omega, show k % 8 = k by omega, List.getElem?_cons_zero,
      Option.map_some, BitVec.getMsbD_eq_getLsbD, decide_eq_true hk, Bool.true_and]
    rfl
  · rw [spelled_testBit]
    exact Nat.mod_eq_of_lt octet.toNat_lt

end Octets

namespace BitField

theorem spells_iff {f : BitField} {buf : List UInt8} {number : Nat}
    (h : f.requiredOctets ≤ buf.length) :
    Octets.Spells buf f.firstBit f.endBit number ↔ f.read buf = number := by
  constructor
  · intro hspells
    exact (spells_read h).unique hspells
  · rintro rfl
    exact spells_read h

end BitField

/-! ### Complete headers -/

/-- The header of a control stream is complete: it has `size` octets, is of version zero, and
announces, in the bits from `first` up to `last`, a payload that is there. -/
structure StreamReady (size first last : Nat) (pdu : List UInt8) : Prop where
  size_le : size ≤ pdu.length
  version : Octets.Spells pdu 9 12 0
  payload : ∃ count, Octets.Spells pdu first last count ∧ size + count ≤ pdu.length

/-- The headers of a data unit are complete. Only the subtypes of the control streams announce more
than the common header. -/
structure HeadersReady (pdu : List UInt8) : Prop where
  common : 4 ≤ pdu.length
  ntscf : pdu.head? = some 0x82 → StreamReady 12 13 24 pdu
  tscf : pdu.head? = some 0x05 → StreamReady 24 160 176 pdu

/-- A capture can be dumped. -/
def CaptureReady (udp : Bool) (buf : List UInt8) : Prop :=
  if udp then 4 ≤ buf.length ∧ HeadersReady (buf.drop 4) else HeadersReady buf

namespace StreamFormat

variable {format : StreamFormat} {pdu : List UInt8}

theorem ofSubtype?_eq_some_iff {raw : UInt8} :
    ofSubtype? (.ofRaw raw) = some format ↔ raw = format.subtype.raw := by
  constructor
  · intro hformat
    have hsubtype : PduSubtype.ofRaw raw = format.subtype := by
      unfold ofSubtype? at hformat
      split at hformat
      · next heq => exact Option.some.inj hformat ▸ heq
      · next heq => exact Option.some.inj hformat ▸ heq
      · exact nomatch hformat
    rw [← hsubtype, PduSubtype.raw_ofRaw]
  · rintro rfl
    cases format <;> rfl

/-- **A control stream is accepted if and only if its header is complete.** -/
theorem isOk_dataLength?_iff
    (hsubtype : (Header.place (h := .common) CommonSlot.subtype).read pdu =
      format.subtype.raw.toNat) :
    (∃ count, format.dataLength? pdu = .ok count) ↔
      StreamReady format.header.size (Header.place format.dataLengthSlot).firstBit
        (Header.place format.dataLengthSlot).endBit pdu := by
  have hfit (hsize : format.header.size ≤ pdu.length) (slot : format.header.Slot) :
      (Header.place slot).requiredOctets ≤ pdu.length :=
    Nat.le_trans (Header.place_requiredOctets_le slot) hsize
  have hversion (hsize : format.header.size ≤ pdu.length) : Octets.Spells pdu 9 12 0 ↔
      (Header.place (h := .common) CommonSlot.version).read pdu = protocolVersion.toNat := by
    rw [← format.place_versionSlot]
    refine Iff.trans ?_ (BitField.spells_iff (hfit hsize format.versionSlot))
    cases format <;> rfl
  simp only [dataLength?_eq_ok_iff]
  constructor
  · rintro ⟨count, -, hzero, hcount, hroom⟩
    have hsize : format.header.size ≤ pdu.length := Nat.le_trans (Nat.le_add_right _ _) hroom
    exact ⟨hsize, (hversion hsize).mpr hzero, count,
      (BitField.spells_iff (hfit hsize _)).mpr hcount, hroom⟩
  · rintro ⟨hsize, hzero, count, hcount, hroom⟩
    exact ⟨count, hsubtype, (hversion hsize).mp hzero,
      (BitField.spells_iff (hfit hsize _)).mp hcount, hroom⟩

/-- **A stream that has been measured has a view.** -/
theorem split?_of_dataLength? {count : Nat} (hcount : format.dataLength? pdu = .ok count) :
    ∃ view rest, View.split? format.header pdu = .ok (view, rest) := by
  have hextent : format.header.extent? pdu = .ok (format.header.size + count) := by
    rw [format.extent?_header, hcount]
    rfl
  exact ⟨_, _, View.split?_eq_ok_iff.mpr ⟨_, hextent, rfl, rfl⟩⟩

/-- The length of a payload is announced, whatever the payload is. -/
theorem dataLength?_append_congr {header payload other : List UInt8}
    (hheader : header.length = format.header.size) (hlength : payload.length = other.length) :
    format.dataLength? (header ++ payload) = format.dataLength? (header ++ other) := by
  have hread (slot : format.header.Slot) (rest : List UInt8) :
      (Header.place slot).read (header ++ rest) = (Header.place slot).read header :=
    Header.read_append slot rest (Nat.le_of_eq hheader.symm)
  simp only [dataLength?, ← format.place_subtypeSlot, ← format.place_versionSlot, hread,
    List.length_append, hlength]

end StreamFormat

/-- The first octet is the number of the subtype. -/
theorem read_subtype {pdu : List UInt8} {octet : UInt8} (hlong : 4 ≤ pdu.length)
    (hhead : pdu.head? = some octet) :
    (Header.place (h := .common) CommonSlot.subtype).read pdu = octet.toNat := by
  obtain ⟨rest, rfl⟩ := List.head?_eq_some_iff.mp hhead
  have hspells := Octets.spells_head octet rest
  exact (BitField.spells_iff (f := Header.place (h := .common) CommonSlot.subtype) hlong).mp hspells

/-- The format of a data unit is announced by its first octet. -/
theorem StreamFormat.ofSubtype?_of_split? {pdu back : List UInt8} {common : CommonView}
    (hsplit : View.split? .common pdu = .ok (common, back)) (format : StreamFormat) :
    ofSubtype? common.subtype = some format ↔ pdu.head? = some format.subtype.raw := by
  have hsize := View.size_le_of_split? hsplit
  have happend := View.append_of_split? hsplit
  obtain ⟨octet, rest, hoctets⟩ : ∃ octet rest, common.octets = octet :: rest :=
    List.exists_cons_of_length_pos (Nat.lt_of_lt_of_le (by decide) hsize)
  have hread : common.rawSubtype = octet := by
    have hhead : common.octets.head? = some octet := by rw [hoctets, List.head?_cons]
    rw [CommonView.rawSubtype, View.read, read_subtype hsize hhead]
    exact UInt8.ofNat_toNat
  rw [CommonView.subtype, hread, ofSubtype?_eq_some_iff, ← happend, hoctets]
  exact Option.some_inj.symm

/-- **The headers of a control stream are complete if it can be measured.** -/
theorem headersReady_iff_of_head? {pdu : List UInt8} {format : StreamFormat}
    (hlong : 4 ≤ pdu.length) (hhead : pdu.head? = some format.subtype.raw) :
    HeadersReady pdu ↔ ∃ count, format.dataLength? pdu = .ok count := by
  rw [StreamFormat.isOk_dataLength?_iff (read_subtype hlong hhead)]
  cases format with
  | ntscf =>
    refine ⟨fun hready ↦ hready.ntscf hhead, fun hready ↦ ⟨hlong, fun _ ↦ hready, fun hother ↦ ?_⟩⟩
    exact absurd (hhead.symm.trans hother) (by decide)
  | tscf =>
    refine ⟨fun hready ↦ hready.tscf hhead, fun hready ↦ ⟨hlong, fun hother ↦ ?_, fun _ ↦ hready⟩⟩
    exact absurd (hhead.symm.trans hother) (by decide)

/-- Of other data units only the common header is asked for. -/
theorem headersReady_of_head?_ne {pdu : List UInt8} (hlong : 4 ≤ pdu.length)
    (hnone : ∀ format : StreamFormat, pdu.head? ≠ some format.subtype.raw) : HeadersReady pdu :=
  ⟨hlong, fun hhead ↦ absurd hhead (hnone .ntscf), fun hhead ↦ absurd hhead (hnone .tscf)⟩

/-- The headers of a control stream say whether they are complete, whatever is behind them. -/
theorem headersReady_append_congr {format : StreamFormat} {header payload other : List UInt8}
    (hheader : header.length = format.header.size)
    (hhead : header.head? = some format.subtype.raw) (hlength : payload.length = other.length) :
    HeadersReady (header ++ payload) ↔ HeadersReady (header ++ other) := by
  have hfour : 4 ≤ header.length := by
    rw [hheader]
    cases format <;> decide
  have hlong (rest : List UInt8) : 4 ≤ (header ++ rest).length := by
    rw [List.length_append]
    omega
  have hfirst (rest : List UInt8) : (header ++ rest).head? = some format.subtype.raw := by
    rw [List.head?_append, hhead, Option.some_or]
  rw [headersReady_iff_of_head? (hlong payload) (hfirst payload),
    headersReady_iff_of_head? (hlong other) (hfirst other),
    StreamFormat.dataLength?_append_congr hheader hlength]

namespace Dump

/-! ### Steps that succeed -/

/-- **A control stream is listed if and only if it can be measured.** -/
theorem isOk_pushStream?_iff (listing : Listing) (format : StreamFormat) (pdu : List UInt8) :
    (∃ found, pushStream? listing format pdu = .ok found) ↔
      ∃ count, format.dataLength? pdu = .ok count := by
  constructor
  · rintro ⟨found, hfound⟩
    rcases hlength : format.dataLength? pdu with fault | count
    · rw [pushStream?, hlength] at hfound
      cases hfound
    · exact ⟨count, rfl⟩
  · rintro ⟨count, hcount⟩
    obtain ⟨view, rest, hsplit⟩ := StreamFormat.split?_of_dataLength? hcount
    exact ⟨_, pushStream?_eq listing hcount hsplit⟩

/-- **A data unit is listed if and only if its headers are complete.** -/
theorem isOk_pushPdu?_iff (listing : Listing) (pdu : List UInt8) :
    (∃ found, pushPdu? listing pdu = .ok found) ↔ HeadersReady pdu := by
  have hcommon : (∃ view rest, View.split? .common pdu = .ok (view, rest)) ↔ 4 ≤ pdu.length :=
    View.isOk_split?_iff rfl
  rw [pushPdu?]
  rcases hsplit : View.split? .common pdu with reason | ⟨common, back⟩
  · rw [hsplit] at hcommon
    have hshort : ¬ 4 ≤ pdu.length := by
      rw [← hcommon]
      rintro ⟨view, rest, hview⟩
      cases hview
    refine iff_of_false ?_ fun hready ↦ hshort hready.common
    rintro ⟨found, hfound⟩
    cases hfound
  · have hlong := hcommon.mp ⟨_, _, hsplit⟩
    have hformat := StreamFormat.ofSubtype?_of_split? hsplit
    rcases hfound : StreamFormat.ofSubtype? (CommonView.subtype common) with - | format
    · simp only [hfound, reduceCtorEq, false_iff] at hformat ⊢
      exact iff_of_true ⟨_, rfl⟩ (headersReady_of_head?_ne hlong hformat)
    · simp only [hfound, isOk_pushStream?_iff]
      exact (headersReady_iff_of_head? hlong ((hformat format).mp hfound)).symm

/-- **A capture is listed if and only if its headers are complete.** -/
theorem isOk_listing?_iff (udp : Bool) (buf : List UInt8) :
    (∃ listing, listing? udp buf = .ok listing) ↔ CaptureReady udp buf := by
  have hplain (pdu : List UInt8) :
      (∃ listing, listing? false pdu = .ok listing) ↔ HeadersReady pdu :=
    isOk_pushPdu?_iff .empty pdu
  cases udp with
  | false => exact hplain buf
  | true =>
    rw [CaptureReady, if_pos rfl]
    by_cases hfour : 4 ≤ buf.length
    · -- Behind an encapsulation header a data unit is listed as it is without one.
      have hmoved := listing?_true_append (List.length_take_of_le hfour) (buf.drop 4)
      rw [List.take_append_drop] at hmoved
      rw [hmoved, ← hplain, and_iff_right hfour]
      cases listing? false (buf.drop 4) <;> simp [Except.map]
    · refine iff_of_false ?_ fun hready ↦ hfour hready.1
      rcases hsplit : View.split? .udp buf with reason | ⟨view, pdu⟩
      · rw [listing?, splitCapture?, if_pos rfl, hsplit]
        rintro ⟨listing, hlisting⟩
        cases hlisting
      · exact absurd ((View.isOk_split?_iff rfl).mp ⟨_, _, hsplit⟩) hfour

/-! ### Steps that are never refused -/

/-- The reason is that a step failed which repeats an earlier one on the same octets. -/
def DumpError.Late : DumpError → Prop
  | streamView .. | message _ => True
  | _ => False

/-- **A message that the walk has found can be measured.** -/
theorem exists_extent?_of_mem_items {payload : List UInt8} {message : AcfView}
    (hmem : .ok message ∈ (Acf.Walk.start payload).items) :
    ∃ extent, message.extent? = .ok extent := by
  have hview : message ∈ (Acf.Walk.start payload).views :=
    List.mem_filterMap.mpr ⟨_, hmem, rfl⟩
  obtain ⟨extent, hextent, -⟩ := (Acf.Walk.complete_of_mem_views hview).extent?_eq_ok
  exact ⟨extent, hextent⟩

theorem not_late_of_pushPdu? {listing : Listing} {pdu : List UInt8} {reason : DumpError}
    (herror : pushPdu? listing pdu = .error reason) : ¬ reason.Late := by
  rw [pushPdu?] at herror
  rcases hsplit : View.split? .common pdu with fault | ⟨common, back⟩
  · rw [hsplit] at herror
    exact Except.error.inj herror ▸ id
  · rcases hfound : StreamFormat.ofSubtype? (CommonView.subtype common) with - | format
    · simp only [hsplit, hfound, reduceCtorEq] at herror
    · simp only [hsplit, hfound] at herror
      rcases hlength : format.dataLength? pdu with fault | count
      · rw [pushStream?, hlength] at herror
        exact Except.error.inj herror ▸ id
      · obtain ⟨found, hok⟩ := (isOk_pushStream?_iff listing format pdu).mpr ⟨count, hlength⟩
        cases hok.symm.trans herror

/-- **A capture is refused for its headers only.** -/
theorem not_late_of_listing? {udp : Bool} {buf : List UInt8} {reason : DumpError}
    (herror : listing? udp buf = .error reason) : ¬ reason.Late := by
  rw [listing?] at herror
  rcases hcapture : splitCapture? udp buf with fault | ⟨view | view, pdu⟩
  · rw [hcapture] at herror
    obtain rfl := Except.error.inj herror
    rw [splitCapture?] at hcapture
    split_ifs at hcapture
    rcases hsplit : View.split? .udp buf with fault | ⟨view, pdu⟩
    · rw [hsplit] at hcapture
      exact Except.error.inj hcapture ▸ id
    · rw [hsplit] at hcapture
      cases hcapture
  · rw [hcapture] at herror
    exact not_late_of_pushPdu? herror
  · rw [hcapture] at herror
    exact not_late_of_pushPdu? herror

/-! ### The outcome of a run -/

theorem exitCode_dumpOctets (options : Options) {buf : List UInt8}
    (hready : CaptureReady options.udp buf) : (dumpOctets options buf).exitCode = 0 := by
  obtain ⟨listing, hlisting⟩ := (isOk_listing?_iff options.udp buf).mpr hready
  rw [dumpOctets, hlisting]

theorem dumpOctets_of_not_ready (options : Options) {buf : List UInt8}
    (hnot : ¬ CaptureReady options.udp buf) :
    (dumpOctets options buf).exitCode = 1 ∧ (dumpOctets options buf).output = "" := by
  rw [← isOk_listing?_iff] at hnot
  rw [dumpOctets]
  rcases hlisting : listing? options.udp buf with reason | listing
  · exact ⟨rfl, rfl⟩
  · exact absurd ⟨listing, hlisting⟩ hnot

theorem captureReady_append_congr {udp : Bool} {format : StreamFormat}
    {front header payload other : List UInt8} (hfront : front.length = if udp then 4 else 0)
    (hheader : header.length = format.header.size)
    (hhead : header.head? = some format.subtype.raw) (hlength : payload.length = other.length) :
    CaptureReady udp (front ++ (header ++ payload)) ↔
      CaptureReady udp (front ++ (header ++ other)) := by
  have hready := headersReady_append_congr hheader hhead hlength
  cases udp with
  | false =>
    obtain rfl := List.eq_nil_of_length_eq_zero hfront
    exact hready
  | true =>
    have hfour : front.length = 4 := hfront
    simp only [CaptureReady, if_true, List.drop_left' hfour, hready, List.length_append, hlength]

theorem Input.octets?_eq_ok_iff {input : Input} {buf : List UInt8} :
    input.octets? = .ok buf ↔
      ∃ text, input.text? = .ok text ∧ Text.spelledOctets? text = .ok buf := by
  rw [octets?]
  rcases input.text? with reason | text
  · simp
  · cases hspelled : Text.spelledOctets? text <;> simp [Except.mapError, hspelled]

/-- The input spells a capture that can be dumped. -/
def Input.Ready (udp : Bool) (input : Input) : Prop :=
  ∃ text buf, input.text? = .ok text ∧ Text.spelledOctets? text = .ok buf ∧ CaptureReady udp buf

theorem Input.ready_iff {udp : Bool} {input : Input} :
    input.Ready udp ↔ ∃ buf, input.octets? = .ok buf ∧ CaptureReady udp buf := by
  simp only [Ready, octets?_eq_ok_iff]
  constructor
  · rintro ⟨text, buf, htext, hbuf, hready⟩
    exact ⟨buf, ⟨text, htext, hbuf⟩, hready⟩
  · rintro ⟨buf, ⟨text, htext, hbuf⟩, hready⟩
    exact ⟨text, buf, htext, hbuf, hready⟩

/-- The outcome of a run is decided by the octets that the input spells, and by whether they are
encapsulated. -/
structure Decided (options : Options) (input : Input) : Prop where
  /-- A capture that is ready is dumped. -/
  accepted : input.Ready options.udp → (run options input).exitCode = 0
  /-- In any other case nothing is printed. -/
  refused : ¬ input.Ready options.udp →
    (run options input).exitCode = 1 ∧ (run options input).output = ""

theorem decided (options : Options) (input : Input) : Decided options input := by
  rcases hread : input.octets? with reason | buf
  · have hrun : run options input = ⟨1, "", failureLines reason⟩ := by rw [run, hread]
    refine ⟨fun hready ↦ ?_, fun _ ↦ ?_⟩
    · obtain ⟨buf, hbuf, -⟩ := Input.ready_iff.mp hready
      exact nomatch hread.symm.trans hbuf
    · rw [hrun]
      exact ⟨rfl, rfl⟩
  · have hrun : run options input = dumpOctets options buf := by rw [run, hread]
    refine ⟨fun hready ↦ ?_, fun hnot ↦ ?_⟩
    · obtain ⟨buf', hbuf, hready⟩ := Input.ready_iff.mp hready
      obtain rfl := Except.ok.inj (hread.symm.trans hbuf)
      rw [hrun, exitCode_dumpOctets options hready]
    · rw [hrun]
      exact dumpOctets_of_not_ready options fun hready ↦
        hnot (Input.ready_iff.mpr ⟨buf, hread, hready⟩)

/-- What is behind the headers decides nothing. -/
structure PayloadInert : Prop where
  /-- A control stream that has been measured has a view. -/
  view : ∀ (format : StreamFormat) (pdu : List UInt8) (count : Nat),
    format.dataLength? pdu = .ok count →
      ∃ view rest, View.split? format.header pdu = .ok (view, rest)
  /-- A message that a walk has found can be measured. -/
  extent : ∀ (payload : List UInt8) (message : AcfView),
    .ok message ∈ (Acf.Walk.start payload).items → ∃ extent, message.extent? = .ok extent
  /-- So neither of these steps is ever the reason for a refusal. -/
  not_late : ∀ (udp : Bool) (buf : List UInt8) (reason : DumpError),
    listing? udp buf = .error reason → ¬ reason.Late
  /-- Behind the same headers, as many other octets have the same outcome. -/
  exitCode_eq : ∀ (options : Options) (format : StreamFormat)
    (front header payload other : List UInt8), front.length = (if options.udp then 4 else 0) →
      header.length = format.header.size → header.head? = some format.subtype.raw →
        payload.length = other.length →
          (dumpOctets options (front ++ (header ++ payload))).exitCode =
            (dumpOctets options (front ++ (header ++ other))).exitCode

theorem payloadInert : PayloadInert where
  view _ _ _ hcount := StreamFormat.split?_of_dataLength? hcount
  extent _ _ hmem := exists_extent?_of_mem_items hmem
  not_late _ _ _ herror := not_late_of_listing? herror
  exitCode_eq options format front header payload other hfront hheader hhead hlength := by
    have hsame := captureReady_append_congr hfront hheader hhead hlength
    by_cases hready : CaptureReady options.udp (front ++ (header ++ payload))
    · rw [exitCode_dumpOctets options hready, exitCode_dumpOctets options (hsame.mp hready)]
    · rw [(dumpOctets_of_not_ready options hready).1,
        (dumpOctets_of_not_ready options (mt hsame.mpr hready)).1]

/-- **A run is decided by spelling and headers**, and by nothing behind the headers. -/
theorem run_decided : (∀ options input, Decided options input) ∧ PayloadInert :=
  ⟨decided, payloadInert⟩

/-- Behind a complete header, a message without a length and three octets that are no message do not
matter. One octet less than announced does. -/
example :
    (run ⟨false, false, none⟩ (.argument "82000700 00000000 00000000 02000000 aabbcc")).exitCode =
        0 ∧
      run ⟨false, false, none⟩ (.argument "82000700 00000000 00000000 02000000 aabb") =
        ⟨1, "", ["Error: parsing NTSCF header", "", "Caused by:",
          "    Buffer too small at NtscfPayload: required 19, actual 18"]⟩ := by
  decide +kernel

end Dump

end Avtp
