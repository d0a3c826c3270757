import Avtp.Proofs.DecodeEncode
import Avtp.Proofs.DroppedFields
import Avtp.Proofs.EncodeInto
import Avtp.Proofs.SelfDelimiting
import Avtp.Proofs.ViewSafety

/-!
# CAN flags on the wire

The six flags of a CAN message are read one by one, written one by one and encoded one by one, each
time in a list of its own, and put together as a set by their constants. `FlagLaw` says that none of
these lists has two flags in the wrong order: as a number, the set of the flags is the low six bits
of the third octet.

Setting all flags is setting six fields of the header (`CanView.octets_setFlags`), and what is known
of that in general gives the rest: a field has the value it was set to, a bit outside the fields
stays, and what was in the fields before does not matter. A set may have bits that name no flag.
They are neither written nor read, so such a set comes back as its known part.

An encoder does not take MTV from the set. In a CAN message the flag says whether there is a
timestamp, and a brief message has none.
-/

namespace Avtp

/-! ### Views of a buffer -/

namespace View

variable {h : Header}

/-- The law holds of every view that is taken of the buffer, in whichever of the three ways, and
after any edits. -/
structure HoldsOn (buf : List UInt8) (law : View h → Prop) : Prop where
  split : ∀ view rest, split? h buf = .ok (view, rest) → ∀ edits, law (Edit.run edits view)
  whole : ∀ view, whole? h buf = .ok view → ∀ edits, law (Edit.run edits view)
  window : ∀ window, Window.over? h buf = .ok window → ∀ edits, law (Edit.runIn edits window).view

/-- Every view covers its header, whatever was done to it. -/
theorem holdsOn_of_sized {law : View h → Prop} (hlaw : ∀ view : View h, view.Sized → law view)
    (buf : List UInt8) : HoldsOn buf law := by
  have hafter : ∀ view : View h, view.Sized → ∀ edits, law (Edit.run edits view) :=
    fun view hsized edits ↦ hlaw _ (Edit.sized_run hsized edits)
  refine ⟨fun view rest hview ↦ hafter view (size_le_of_split? hview),
    fun view hview ↦ hafter view (size_le_of_split? (whole?_eq_ok_iff_split?.mp hview)),
    fun window hwindow edits ↦ ?_⟩
  obtain ⟨hsize, hsized⟩ := sized_of_over? hwindow
  rw [Edit.view_runIn edits hsize hsized]
  exact hafter window.view hsized edits

/-- Fields of a view are written as fields of its octets. -/
theorem octets_foldl_write (values : List (h.Slot × Nat)) (view : View h) :
    (values.foldl (fun (view : View h) value ↦ view.write value.1 value.2) view).octets =
      BitField.writeAll Header.place values view.octets := by
  induction values generalizing view with
  | nil => rfl
  | cons value values ih =>
    rw [List.foldl_cons, ih, BitField.writeAll, BitField.writeAll, List.foldl_cons, View.write]

/-- The bit of a flag. -/
theorem Sized.bit?_flag {view : View h} (hsized : view.Sized) {slot : h.Slot}
    (hwidth : (Header.place slot).width = 1) :
    Octets.bit? view.octets ((Header.place slot).endBit - 1) = some (view.flag slot) := by
  have hbit := BitField.testBit_read (hsized.requiredOctets_le slot) (j := 0) (by omega)
  rw [Nat.sub_zero] at hbit
  rw [hbit, ← View.read, ← toNat_flag hwidth]
  cases view.flag slot <;> rfl

/-- A flag that is in the third octet is one of its bits. -/
theorem Sized.flag_eq {view : View h} (hsized : view.Sized) {slot : h.Slot} {octet : UInt8}
    (hoctet : view.octets[2]? = some octet) {k : Nat} (hk : k < 8)
    (hwidth : (Header.place slot).width = 1) (hend : (Header.place slot).endBit = 17 + k) :
    view.flag slot = octet.toBitVec.getMsbD k := by
  have hbit := hsized.bit?_flag hwidth
  have hindex : (17 + k - 1) / 8 = 2 ∧ (17 + k - 1) % 8 = k := by omega
  rw [hend, Octets.bit?, hindex.1, hindex.2, hoctet, Option.map_some] at hbit
  exact (Option.some.inj hbit).symm

end View

namespace Acf

/-! ### Sets of flags -/

namespace CanFlags

variable (flags : CanFlags)

/-- The flags that are the last bits of an octet, one by one, have these bits as their number. -/
theorem toNat_bits_ofBools : ∀ octet : UInt8,
    (ofBools (octet.toBitVec.getMsbD 2) (octet.toBitVec.getMsbD 3) (octet.toBitVec.getMsbD 4)
      (octet.toBitVec.getMsbD 5) (octet.toBitVec.getMsbD 6)
        (octet.toBitVec.getMsbD 7)).bits.toNat = octet.toNat % 64 :=
  Octets.forall_octet (by decide +kernel)

/-- The known part of a set has the MTV of the set. -/
theorem union_only_contains :
    (flags.known.diff .mtv).union (CanFlags.mtv.only (flags.contains .mtv)) = flags.known := by
  have hall : ∀ bits : UInt8, ((known ⟨bits⟩).diff .mtv).union
      (CanFlags.mtv.only (contains ⟨bits⟩ .mtv)) = known ⟨bits⟩ :=
    Octets.forall_octet (by decide +kernel)
  exact hall flags.bits

/-- A set put together of flags one by one has the given MTV. -/
theorem ofBools_eq_union (mtv rtr eff brs fdf esi : Bool) :
    ofBools mtv rtr eff brs fdf esi =
      ((ofBools mtv rtr eff brs fdf esi).diff .mtv).union (CanFlags.mtv.only mtv) := by
  revert mtv rtr eff brs fdf esi
  decide

/-- The fields of the flags, in wire order. -/
def slots : List CanSlot := [.mtv, .rtr, .eff, .brs, .fdf, .esi]

/-- What setting the flags writes into each of their fields. -/
def value : CanSlot → Nat
  | .mtv => (flags.contains .mtv).toNat
  | .rtr => (flags.contains .rtr).toNat
  | .eff => (flags.contains .eff).toNat
  | .brs => (flags.contains .brs).toNat
  | .fdf => (flags.contains .fdf).toNat
  | .esi => (flags.contains .esi).toNat
  | _ => 0

theorem holds_value (slot : CanSlot) :
    (Header.place (h := .can) slot).Holds (flags.value slot) := by
  cases slot with
  | mtv | rtr | eff | brs | fdf | esi => exact BitField.holds_iff_lt_two_pow.mpr (Bool.toNat_lt _)
  | _ => exact Nat.zero_le _

/-- A set put together of flags one by one has these flags. -/
theorem contains_ofBools_all (mtv rtr eff brs fdf esi : Bool) :
    (ofBools mtv rtr eff brs fdf esi).contains .mtv = mtv ∧
      (ofBools mtv rtr eff brs fdf esi).contains .rtr = rtr ∧
        (ofBools mtv rtr eff brs fdf esi).contains .eff = eff ∧
          (ofBools mtv rtr eff brs fdf esi).contains .brs = brs ∧
            (ofBools mtv rtr eff brs fdf esi).contains .fdf = fdf ∧
              (ofBools mtv rtr eff brs fdf esi).contains .esi = esi := by
  revert mtv rtr eff brs fdf esi
  decide

/-- The fields of the flags are the last six bits of the third octet. -/
theorem covers_slots {i : Nat} (hout : ¬ (18 ≤ i ∧ i < 24)) :
    ∀ slot ∈ slots, (Header.place (h := .can) slot).covers i = false := by
  have hall : ∀ slot ∈ slots, 18 ≤ (Header.place (h := .can) slot).firstBit ∧
      (Header.place (h := .can) slot).endBit ≤ 24 := by
    decide
  intro slot hslot
  obtain ⟨hfirst, hend⟩ := hall slot hslot
  refine Bool.eq_false_iff.mpr fun hcov ↦ hout ?_
  have hbounds := BitField.covers_iff.mp hcov
  omega

end CanFlags

end Acf

/-! ### Reading flags -/

/-- The places of the flags in both kinds of CAN messages, in wire order. -/
def flagPlaces : List BitField :=
  [.mk 0 18 1, .mk 0 19 1, .mk 0 20 1, .mk 0 21 1, .mk 0 22 1, .mk 0 23 1]

/-- **As a number, flags in these places are the low six bits of the third octet.** -/
theorem View.Sized.toNat_bits_ofBools {h : Header} {view : View h} (hsized : view.Sized)
    {mtv rtr eff brs fdf esi : h.Slot}
    (hplaces : [mtv, rtr, eff, brs, fdf, esi].map Header.place = flagPlaces) :
    ∃ octet, view.octets[2]? = some octet ∧
      (Acf.CanFlags.ofBools (view.flag mtv) (view.flag rtr) (view.flag eff) (view.flag brs)
        (view.flag fdf) (view.flag esi)).bits.toNat = octet.toNat % 64 := by
  simp only [flagPlaces, List.map_cons, List.map_nil, List.cons.injEq, and_true] at hplaces
  obtain ⟨hmtv, hrtr, heff, hbrs, hfdf, hesi⟩ := hplaces
  have hfour : 4 ≤ view.octets.length := by
    have hrequired := hsized.requiredOctets_le mtv
    rwa [hmtv] at hrequired
  have hthird : 2 < view.octets.length := Nat.lt_of_lt_of_le (by decide) hfour
  have hoctet := List.getElem?_eq_getElem hthird
  have hflag {slot : h.Slot} {field : BitField} (hplace : Header.place slot = field) {k : Nat}
      (hk : k < 8) (hwidth : field.width = 1) (hend : field.endBit = 17 + k) :
      view.flag slot = _ := hsized.flag_eq hoctet hk (hplace ▸ hwidth) (hplace ▸ hend)
  refine ⟨_, hoctet, ?_⟩
  rw [hflag hmtv (by decide : 2 < 8) rfl rfl, hflag hrtr (by decide : 3 < 8) rfl rfl,
    hflag heff (by decide : 4 < 8) rfl rfl, hflag hbrs (by decide : 5 < 8) rfl rfl,
    hflag hfdf (by decide : 6 < 8) rfl rfl, hflag hesi (by decide : 7 < 8) rfl rfl,
    Acf.CanFlags.toNat_bits_ofBools]

/-! ### Setting flags -/

namespace CanView

open Acf

/-- The view after all flags were set. -/
def setFlags (flags : CanFlags) (view : CanView) : CanView :=
  Edit.step view (.set (CanSetter.flags flags))

variable {view : CanView}

/-- **Setting the flags is setting their six fields.** -/
theorem octets_setFlags (flags : CanFlags) (view : CanView) :
    (setFlags flags view).octets =
      Header.assignAll (h := .can) CanFlags.slots flags.value view.octets :=
  View.octets_foldl_write (h := .can) _ view

/-- A flag that was set has its value in the set. -/
theorem read_setFlags (hsized : view.Sized) (flags : CanFlags) {slot : CanSlot}
    (hslot : slot ∈ CanFlags.slots) : (setFlags flags view).read slot = flags.value slot := by
  rw [View.read, octets_setFlags, Header.read_assignAll flags.holds_value hsized, if_pos hslot]

/-- **A set that was set comes back as its known part.** -/
theorem flags_setFlags (hsized : view.Sized) (flags : CanFlags) :
    (setFlags flags view).flags = flags.known := by
  have hflag {slot : CanSlot} {flag : CanFlags} (hslot : slot ∈ CanFlags.slots)
      (hvalue : flags.value slot = (flags.contains flag).toNat) :
      (setFlags flags view).flag slot = flags.contains flag :=
    View.flag_eq ((read_setFlags hsized flags hslot).trans hvalue)
  have hmtv : (setFlags flags view).mtv = flags.contains .mtv := hflag (by decide) rfl
  have hrtr : (setFlags flags view).rtr = flags.contains .rtr := hflag (by decide) rfl
  have heff : (setFlags flags view).eff = flags.contains .eff := hflag (by decide) rfl
  have hbrs : (setFlags flags view).brs = flags.contains .brs := hflag (by decide) rfl
  have hfdf : (setFlags flags view).fdf = flags.contains .fdf := hflag (by decide) rfl
  have hesi : (setFlags flags view).esi = flags.contains .esi := hflag (by decide) rfl
  rw [CanView.flags, hmtv, hrtr, heff, hbrs, hfdf, hesi, CanFlags.ofBools_eq_union,
    CanFlags.ofBools_contains, CanFlags.union_only_contains]

/-- No other bit changes. -/
theorem bit?_setFlags (hsized : view.Sized) (flags : CanFlags) {i : Nat}
    (hout : ¬ (18 ≤ i ∧ i < 24)) :
    Octets.bit? (setFlags flags view).octets i = Octets.bit? view.octets i := by
  rw [octets_setFlags]
  exact Header.bit?_assignAll flags.holds_value hsized (CanFlags.covers_slots hout)

/-- The flags of a view, one by one, are what its fields hold. -/
theorem value_flags (view : CanView) {slot : CanSlot} (hslot : slot ∈ CanFlags.slots) :
    view.flags.value slot = view.read slot := by
  obtain ⟨hmtv, hrtr, heff, hbrs, hfdf, hesi⟩ := CanFlags.contains_ofBools_all view.mtv view.rtr
    view.eff view.brs view.fdf view.esi
  have hread {flag : Bool} {slot : CanSlot} (hflag : flag = View.flag view slot)
      (hwidth : (Header.place (h := .can) slot).width = 1) : flag.toNat = view.read slot := by
    rw [hflag, View.toNat_flag hwidth]
  cases slot with
  | mtv => exact hread hmtv rfl
  | rtr => exact hread hrtr rfl
  | eff => exact hread heff rfl
  | brs => exact hread hbrs rfl
  | fdf => exact hread hfdf rfl
  | esi => exact hread hesi rfl
  | _ => exact absurd hslot (by decide)

/-- **Setting the flags that are there changes nothing.** -/
theorem setFlags_flags (hsized : view.Sized) : setFlags view.flags view = view := by
  have hself := Header.assignAll_eq_self hsized fun slot hslot ↦ (value_flags view hslot).symm
  rw [← octets_setFlags] at hself
  exact congrArg View.mk hself

/-- **What was set before does not matter.** -/
theorem setFlags_setFlags (hsized : view.Sized) (first second : CanFlags) :
    setFlags second (setFlags first view) = setFlags second view := by
  have hbefore : Header.size .can ≤ (setFlags first view).octets.length := by
    rw [octets_setFlags, Header.length_assignAll]
    exact hsized
  have hsame : (setFlags second (setFlags first view)).octets = (setFlags second view).octets := by
    rw [octets_setFlags, octets_setFlags second view]
    refine Header.assignAll_congr second.holds_value hbefore hsized fun i hout ↦ ?_
    rw [octets_setFlags]
    exact Header.bit?_assignAll first.holds_value hsized hout
  exact congrArg View.mk hsame

/-- Setting the flags through a window does not change any other bit of its buffer. -/
theorem bit?_buffer_setFlags {buf : List UInt8} {window : Window .can}
    (hwindow : Window.over? .can buf = .ok window) (edits : List (Edit .can)) (flags : CanFlags)
    {i : Nat} (hout : ¬ (18 ≤ i ∧ i < 24)) :
    Octets.bit? (Edit.runIn (edits ++ [.set (CanSetter.flags flags)]) window).buffer i =
      Octets.bit? (Edit.runIn edits window).buffer i := by
  obtain ⟨hsize, hsized⟩ := View.sized_of_over? hwindow
  have hedited := Edit.sized_run hsized edits
  have hrun : Edit.run (edits ++ [.set (CanSetter.flags flags)]) window.view =
      setFlags flags (Edit.run edits window.view) := List.foldl_append
  have hlength : (setFlags flags (Edit.run edits window.view)).octets.length =
      (Edit.run edits window.view).octets.length := by
    rw [octets_setFlags, Header.length_assignAll]
  rw [Edit.runIn_eq _ hsize hsized, Edit.runIn_eq edits hsize hsized, hrun]
  show Octets.bit? ((setFlags flags (Edit.run edits window.view)).octets ++ window.rest) i =
    Octets.bit? ((Edit.run edits window.view).octets ++ window.rest) i
  rcases Nat.lt_or_ge i (8 * (Edit.run edits window.view).octets.length) with hview | hrest
  · rw [Octets.bit?_append_left _ hview, Octets.bit?_append_left _ (by rwa [hlength]),
      bit?_setFlags hedited flags hout]
  · rw [Octets.bit?_append_right _ hrest, Octets.bit?_append_right _ (by rwa [hlength]), hlength]

/-- What reading and setting all flags of a CAN message does. -/
structure FlagLaw (view : CanView) : Prop where
  /-- As a number, the flags are the third octet without its two high bits. -/
  bits_eq : ∃ octet, view.octets[2]? = some octet ∧ view.flags.bits.toNat = octet.toNat % 64
  /-- A set that was set comes back without the bits that name no flag. -/
  flags_setFlags : ∀ flags, (setFlags flags view).flags = flags.known
  /-- All bits but the last six of the third octet are what they were. -/
  bit?_setFlags : ∀ flags i, ¬ (18 ≤ i ∧ i < 24) →
    Octets.bit? (setFlags flags view).octets i = Octets.bit? view.octets i
  /-- Setting the flags that are there changes nothing. -/
  setFlags_flags : setFlags view.flags view = view
  /-- What was set before does not matter. -/
  setFlags_setFlags : ∀ first second,
    setFlags second (setFlags first view) = setFlags second view

theorem flagLaw_of_sized (hsized : view.Sized) : FlagLaw view where
  bits_eq := hsized.toNat_bits_ofBools rfl
  flags_setFlags := flags_setFlags hsized
  bit?_setFlags flags _ := bit?_setFlags hsized flags
  setFlags_flags := setFlags_flags hsized
  setFlags_setFlags := setFlags_setFlags hsized

end CanView

/-- The flags of a brief CAN message are the third octet without its two high bits. -/
def CanBriefView.FlagLaw (view : CanBriefView) : Prop :=
  ∃ octet, view.octets[2]? = some octet ∧ view.flags.bits.toNat = octet.toNat % 64

/-! ### Sending flags -/

namespace Acf

/-- A message is a view as a whole. -/
theorem Framing.whole?_octets {format : MessageFormat} {framing : Framing format}
    (hsound : framing.Sound) : View.whole? format.header framing.octets = .ok ⟨framing.octets⟩ := by
  have hsplit := split?_octets hsound []
  rw [List.append_nil] at hsplit
  exact View.whole?_eq_ok_iff_split?.mpr hsplit

namespace CanFrame

/-- The flags of the message that carries the frame: those of the frame that have a name, and in the
place of MTV whether the message has a timestamp. -/
def sentFlags (frame : CanFrame) : CanFlags :=
  (frame.flags.known.diff .mtv).union
    (CanFlags.mtv.only (!frame.brief && frame.timestamp.isSome))

/-- The octets are a message of the kind that carries the frame, with the flags of the frame. -/
structure SendsFlags (frame : CanFrame) (octets : List UInt8) : Prop where
  full : frame.brief = false →
    ∃ view : CanView, View.whole? .can octets = .ok view ∧ view.flags = frame.sentFlags
  brief : frame.brief = true →
    ∃ view : CanBriefView, View.whole? .canBrief octets = .ok view ∧ view.flags = frame.sentFlags

theorem flags_full {frame : CanFrame} (hbrief : frame.brief = false)
    (hcheck : frame.check = .ok ()) :
    CanView.flags ⟨frame.fullFraming.octets⟩ = frame.sentFlags := by
  have hsound := sound_full hbrief hcheck
  have hread := Framing.read_view hsound
  have hcanonical := ofView_eq hbrief hread (Framing.payload_view hsound)
  have hothers : (CanView.flags ⟨frame.fullFraming.octets⟩).diff .mtv =
      frame.flags.known.diff .mtv := congrArg CanFrame.flags hcanonical
  have hmtv : CanView.mtv ⟨frame.fullFraming.octets⟩ = frame.timestamp.isSome :=
    View.flag_eq (hread CanSlot.mtv)
  rw [sentFlags, hbrief, Bool.not_false, Bool.true_and, ← hothers, ← hmtv]
  exact CanFlags.ofBools_eq_union _ _ _ _ _ _

theorem flags_brief {frame : CanFrame} (hbrief : frame.brief = true)
    (hcheck : frame.check = .ok ()) :
    CanBriefView.flags ⟨frame.briefFraming.octets⟩ = frame.sentFlags := by
  have hsound := sound_brief hbrief hcheck
  have hread := Framing.read_view hsound
  have htime : frame.timestamp = none :=
    Option.not_isSome_iff_eq_none.mp fun htime ↦ (check_eq_ok_iff.mp hcheck).1 ⟨hbrief, htime⟩
  have hcanonical := ofBriefView_eq hbrief htime hread (Framing.payload_view hsound)
  have hothers : (CanBriefView.flags ⟨frame.briefFraming.octets⟩).diff .mtv =
      frame.flags.known.diff .mtv := congrArg CanFrame.flags hcanonical
  have hmtv : CanBriefView.mtv ⟨frame.briefFraming.octets⟩ = false :=
    View.flag_eq (hread CanBriefSlot.mtv)
  rw [sentFlags, hbrief, Bool.not_true, Bool.false_and, ← hothers, ← hmtv]
  exact CanFlags.ofBools_eq_union _ _ _ _ _ _

/-- **A frame that passes its check is sent with its flags.** -/
theorem exists_sendsFlags {frame : CanFrame} (hcheck : frame.check = .ok ()) :
    ∃ octets, WireForm.encode frame = .ok octets ∧ frame.SendsFlags octets := by
  refine ⟨(Message.can frame).wire, (overwrites hcheck).encode_eq hcheck, ⟨?_, ?_⟩⟩
  · intro hbrief
    have hwire : (Message.can frame).wire = frame.fullFraming.octets := by
      rw [Message.wire, hbrief]
      rfl
    rw [hwire]
    have hwhole := Framing.whole?_octets (sound_full hbrief hcheck)
    exact ⟨_, hwhole, flags_full hbrief hcheck⟩
  · intro hbrief
    have hwire : (Message.can frame).wire = frame.briefFraming.octets := by
      rw [Message.wire, hbrief]
      rfl
    rw [hwire]
    have hwhole := Framing.whole?_octets (sound_brief hbrief hcheck)
    exact ⟨_, hwhole, flags_brief hbrief hcheck⟩

end CanFrame

end Acf

/-! ### The result -/

/-- **CAN flags and the wire name the same bits**: in views of both kinds, whatever was done to
them, when all flags are set at once, and when a frame is encoded. -/
theorem canFlags_lossless :
    (∀ buf, View.HoldsOn buf CanView.FlagLaw) ∧ (∀ buf, View.HoldsOn buf CanBriefView.FlagLaw) ∧
      (∀ (buf : List UInt8) (window : Window .can), Window.over? .can buf = .ok window →
        ∀ (edits : List (Edit .can)) (flags : Acf.CanFlags) (i : Nat), ¬ (18 ≤ i ∧ i < 24) →
          Octets.bit? (Edit.runIn (edits ++ [.set (CanSetter.flags flags)]) window).buffer i =
            Octets.bit? (Edit.runIn edits window).buffer i) ∧
        ∀ frame : Acf.CanFrame, frame.check = .ok () →
          ∃ octets, WireForm.encode frame = .ok octets ∧ frame.SendsFlags octets :=
  ⟨View.holdsOn_of_sized fun _ ↦ CanView.flagLaw_of_sized,
    View.holdsOn_of_sized fun _ hsized ↦ hsized.toNat_bits_ofBools rfl,
    fun _ _ hwindow edits flags _ ↦ CanView.bit?_buffer_setFlags hwindow edits flags,
    fun _ ↦ Acf.CanFrame.exists_sendsFlags⟩

/-- A CAN message with every other flag and with bits around them. -/
def flaggedOctets : List UInt8 :=
  [0x02, 5, 0xD5, 0xE7, 0, 0, 0, 0, 0, 0, 0, 0, 0, 0, 0, 9, 1, 0, 0, 0]

/-- A frame whose set has all bits, those without a name and MTV among them, and which has no time.
-/
def flaggedFrame : Acf.CanFrame where
  flags := ⟨0xFF⟩
  busId := 7
  identifier := 9
  timestamp := none
  brief := false
  payload := []

/-- Setting flags together with a bit without a name leaves the pad count in front of the flags
alone, and the frame is sent with five flags. -/
theorem canFlags_lossless_flagged :
    CanView.FlagLaw ⟨flaggedOctets⟩ ∧
      CanView.setFlags ⟨0x6A⟩ ⟨flaggedOctets⟩ =
          ⟨[0x02, 5, 0xEA, 0xE7, 0, 0, 0, 0, 0, 0, 0, 0, 0, 0, 0, 9, 1, 0, 0, 0]⟩ ∧
        (∃ octets, WireForm.encode flaggedFrame = .ok octets ∧
          flaggedFrame.SendsFlags octets) ∧ flaggedFrame.sentFlags = ⟨0x1F⟩ :=
  have hwhole : View.whole? .can flaggedOctets = .ok ⟨flaggedOctets⟩ := by decide +kernel
  ⟨(canFlags_lossless.1 flaggedOctets).whole _ hwhole [], by decide +kernel,
    canFlags_lossless.2.2.2 flaggedFrame (by decide +kernel), by decide⟩

end Avtp
