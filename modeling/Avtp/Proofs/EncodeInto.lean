import Avtp.CommonHeader
import Avtp.Proofs.DecodeEncode

/-!
# Encoding into a given buffer

The buffer of an encoder belongs to somebody else and may hold anything. Encoding either fails and
leaves it alone, or puts the wire form to its front and keeps what is behind. The wire form is the
one that an empty buffer would get, so the old content of the front does not show through.

The first half is a matter of `WireForm.encodeInto` and holds of every type whose values can be sent
(`WireForm.Guarded`). The second rests on `WireForm.Overwrites` for the type.

**The common header keeps what is not its own.** It sets its three fields and leaves the rest of the
quadlet to the format, so it mixes with the old content bit by bit (`CommonHeader.Blends`).
-/

namespace Avtp

open Acf (Message CanFrame LinFrame)

/-! ### What encoding does to a buffer -/

namespace WireForm

variable {α : Type} [WireForm α]

/-- A failure leaves the buffer as it was. The value is checked first, then the room. -/
structure Guarded (α : Type) [WireForm α] : Prop where
  refused : ∀ (value : α) (buf : List UInt8) (reason : StructureError),
    check value = .error reason → encodeInto value buf = (.error (.invalidStructure reason), buf)
  short : ∀ (value : α) (buf : List UInt8), check value = .ok () → buf.length < size value →
    encodeInto value buf = (.error (.bufferTooSmall (size value)), buf)

/-- A success puts the wire form to the front of the buffer and changes nothing behind it. -/
structure Replaces (α : Type) [WireForm α] : Prop extends Guarded α where
  written : ∀ (value : α) (buf : List UInt8), check value = .ok () → size value ≤ buf.length →
    ∃ octets, encode value = .ok octets ∧ octets.length = size value ∧
      encodeInto value buf = (.ok (size value), octets ++ buf.drop (size value))

theorem guarded (α : Type) [WireForm α] : Guarded α where
  refused value buf reason hcheck := by
    rw [encodeInto, hcheck]
  short value buf hcheck hbuf := by
    rw [encodeInto, hcheck]
    exact if_pos hbuf

/-- Values that overwrite the front of a buffer once they are checked replace it. -/
theorem replaces_of_overwrites {octets : α → List UInt8}
    (hover : ∀ value : α, check value = .ok () → Overwrites value (octets value)) :
    Replaces α where
  toGuarded := guarded α
  written value buf hcheck hbuf :=
    ⟨octets value, (hover value hcheck).encode_eq hcheck, (hover value hcheck).length_eq,
      encodeInto_eq_of_write? hcheck hbuf ((hover value hcheck).write?_eq buf hbuf)⟩

end WireForm

/-! ### Frames -/

/-- A frame is written as the message that carries it. -/
theorem Acf.CanFrame.overwrites {frame : CanFrame} (hcheck : WireForm.check frame = .ok ()) :
    WireForm.Overwrites frame (Message.can frame).wire where
  length_eq := (Message.can frame).length_wire
  write?_eq := (Message.overwrites hcheck : WireForm.Overwrites (Message.can frame) _).write?_eq

/-- A frame is written as the message that carries it. -/
theorem Acf.LinFrame.overwrites {frame : LinFrame} (hcheck : WireForm.check frame = .ok ()) :
    WireForm.Overwrites frame (Message.lin frame).wire where
  length_eq := (Message.lin frame).length_wire
  write?_eq := (Message.overwrites hcheck : WireForm.Overwrites (Message.lin frame) _).write?_eq

/-! ### The common header -/

namespace CommonHeader

/-- What goes into the fields. -/
def value (header : CommonHeader) : CommonSlot → Nat
  | .subtype => header.subtype.raw.toNat
  | .h => header.h.toNat
  | .version => header.version.toNat

theorem writes_eq (header : CommonHeader) :
    header.writes = CommonSlot.all.map fun slot ↦ .slot (h := .common) slot (header.value slot) :=
  rfl

theorem holds_value {header : CommonHeader} (hcheck : WireForm.check header = .ok ())
    (slot : CommonSlot) : (Header.place (h := .common) slot).Holds (header.value slot) := by
  cases slot with
  | subtype => exact BitField.holds_iff_lt_two_pow.mpr header.subtype.raw.toNat_lt
  | h => exact BitField.holds_iff_lt_two_pow.mpr (Bool.toNat_lt _)
  | version => exact Header.checkHolds_eq_ok_iff.mp hcheck

theorem write?_eq {header : CommonHeader} (hcheck : WireForm.check header = .ok ())
    {buf : List UInt8} (hbuf : WireForm.size header ≤ buf.length) :
    WireForm.write? header buf =
      some (Header.assignAll (h := .common) CommonSlot.all header.value buf,
        WireForm.size header) := by
  show (Write.run? header.writes buf).map _ = _
  rw [writes_eq, Header.run?_slots (h := .common) CommonSlot.all (holds_value hcheck) hbuf]
  rfl

/-- The fields are the first twelve bits. -/
theorem exists_covers_iff (i : Nat) :
    (∃ slot ∈ CommonSlot.all, (Header.place (h := .common) slot).covers i = true) ↔ i < 12 := by
  simp only [CommonSlot.all, List.mem_cons, List.not_mem_nil, or_false, exists_eq_or_imp,
    exists_eq_left, BitField.covers_iff]
  show 0 ≤ i ∧ i < 8 ∨ 8 ≤ i ∧ i < 9 ∨ 9 ≤ i ∧ i < 12 ↔ i < 12
  omega

/-- A success sets the first twelve bits to those of the wire form and keeps all others. -/
def Blends (header : CommonHeader) (buf : List UInt8) : Prop :=
  ∃ octets out, WireForm.encode header = .ok octets ∧ octets.length = WireForm.size header ∧
    WireForm.encodeInto header buf = (.ok (WireForm.size header), out) ∧
      out.length = buf.length ∧
        ∀ i, Octets.bit? out i = if i < 12 then Octets.bit? octets i else Octets.bit? buf i

theorem blends {header : CommonHeader} (hcheck : WireForm.check header = .ok ())
    {buf : List UInt8} (hbuf : WireForm.size header ≤ buf.length) : header.Blends buf := by
  have hzeros : WireForm.size header ≤
      (List.replicate (WireForm.size header) (0 : UInt8)).length :=
    Nat.le_of_eq List.length_replicate.symm
  refine ⟨_, _, WireForm.encode_eq_of_write? hcheck (write?_eq hcheck hzeros), ?_,
    WireForm.encodeInto_eq_of_write? hcheck hbuf (write?_eq hcheck hbuf), ?_, fun i ↦ ?_⟩
  · rw [Header.length_assignAll, List.length_replicate]
  · rw [Header.length_assignAll]
  · split_ifs with hi
    · obtain ⟨slot, hslot, hcov⟩ := (exists_covers_iff i).mpr hi
      exact Header.bit?_assignAll_congr (holds_value hcheck) hbuf hzeros hslot hcov
    · refine Header.bit?_assignAll (holds_value hcheck) hbuf fun slot hslot ↦ ?_
      exact Bool.eq_false_iff.mpr fun hcov ↦ hi ((exists_covers_iff i).mp ⟨slot, hslot, hcov⟩)

end CommonHeader

/-! ### All of them -/

/-- **Encoding is all or nothing, and does not depend on what the buffer held.** Of the common
header this is true of the twelve bits that belong to it. -/
theorem encodeInto_replaces :
    WireForm.Replaces CanFrame ∧ WireForm.Replaces LinFrame ∧ WireForm.Replaces Message ∧
      WireForm.Replaces NtscfPdu ∧ WireForm.Replaces TscfPdu ∧
        WireForm.Guarded CommonHeader ∧
          ∀ (header : CommonHeader) (buf : List UInt8), WireForm.check header = .ok () →
            WireForm.size header ≤ buf.length → header.Blends buf :=
  ⟨WireForm.replaces_of_overwrites fun _ ↦ CanFrame.overwrites,
    WireForm.replaces_of_overwrites fun _ ↦ LinFrame.overwrites,
    WireForm.replaces_of_overwrites fun _ ↦ Message.overwrites,
    WireForm.replaces_of_overwrites fun _ ↦ NtscfPdu.overwrites,
    WireForm.replaces_of_overwrites fun _ ↦ TscfPdu.overwrites, WireForm.guarded CommonHeader,
    fun _ _ hcheck hbuf ↦ CommonHeader.blends hcheck hbuf⟩

/-- Encoding into buffers of ones: a data unit that fits, a frame that does not, and headers with a
version of more than three bits and of two. -/
theorem encodeInto_replaces_ones :
    (∃ octets, WireForm.encode (NtscfPdu.mk (some 7) 9 mixedMessages) = .ok octets ∧
        octets.length = 60 ∧
          WireForm.encodeInto (NtscfPdu.mk (some 7) 9 mixedMessages) (List.replicate 62 0xFF) =
            (.ok 60, octets ++ [0xFF, 0xFF])) ∧
      WireForm.encodeInto (CanFrame.mk ⟨0⟩ 1 0x7FF none true []) (List.replicate 7 0xFF) =
        (.error (.bufferTooSmall 8), List.replicate 7 0xFF) ∧
        WireForm.encodeInto (CommonHeader.mk .tscf false 8) (List.replicate 5 0xFF) =
          (.error (.invalidStructure (.fieldOutOfRange .common (CommonSlot.row .version) 8)),
            List.replicate 5 0xFF) ∧
          (CommonHeader.mk .tscf false 2).Blends (List.replicate 5 0xFF) :=
  ⟨encodeInto_replaces.2.2.2.1.written _ _ rfl (by decide),
    encodeInto_replaces.1.short _ _ rfl (by decide),
    encodeInto_replaces.2.2.2.2.2.1.refused _ _ _ rfl,
    encodeInto_replaces.2.2.2.2.2.2 _ _ rfl (by decide)⟩

end Avtp
