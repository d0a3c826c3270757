import Avtp.Proofs.EncodeInto

/-!
# Every write of an encoder is safe

Nothing that an encoder does is checked where it is done. It sets fields without asking whether they
hold the value, and it hands the rest of the buffer on to the next message without asking how much
is left. All of this has been settled by then: by the check of the value and by its size.

A *plan* is the list of all these writes, each with the offset of the part of the buffer that it was
given. Running it is what the encoder does, for every value and every buffer
(`WireForm.Planned.write?_eq`), and running it fails exactly if one of its writes is not safe
(`PlacedWrite.isSome_run?_iff`). So an encoder that succeeds has made safe writes only.

**Running offsets.** The encoder of a sequence moves on by the number of octets that a message was
written with, the plan by the size of the message. They agree because a message is not written
unless there is room for all of it (`Acf.Message.size_le_of_run?`).
-/

namespace Avtp

open Acf (Message CanFrame LinFrame)

/-! ### One write -/

namespace Write

variable {write : Write} {buf out : List UInt8}

/-- The write stays inside a buffer of the given length, and its field holds the value. -/
def Fits (length : Nat) : Write → Prop
  | .clear count => count ≤ length
  | .copy start content => start + content.length ≤ length
  | .field place value => place.requiredOctets ≤ length ∧ place.Holds value

/-- A write is refused exactly if it does not fit. -/
theorem isSome_perform?_iff : (write.perform? buf).isSome ↔ write.Fits buf.length := by
  cases write with
  | clear count => rw [perform?, Option.isSome_map, Octets.isSome_split?_iff, Fits]
  | copy start content => rw [perform?, Option.isSome_map, Octets.isSome_split?_iff, Fits]
  | field place value =>
    rw [perform?, Fits]
    split_ifs with hholds
    · rw [BitField.isSome_write?_iff, and_iff_left hholds]
    · exact iff_of_false Bool.false_ne_true fun hfits ↦ hholds hfits.2

theorem length_of_perform? (hwrite : write.perform? buf = some out) :
    out.length = buf.length := by
  have hfits := isSome_perform?_iff.mp (Option.isSome_of_eq_some hwrite)
  cases write with
  | clear count =>
    obtain ⟨parts, hparts, rfl⟩ := Option.map_eq_some_iff.mp hwrite
    obtain ⟨hle, -, hrest⟩ := Octets.split?_eq_some_iff.mp hparts
    rw [hrest, List.length_append, List.length_replicate, List.length_drop]
    omega
  | copy start content =>
    obtain ⟨parts, hparts, rfl⟩ := Option.map_eq_some_iff.mp hwrite
    obtain ⟨hle, hfront, hrest⟩ := Octets.split?_eq_some_iff.mp hparts
    rw [hfront, hrest, List.length_append, List.length_append, List.length_take, List.length_take,
      List.length_drop]
    omega
  | field place value =>
    rw [perform?, if_pos hfits.2] at hwrite
    exact BitField.length_of_write? hwrite

end Write

/-! ### Writes with an offset -/

/-- A write to the part of a buffer from an offset on. -/
structure PlacedWrite where
  offset : Nat
  write : Write

namespace PlacedWrite

variable {step : PlacedWrite} {steps : List PlacedWrite} {buf out : List UInt8}

/-- The buffer after the write, `none` if it is refused or there is no such part. -/
def perform? (step : PlacedWrite) (buf : List UInt8) : Option (List UInt8) :=
  (Octets.split? buf step.offset).bind fun parts ↦
    (step.write.perform? parts.2).map (parts.1 ++ ·)

/-- The buffer after a list of writes, `none` as soon as one is refused. -/
def run? (steps : List PlacedWrite) (buf : List UInt8) : Option (List UInt8) :=
  steps.foldlM (fun buf step ↦ step.perform? buf) buf

/-- In a buffer of the given length there is such a part, and the write fits into it. -/
def Safe (length : Nat) (step : PlacedWrite) : Prop :=
  step.offset ≤ length ∧ step.write.Fits (length - step.offset)

theorem perform?_append (write : Write) (front rest : List UInt8) :
    perform? ⟨front.length, write⟩ (front ++ rest) = (write.perform? rest).map (front ++ ·) := by
  rw [perform?, Octets.split?_append rfl, Option.bind_some]

/-- A write is refused exactly if it is not safe. -/
theorem isSome_perform?_iff : (step.perform? buf).isSome ↔ step.Safe buf.length := by
  by_cases hoffset : step.offset ≤ buf.length
  · rw [perform?, Octets.split?_of_le hoffset, Option.bind_some,
      Option.isSome_map, Write.isSome_perform?_iff, List.length_drop, Safe, and_iff_right hoffset]
  · refine iff_of_false (fun hsome ↦ ?_) fun hsafe ↦ hoffset hsafe.1
    obtain ⟨out, hout⟩ := Option.isSome_iff_exists.mp hsome
    obtain ⟨parts, hparts, -⟩ := Option.bind_eq_some_iff.mp hout
    exact hoffset (Octets.split?_eq_some_iff.mp hparts).1

theorem length_of_perform? (hstep : step.perform? buf = some out) : out.length = buf.length := by
  obtain ⟨parts, hparts, hwrite⟩ := Option.bind_eq_some_iff.mp hstep
  obtain ⟨rest, hrest, rfl⟩ := Option.map_eq_some_iff.mp hwrite
  obtain ⟨hle, hfront, hbehind⟩ := Octets.split?_eq_some_iff.mp hparts
  rw [List.length_append, Write.length_of_perform? hrest, hfront, hbehind, ← List.length_append,
    List.take_append_drop]

theorem run?_cons (step : PlacedWrite) (steps : List PlacedWrite) (buf : List UInt8) :
    run? (step :: steps) buf = (step.perform? buf).bind (run? steps) := rfl

theorem run?_append (steps more : List PlacedWrite) (buf : List UInt8) :
    run? (steps ++ more) buf = (run? steps buf).bind (run? more) :=
  List.foldlM_append

theorem length_of_run? (hrun : run? steps buf = some out) : out.length = buf.length := by
  induction steps generalizing buf with
  | nil => exact congrArg List.length (Option.some.inj hrun).symm
  | cons step steps ih =>
    obtain ⟨next, hstep, hsteps⟩ := Option.bind_eq_some_iff.mp hrun
    rw [ih hsteps, length_of_perform? hstep]

/-- **A run succeeds exactly if all of its writes are safe.** No write changes the length, so it is
the buffer at the start that they have to be safe in. -/
theorem isSome_run?_iff : (run? steps buf).isSome ↔ ∀ step ∈ steps, step.Safe buf.length := by
  induction steps generalizing buf with
  | nil => exact iff_of_true rfl nofun
  | cons step steps ih =>
    rw [List.forall_mem_cons, ← isSome_perform?_iff, run?_cons]
    cases hstep : step.perform? buf with
    | none => exact iff_of_false Bool.false_ne_true fun hall ↦ Bool.false_ne_true hall.1
    | some next =>
      rw [Option.bind_some, ih, length_of_perform? hstep]
      exact (and_iff_right rfl).symm

end PlacedWrite

/-! ### Writes of one encoder -/

namespace Write

variable {writes : List Write} {buf out : List UInt8}

/-- The writes of an encoder that was given the part of the buffer from the offset on. -/
def placed (offset : Nat) (writes : List Write) : List PlacedWrite :=
  writes.map (PlacedWrite.mk offset)

/-- Writes to a part leave the front alone. -/
theorem run?_placed (writes : List Write) (front rest : List UInt8) :
    PlacedWrite.run? (placed front.length writes) (front ++ rest) =
      (run? writes rest).map (front ++ ·) := by
  induction writes generalizing rest with
  | nil => rfl
  | cons write writes ih =>
    rw [placed, List.map_cons, PlacedWrite.run?_cons, PlacedWrite.perform?_append, run?_cons]
    cases write.perform? rest with
    | none => rfl
    | some next => exact ih next

theorem run?_placed_zero (writes : List Write) (buf : List UInt8) :
    PlacedWrite.run? (placed 0 writes) buf = run? writes buf :=
  (run?_placed writes [] buf).trans Option.map_id'

theorem length_of_run? (hrun : run? writes buf = some out) : out.length = buf.length := by
  rw [← run?_placed_zero] at hrun
  exact PlacedWrite.length_of_run? hrun

theorem fits_of_run? (hrun : run? writes buf = some out) {write : Write}
    (hwrite : write ∈ writes) : write.Fits buf.length := by
  rw [← run?_placed_zero] at hrun
  exact (PlacedWrite.isSome_run?_iff.mp (Option.isSome_of_eq_some hrun) ⟨0, write⟩
    (List.mem_map_of_mem hwrite)).2

end Write

/-! ### Sequences of messages -/

namespace Acf.Message

/-- A message that was written had room for all of it. -/
theorem size_le_of_run? {message : Message} {buf out : List UInt8}
    (hrun : Write.run? message.writes buf = some out) : message.size ≤ buf.length := by
  cases message with
  | can frame => exact Write.fits_of_run? hrun (List.mem_cons_self (a := Write.clear frame.size))
  | lin frame => exact Write.fits_of_run? hrun (List.mem_cons_self (a := Write.clear frame.size))
  | other type body => exact Write.fits_of_run? hrun (List.mem_cons_self (a := Write.copy 2 body))

/-- The writes of messages one behind the other, the first of them at the offset. -/
def planFrom (offset : Nat) : List Message → List PlacedWrite
  | [] => []
  | message :: messages =>
    Write.placed offset message.writes ++ planFrom (offset + message.size) messages

/-- **The running offset is the sum of the sizes.** -/
theorem map_writeAll?_eq (messages : List Message) (front rest : List UInt8) :
    (writeAll? messages rest).map (fun found ↦ (front ++ found.1, front.length + found.2)) =
      (PlacedWrite.run? (planFrom front.length messages) (front ++ rest)).map fun out ↦
        (out, front.length + totalSize messages) := by
  induction messages generalizing front rest with
  | nil => rfl
  | cons message messages ih =>
    rw [planFrom, PlacedWrite.run?_append, Write.run?_placed, writeAll?]
    show (((Write.run? message.writes rest).map fun out ↦ (out, message.size)) >>= _).map _ = _
    cases hrun : Write.run? message.writes rest with
    | none => rfl
    | some out =>
      have hsize : message.size ≤ out.length := by
        rw [Write.length_of_run? hrun]
        exact size_le_of_run? hrun
      -- The message itself belongs to the front of those that follow.
      have hrest := ih (front ++ out.take message.size) (out.drop message.size)
      rw [List.length_append, List.length_take_of_le hsize, List.append_assoc,
        List.take_append_drop] at hrest
      rw [Option.map_some, Option.map_some, Option.bind_some, totalSize, ← Nat.add_assoc, ← hrest]
      simp only [Option.bind_eq_bind, Option.bind_some, Octets.split?_of_le hsize]
      cases writeAll? messages (out.drop message.size) with
      | none => rfl
      | some found =>
        show some _ = some _
        simp only [List.append_assoc, Nat.add_assoc]

end Acf.Message

/-! ### Control streams -/

/-- The writes of a data unit: the header, then the messages behind it. -/
def streamPlan (headerLength : Nat) (header : List Write) (messages : List Message) :
    List PlacedWrite :=
  Write.placed 0 (.clear headerLength :: header) ++ Message.planFrom headerLength messages

theorem writeStream?_eq_run? (headerLength : Nat) (header : List Write) (messages : List Message)
    (buf : List UInt8) :
    writeStream? headerLength header messages buf =
      (PlacedWrite.run? (streamPlan headerLength header messages) buf).map fun out ↦
        (out, headerLength + Message.totalSize messages) := by
  rw [streamPlan, PlacedWrite.run?_append, Write.run?_placed_zero, writeStream?]
  cases hrun : Write.run? (.clear headerLength :: header) buf with
  | none => rfl
  | some out =>
    have hlen : headerLength ≤ out.length := by
      rw [Write.length_of_run? hrun]
      exact Write.fits_of_run? hrun (List.mem_cons_self (a := Write.clear headerLength))
    have hmessages := Message.map_writeAll?_eq messages (out.take headerLength)
      (out.drop headerLength)
    rw [List.length_take_of_le hlen, List.take_append_drop] at hmessages
    rw [Option.bind_some, ← hmessages]
    simp only [Option.bind_eq_bind, Option.bind_some, Octets.split?_of_le hlen]
    cases Message.writeAll? messages (out.drop headerLength) <;> rfl

/-! ### Plans of encoders -/

namespace WireForm

variable {α : Type} [WireForm α]

/-- A plan lists the writes of an encoder. -/
structure Planned (plan : α → List PlacedWrite) : Prop where
  /-- Encoding is to run the plan. -/
  write?_eq : ∀ (value : α) (buf : List UInt8),
    write? value buf = (PlacedWrite.run? (plan value) buf).map fun out ↦ (out, size value)
  /-- For a checked value and a buffer with room for it, every write is safe. -/
  safe : ∀ (value : α) (buf : List UInt8), check value = .ok () → size value ≤ buf.length →
    ∀ step ∈ plan value, step.Safe buf.length
  /-- Then the size is what is counted. -/
  counts : ∀ (value : α) (buf : List UInt8), check value = .ok () → size value ≤ buf.length →
    ∃ out, out.length = buf.length ∧ write? value buf = some (out, size value)

/-- An encoder that refuses nothing has made safe writes only. -/
theorem planned_of_isSome {plan : α → List PlacedWrite}
    (hplan : ∀ (value : α) (buf : List UInt8),
      write? value buf = (PlacedWrite.run? (plan value) buf).map fun out ↦ (out, size value))
    (hsome : ∀ (value : α) (buf : List UInt8), check value = .ok () →
      size value ≤ buf.length → (write? value buf).isSome) : Planned plan where
  write?_eq := hplan
  safe value buf hcheck hbuf := by
    have hrun := hsome value buf hcheck hbuf
    rw [hplan, Option.isSome_map] at hrun
    exact PlacedWrite.isSome_run?_iff.mp hrun
  counts value buf hcheck hbuf := by
    have hrun := hsome value buf hcheck hbuf
    rw [hplan, Option.isSome_map] at hrun
    obtain ⟨out, hout⟩ := Option.isSome_iff_exists.mp hrun
    exact ⟨out, PlacedWrite.length_of_run? hout, by rw [hplan, hout, Option.map_some]⟩

/-- An encoder that is given no part of its own makes all writes to the buffer as a whole. -/
theorem planned_of_run? {writes : α → List Write}
    (hwrite : ∀ (value : α) (buf : List UInt8),
      write? value buf = (Write.run? (writes value) buf).map fun out ↦ (out, size value))
    (hsome : ∀ (value : α) (buf : List UInt8), check value = .ok () →
      size value ≤ buf.length → (write? value buf).isSome) :
    Planned fun value ↦ Write.placed 0 (writes value) := by
  refine planned_of_isSome (fun value buf ↦ ?_) hsome
  rw [Write.run?_placed_zero, hwrite]

theorem Overwrites.isSome_write? {value : α} {octets buf : List UInt8}
    (hover : Overwrites value octets) (hbuf : size value ≤ buf.length) :
    (write? value buf).isSome := by
  rw [hover.write?_eq buf hbuf]
  rfl

end WireForm

/-- The writes of an NTSCF data unit. -/
def NtscfPdu.plan (pdu : NtscfPdu) : List PlacedWrite :=
  streamPlan (Header.size .ntscf) pdu.headerWrites pdu.messages

/-- The writes of a TSCF data unit. -/
def TscfPdu.plan (pdu : TscfPdu) : List PlacedWrite :=
  streamPlan (Header.size .tscf) pdu.headerWrites pdu.messages

theorem Encapsulation.isSome_write? (header : Encapsulation) {buf : List UInt8}
    (hbuf : WireForm.size header ≤ buf.length) : (WireForm.write? header buf).isSome := by
  have hholds (slot : UdpSlot) :
      (Header.place (h := .udp) slot).Holds header.sequenceNumber.toNat :=
    BitField.holds_iff_lt_two_pow.mpr header.sequenceNumber.toNat_lt
  show ((Write.run? header.writes buf).map _).isSome
  rw [Option.isSome_map]
  exact Option.isSome_of_eq_some (Header.run?_slots (h := .udp) UdpSlot.all hholds hbuf)

/-- Header and payload are at most three octets short of whole quadlets. -/
theorem Acf.paddedLength_sub_sub (header payload : Nat) :
    header + payload ≤ paddedLength (header + payload) ∧
      paddedLength (header + payload) - header - payload ≤ 3 := by
  obtain ⟨hle, hlt, -⟩ := paddedLength_eq (header + payload)
  omega

/-- **Encoding neither cuts a value off nor writes outside the buffer.** Once the value is checked
and there is room for it, all writes are safe, those of nested messages included, and as many octets
are counted as were asked for. The pad count is a true difference, of at most three. -/
theorem encoders_planned :
    WireForm.Planned (fun header : CommonHeader ↦ Write.placed 0 header.writes) ∧
      WireForm.Planned (fun header : Encapsulation ↦ Write.placed 0 header.writes) ∧
      WireForm.Planned (fun frame : CanFrame ↦ Write.placed 0 frame.writes) ∧
      WireForm.Planned (fun frame : LinFrame ↦ Write.placed 0 frame.writes) ∧
      WireForm.Planned (fun message : Message ↦ Write.placed 0 message.writes) ∧
      WireForm.Planned NtscfPdu.plan ∧ WireForm.Planned TscfPdu.plan ∧
      (∀ frame : CanFrame,
        frame.headerLength + frame.payload.length ≤ frame.size ∧ frame.padding ≤ 3) ∧
      ∀ frame : LinFrame,
        Header.size .lin + frame.payload.length ≤ frame.size ∧ frame.padding ≤ 3 := by
  refine ⟨?_, ?_, ?_, ?_, ?_, ?_, ?_, fun frame ↦ Acf.paddedLength_sub_sub _ _,
    fun frame ↦ Acf.paddedLength_sub_sub _ _⟩
  · exact WireForm.planned_of_run? (fun _ _ ↦ rfl) fun header buf hcheck hbuf ↦
      Option.isSome_of_eq_some (CommonHeader.write?_eq hcheck hbuf)
  · exact WireForm.planned_of_run? (fun _ _ ↦ rfl) fun header buf _ hbuf ↦
      header.isSome_write? hbuf
  · exact WireForm.planned_of_run? (fun _ _ ↦ rfl) fun frame buf hcheck hbuf ↦
      (CanFrame.overwrites hcheck).isSome_write? hbuf
  · exact WireForm.planned_of_run? (fun _ _ ↦ rfl) fun frame buf hcheck hbuf ↦
      (LinFrame.overwrites hcheck).isSome_write? hbuf
  · exact WireForm.planned_of_run? (fun _ _ ↦ rfl) fun message buf hcheck hbuf ↦
      (Message.overwrites hcheck).isSome_write? hbuf
  · exact WireForm.planned_of_isSome (fun pdu ↦ writeStream?_eq_run? _ _ _)
      fun pdu buf hcheck hbuf ↦ (NtscfPdu.overwrites hcheck).isSome_write? hbuf
  · exact WireForm.planned_of_isSome (fun pdu ↦ writeStream?_eq_run? _ _ _)
      fun pdu buf hcheck hbuf ↦ (TscfPdu.overwrites hcheck).isSome_write? hbuf

/-- A data unit with a message of each kind, and a frame with one octet of padding. -/
theorem encoders_planned_mixed :
    (∀ step ∈ (NtscfPdu.mk (some 7) 9 mixedMessages).plan, step.Safe 62) ∧
      (∃ out, out.length = 62 ∧
        WireForm.write? (NtscfPdu.mk (some 7) 9 mixedMessages) (List.replicate 62 0xFF) =
          some (out, 60)) ∧
        (CanFrame.mk ⟨0⟩ 3 5 none false [1, 2, 3]).padding ≤ 3 :=
  ⟨encoders_planned.2.2.2.2.2.1.safe _ (List.replicate 62 0xFF) rfl (by decide),
    encoders_planned.2.2.2.2.2.1.counts _ (List.replicate 62 0xFF) rfl (by decide),
    (encoders_planned.2.2.2.2.2.2.2.1 _).2⟩

end Avtp
