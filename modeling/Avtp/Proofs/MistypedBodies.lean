import Avtp.Proofs.DecodeEncode

/-!
# Bodies under the type of a known header

A check asks whether every part of a value fits into its field, and not whether the receiver will
make the same of it. For frames this is the same question. For a body it is not: a body may be sent
under a type that announces a header, and on the wire nothing tells it from a message with that
header.

What becomes of such a body is settled by its length alone. If it covers the header of its type and
the padding that its first two bits then announce, it comes back as a frame of that type, and if it
does not, the whole data unit is refused (`decode_encode_kind`). `Message.Roomy` is the condition
and `Message.receivedKind` what comes back.
-/

namespace Avtp

namespace Acf

/-! ### Kinds of messages -/

/-- What a message is as a value. -/
inductive Kind where
  | can
  | lin
  | other
  deriving DecidableEq

/-- What a message of the format is as a value. -/
def MessageFormat.kind : MessageFormat → Kind
  | can | canBrief => .can
  | lin => .lin

theorem MessageFormat.mem_all (format : MessageFormat) : format ∈ all := by
  cases format <;> decide

namespace Message

/-- What the message is. -/
def kind : Message → Kind
  | .can _ => .can
  | .lin _ => .lin
  | .other .. => .other

/-- What the message is taken for when it is received. -/
def receivedKind : Message → Kind
  | .can _ => .can
  | .lin _ => .lin
  | .other type _ =>
    if type.raw = 0x01 ∨ type.raw = 0x02 then .can
    else if type.raw = 0x03 then .lin
    else .other

/-- A body has room for the header that its type announces and for the padding that is then read
from its first two bits. -/
def Roomy : Message → Prop
  | .other type body => ∀ format ∈ MessageFormat.all, type.raw = format.type.raw →
      format.header.size + (body.headD 0).toNat / 64 ≤ 2 + body.length
  | _ => True

instance : (message : Message) → Decidable message.Roomy
  | .can _ => isTrue trivial
  | .lin _ => isTrue trivial
  | .other type body =>
    inferInstanceAs (Decidable (∀ format ∈ MessageFormat.all, type.raw = format.type.raw →
      format.header.size + (body.headD 0).toNat / 64 ≤ 2 + body.length))

/-! ### Plain messages -/

theorem kind_canonical (message : Message) : message.canonical.kind = message.kind := by
  cases message <;> rfl

/-- A plain message is taken for what it is. -/
theorem receivedKind_of_plain {message : Message} (hplain : message.Plain) :
    message.receivedKind = message.kind := by
  cases message with
  | can frame => rfl
  | lin frame => rfl
  | other type body =>
    obtain ⟨hcan, hbrief, hlin⟩ := hplain
    rw [receivedKind, if_neg (not_or.mpr ⟨hcan, hbrief⟩), if_neg hlin]
    rfl

/-- A plain message announces no header that it would have to have room for. -/
theorem roomy_of_plain {message : Message} (hplain : message.Plain) : message.Roomy := by
  cases message with
  | can frame => trivial
  | lin frame => trivial
  | other type body =>
    intro format _ htype
    obtain ⟨hcan, hbrief, hlin⟩ := hplain
    cases format with
    | can => exact absurd htype hcan
    | canBrief => exact absurd htype hbrief
    | lin => exact absurd htype hlin

/-- What is not plain is a body under the type of a known format. -/
theorem exists_format_of_not_plain {message : Message} (hnot : ¬ message.Plain) :
    ∃ type body, message = .other type body ∧
      ∃ format : MessageFormat, type.raw = format.type.raw := by
  cases message with
  | can frame => exact absurd trivial hnot
  | lin frame => exact absurd trivial hnot
  | other type body =>
    refine ⟨type, body, rfl, ?_⟩
    by_contra hnone
    exact hnot ⟨fun h ↦ hnone ⟨.can, h⟩, fun h ↦ hnone ⟨.canBrief, h⟩, fun h ↦ hnone ⟨.lin, h⟩⟩

/-! ### Mistyped bodies -/

theorem receivedKind_of_format {type : MessageType} {body : List UInt8} {format : MessageFormat}
    (htype : type.raw = format.type.raw) : receivedKind (.other type body) = format.kind := by
  rw [receivedKind, htype]
  cases format <;> rfl

/-- Only one format has the type of a body, so only its header has to have room. -/
theorem roomy_iff_of_format {type : MessageType} {body : List UInt8} {format : MessageFormat}
    (htype : type.raw = format.type.raw) :
    Roomy (.other type body) ↔
      format.header.size + (body.headD 0).toNat / 64 ≤ 2 + body.length := by
  constructor
  · intro h
    exact h format format.mem_all htype
  · intro h other _ hother
    have hsame : format.type.raw = other.type.raw := htype.symm.trans hother
    have heq : format = other := by
      cases format <;> cases other <;> first | rfl | exact absurd hsame (by decide)
    exact heq ▸ h

/-- The pad count is the first two bits of the third octet. -/
theorem read_pad (a b c d : UInt8) (rest : List UInt8) :
    (Header.place (h := .can) CanSlot.pad).read (a :: b :: c :: d :: rest) = c.toNat / 64 := by
  have hlen : (Header.place (h := .can) CanSlot.pad).requiredOctets ≤
      (a :: b :: c :: d :: rest).length := by
    simp only [List.length_cons]
    exact Nat.le_add_left 4 rest.length
  have hc : c.toNat / 64 = c.toNat / 2 ^ 6 := rfl
  refine Nat.eq_of_testBit_eq fun j ↦ ?_
  rw [hc, Nat.testBit_div_two_pow]
  rcases Nat.lt_or_ge j 2 with hj | hj
  · have hbit := BitField.testBit_read (f := Header.place (h := .can) CanSlot.pad) hlen hj
    have hspot : (17 - j) / 8 = 2 ∧ (17 - j) % 8 = 1 - j := by omega
    have hget : Octets.bit? (a :: b :: c :: d :: rest) (17 - j) =
        some (c.toBitVec.getMsbD (1 - j)) := by
      rw [Octets.bit?, hspot.1, hspot.2]
      rfl
    rw [show (Header.place (h := .can) CanSlot.pad).endBit - 1 - j = 17 - j from rfl, hget,
      BitVec.getMsbD_eq_getLsbD] at hbit
    rw [← Option.some.inj hbit, decide_eq_true (by omega), Bool.true_and,
      show 8 - 1 - (1 - j) = j + 6 by omega]
    rfl
  · have hlow : (Header.place (h := .can) CanSlot.pad).read (a :: b :: c :: d :: rest) < 2 ^ j :=
      Nat.lt_of_lt_of_le (BitField.read_lt_two_pow _ _) (Nat.pow_le_pow_right (by omega) hj)
    have hhigh : c.toNat < 2 ^ (j + 6) :=
      Nat.lt_of_lt_of_le c.toNat_lt (Nat.pow_le_pow_right (by omega) (by omega))
    rw [Nat.testBit_lt_two_pow hlow, Nat.testBit_lt_two_pow hhigh]

theorem read_pad_bodyOctets {type : MessageType} {body : List UInt8}
    (hcheck : check (.other type body) = .ok ()) :
    (Header.place (h := .can) CanSlot.pad).read (bodyOctets type body) =
      (body.headD 0).toNat / 64 := by
  have hdrop := drop_bodyOctets hcheck
  have hfour : 4 ≤ (bodyOctets type body).length := by
    rw [length_bodyOctets]
    exact (check_other_eq_ok_iff.mp hcheck).2.1
  obtain ⟨a, b, c, d, rest, heq⟩ := Quadlet.exists_of_four_le_length hfour
  rw [heq] at hdrop
  rw [heq, read_pad, ← hdrop]
  rfl

theorem complete_bodyOctets {type : MessageType} {body : List UInt8}
    (hcheck : check (.other type body) = .ok ()) : Complete ⟨bodyOctets type body⟩ :=
  complete_wire hcheck

/-- **A body under the type of a known format is taken for a message of that format**, and refused
without room for it. -/
theorem ofView?_mistyped_eq_ok_iff {type : MessageType} {body : List UInt8} {format : MessageFormat}
    (hcheck : check (.other type body) = .ok ()) (htype : type.raw = format.type.raw)
    {received : Message} :
    ofView? ⟨bodyOctets type body⟩ = .ok received ↔
      Roomy (.other type body) ∧
        received = ofTyped (.ofFormat format ⟨bodyOctets type body⟩) := by
  have hmsgType : AcfView.msgType ⟨bodyOctets type body⟩ = format.type := by
    have hread := read_bodyOctets hcheck .msgType []
    rw [List.append_nil] at hread
    have hnumber : AcfView.rawMsgType ⟨bodyOctets type body⟩ = type.raw := by
      rw [AcfView.rawMsgType, View.read, hread]
      exact UInt8.ofNat_toNat
    rw [AcfView.msgType, hnumber, htype]
    cases format <;> rfl
  have hroom : Roomy (.other type body) ↔
      format.header.size + (Header.place format.padSlot).read (bodyOctets type body) ≤
        (bodyOctets type body).length := by
    rw [roomy_iff_of_format htype, format.place_padSlot, read_pad_bodyOctets hcheck,
      length_bodyOctets]
  rw [ofView?, TypedMessage.ofView?_of_type hmsgType, map_eq_ok_iff]
  simp only [map_eq_ok_iff, TypedMessage.as?_eq_ok_iff (complete_bodyOctets hcheck)]
  constructor
  · rintro ⟨typed, ⟨view, ⟨-, hfits, rfl⟩, rfl⟩, rfl⟩
    exact ⟨hroom.mpr hfits, rfl⟩
  · rintro ⟨hroomy, rfl⟩
    exact ⟨_, ⟨_, ⟨hmsgType, hroom.mp hroomy, rfl⟩, rfl⟩, rfl⟩

/-! ### All messages -/

/-- **A message is accepted if it has room for what its type announces.** -/
theorem isOk_ofView?_wire_iff {message : Message} (hcheck : message.check = .ok ()) :
    (∃ received, ofView? ⟨message.wire⟩ = .ok received) ↔ message.Roomy := by
  by_cases hplain : message.Plain
  · exact iff_of_true ⟨_, ofView?_wire hcheck hplain⟩ (roomy_of_plain hplain)
  · obtain ⟨type, body, rfl, format, htype⟩ := exists_format_of_not_plain hplain
    simp only [wire, ofView?_mistyped_eq_ok_iff hcheck htype, exists_and_left, exists_eq, and_true]

/-- An accepted message is taken for what its type announces. -/
theorem kind_of_ofView?_wire {message received : Message} (hcheck : message.check = .ok ())
    (h : ofView? ⟨message.wire⟩ = .ok received) : received.kind = message.receivedKind := by
  by_cases hplain : message.Plain
  · rw [ofView?_wire hcheck hplain] at h
    rw [← Except.ok.inj h, kind_canonical, receivedKind_of_plain hplain]
  · obtain ⟨type, body, rfl, format, htype⟩ := exists_format_of_not_plain hplain
    obtain ⟨-, rfl⟩ := (ofView?_mistyped_eq_ok_iff hcheck htype).mp h
    rw [receivedKind_of_format htype]
    cases format <;> rfl

/-- The first of several messages is received on its own, and then the others. -/
theorem ofPayload?_wire_cons_eq_ok_iff {message : Message} {messages received : List Message}
    (hcheck : message.check = .ok ()) :
    ofPayload? ((message :: messages).flatMap wire) = .ok received ↔
      ∃ first others, received = first :: others ∧ ofView? ⟨message.wire⟩ = .ok first ∧
        ofPayload? (messages.flatMap wire) = .ok others := by
  obtain ⟨extent, hextent, hlength⟩ := ofOctets?_wire hcheck (messages.flatMap wire)
  rw [List.flatMap_cons, ofPayload?_of_ok hextent, hlength, List.take_left' message.length_wire,
    List.drop_left' message.length_wire, cons_eq_ok_iff]
  constructor
  · rintro ⟨first, others, hfirst, hothers, rfl⟩
    exact ⟨first, others, rfl, hfirst, hothers⟩
  · rintro ⟨first, others, rfl, hfirst, hothers⟩
    exact ⟨first, others, hfirst, hothers, rfl⟩

/-- **A sequence of messages is accepted if each of them is.** -/
theorem isOk_ofPayload?_wire_iff {messages : List Message}
    (hcheck : ∀ message ∈ messages, message.check = .ok ()) :
    (∃ received, ofPayload? (messages.flatMap wire) = .ok received) ↔
      ∀ message ∈ messages, message.Roomy := by
  induction messages with
  | nil => exact iff_of_true ⟨[], ofPayload?_nil⟩ nofun
  | cons message messages ih =>
    obtain ⟨hmessage, hmessages⟩ := List.forall_mem_cons.mp hcheck
    rw [List.forall_mem_cons, ← ih hmessages, ← isOk_ofView?_wire_iff hmessage]
    simp only [ofPayload?_wire_cons_eq_ok_iff hmessage]
    constructor
    · rintro ⟨received, first, others, rfl, hfirst, hothers⟩
      exact ⟨⟨first, hfirst⟩, others, hothers⟩
    · rintro ⟨⟨first, hfirst⟩, others, hothers⟩
      exact ⟨first :: others, first, others, rfl, hfirst, hothers⟩

/-- **They come back in number and order**, each as what its type announces. -/
theorem kind_of_ofPayload?_wire {messages received : List Message}
    (hcheck : ∀ message ∈ messages, message.check = .ok ())
    (h : ofPayload? (messages.flatMap wire) = .ok received) :
    received.map kind = messages.map receivedKind := by
  induction messages generalizing received with
  | nil =>
    rw [List.flatMap_nil, ofPayload?_nil] at h
    rw [← Except.ok.inj h]
    rfl
  | cons message messages ih =>
    obtain ⟨hmessage, hmessages⟩ := List.forall_mem_cons.mp hcheck
    obtain ⟨first, others, rfl, hfirst, hothers⟩ :=
      (ofPayload?_wire_cons_eq_ok_iff hmessage).mp h
    rw [List.map_cons, List.map_cons, kind_of_ofView?_wire hmessage hfirst, ih hmessages hothers]

end Message

end Acf

/-! ### Data units -/

/-- What decoding makes of a data unit with these messages. `content` are the messages found. -/
structure Received {α : Type} (messages : List Acf.Message) (content : α → List Acf.Message)
    (decoded : Except ViewError (α × List UInt8)) : Prop where
  /-- It is accepted if and only if every message in it has room for what its type announces. -/
  isOk_iff : (∃ found, decoded = .ok found) ↔ ∀ message ∈ messages, message.Roomy
  /-- Nothing is left over. -/
  rest_eq : ∀ found rest, decoded = .ok (found, rest) → rest = []
  /-- The messages come back in number and order, each as what its type announces. -/
  kinds_eq : ∀ found rest, decoded = .ok (found, rest) →
    (content found).map Acf.Message.kind = messages.map Acf.Message.receivedKind

/-- Decoding a sent form is reading the messages in its payload, since the form is all of the view
that is cut off. `value` puts what is read from a view and its messages together. -/
theorem StreamForm.received {format : StreamFormat} {form : StreamForm format} (hsound : form.Sound)
    (hcheck : Acf.Message.checkAll form.messages = .ok ()) {α : Type}
    {content : α → List Acf.Message} {decoded : Except ViewError (α × List UInt8)}
    {value : View format.header → List Acf.Message → α}
    (hcontent : ∀ view messages, content (value view messages) = messages)
    (hdecoded : ∀ {found rest}, decoded = .ok (found, rest) ↔
      ∃ view, View.split? format.header form.octets = .ok (view, rest) ∧
        (Acf.Message.ofPayload? view.payload).map (value view) = .ok found) :
    Received form.messages content decoded := by
  have hchecks := Acf.Message.checkAll_eq_ok_iff.mp hcheck
  have hsplit := form.split?_octets hsound []
  rw [List.append_nil] at hsplit
  have hpayload : ∀ {found rest}, decoded = .ok (found, rest) ↔
      rest = [] ∧ ∃ messages,
        Acf.Message.ofPayload? (form.messages.flatMap Acf.Message.wire) = .ok messages ∧
          value ⟨form.octets⟩ messages = found := by
    intro found rest
    rw [hdecoded, hsplit, ← form.payload_view, ← map_eq_ok_iff]
    constructor
    · rintro ⟨view, hview, hfound⟩
      obtain ⟨rfl, rfl⟩ := Prod.mk.inj (Except.ok.inj hview)
      exact ⟨rfl, hfound⟩
    · rintro ⟨rfl, hfound⟩
      exact ⟨_, rfl, hfound⟩
  refine ⟨?_, fun found rest h ↦ (hpayload.mp h).1, fun found rest h ↦ ?_⟩
  · rw [← Acf.Message.isOk_ofPayload?_wire_iff hchecks]
    constructor
    · rintro ⟨⟨found, rest⟩, h⟩
      obtain ⟨-, messages, hmessages, -⟩ := hpayload.mp h
      exact ⟨messages, hmessages⟩
    · rintro ⟨messages, hmessages⟩
      exact ⟨(_, []), hpayload.mpr ⟨rfl, messages, hmessages, rfl⟩⟩
  · obtain ⟨-, messages, hmessages, rfl⟩ := hpayload.mp h
    rw [hcontent, Acf.Message.kind_of_ofPayload?_wire hchecks hmessages]

/-- **A data unit comes back with as many messages of the announced kinds**, unless a body in it
has no room for the header that its type announces, and then it does not come back at all. -/
theorem decode_encode_kind :
    (∀ pdu : NtscfPdu, WireForm.check pdu = .ok () →
        ∃ octets, WireForm.encode pdu = .ok octets ∧
          Received pdu.messages NtscfPdu.messages (NtscfPdu.decode? octets)) ∧
      ∀ pdu : TscfPdu, WireForm.check pdu = .ok () →
        ∃ octets, WireForm.encode pdu = .ok octets ∧
          Received pdu.messages TscfPdu.messages (TscfPdu.decode? octets) := by
  refine ⟨fun pdu hcheck ↦ ⟨_, NtscfPdu.encode_eq hcheck, ?_⟩,
    fun pdu hcheck ↦ ⟨_, TscfPdu.encode_eq hcheck, ?_⟩⟩
  · exact StreamForm.received (NtscfPdu.sound_form hcheck) (NtscfPdu.check_eq_ok_iff.mp hcheck).2
      (fun view messages ↦ rfl) NtscfPdu.decode?_eq_ok_iff
  · exact StreamForm.received (TscfPdu.sound_form hcheck) (TscfPdu.check_eq_ok_iff.mp hcheck).2
      (fun view messages ↦ rfl) TscfPdu.decode?_eq_ok_iff

/-- Bodies under the types of both CAN formats and LIN, the second with just the room that it needs
for three octets of padding, and one under a type that announces nothing. -/
def bodiesWithRoom : List Acf.Message :=
  [.other .can (List.replicate 14 0), .other .canBrief [0xC0, 0, 0, 0, 0, 0, 0, 0, 0, 0],
    .other .lin (List.replicate 10 0), .other (.other 0x06) [0, 0]]

/-- A data unit of each format with these bodies passes its check and is encoded. -/
theorem decode_encode_kind_bodies :
    (∃ octets, WireForm.encode (NtscfPdu.mk none 9 bodiesWithRoom) = .ok octets ∧
        Received bodiesWithRoom NtscfPdu.messages (NtscfPdu.decode? octets)) ∧
      ∃ octets, WireForm.encode (TscfPdu.mk (some 7) true 9 false none 1 bodiesWithRoom) =
          .ok octets ∧
        Received bodiesWithRoom TscfPdu.messages (TscfPdu.decode? octets) :=
  ⟨decode_encode_kind.1 _ rfl, decode_encode_kind.2 _ rfl⟩

/-- A body of two octets under the type of a CAN frame. -/
def crampedPdu : NtscfPdu := ⟨none, 0, [.other .can [0, 0]]⟩

/-- A body with the length of a brief CAN header under its type. -/
def mistakenPdu : NtscfPdu := ⟨none, 0, [.other .canBrief [0, 0, 0, 0, 0, 0]]⟩

/-- Passing the check does not make the receiver accept a body, nor does acceptance keep it a body.
-/
theorem check_not_receivable :
    (WireForm.check crampedPdu = .ok () ∧
      WireForm.encode crampedPdu = .ok [0x82, 0, 4, 0, 0, 0, 0, 0, 0, 0, 0, 0, 2, 1, 0, 0] ∧
      NtscfPdu.decode? [0x82, 0, 4, 0, 0, 0, 0, 0, 0, 0, 0, 0, 2, 1, 0, 0] =
        .error (.invalidLayout (.invalidLength (.header .can) 4 16))) ∧
    WireForm.check mistakenPdu = .ok () ∧
      WireForm.encode mistakenPdu =
        .ok [0x82, 0, 8, 0, 0, 0, 0, 0, 0, 0, 0, 0, 4, 2, 0, 0, 0, 0, 0, 0] ∧
      NtscfPdu.decode? [0x82, 0, 8, 0, 0, 0, 0, 0, 0, 0, 0, 0, 4, 2, 0, 0, 0, 0, 0, 0] =
        .ok (⟨none, 0, [.can ⟨⟨0⟩, 0, 0, none, true, []⟩]⟩, []) := by
  decide +kernel

end Avtp
