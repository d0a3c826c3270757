import Mathlib.Tactic.SplitIfs
import Avtp.Acf.TypedMessage
import Avtp.Proofs.FieldBits

/-!
# When a header is accepted

The extent of a header is computed by a cascade of checks, each with its own refusal. Here every
cascade is opened once: `_eq_ok_iff` says what is known of a buffer when none of the checks refused
it, and that nothing else is needed. Proofs about accepted buffers start from these and never see a
check again.

All of them bound the extent from both sides: it covers the fixed part of the header and lies in the
buffer (`Header.bounds_of_extent?`).
-/

namespace Avtp

/-! ### Chains of checks -/

section Chains

variable {ε α β : Type} {result : Except ε α}

theorem map_eq_ok_iff {f : α → β} {b : β} :
    result.map f = .ok b ↔ ∃ a, result = .ok a ∧ f a = b := by
  cases result <;> simp [Except.map]

theorem map_eq_error_iff {f : α → β} {reason : ε} :
    result.map f = .error reason ↔ result = .error reason := by
  cases result <;> simp [Except.map]

theorem map_pair_eq_ok_iff {a : α} {b c : β} :
    (result.map fun a ↦ (a, b)) = .ok (a, c) ↔ result = .ok a ∧ b = c := by
  cases result <;> simp [Except.map]

/-- A guard in front of what comes next. -/
theorem ite_throw_eq_ok_iff {c : Prop} [Decidable c] {reason : ε} {next : Unit → Except ε Unit} :
    (if c then throw reason >>= next else next ()) = .ok () ↔ ¬ c ∧ next () = .ok () := by
  by_cases hc : c
  · simp [hc, throw, throwThe, MonadExceptOf.throw, bind, Except.bind]
  · simp [hc]

theorem cons_eq_ok_iff {rest : Except ε (List α)} {list : List α} :
    (do return (← result) :: (← rest)) = Except.ok list ↔
      ∃ a as, result = .ok a ∧ rest = .ok as ∧ list = a :: as := by
  rcases result with - | a <;> rcases rest with - | as <;>
    simp [bind, Except.bind, pure, Except.pure, eq_comm]

theorem cons_eq_error_iff {rest : Except ε (List α)} {reason : ε} :
    (do return (← result) :: (← rest)) = Except.error reason ↔
      result = .error reason ∨ (∃ a, result = .ok a) ∧ rest = .error reason := by
  rcases result with - | a <;> rcases rest with - | as <;>
    simp [bind, Except.bind, pure, Except.pure]

end Chains

/-! ### Fields in front of other octets -/

/-- The fields of a header do not depend on what is behind it. -/
theorem Header.read_append {h : Header} (slot : h.Slot) {front : List UInt8} (rest : List UInt8)
    (hfront : h.size ≤ front.length) :
    (place slot).read (front ++ rest) = (place slot).read front :=
  BitField.read_append rest (Nat.le_trans (place_requiredOctets_le slot) hfront)

/-! ### Control streams -/

namespace StreamFormat

/-- **A control stream is accepted** if its header is there, names the format and the version, and
advertises a payload that is there. -/
theorem dataLength?_eq_ok_iff {format : StreamFormat} {buf : List UInt8} {count : Nat} :
    format.dataLength? buf = .ok count ↔
      (Header.place (h := .common) CommonSlot.subtype).read buf = format.subtype.raw.toNat ∧
        (Header.place (h := .common) CommonSlot.version).read buf = protocolVersion.toNat ∧
          (Header.place format.dataLengthSlot).read buf = count ∧
            format.header.size + count ≤ buf.length := by
  have hsubtype : UInt8.ofNat ((Header.place (h := .common) CommonSlot.subtype).read buf) =
      format.subtype.raw ↔
        (Header.place (h := .common) CommonSlot.subtype).read buf = format.subtype.raw.toNat := by
    rw [← UInt8.toNat_inj, BitField.toNat_ofNat_read (by decide)]
  simp only [dataLength?, ne_eq, hsubtype]
  constructor
  · intro h
    split_ifs at h
    obtain rfl := Except.ok.inj h
    refine ⟨by assumption, by assumption, rfl, by omega⟩
  · rintro ⟨htype, hversion, rfl, hlen⟩
    rw [if_neg (by omega), if_neg (not_not.mpr htype), if_neg (not_not.mpr hversion),
      if_neg (by omega)]

end StreamFormat

/-! ### Messages -/

namespace Acf.MessageExtent

theorem announcedLength_append {front : List UInt8} (rest : List UInt8)
    (hfront : Header.size .acf ≤ front.length) :
    announcedLength (front ++ rest) = announcedLength front := by
  rw [announcedLength, Header.read_append _ rest hfront, announcedLength]

theorem announcedType_append {front : List UInt8} (rest : List UInt8)
    (hfront : Header.size .acf ≤ front.length) :
    announcedType (front ++ rest) = announcedType front := by
  rw [announcedType, Header.read_append _ rest hfront, announcedType]

/-- **A message is accepted** if it covers what all messages start with and is there. -/
theorem ofOctets?_eq_ok_iff {buf : List UInt8} {extent : MessageExtent} :
    ofOctets? buf = .ok extent ↔
      4 ≤ announcedLength buf ∧ announcedLength buf ≤ buf.length ∧
        extent = ⟨announcedType buf, announcedLength buf, 4, 0⟩ := by
  have hsize : Header.size .acf = 4 := rfl
  rw [ofOctets?]
  constructor
  · intro h
    split_ifs at h
    obtain rfl := Except.ok.inj h
    exact ⟨by omega, by omega, rfl⟩
  · rintro ⟨hmin, hlen, rfl⟩
    rw [if_neg (by omega), if_neg (by omega), if_neg (by omega), hsize]

/-- An extent is narrowed if the type is right and header and padding have room in the message. -/
theorem narrow?_eq_ok_iff {extent narrowed : MessageExtent} {format : MessageFormat}
    {buf : List UInt8} :
    extent.narrow? format buf = .ok narrowed ↔
      extent.type = format.type ∧
        format.header.size + (Header.place format.padSlot).read buf ≤ extent.length ∧
          narrowed = ⟨extent.type, extent.length, format.header.size,
            (Header.place format.padSlot).read buf⟩ := by
  simp only [narrow?, ne_eq]
  constructor
  · intro h
    split_ifs at h with htype
    obtain rfl := Except.ok.inj h
    exact ⟨htype, by omega, rfl⟩
  · rintro ⟨htype, hlen, rfl⟩
    rw [if_neg (not_not.mpr htype), if_neg (by omega), if_neg (by omega)]

/-- **A message of a known format is accepted** if it is accepted as a message, is of that type, and
has room for the header and the padding it announces. -/
theorem ofFormat?_eq_ok_iff {format : MessageFormat} {buf : List UInt8} {extent : MessageExtent} :
    ofFormat? format buf = .ok extent ↔
      4 ≤ announcedLength buf ∧ announcedLength buf ≤ buf.length ∧
        announcedType buf = format.type ∧
          format.header.size + (Header.place format.padSlot).read buf ≤ announcedLength buf ∧
            extent = ⟨announcedType buf, announcedLength buf, format.header.size,
              (Header.place format.padSlot).read buf⟩ := by
  rcases h : ofOctets? buf with fault | found
  · have hnot : ¬ (4 ≤ announcedLength buf ∧ announcedLength buf ≤ buf.length) := by
      rintro ⟨hmin, hlen⟩
      rw [ofOctets?_eq_ok_iff.mpr ⟨hmin, hlen, rfl⟩] at h
      simp at h
    simp only [ofFormat?, h, reduceCtorEq, false_iff]
    exact fun hall ↦ hnot ⟨hall.1, hall.2.1⟩
  · obtain ⟨hmin, hlen, rfl⟩ := ofOctets?_eq_ok_iff.mp h
    simp only [ofFormat?, h, narrow?_eq_ok_iff, hmin, hlen, true_and]

end Acf.MessageExtent

/-! ### All headers -/

namespace Header

/-- **An accepted extent covers the fixed part of the header and lies in the buffer.** -/
theorem bounds_of_extent? {h : Header} {buf : List UInt8} {count : Nat}
    (hcount : h.extent? buf = .ok count) : h.size ≤ count ∧ count ≤ buf.length := by
  have hfixed {h : Header} (hcount : h.fixedExtent? buf = .ok count) :
      h.size ≤ count ∧ count ≤ buf.length := by
    unfold fixedExtent? at hcount
    split_ifs at hcount
    obtain rfl := Except.ok.inj hcount
    omega
  have hstream (format : StreamFormat)
      (hcount : (format.dataLength? buf).map (format.header.size + ·) = .ok count) :
      format.header.size ≤ count ∧ count ≤ buf.length := by
    obtain ⟨payload, hpayload, rfl⟩ := map_eq_ok_iff.mp hcount
    have hlen := (StreamFormat.dataLength?_eq_ok_iff.mp hpayload).2.2.2
    omega
  have hmessage (format : Acf.MessageFormat)
      (hcount : (Acf.MessageExtent.ofFormat? format buf).map (·.length) = .ok count) :
      format.header.size ≤ count ∧ count ≤ buf.length := by
    obtain ⟨extent, hextent, rfl⟩ := map_eq_ok_iff.mp hcount
    obtain ⟨-, hlen, -, hroom, rfl⟩ := Acf.MessageExtent.ofFormat?_eq_ok_iff.mp hextent
    exact ⟨Nat.le_trans (Nat.le_add_right _ _) hroom, hlen⟩
  cases h with
  | common | udp => exact hfixed hcount
  | ntscf => exact hstream .ntscf hcount
  | tscf => exact hstream .tscf hcount
  | acf =>
    obtain ⟨extent, hextent, rfl⟩ := map_eq_ok_iff.mp hcount
    exact Acf.MessageExtent.length_of_ofOctets? hextent
  | can => exact hmessage .can hcount
  | canBrief => exact hmessage .canBrief hcount
  | lin => exact hmessage .lin hcount

end Header

/-! ### Views -/

namespace View

variable {h : Header} {buf : List UInt8}

theorem size?_eq_ok_iff {count : Nat} : size? h buf = .ok count ↔ h.extent? buf = .ok count := by
  rw [size?]
  cases h.extent? buf <;> simp [Except.mapError]

/-- A view takes its extent off the buffer. -/
theorem split?_eq_ok_iff {view : View h} {rest : List UInt8} :
    split? h buf = .ok (view, rest) ↔
      ∃ count, h.extent? buf = .ok count ∧ view = ⟨buf.take count⟩ ∧ rest = buf.drop count := by
  simp only [← size?_eq_ok_iff, split?]
  cases size? h buf <;> simp [eq_comm]

/-- A view covers the fixed part of its header. -/
theorem size_le_of_split? {view : View h} {rest : List UInt8}
    (hsplit : split? h buf = .ok (view, rest)) : h.size ≤ view.octets.length := by
  obtain ⟨count, hcount, rfl, -⟩ := split?_eq_ok_iff.mp hsplit
  obtain ⟨hmin, hmax⟩ := Header.bounds_of_extent? hcount
  rw [List.length_take, Nat.min_eq_left hmax]
  exact hmin

/-- A header that claims its fixed part alone is all of its view. -/
theorem length_of_split? {view : View h} {rest : List UInt8}
    (hfixed : h.extent? = h.fixedExtent?) (hsplit : split? h buf = .ok (view, rest)) :
    view.octets.length = h.size := by
  obtain ⟨count, hcount, rfl, -⟩ := split?_eq_ok_iff.mp hsplit
  rw [hfixed, Header.fixedExtent?] at hcount
  split_ifs at hcount with hshort
  rw [List.length_take, ← Except.ok.inj hcount, Nat.min_eq_left (Nat.le_of_not_lt hshort)]

theorem append_of_split? {view : View h} {rest : List UInt8}
    (hsplit : split? h buf = .ok (view, rest)) : view.octets ++ rest = buf := by
  obtain ⟨count, -, rfl, rfl⟩ := split?_eq_ok_iff.mp hsplit
  exact List.take_append_drop count buf

/-- A header that claims its fixed part alone can be split off if that is there. -/
theorem isOk_split?_iff (hfixed : h.extent? = h.fixedExtent?) :
    (∃ view rest, split? h buf = .ok (view, rest)) ↔ h.size ≤ buf.length := by
  constructor
  · rintro ⟨view, rest, hsplit⟩
    rw [← append_of_split? hsplit, List.length_append, length_of_split? hfixed hsplit]
    exact Nat.le_add_right _ _
  · intro hsize
    have hextent : h.extent? buf = .ok h.size := by
      rw [hfixed]
      exact if_neg (Nat.not_lt.mpr hsize)
    exact ⟨_, _, split?_eq_ok_iff.mpr ⟨_, hextent, rfl, rfl⟩⟩

/-- A buffer is a view as a whole if the extent is its length. -/
theorem whole?_eq_ok_iff {view : View h} :
    whole? h buf = .ok view ↔ h.extent? buf = .ok buf.length ∧ view = ⟨buf⟩ := by
  simp only [← size?_eq_ok_iff, whole?]
  rcases size? h buf with - | count
  · simp
  · simp only [Except.ok.injEq]
    split_ifs with hlen
    · simp [hlen, eq_comm]
    · simp [Ne.symm hlen]

theorem over?_eq_ok_iff {window : Window h} :
    Window.over? h buf = .ok window ↔
      ∃ count, h.extent? buf = .ok count ∧ window = ⟨buf, count⟩ := by
  simp only [← size?_eq_ok_iff, Window.over?]
  cases size? h buf <;> simp [eq_comm]

end View

end Avtp
