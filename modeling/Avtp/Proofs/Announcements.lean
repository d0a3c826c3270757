import Avtp.Proofs.Extents

/-!
# What the front of a header announces

How many octets a header claims is told by its first few octets, its *front*: the fixed header of a
control stream, the shared header of a message. The length of the buffer only decides how far one
gets. It must hold the front, and then it must hold what the front announces. `Header.announcement`
is what the front says, and `Header.extent?_eq` splits every extent into these two questions.

**Why this split.** All checks of all headers are in one of three places: in front of the front, in
the front, or behind the announced end. Where a buffer that is too short got stuck is then read off
the answer (`Header.extent?_eq_bufferTooSmall_iff`), and everything else that is said about growing
and cutting buffers follows from one fact, that octets behind the front do not change the
announcement (`Header.announcement_append`).

**Partial input.** A reader that does not know how long a header is can read up to the number of
octets that were asked for and try again. `View.size?_append` says that this works: the same part is
not missed again, two rounds are enough, and any other answer is final.
-/

namespace Avtp

/-- Further octets do not mend the fault. -/
def LayoutError.Lasting : LayoutError → Prop
  | .bufferTooSmall .. => False
  | _ => True

/-! ### Announcements -/

/-- What the front of a header says about all of it. -/
inductive Announcement where
  /-- The verdict is known; what is behind the front does not matter. -/
  | settled (verdict : Except LayoutError Nat)
  /-- A part ends after `total` octets, front included. The verdict on it is known, but it is given
  only once all of them are there. -/
  | awaiting (part : Part) (total : Nat) (verdict : Except LayoutError Nat)

namespace Announcement

/-- The extent in a buffer of the given length that holds the front. -/
def resolve : Announcement → Nat → Except LayoutError Nat
  | settled verdict, _ => verdict
  | awaiting part total verdict, length =>
    if length < total then .error (.bufferTooSmall part total length) else verdict

/-- The verdict accepts so many octets or finds a fault that lasts. -/
def Verdict (total : Nat) : Except LayoutError Nat → Prop
  | .ok count => count = total
  | .error fault => fault.Lasting

/-- The verdict is on the octets that were announced, and what is awaited is not the front. -/
def Sound (opening : Header) : Announcement → Prop
  | settled verdict => Verdict opening.size verdict
  | awaiting part total verdict =>
    part ≠ .header opening ∧ opening.size ≤ total ∧ Verdict total verdict

end Announcement

/-- What the header of a control stream says. -/
def StreamFormat.announcement (format : StreamFormat) (buf : List UInt8) : Announcement :=
  let subtype := UInt8.ofNat ((Header.place (h := .common) CommonSlot.subtype).read buf)
  let version := (Header.place (h := .common) CommonSlot.version).read buf
  let total := format.header.size + (Header.place format.dataLengthSlot).read buf
  if subtype ≠ format.subtype.raw then
    .settled (.error (.unexpectedType (.header format.header) format.subtype.raw subtype))
  else if version ≠ protocolVersion.toNat then
    .settled (.error (.unsupportedVersion (.header format.header) version))
  else .awaiting (.payload format) total (.ok total)

namespace Acf

/-- What the shared header of a message says, if the extent is taken further in the given way. -/
def MessageExtent.announcement (further : MessageExtent → Except LayoutError MessageExtent)
    (buf : List UInt8) : Announcement :=
  if announcedLength buf < Header.size .acf then
    .settled (.error (.invalidLength (.header .acf) (announcedLength buf) (Header.size .acf)))
  else
    .awaiting .message (announcedLength buf)
      ((further ⟨announcedType buf, announcedLength buf, Header.size .acf, 0⟩).map (·.length))

/-- What the shared header of a message says that must have the given format. -/
def MessageFormat.announcement (format : MessageFormat) (buf : List UInt8) : Announcement :=
  MessageExtent.announcement (fun extent ↦ extent.narrow? format buf) buf

end Acf

namespace Header

/-- The header whose fixed part is the front: that of all messages for a message, otherwise the
header itself. -/
def opening : Header → Header
  | acf | can | canBrief | lin => acf
  | h => h

/-- What the front of a header says about all of it. -/
def announcement : Header → List UInt8 → Announcement
  | common, _ => .settled (.ok (size common))
  | udp, _ => .settled (.ok (size udp))
  | ntscf, buf => StreamFormat.ntscf.announcement buf
  | tscf, buf => StreamFormat.tscf.announcement buf
  | acf, buf => Acf.MessageExtent.announcement .ok buf
  | can, buf => Acf.MessageFormat.can.announcement buf
  | canBrief, buf => Acf.MessageFormat.canBrief.announcement buf
  | lin, buf => Acf.MessageFormat.lin.announcement buf

end Header

/-! ### The two questions -/

theorem StreamFormat.map_dataLength?_eq (format : StreamFormat) (buf : List UInt8) :
    (format.dataLength? buf).map (format.header.size + ·) =
      if buf.length < format.header.size then
        .error (.bufferTooSmall (.header format.header) format.header.size buf.length)
      else (format.announcement buf).resolve buf.length := by
  simp only [dataLength?, announcement]
  split_ifs with hfront hsubtype hversion hshort
  · rfl
  · rfl
  · rfl
  · exact (if_pos hshort).symm
  · exact (if_neg hshort).symm

/-- What is asked of the octets of a message, whatever is asked of its extent then. -/
theorem Acf.MessageExtent.map_bind_ofOctets?_eq
    (further : MessageExtent → Except LayoutError MessageExtent) (buf : List UInt8) :
    ((ofOctets? buf).bind further).map (·.length) =
      if buf.length < Header.size .acf then
        .error (.bufferTooSmall (.header .acf) (Header.size .acf) buf.length)
      else (announcement further buf).resolve buf.length := by
  simp only [ofOctets?, announcement]
  split_ifs with hfront hlength hshort
  · rfl
  · rfl
  · exact (if_pos hshort).symm
  · exact (if_neg hshort).symm

theorem Acf.MessageExtent.ofFormat?_eq_bind (format : MessageFormat) (buf : List UInt8) :
    ofFormat? format buf = (ofOctets? buf).bind fun extent ↦ extent.narrow? format buf := by
  rw [ofFormat?]
  cases ofOctets? buf <;> rfl

namespace Header

/-- **An extent asks for the front, and then for what the front announces.** -/
theorem extent?_eq (h : Header) (buf : List UInt8) :
    h.extent? buf =
      if buf.length < h.opening.size then
        .error (.bufferTooSmall (.header h.opening) h.opening.size buf.length)
      else (h.announcement buf).resolve buf.length := by
  have hmessage (format : Acf.MessageFormat) :
      (Acf.MessageExtent.ofFormat? format buf).map (·.length) =
        if buf.length < size .acf then
          .error (.bufferTooSmall (.header .acf) (size .acf) buf.length)
        else (format.announcement buf).resolve buf.length := by
    rw [Acf.MessageExtent.ofFormat?_eq_bind]
    exact Acf.MessageExtent.map_bind_ofOctets?_eq _ buf
  cases h with
  | common | udp => rfl
  | ntscf => exact StreamFormat.ntscf.map_dataLength?_eq buf
  | tscf => exact StreamFormat.tscf.map_dataLength?_eq buf
  | acf =>
    refine Eq.trans ?_ (Acf.MessageExtent.map_bind_ofOctets?_eq .ok buf)
    rw [extent?]
    cases Acf.MessageExtent.ofOctets? buf <;> rfl
  | can => exact hmessage .can
  | canBrief => exact hmessage .canBrief
  | lin => exact hmessage .lin

end Header

/-! ### What announcements are like -/

theorem StreamFormat.sound_announcement (format : StreamFormat) (buf : List UInt8) :
    (format.announcement buf).Sound format.header := by
  simp only [announcement]
  split_ifs with hsubtype hversion
  · exact trivial
  · exact trivial
  · exact ⟨Part.noConfusion, Nat.le_add_right _ _, rfl⟩

theorem Acf.MessageExtent.sound_announcement
    {further : MessageExtent → Except LayoutError MessageExtent} (buf : List UInt8)
    (hfurther : ∀ extent,
      Announcement.Verdict extent.length ((further extent).map (·.length))) :
    (announcement further buf).Sound .acf := by
  rw [announcement]
  split_ifs with hlength
  · exact trivial
  · exact ⟨Part.noConfusion, Nat.le_of_not_lt hlength, hfurther _⟩

/-- Narrowing keeps the length, and it never asks for more octets. -/
theorem Acf.MessageExtent.verdict_narrow? (extent : MessageExtent) (format : MessageFormat)
    (buf : List UInt8) :
    Announcement.Verdict extent.length ((extent.narrow? format buf).map (·.length)) := by
  simp only [narrow?]
  split_ifs with htype hheader hpadding
  · exact trivial
  · exact trivial
  · exact trivial
  · rfl

theorem StreamFormat.announcement_append (format : StreamFormat) {front : List UInt8}
    (rest : List UInt8) (hfront : format.header.size ≤ front.length) :
    format.announcement (front ++ rest) = format.announcement front := by
  have hcommon : Header.size .common ≤ format.header.size := by cases format <;> decide
  have hread (slot : CommonSlot) : (Header.place (h := .common) slot).read (front ++ rest) =
      (Header.place (h := .common) slot).read front :=
    Header.read_append (h := .common) slot rest (Nat.le_trans hcommon hfront)
  simp only [announcement, hread, Header.read_append format.dataLengthSlot rest hfront]

theorem Acf.MessageExtent.announcement_append
    (further : MessageExtent → Except LayoutError MessageExtent) {front : List UInt8}
    (rest : List UInt8) (hfront : Header.size .acf ≤ front.length) :
    announcement further (front ++ rest) = announcement further front := by
  rw [announcement, announcement, announcedType_append rest hfront,
    announcedLength_append rest hfront]

/-- The pad count is in the front, too. -/
theorem Acf.MessageFormat.announcement_append (format : MessageFormat) {front : List UInt8}
    (rest : List UInt8) (hfront : Header.size .acf ≤ front.length) :
    format.announcement (front ++ rest) = format.announcement front := by
  have hpad : (Header.place format.padSlot).requiredOctets ≤ front.length := by
    rw [format.place_padSlot]
    exact hfront
  simp only [announcement, MessageExtent.announcement_append _ rest hfront, MessageExtent.narrow?,
    BitField.read_append rest hpad]

namespace Header

theorem sound_announcement (h : Header) (buf : List UInt8) :
    (h.announcement buf).Sound h.opening := by
  have hmessage (format : Acf.MessageFormat) : (format.announcement buf).Sound .acf :=
    Acf.MessageExtent.sound_announcement buf fun extent ↦ extent.verdict_narrow? format buf
  cases h with
  | common | udp => rfl
  | ntscf => exact StreamFormat.ntscf.sound_announcement buf
  | tscf => exact StreamFormat.tscf.sound_announcement buf
  | acf => exact Acf.MessageExtent.sound_announcement buf fun _ ↦ rfl
  | can => exact hmessage .can
  | canBrief => exact hmessage .canBrief
  | lin => exact hmessage .lin

/-- **Octets behind the front do not change what it announces.** -/
theorem announcement_append (h : Header) {front : List UInt8} (rest : List UInt8)
    (hfront : h.opening.size ≤ front.length) :
    h.announcement (front ++ rest) = h.announcement front := by
  cases h with
  | common | udp => rfl
  | ntscf => exact StreamFormat.ntscf.announcement_append rest hfront
  | tscf => exact StreamFormat.tscf.announcement_append rest hfront
  | acf => exact Acf.MessageExtent.announcement_append .ok rest hfront
  | can => exact Acf.MessageFormat.can.announcement_append rest hfront
  | canBrief => exact Acf.MessageFormat.canBrief.announcement_append rest hfront
  | lin => exact Acf.MessageFormat.lin.announcement_append rest hfront

end Header

/-! ### Growing buffers -/

namespace Announcement

variable {announcement : Announcement} {length : Nat}

theorem resolve_eq_bufferTooSmall_iff {opening : Header} {part : Part} {required actual : Nat}
    (hsound : announcement.Sound opening) :
    announcement.resolve length = .error (.bufferTooSmall part required actual) ↔
      actual = length ∧ length < required ∧
        ∃ verdict, announcement = .awaiting part required verdict := by
  cases announcement with
  | settled verdict =>
    refine iff_of_false (fun heq ↦ ?_) (fun ⟨_, _, _, heq⟩ ↦ Announcement.noConfusion heq)
    obtain rfl : verdict = _ := heq
    exact hsound
  | awaiting part' total verdict =>
    obtain ⟨-, -, hverdict⟩ := hsound
    rw [resolve]
    split_ifs with hshort
    · constructor
      · rintro ⟨⟩
        exact ⟨rfl, hshort, verdict, rfl⟩
      · rintro ⟨rfl, -, -, ⟨⟩⟩
        rfl
    · constructor
      · rintro rfl
        exact absurd hverdict id
      · rintro ⟨-, hlt, -, ⟨⟩⟩
        exact absurd hlt hshort

/-- What is accepted is what was announced, so a buffer that reaches its end is long enough. -/
theorem resolve_eq_ok_of_le {opening : Header} {count other : Nat}
    (hsound : announcement.Sound opening) (hcount : announcement.resolve length = .ok count)
    (hreach : count ≤ other) : announcement.resolve other = .ok count := by
  cases announcement with
  | settled verdict => exact hcount
  | awaiting part total verdict =>
    obtain ⟨-, -, hverdict⟩ := hsound
    rw [resolve] at hcount
    split_ifs at hcount
    obtain rfl : verdict = .ok count := hcount
    obtain rfl : count = total := hverdict
    exact if_neg (Nat.not_lt.mpr hreach)

/-- An answer that is not about the length stays when the buffer grows. -/
theorem resolve_of_le {longer : Nat} (hle : length ≤ longer)
    (hlasting : ∀ fault, announcement.resolve length = .error fault → fault.Lasting) :
    announcement.resolve longer = announcement.resolve length := by
  cases announcement with
  | settled verdict => rfl
  | awaiting part total verdict =>
    by_cases hshort : length < total
    · exact absurd (hlasting _ (if_pos hshort)) id
    · rw [resolve, resolve, if_neg hshort, if_neg (by omega)]

end Announcement

namespace Header

variable {h : Header} {buf : List UInt8}

/-- **Two things can be missing**: the front, or an end that the front announces. -/
theorem extent?_eq_bufferTooSmall_iff {part : Part} {required actual : Nat} :
    h.extent? buf = .error (.bufferTooSmall part required actual) ↔
      actual = buf.length ∧ buf.length < required ∧
        (part = .header h.opening ∧ required = h.opening.size ∨
          h.opening.size ≤ buf.length ∧
            ∃ verdict, h.announcement buf = .awaiting part required verdict) := by
  rw [extent?_eq]
  split_ifs with hfront
  · constructor
    · rintro ⟨⟩
      exact ⟨rfl, hfront, .inl ⟨rfl, rfl⟩⟩
    · rintro ⟨rfl, -, ⟨rfl, rfl⟩ | ⟨hle, -⟩⟩
      · rfl
      · omega
  · rw [Announcement.resolve_eq_bufferTooSmall_iff (sound_announcement h buf)]
    constructor
    · rintro ⟨rfl, hlt, hann⟩
      exact ⟨rfl, hlt, .inr ⟨Nat.le_of_not_lt hfront, hann⟩⟩
    · rintro ⟨rfl, hlt, ⟨-, rfl⟩ | ⟨-, hann⟩⟩
      · exact absurd hlt hfront
      · exact ⟨rfl, hlt, hann⟩

/-- **An answer that is not about the length of the buffer is final.** -/
theorem extent?_append_of_lasting
    (hlasting : ∀ fault, h.extent? buf = .error fault → fault.Lasting) (more : List UInt8) :
    h.extent? (buf ++ more) = h.extent? buf := by
  rw [extent?_eq h buf] at hlasting ⊢
  split_ifs at hlasting ⊢ with hfront
  · exact absurd (hlasting _ rfl) id
  · have hle : h.opening.size ≤ buf.length := Nat.le_of_not_lt hfront
    have hlen : buf.length ≤ (buf ++ more).length := List.length_append ▸ Nat.le_add_right _ _
    rw [extent?_eq, if_neg (Nat.not_lt.mpr (Nat.le_trans hle hlen)), announcement_append h more hle,
      Announcement.resolve_of_le hlen hlasting]

/-- Once the announced end is there, the answer is not about the length any more. -/
theorem lasting_of_announced {part : Part} {total : Nat} {verdict : Except LayoutError Nat}
    (hfront : h.opening.size ≤ buf.length)
    (hann : h.announcement buf = .awaiting part total verdict) {more : List UInt8}
    (htotal : total ≤ (buf ++ more).length) {fault : LayoutError}
    (hfault : h.extent? (buf ++ more) = .error fault) : fault.Lasting := by
  cases fault with
  | bufferTooSmall part' required actual =>
    have hlen : buf.length ≤ (buf ++ more).length := List.length_append ▸ Nat.le_add_right _ _
    obtain ⟨-, hlt, ⟨-, rfl⟩ | ⟨-, verdict', hann'⟩⟩ := extent?_eq_bufferTooSmall_iff.mp hfault
    · omega
    · rw [announcement_append h more hfront, hann] at hann'
      obtain ⟨⟩ := hann'
      omega
  | _ => exact trivial

/-- If something is missing again, it was the front that was missing first. -/
theorem announced_of_missing_again {part part' : Part} {required required' actual actual' : Nat}
    {more : List UInt8} (hfirst : h.extent? buf = .error (.bufferTooSmall part required actual))
    (hmore : required ≤ (buf ++ more).length)
    (hagain : h.extent? (buf ++ more) = .error (.bufferTooSmall part' required' actual')) :
    part = .header h.opening ∧ h.opening.size ≤ (buf ++ more).length ∧
      ∃ verdict, h.announcement (buf ++ more) = .awaiting part' required' verdict := by
  obtain ⟨-, -, ⟨rfl, rfl⟩ | ⟨hfront, verdict, hann⟩⟩ := extent?_eq_bufferTooSmall_iff.mp hfirst
  · obtain ⟨-, hlt, ⟨-, rfl⟩ | hann⟩ := extent?_eq_bufferTooSmall_iff.mp hagain
    · omega
    · exact ⟨rfl, hann⟩
  · exact absurd (lasting_of_announced hfront hann hmore hagain) id

end Header

/-! ### Views of partial input -/

/-- No two parts have the same name. -/
theorem Part.name_injective : Function.Injective Part.name := by
  rintro (⟨⟨⟩⟩ | ⟨⟨⟩⟩ | -) (⟨⟨⟩⟩ | ⟨⟨⟩⟩ | -) hname <;>
    first | rfl | exact absurd hname (by decide)

/-- Further octets do not mend the fault. -/
def ViewError.Lasting : ViewError → Prop
  | .bufferTooSmall .. => False
  | _ => True

theorem ViewError.lasting_ofLayout_iff {fault : LayoutError} :
    (ofLayout fault).Lasting ↔ fault.Lasting := by
  cases fault <;> rfl

namespace View

variable {h : Header} {buf : List UInt8}

theorem size?_eq_error_iff {reason : ViewError} :
    size? h buf = .error reason ↔
      ∃ fault, h.extent? buf = .error fault ∧ ViewError.ofLayout fault = reason := by
  rw [size?]
  cases h.extent? buf <;> simp [Except.mapError]

theorem size?_eq_bufferTooSmall_iff {part : Part} {required actual : Nat} :
    size? h buf = .error (.bufferTooSmall part required actual) ↔
      h.extent? buf = .error (.bufferTooSmall part required actual) := by
  rw [size?_eq_error_iff]
  constructor
  · rintro ⟨fault, hfault, heq⟩
    cases fault with
    | bufferTooSmall part' required' actual' =>
      obtain ⟨⟩ := heq
      exact hfault
    | _ => exact ViewError.noConfusion heq
  · exact fun hfault ↦ ⟨_, hfault, rfl⟩

/-- What follows if the octets up to the end of a part are missing. -/
structure Missing (h : Header) (buf : List UInt8) (part : Part) (required : Nat) : Prop where
  /-- There are fewer octets than required. -/
  length_lt : buf.length < required
  /-- With further octets, but too few of them, the answer is the same. -/
  again : ∀ more, (buf ++ more).length < required →
    size? h (buf ++ more) = .error (.bufferTooSmall part required (buf ++ more).length)
  /-- With all of them this part is not missed again. -/
  found : ∀ more, required ≤ (buf ++ more).length → ∀ part' required' actual,
    size? h (buf ++ more) = .error (.bufferTooSmall part' required' actual) →
      part'.name ≠ part.name
  /-- If another part is missed then, the octets that this one requires are all that is needed. -/
  twice : ∀ more, required ≤ (buf ++ more).length → ∀ part' required' actual,
    size? h (buf ++ more) = .error (.bufferTooSmall part' required' actual) →
      ∀ rest, required' ≤ (buf ++ more ++ rest).length → ∀ reason,
        size? h (buf ++ more ++ rest) = .error reason → reason.Lasting

/-- **A part that is missing is asked for once.** -/
theorem missing_of_size? {part : Part} {required actual : Nat}
    (hshort : size? h buf = .error (.bufferTooSmall part required actual)) :
    actual = buf.length ∧ Missing h buf part required := by
  have hfirst := size?_eq_bufferTooSmall_iff.mp hshort
  obtain ⟨hactual, hlt, hpart⟩ := Header.extent?_eq_bufferTooSmall_iff.mp hfirst
  refine ⟨hactual, hlt, ?_, ?_, ?_⟩
  · intro more hmore
    rw [size?_eq_bufferTooSmall_iff, Header.extent?_eq_bufferTooSmall_iff]
    refine ⟨rfl, hmore, hpart.imp_right fun ⟨hfront, verdict, hann⟩ ↦ ⟨?_, verdict, ?_⟩⟩
    · rw [List.length_append]
      exact Nat.le_add_right_of_le hfront
    · rw [Header.announcement_append h more hfront, hann]
  · intro more hmore part' required' actual' hagain hname
    obtain ⟨rfl, -, verdict, hann⟩ :=
      Header.announced_of_missing_again hfirst hmore (size?_eq_bufferTooSmall_iff.mp hagain)
    have hsound := Header.sound_announcement h (buf ++ more)
    rw [hann] at hsound
    exact hsound.1 (Part.name_injective hname)
  · intro more hmore part' required' actual' hagain rest hrest reason hreason
    obtain ⟨rfl, hfront, verdict, hann⟩ :=
      Header.announced_of_missing_again hfirst hmore (size?_eq_bufferTooSmall_iff.mp hagain)
    obtain ⟨fault, hfault, rfl⟩ := size?_eq_error_iff.mp hreason
    exact ViewError.lasting_ofLayout_iff.mpr (Header.lasting_of_announced hfront hann hrest hfault)

/-- **An answer that is not about the length of the buffer is final.** -/
theorem size?_append_of_lasting (hlasting : ∀ reason, size? h buf = .error reason → reason.Lasting)
    (more : List UInt8) : size? h (buf ++ more) = size? h buf := by
  have hextent : ∀ fault, h.extent? buf = .error fault → fault.Lasting := fun fault hfault ↦
    ViewError.lasting_ofLayout_iff.mp (hlasting _ (size?_eq_error_iff.mpr ⟨fault, hfault, rfl⟩))
  rw [size?, Header.extent?_append_of_lasting hextent more, size?]

/-- **Partial input is reported consistently.** A buffer that is too short is told its own length
and which part is missing up to where, and reading on to there is the way to go on. Every other
answer stays what it is, whatever is read behind it. -/
theorem size?_append (h : Header) (buf : List UInt8) :
    (∀ part required actual, size? h buf = .error (.bufferTooSmall part required actual) →
        actual = buf.length ∧ Missing h buf part required) ∧
      (∀ reason, size? h buf = .error reason → reason.Lasting →
        ∀ more, size? h (buf ++ more) = .error reason) ∧
        ∀ count, size? h buf = .ok count → ∀ more, size? h (buf ++ more) = .ok count := by
  refine ⟨fun part required actual hshort ↦ missing_of_size? hshort,
    fun reason hreason hlasting more ↦ ?_, fun count hcount more ↦ ?_⟩
  · rw [size?_append_of_lasting _ more, hreason]
    intro other hother
    rw [hreason] at hother
    obtain ⟨⟩ := hother
    exact hlasting
  · rw [size?_append_of_lasting _ more, hcount]
    intro reason hreason
    rw [hcount] at hreason
    obtain ⟨⟩ := hreason

/-- A message arrives in pieces: first its shared header is missing, then all of it up to its end.
A message of another type is refused for good. -/
theorem size?_append_lin :
    Missing .lin [6, 4] (.header .acf) 4 ∧ Missing .lin [6, 4, 0, 0, 0] .message 16 ∧
      (∀ more, size? .lin ([6, 4] ++ List.replicate 14 0 ++ more) = .ok 16) ∧
        ∀ more, size? .lin ([2, 2, 0, 0, 0, 0, 0, 0] ++ more) =
          .error (.invalidLayout (.unexpectedType (.header .lin) 3 1)) :=
  ⟨((size?_append .lin [6, 4]).1 _ _ 2 rfl).2, ((size?_append .lin [6, 4, 0, 0, 0]).1 _ _ 5 rfl).2,
    (size?_append .lin ([6, 4] ++ List.replicate 14 0)).2.2 16 rfl,
    (size?_append .lin [2, 2, 0, 0, 0, 0, 0, 0]).2.1 _ rfl trivial⟩

end View

end Avtp
