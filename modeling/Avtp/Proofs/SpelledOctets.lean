import Mathlib.Data.List.Chain
import Mathlib.Data.List.Forall2
import Avtp.Text.OctetSpelling
import Avtp.Proofs.Extents

/-!
# Spellings of octets

A buffer can be entered in many ways. Its digits are of either case, they may be cut into pieces
anywhere, each piece may have a marker of its own, and pieces are kept apart by any separators.
`Spelling` is such a text taken apart, and `Spells` says that the digits of its pieces are those of
the octets. Reading accepts exactly these texts (`spelledOctets?_eq_ok_iff`).

**Where the cuts are does not matter.** Reading never looks at a piece again once its marker is
gone: the digits of all pieces are run together first (`Spelling.spelledDigits_text`), and only then
decoded. So the two digits of an octet may be in two pieces, and a piece may have a marker and
nothing else. Nothing is asked of the decoder but that it accepts the digits of octets and nothing
else (`IsDecoder`, `spelledBy?_eq_ok_iff`).

**Nothing else is accepted.** Every text is cut into pieces in some way
(`Spelling.exists_text_eq`). The way is the one that reading takes, so if the digits that are read
are those of the octets, the text is one of their spellings.
-/

namespace Avtp.Text

/-! ### Digits -/

/-- The character is the given lower case digit in one of its two cases. -/
def IsDigit (c digit : Char) : Prop := c = digit ∨ c = digit.toUpper

instance (c digit : Char) : Decidable (IsDigit c digit) := inferInstanceAs (Decidable (_ ∨ _))

/-- The characters are the digits of the octets, two for each of them, and each in either case. -/
def AreDigitsOf (chars : List Char) (octets : List UInt8) : Prop :=
  List.Forall₂ IsDigit chars (octets.flatMap hexOctet)

/-- The two halves of an octet, the more significant one first. -/
def halves (octet : UInt8) : List UInt8 := [octet / 16, octet % 16]

theorem lt_of_mem_halves {octet half : UInt8} (h : half ∈ halves octet) : half.toNat < 16 := by
  have hlt := octet.toNat_lt
  rcases List.mem_cons.mp h with rfl | h
  · rw [UInt8.toNat_div]
    exact Nat.div_lt_of_lt_mul hlt
  · rw [List.mem_singleton.mp h, UInt8.toNat_mod]
    exact Nat.mod_lt _ (by decide)

theorem hexOctet_eq (octet : UInt8) :
    hexOctet octet = (halves octet).map fun half ↦ hexDigit half.toNat := by
  simp [hexOctet, halves, UInt8.toNat_div, UInt8.toNat_mod]

/-- An octet is put together from its halves. -/
theorem halves_eq_iff {octet high low : UInt8} (hhigh : high.toNat < 16) (hlow : low.toNat < 16) :
    16 * high + low = octet ↔ high = octet / 16 ∧ low = octet % 16 := by
  have hlt := octet.toNat_lt
  have hsixteen : (16 : UInt8).toNat = 16 := rfl
  simp only [← UInt8.toNat_inj, UInt8.toNat_add, UInt8.toNat_mul, UInt8.toNat_div,
    UInt8.toNat_mod, hsixteen]
  omega

theorem digitValue?_lt {octet value : UInt8} (h : digitValue? octet = some value) :
    value.toNat < 16 := by
  have hall : ∀ octet, (digitValue? octet).all (·.toNat < 16) = true :=
    Octets.forall_octet (by decide +kernel)
  have hvalue := hall octet
  rw [h] at hvalue
  exact of_decide_eq_true hvalue

/-- The octets of a buffer are digits with the given halves as their values. -/
def HaveValues (digits values : List UInt8) : Prop :=
  List.Forall₂ (fun digit value ↦ digitValue? digit = some value) digits values

theorem haveValues_cons_cons_iff {hi lo : UInt8} {rest octets : List UInt8} :
    HaveValues (hi :: lo :: rest) (octets.flatMap halves) ↔
      ∃ octet others, octets = octet :: others ∧ digitValue? hi = some (octet / 16) ∧
        digitValue? lo = some (octet % 16) ∧ HaveValues rest (others.flatMap halves) := by
  cases octets with
  | nil => simp [HaveValues]
  | cons octet others => simp [HaveValues, halves]

/-- **The octets that are read are those with the values of the digits as their halves.** -/
theorem pairUp?_eq_ok_iff {position : Nat} {digits octets : List UInt8} :
    pairUp? position digits = .ok octets ↔ HaveValues digits (octets.flatMap halves) := by
  induction position, digits using pairUp?.induct generalizing octets with
  | case1 position hi lo rest hhi =>
    rw [pairUp?, haveValues_cons_cons_iff]
    simp [hhi]
  | case2 position hi lo rest high hlo hhi =>
    rw [pairUp?, haveValues_cons_cons_iff]
    simp [hhi, hlo]
  | case3 position hi lo rest high low hlo hhi ih =>
    rw [pairUp?, haveValues_cons_cons_iff]
    simp only [hhi, hlo, map_eq_ok_iff, ih, Option.some.injEq]
    constructor
    · rintro ⟨others, hothers, rfl⟩
      obtain ⟨hhigh, hlow⟩ := (halves_eq_iff (digitValue?_lt hhi) (digitValue?_lt hlo)).mp rfl
      exact ⟨_, others, rfl, hhigh, hlow, hothers⟩
    · rintro ⟨octet, others, rfl, hhigh, hlow, hothers⟩
      obtain rfl := (halves_eq_iff (digitValue?_lt hhi) (digitValue?_lt hlo)).mpr ⟨hhigh, hlow⟩
      exact ⟨others, hothers, rfl⟩
  | case4 position digit =>
    refine iff_of_false nofun fun h ↦ ?_
    have hlength := h.length_eq
    cases octets <;> simp [halves] at hlength
  | case5 position =>
    rw [pairUp?, Except.ok.injEq]
    cases octets <;> simp [HaveValues, halves]

/-- What is read as a digit is a digit in one of its two cases. -/
theorem digitValue?_eq_some_iff {c : Char} (hc : c.toNat < 128) {value : UInt8}
    (hvalue : value.toNat < 16) :
    digitValue? (.ofNat c.toNat) = some value ↔ IsDigit c (hexDigit value.toNat) := by
  have hall : ∀ number < 128, ∀ value < 16,
      digitValue? (.ofNat number) = some (.ofNat value) ↔
        IsDigit (Char.ofNat number) (hexDigit value) := by
    decide +kernel
  have h := hall c.toNat hc value.toNat hvalue
  rwa [Char.ofNat_toNat, UInt8.ofNat_toNat] at h

/-- A digit is no separator, and it is not the second character of a marker. -/
theorem IsDigit.apart {c : Char} {value : Nat} (h : IsDigit c (hexDigit value))
    (hvalue : value < 16) : c.toNat < 128 ∧ isSeparator c = false ∧ c ≠ 'x' := by
  have hlower : ∀ value < 16, (hexDigit value).toNat < 128 ∧
      isSeparator (hexDigit value) = false ∧ hexDigit value ≠ 'x' := by
    decide +kernel
  have hupper : ∀ value < 16, (hexDigit value).toUpper.toNat < 128 ∧
      isSeparator (hexDigit value).toUpper = false ∧ (hexDigit value).toUpper ≠ 'x' := by
    decide +kernel
  rcases h with rfl | rfl
  · exact hlower value hvalue
  · exact hupper value hvalue

/-- A character outside ASCII begins with an octet that is no digit. -/
theorem utf8EncodeChar_of_le {c : Char} (hc : 128 ≤ c.toNat) :
    ∃ first rest, String.utf8EncodeChar c = first :: rest ∧ digitValue? first = none := by
  have hhigh : ∀ number < 256, 192 ≤ number → digitValue? (.ofNat number) = none := by
    decide +kernel
  have hmore : ¬ c.val.toNat ≤ 127 := Nat.not_le.mpr hc
  unfold String.utf8EncodeChar
  simp only [hmore, if_false]
  split_ifs
  · exact ⟨_, _, rfl, hhigh _ (by omega) (by omega)⟩
  · exact ⟨_, _, rfl, hhigh _ (by omega) (by omega)⟩
  · exact ⟨_, _, rfl, hhigh _ (by omega) (by omega)⟩

/-- **Only digits are read as digits**, although a character may be encoded in several octets. -/
theorem haveValues_utf8_iff {chars : List Char} {values : List UInt8}
    (hvalues : ∀ value ∈ values, value.toNat < 16) :
    HaveValues (chars.flatMap String.utf8EncodeChar) values ↔
      List.Forall₂ (fun c value ↦ IsDigit c (hexDigit value.toNat)) chars values := by
  induction chars generalizing values with
  | nil => simp [HaveValues]
  | cons c chars ih =>
    rw [List.flatMap_cons]
    by_cases hascii : c.toNat < 128
    · have hone : String.utf8EncodeChar c = [.ofNat c.toNat] := by
        rw [String.utf8EncodeChar]
        exact if_pos (Nat.le_of_lt_succ hascii)
      cases values with
      | nil => simp [hone, HaveValues]
      | cons value values =>
        obtain ⟨hvalue, hrest⟩ := List.forall_mem_cons.mp hvalues
        rw [hone, List.forall₂_cons, ← ih hrest, ← digitValue?_eq_some_iff hascii hvalue]
        exact List.forall₂_cons
    · obtain ⟨first, rest, hencoded, hnone⟩ := utf8EncodeChar_of_le (Nat.le_of_not_lt hascii)
      cases values with
      | nil => simp [hencoded, HaveValues]
      | cons value values =>
        have hvalue := hvalues value List.mem_cons_self
        rw [hencoded, List.cons_append, HaveValues, List.forall₂_cons, List.forall₂_cons, hnone]
        exact iff_of_false (fun h ↦ nomatch h.1) fun h ↦ hascii (h.1.apart hvalue).1

/-- The decoder accepts the digits of octets, two for each of them and each in either case, and
nothing else. -/
def IsDecoder (decode? : List UInt8 → Except SpellingError (List UInt8)) : Prop :=
  ∀ (chars : List Char) (octets : List UInt8),
    decode? (chars.flatMap String.utf8EncodeChar) = .ok octets ↔ AreDigitsOf chars octets

/-- **Digits that are run together are decoded.** -/
theorem isDecoder_decodeDigits? : IsDecoder decodeDigits? := by
  intro chars octets
  have hvalues : ∀ value ∈ octets.flatMap halves, value.toNat < 16 := by
    intro value hvalue
    obtain ⟨octet, -, hhalf⟩ := List.mem_flatMap.mp hvalue
    exact lt_of_mem_halves hhalf
  have hdigits : octets.flatMap hexOctet =
      (octets.flatMap halves).map fun half ↦ hexDigit half.toNat := by
    rw [List.map_flatMap, funext hexOctet_eq]
  rw [AreDigitsOf, hdigits, List.forall₂_map_right_iff, ← haveValues_utf8_iff hvalues,
    decodeDigits?]
  split_ifs with hodd
  · -- Octets have an even number of digits.
    refine iff_of_false nofun fun h ↦ hodd ?_
    have hlength := h.length_eq
    have heven : (octets.flatMap halves).length = octets.length * 2 := by
      simp [List.length_flatMap, halves]
    omega
  · exact pairUp?_eq_ok_iff

/-! ### Texts in pieces -/

/-- A piece of a text: digits with or without a marker, and the separators behind them. -/
structure Piece where
  marked : Bool
  digits : List Char
  gap : List Char
  /-- A piece is more than its gap. -/
  isPiece : marked = true ∨ digits ≠ []
  isGap : ∀ c ∈ gap, isSeparator c = true

/-- A text taken apart: pieces with separators between them, and possibly in front and behind. -/
structure Spelling where
  lead : List Char
  pieces : List Piece
  isLead : ∀ c ∈ lead, isSeparator c = true
  /-- Behind every piece but the last one there is a separator. -/
  apart : pieces.IsChain fun piece _ ↦ piece.gap ≠ []

/-- The piece without its gap. -/
def Piece.word (piece : Piece) : List Char :=
  (if piece.marked then ['0', 'x'] else []) ++ piece.digits

namespace Spelling

/-- The text as a whole. -/
def text (spelling : Spelling) : List Char :=
  spelling.lead ++ spelling.pieces.flatMap fun piece ↦ piece.word ++ piece.gap

/-- The digits of the pieces, run together. -/
def digits (spelling : Spelling) : List Char := spelling.pieces.flatMap Piece.digits

/-- The text spells the octets: wherever it is cut, its digits are those of the octets. -/
def Spells (spelling : Spelling) (octets : List UInt8) : Prop :=
  AreDigitsOf spelling.digits octets

end Spelling

/-! ### Reading pieces -/

theorem spelledDigits_cons {c : Char} (hc : isSeparator c = true) (text : List Char) :
    spelledDigits (c :: text) = spelledDigits text := by
  have hsplit := List.splitOnP_append_cons [] text hc
  rw [List.nil_append, List.splitOnP_nil] at hsplit
  rw [spelledDigits, hsplit]
  rfl

/-- Separators spell nothing. -/
theorem spelledDigits_append {gap : List Char} (hgap : ∀ c ∈ gap, isSeparator c = true)
    (text : List Char) : spelledDigits (gap ++ text) = spelledDigits text := by
  induction gap with
  | nil => rfl
  | cons c gap ih =>
    obtain ⟨hc, hgap⟩ := List.forall_mem_cons.mp hgap
    rw [List.cons_append, spelledDigits_cons hc, ih hgap]

/-- Without the second character of a marker there is no marker. -/
theorem withoutMarker_eq_self {word : List Char} (h : ∀ c ∈ word, c ≠ 'x') :
    withoutMarker word = word := by
  unfold withoutMarker
  split
  · exact absurd rfl (h 'x' (by simp))
  · rfl

/-- Reading takes a piece for what it is: it ends where its gap begins, and its digits are what is
left without the marker. -/
structure Piece.Legible (piece : Piece) : Prop where
  word_apart : ∀ c ∈ piece.word, isSeparator c = false
  withoutMarker_word : withoutMarker piece.word = piece.digits

theorem Piece.Legible.spelledDigits_word {piece : Piece} (h : piece.Legible) :
    spelledDigits piece.word = piece.digits := by
  rw [spelledDigits, List.splitOnP_eq_singleton h.word_apart, List.flatMap_singleton,
    h.withoutMarker_word]

/-- Up to a separator, a piece is read on its own. -/
theorem Piece.Legible.spelledDigits_word_append {piece : Piece} (h : piece.Legible) {c : Char}
    (hc : isSeparator c = true) (text : List Char) :
    spelledDigits (piece.word ++ c :: text) = piece.digits ++ spelledDigits text := by
  rw [spelledDigits, List.splitOnP_append_cons _ _ hc, List.flatMap_append]
  exact congrArg (· ++ _) h.spelledDigits_word

/-- **The pieces are read one by one.** -/
theorem spelledDigits_pieces {pieces : List Piece}
    (hlegible : ∀ piece ∈ pieces, piece.Legible)
    (hapart : pieces.IsChain fun piece _ ↦ piece.gap ≠ []) :
    spelledDigits (pieces.flatMap fun piece ↦ piece.word ++ piece.gap) =
      pieces.flatMap Piece.digits := by
  induction pieces with
  | nil => rfl
  | cons piece pieces ih =>
    obtain ⟨hpiece, hpieces⟩ := List.forall_mem_cons.mp hlegible
    have hrest := ih hpieces hapart.of_cons
    rw [List.flatMap_cons, List.flatMap_cons, ← hrest, List.append_assoc]
    rcases hgap : piece.gap with - | ⟨c, gap⟩
    · -- Without a gap this is the last piece.
      have hlast : pieces = [] := by
        cases pieces with
        | nil => rfl
        | cons other pieces => exact absurd hgap (List.isChain_cons_cons.mp hapart).1
      rw [hlast, List.flatMap_nil, List.append_nil, List.append_nil, hpiece.spelledDigits_word]
      exact (List.append_nil _).symm
    · have hseparators := piece.isGap
      rw [hgap, List.forall_mem_cons] at hseparators
      rw [List.cons_append, hpiece.spelledDigits_word_append hseparators.1,
        spelledDigits_append hseparators.2]

namespace Spelling

variable {spelling : Spelling} {octets : List UInt8}

/-- **The digits that are read are those of the pieces**, run together. -/
theorem spelledDigits_text (hlegible : ∀ piece ∈ spelling.pieces, piece.Legible) :
    spelledDigits spelling.text = spelling.digits := by
  rw [text, spelledDigits_append spelling.isLead, spelledDigits_pieces hlegible spelling.apart,
    digits]

end Spelling

/-- The digits of octets are neither separators nor part of a marker. -/
theorem AreDigitsOf.apart {chars : List Char} {octets : List UInt8} (h : AreDigitsOf chars octets) :
    ∀ c ∈ chars, isSeparator c = false ∧ c ≠ 'x' := by
  have hdigit : ∀ digit ∈ octets.flatMap hexOctet, ∃ value < 16, digit = hexDigit value := by
    intro digit hdigit
    obtain ⟨octet, -, hmem⟩ := List.mem_flatMap.mp hdigit
    rw [hexOctet_eq] at hmem
    obtain ⟨half, hhalf, rfl⟩ := List.mem_map.mp hmem
    exact ⟨half.toNat, lt_of_mem_halves hhalf, rfl⟩
  intro c hc
  obtain ⟨position, hposition, rfl⟩ := List.mem_iff_getElem.mp hc
  obtain ⟨value, hvalue, hvalueEq⟩ := hdigit _ (List.getElem_mem (h.length_eq ▸ hposition))
  have hc := List.Forall₂.get h hposition (h.length_eq ▸ hposition)
  simp only [List.get_eq_getElem, hvalueEq] at hc
  exact (hc.apart hvalue).2

namespace Spelling

variable {spelling : Spelling} {octets : List UInt8}

/-- The pieces of a spelling are legible. -/
theorem Spells.legible (h : spelling.Spells octets) :
    ∀ piece ∈ spelling.pieces, piece.Legible := by
  intro piece hpiece
  have hplain : ∀ c ∈ piece.digits, isSeparator c = false ∧ c ≠ 'x' := fun c hc ↦
    AreDigitsOf.apart h c (List.mem_flatMap.mpr ⟨piece, hpiece, hc⟩)
  refine ⟨fun c hc ↦ ?_, ?_⟩
  · rcases List.mem_append.mp hc with hmarker | hc
    · have hzero : isSeparator '0' = false := by decide +kernel
      have hx : isSeparator 'x' = false := by decide +kernel
      split_ifs at hmarker
      · have hmarks : ∀ c ∈ ['0', 'x'], isSeparator c = false :=
          List.forall_mem_cons.mpr ⟨hzero, List.forall_mem_singleton.mpr hx⟩
        exact hmarks c hmarker
      · exact absurd hmarker List.not_mem_nil
    · exact (hplain c hc).1
  · rw [Piece.word]
    split_ifs
    · rfl
    · exact withoutMarker_eq_self fun c hc ↦ (hplain c hc).2

end Spelling

/-! ### Cutting a text into pieces -/

/-- The word starts with a marker. -/
def hasMarker : List Char → Bool
  | '0' :: 'x' :: _ => true
  | _ => false

theorem marker_append_withoutMarker (word : List Char) :
    (if hasMarker word then ['0', 'x'] else []) ++ withoutMarker word = word := by
  fun_cases hasMarker word with
  | case1 digits => rfl
  | case2 word hnone =>
    rw [withoutMarker]
    · rfl
    · exact hnone

/-- A word taken as a piece. -/
def Piece.ofWord (word gap : List Char) (hword : word ≠ [])
    (hgap : ∀ c ∈ gap, isSeparator c = true) : Piece where
  marked := hasMarker word
  digits := withoutMarker word
  gap := gap
  isPiece := by
    by_contra! h
    have hsplit := marker_append_withoutMarker word
    rw [if_neg h.1, h.2] at hsplit
    exact hword hsplit.symm
  isGap := hgap

section

variable {word gap : List Char} {hword : word ≠ []} {hgap : ∀ c ∈ gap, isSeparator c = true}

@[simp] theorem Piece.word_ofWord : (Piece.ofWord word gap hword hgap).word = word :=
  marker_append_withoutMarker word

theorem Piece.legible_ofWord (happart : ∀ c ∈ word, isSeparator c = false) :
    (Piece.ofWord word gap hword hgap).Legible where
  word_apart := by rwa [Piece.word_ofWord]
  withoutMarker_word := by rw [Piece.word_ofWord, Piece.ofWord]

end

namespace Spelling

/-- A text in pieces goes on with a word, which may be empty, and the gap behind it. -/
theorem exists_word {spelling : Spelling} (hlegible : ∀ piece ∈ spelling.pieces, piece.Legible) :
    ∃ (word gap : List Char) (pieces : List Piece),
      spelling.text = word ++ gap ++ (pieces.flatMap fun piece ↦ piece.word ++ piece.gap) ∧
      (∀ c ∈ word, isSeparator c = false) ∧ (∀ c ∈ gap, isSeparator c = true) ∧
      (∀ piece ∈ pieces, piece.Legible) ∧
      pieces.IsChain (fun piece _ ↦ piece.gap ≠ []) ∧ (gap = [] → pieces = []) := by
  obtain ⟨lead, pieces, hlead, hapart⟩ := spelling
  by_cases hnone : lead = []
  · subst hnone
    rcases pieces with - | ⟨piece, pieces⟩
    · exact ⟨[], [], [], rfl, nofun, nofun, nofun, .nil, fun _ ↦ rfl⟩
    · obtain ⟨hpiece, hpieces⟩ := List.forall_mem_cons.mp hlegible
      refine ⟨piece.word, piece.gap, pieces, rfl, hpiece.word_apart, piece.isGap, hpieces,
        hapart.of_cons, fun hgap ↦ ?_⟩
      rcases pieces with - | ⟨next, pieces⟩
      · rfl
      · exact absurd hgap (List.isChain_cons_cons.mp hapart).1
  · exact ⟨[], lead, pieces, rfl, nofun, hlead, hlegible, hapart, fun h ↦ absurd h hnone⟩

/-- **Every text is cut into legible pieces**: its longest runs without a separator. -/
theorem exists_text_eq (text : List Char) :
    ∃ spelling : Spelling, spelling.text = text ∧ ∀ piece ∈ spelling.pieces, piece.Legible := by
  induction text with
  | nil => exact ⟨⟨[], [], nofun, .nil⟩, rfl, nofun⟩
  | cons c text ih =>
    obtain ⟨rest, rfl, hlegible⟩ := ih
    by_cases hc : isSeparator c = true
    · have hlead : ∀ d ∈ c :: rest.lead, isSeparator d = true :=
        List.forall_mem_cons.mpr ⟨hc, rest.isLead⟩
      exact ⟨{ rest with lead := c :: rest.lead, isLead := hlead }, rfl, hlegible⟩
    · -- The character begins a piece, or it stands in front of one that has begun.
      obtain ⟨word, gap, pieces, htext, hword, hgap, hpieces, hapart, hlast⟩ := exists_word hlegible
      refine ⟨⟨[], .ofWord (c :: word) gap nofun hgap :: pieces, nofun, ?_⟩, ?_, ?_⟩
      · refine List.isChain_cons.mpr ⟨fun next hnext hnone ↦ ?_, hapart⟩
        rw [hlast hnone] at hnext
        exact absurd hnext nofun
      · rw [htext, Spelling.text, List.flatMap_cons, Piece.word_ofWord]
        rfl
      · refine List.forall_mem_cons.mpr ⟨Piece.legible_ofWord ?_, hpieces⟩
        exact List.forall_mem_cons.mpr ⟨eq_false_of_ne_true hc, hword⟩

end Spelling

/-! ### The result -/

/-- **Whatever decodes digits reads the spellings of octets**, and nothing else. -/
theorem spelledBy?_eq_ok_iff {decode? : List UInt8 → Except SpellingError (List UInt8)}
    (hdecode : IsDecoder decode?) {text : String} {octets : List UInt8} :
    spelledBy? decode? text = .ok octets ↔
      ∃ spelling : Spelling, spelling.text = text.toList ∧ spelling.Spells octets := by
  rw [spelledBy?, hdecode]
  constructor
  · intro h
    obtain ⟨spelling, htext, hlegible⟩ := Spelling.exists_text_eq text.toList
    rw [← htext, Spelling.spelledDigits_text hlegible] at h
    exact ⟨spelling, htext, h⟩
  · rintro ⟨spelling, htext, hspells⟩
    rw [← htext, Spelling.spelledDigits_text hspells.legible]
    exact hspells

/-- **A text is read as octets if it is one of their spellings**, and in no other case. -/
theorem spelledOctets?_eq_ok_iff {text : String} {octets : List UInt8} :
    spelledOctets? text = .ok octets ↔
      ∃ spelling : Spelling, spelling.text = text.toList ∧ spelling.Spells octets :=
  spelledBy?_eq_ok_iff isDecoder_decodeDigits?

/-- An octet may be in two pieces, and a marker may stand alone. -/
example : spelledOctets? "0x1:2 0x 0xaB\n" = .ok [0x12, 0xab] := by decide +kernel

end Avtp.Text
