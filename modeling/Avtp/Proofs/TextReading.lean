import Mathlib.Tactic.SplitIfs
import Avtp.Text.Numeral

/-!
# Reading texts

What a text shows is read from its characters, without knowing how it was put together. Three ways
of reading are enough for listings.

* **Character by character.** `Within` bounds the characters of a text. Numerals are within the
  digits (`Within.decimal` and its companions), so a text of numerals and words is as free of some
  character as its words are.
* **Line by line.** `lines` cuts at line feeds. If the lines that were put together have none, they
  are what is found (`lines_join`).
* **As a terminal does.** `withoutEscapes` leaves out escape sequences. What is shown of a text does
  not in general follow from what is shown of its parts, because a sequence can be open at the end
  of one. `Fades` says that none is, and so it can be put together (`Fades.append`).
-/

namespace Avtp.Text

/-! ### Characters -/

/-- All characters of the text are as described. -/
def Within (p : Char → Prop) (text : String) : Prop := ∀ c ∈ text.toList, p c

-- The characters of the text are gone through, and not all characters that there are.
instance (p : Char → Prop) [DecidablePred p] (text : String) : Decidable (Within p text) :=
  decidable_of_iff ((text.toList.all fun c ↦ decide (p c)) = true) (by simp [Within])

theorem exists_of_mem_toDigits {base n : Nat} {c : Char} (hbase : 1 < base)
    (h : c ∈ Nat.toDigits base n) : ∃ digit < base, c = Nat.digitChar digit := by
  induction n using Nat.strongRecOn with
  | ind n ih =>
    rw [Nat.toDigits_eq_if hbase] at h
    split_ifs at h with hlt
    · exact ⟨n, hlt, List.mem_singleton.mp h⟩
    · rcases List.mem_append.mp h with h | h
      · exact ih (n / base) (Nat.div_lt_self (by omega) hbase) h
      · exact ⟨n % base, Nat.mod_lt _ (by omega), List.mem_singleton.mp h⟩

namespace Within

variable {p q : Char → Prop} {a b : String} {texts : List String}

theorem mono (himp : ∀ c, p c → q c) (h : Within p a) : Within q a := fun c hc ↦ himp c (h c hc)

theorem append (ha : Within p a) (hb : Within p b) : Within p (a ++ b) := by
  intro c hc
  rw [String.toList_append, List.mem_append] at hc
  exact hc.elim (ha c) (hb c)

theorem join (h : ∀ text ∈ texts, Within p text) : Within p (String.join texts) := by
  intro c hc
  rw [String.toList_join, List.mem_flatMap] at hc
  obtain ⟨text, htext, hc⟩ := hc
  exact h text htext c hc

theorem of_append_left (h : Within p (a ++ b)) : Within p a :=
  fun c hc ↦ h c (by rw [String.toList_append]; exact List.mem_append_left _ hc)

theorem of_join (h : Within p (String.join texts)) : ∀ text ∈ texts, Within p text := by
  intro text htext c hc
  refine h c ?_
  rw [String.toList_join, List.mem_flatMap]
  exact ⟨text, htext, hc⟩

theorem intersperse (ha : Within p a) (h : ∀ text ∈ texts, Within p text) :
    ∀ text ∈ texts.intersperse a, Within p text := by
  intro text htext
  obtain ⟨i, hi⟩ := List.getElem?_of_mem htext
  rw [List.getElem?_intersperse] at hi
  split_ifs at hi
  · exact h text (List.mem_of_getElem? hi)
  · exact Option.some.inj hi ▸ ha

theorem padZeros {digits : List Char} (hzero : p '0') (h : ∀ c ∈ digits, p c) (width : Nat) :
    ∀ c ∈ padZeros width digits, p c := by
  intro c hc
  rw [Text.padZeros, List.mem_append] at hc
  exact hc.elim (fun hc ↦ List.eq_of_mem_replicate hc ▸ hzero) (h c)

theorem decimal (hdigits : ∀ digit < 10, p (Nat.digitChar digit)) (n : Nat) :
    Within p (decimal n) := by
  intro c hc
  rw [Text.decimal, String.toList_ofList] at hc
  obtain ⟨digit, hdigit, rfl⟩ := exists_of_mem_toDigits (by decide) hc
  exact hdigits digit hdigit

theorem decimalPadded (hdigits : ∀ digit < 10, p (Nat.digitChar digit)) (width n : Nat) :
    Within p (decimalPadded width n) := by
  have hn := decimal hdigits n
  rw [Within, Text.decimal, String.toList_ofList] at hn
  rw [Within, Text.decimalPadded, String.toList_ofList]
  exact padZeros (hdigits 0 (by decide)) hn width

theorem hexUpper (hdigits : ∀ digit < 16, p (Nat.digitChar digit).toUpper) (width n : Nat) :
    Within p (hexUpper width n) := by
  rw [Within, Text.hexUpper, String.toList_ofList]
  have hupper : ∀ c ∈ Nat.toDigits 16 n, p c.toUpper := by
    intro c hc
    obtain ⟨digit, hdigit, rfl⟩ := exists_of_mem_toDigits (by decide) hc
    exact hdigits digit hdigit
  exact List.forall_mem_map.mpr (padZeros (p := (p ·.toUpper)) (hdigits 0 (by decide)) hupper width)

end Within

theorem decimal_inj {m n : Nat} : decimal m = decimal n ↔ m = n := by
  refine ⟨fun h ↦ ?_, congrArg decimal⟩
  have hdigits := congrArg (fun text ↦ Nat.ofDigitChars 10 text.toList 0) h
  simpa only [decimal, String.toList_ofList, Nat.ofDigitChars_ten_toDigits] using hdigits

/-! ### Lines -/

/-- The lines of a text. What is behind the last line feed is one of them, even if it is empty. -/
def lines (text : String) : List String := (text.toList.splitOn '\n').map String.ofList

/-- **Lines are found as they were put together.** -/
theorem lines_join {parts : List String} (h : ∀ part ∈ parts, Within (· ≠ '\n') part) :
    lines (String.join (parts.map (· ++ "\n"))) = parts ++ [""] := by
  induction parts with
  | nil => rfl
  | cons part parts ih =>
    obtain ⟨hpart, hparts⟩ := List.forall_mem_cons.mp h
    have hfeed : '\n' ∉ part.toList := fun hmem ↦ hpart '\n' hmem rfl
    have htext : (String.join ((part :: parts).map (· ++ "\n"))).toList =
        part.toList ++ '\n' :: (String.join (parts.map (· ++ "\n"))).toList := by
      rw [List.map_cons, String.join_cons, String.toList_append, String.toList_append,
        List.append_assoc]
      rfl
    rw [lines, htext, List.splitOn_append_cons_self_of_not_mem hfeed, List.map_cons,
      String.ofList_toList, ← lines, ih hparts, List.cons_append]

/-! ### Escape sequences -/

/-- The character that begins an escape sequence. -/
def esc : Char := '\x1b'

/-- The character ends the parameters of an escape sequence. -/
def isFinal (c : Char) : Bool := '@' ≤ c && c ≤ '~'

/-- Where a reader of a text is. -/
inductive Reading where
  /-- Outside of all escape sequences. -/
  | plain
  /-- Behind the character that begins one. -/
  | escape
  /-- Among the parameters of one. -/
  | parameters
  deriving DecidableEq

/-- What is shown of characters. An escape sequence has parameters if it goes on with a bracket, and
otherwise a single character. -/
def shown : Reading → List Char → List Char
  | _, [] => []
  | .plain, c :: rest => if c = esc then shown .escape rest else c :: shown .plain rest
  | .escape, c :: rest => shown (if c = '[' then .parameters else .plain) rest
  | .parameters, c :: rest => shown (if isFinal c then .plain else .parameters) rest

/-- The text without its escape sequences. -/
def withoutEscapes (text : String) : String := String.ofList (shown .plain text.toList)

/-- The drawn text shows the plain one, and does not end inside an escape sequence. -/
def Fades (drawn plain : String) : Prop :=
  ∀ rest, shown .plain (drawn.toList ++ rest) = plain.toList ++ shown .plain rest

theorem withoutEscapes_eq {drawn plain : String} (h : Fades drawn plain) :
    withoutEscapes drawn = plain := by
  have hshown := h []
  rw [List.append_nil, shown, List.append_nil] at hshown
  rw [withoutEscapes, hshown, String.ofList_toList]

theorem fades_self {text : String} (h : Within (· ≠ esc) text) : Fades text text := by
  intro rest
  have hshown (chars : List Char) (hchars : ∀ c ∈ chars, c ≠ esc) :
      shown .plain (chars ++ rest) = chars ++ shown .plain rest := by
    induction chars with
    | nil => rfl
    | cons c chars ih =>
      obtain ⟨hc, hchars⟩ := List.forall_mem_cons.mp hchars
      rw [List.cons_append, shown, if_neg hc, ih hchars, List.cons_append]
  exact hshown text.toList h

/-- **A sequence that sets a colour is not shown.** -/
theorem fades_color {parameters : String} (h : Within (isFinal · = false) parameters) :
    Fades ("\x1b[" ++ parameters ++ "m") "" := by
  intro rest
  have hend (chars : List Char) (hchars : ∀ c ∈ chars, isFinal c = false) :
      shown .parameters (chars ++ 'm' :: rest) = shown .plain rest := by
    induction chars with
    | nil => rfl
    | cons c chars ih =>
      obtain ⟨hc, hchars⟩ := List.forall_mem_cons.mp hchars
      rw [List.cons_append, shown, hc]
      exact ih hchars
  have htext : ("\x1b[" ++ parameters ++ "m").toList ++ rest =
      esc :: '[' :: (parameters.toList ++ 'm' :: rest) := by
    simp only [String.toList_append, List.append_assoc]
    rfl
  rw [htext, shown, if_pos rfl, shown, if_pos rfl]
  exact hend parameters.toList h

namespace Fades

variable {a b c d : String}

theorem append (h : Fades a b) (h' : Fades c d) : Fades (a ++ c) (b ++ d) := by
  intro rest
  rw [String.toList_append, String.toList_append, List.append_assoc, h, h', List.append_assoc]

theorem join {α : Type} {list : List α} {drawn plain : α → String}
    (h : ∀ x ∈ list, Fades (drawn x) (plain x)) :
    Fades (String.join (list.map drawn)) (String.join (list.map plain)) := by
  induction list with
  | nil => exact fun rest ↦ rfl
  | cons x list ih =>
    obtain ⟨hx, hlist⟩ := List.forall_mem_cons.mp h
    rw [List.map_cons, List.map_cons, String.join_cons, String.join_cons]
    exact hx.append (ih hlist)

end Fades

end Avtp.Text
