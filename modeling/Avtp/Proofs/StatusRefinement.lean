import Mathlib.Logic.Function.Basic
import Avtp.StatusCode
import Avtp.Proofs.FieldStore

/-!
# Access by status code refines the typed access

A caller with status codes has variables for results, and a call fails or changes the caller. The
typed access has neither: it gives a number or a new data unit. `Call.typed` says what a call should
do in terms of the typed access alone, on variables that hold any numbers, and
`Caller.widen` forgets that the variables of the real caller hold words of 32 bits.

Every call commutes with `widen` (`typed_widen`), because no field is wider than a word
(`lt_size_of_get`); so does every sequence of calls (`run_typed_widen`), since each call starts from
what the one before it left.

**Codes are coarser than reasons.** Several things may be wrong with one call, and which code it has
depends on the order of the checks: the place for the result comes before the data unit, and the
data unit before the value. `Call.Fails` lists the failures with what is checked before each of
them, and the law of the codes is read off this list (`Call.Fails.code_eq`).
-/

namespace Avtp

namespace Header

variable {h : Header} {slot : h.Slot} {buf : List UInt8}

/-- A field is read if its quadlet is there. -/
theorem get_eq : get buf slot =
    if buf.length < (place slot).requiredOctets then
      .error (.bufferTooSmall (index slot) (place slot).requiredOctets buf.length)
    else .ok ((place slot).read buf) := by
  simp only [get, FieldTable.get, FieldTable.lookup, getElem?_table_index]
  split <;> rfl

/-- A field is written if its quadlet is there and the value fits, checked in this order. -/
theorem set_eq {value : Nat} : set buf slot value =
    if buf.length < (place slot).requiredOctets then
      .error (.bufferTooSmall (index slot) (place slot).requiredOctets buf.length)
    else if (place slot).Holds value then .ok ((place slot).write buf value)
    else .error (.valueOutOfRange value (place slot).width) := by
  simp only [set, FieldTable.set, FieldTable.lookup, getElem?_table_index]
  split <;> rfl

end Header

namespace StatusCode

/-! ### Callers -/

/-- A caller: a data unit, and variables for results. -/
structure Caller (α : Type) where
  pdu : List UInt8
  outputs : Nat → α

/-- A call. A reading names the variable for the result, unless the caller has none for it. -/
inductive Call where
  | get (slot : CommonSlot) (output : Option Nat)
  | set (slot : CommonSlot) (value : UInt32)

/-- What became of a call, and the caller after it. -/
abbrev Outcome (α : Type) := Except AccessError Unit × Caller α

namespace Caller

variable {α : Type}

/-- The caller with a value in a variable. -/
def store (caller : Caller α) (name : Nat) (value : α) : Caller α :=
  { caller with outputs := Function.update caller.outputs name value }

/-- The caller with what a call left in the variable that it was given. -/
def receive (caller : Caller α) (name : Nat) : Option α → Caller α
  | some value => caller.store name value
  | none => caller

/-- Storing what the variable holds already changes nothing. -/
theorem store_self (caller : Caller α) (name : Nat) :
    caller.store name (caller.outputs name) = caller := by
  rw [store, Function.update_eq_self]

/-- The caller with numbers for words. -/
def widen (caller : Caller UInt32) : Caller Nat where
  pdu := caller.pdu
  outputs name := (caller.outputs name).toNat

theorem widen_store (caller : Caller UInt32) (name : Nat) (value : UInt32) :
    (caller.store name value).widen = caller.widen.store name value.toNat := by
  have houtputs := Function.comp_update UInt32.toNat caller.outputs name value
  exact congrArg (Caller.mk caller.pdu) houtputs

end Caller

namespace Call

/-- The call by status code. -/
def perform (caller : Caller UInt32) : Call → Outcome UInt32
  | .get slot none => ((StatusCode.get caller.pdu slot none).1, caller)
  | .get slot (some name) =>
    let (status, output) := StatusCode.get caller.pdu slot (some (caller.outputs name))
    (status, caller.receive name output)
  | .set slot value =>
    let (status, pdu) := StatusCode.set caller.pdu slot value
    (status, { caller with pdu })

/-- The same call told by the typed access. -/
def typed (caller : Caller Nat) : Call → Outcome Nat
  | .get _ none => (.error .missingOutput, caller)
  | .get slot (some name) =>
    match Header.get (h := .common) caller.pdu slot with
    | .ok value => (.ok (), caller.store name value)
    | .error reason => (.error (.field reason), caller)
  | .set slot value =>
    match Header.set (h := .common) caller.pdu slot value.toNat with
    | .ok pdu => (.ok (), { caller with pdu })
    | .error reason => (.error (.field reason), caller)

end Call

/-! ### One call -/

variable {caller : Caller UInt32}

/-- What was read fits into a variable. -/
theorem lt_size_of_get {slot : CommonSlot} {value : Nat}
    (h : Header.get (h := .common) caller.pdu slot = .ok value) : value < UInt32.size := by
  rw [Header.get_eq] at h
  split_ifs at h
  rw [← Except.ok.inj h]
  exact BitField.read_lt_word _ caller.pdu

/-- A reading into a variable does what the typed reading says. -/
theorem perform_get (slot : CommonSlot) (name : Nat) :
    (Call.get slot (some name)).perform caller =
      match Header.get (h := .common) caller.pdu slot with
      | .ok value => (.ok (), caller.store name (.ofNat value))
      | .error reason => (.error (.field reason), caller) := by
  rw [Call.perform, StatusCode.get]
  rcases hget : Header.get (h := .common) caller.pdu slot with reason | value
  · exact congrArg (Prod.mk _) (caller.store_self name)
  · simp only [if_pos (lt_size_of_get hget)]
    rfl

/-- A writing does what the typed writing says. -/
theorem perform_set (slot : CommonSlot) (value : UInt32) :
    (Call.set slot value).perform caller =
      match Header.set (h := .common) caller.pdu slot value.toNat with
      | .ok pdu => (.ok (), { caller with pdu })
      | .error reason => (.error (.field reason), caller) := by
  rw [Call.perform, StatusCode.set]
  rcases Header.set (h := .common) caller.pdu slot value.toNat with reason | pdu
  · rfl
  · rfl

/-- **A call by status code is the typed call**, with words for numbers. -/
theorem typed_widen (call : Call) (caller : Caller UInt32) :
    call.typed caller.widen = Prod.map id Caller.widen (call.perform caller) := by
  rcases call with ⟨slot, - | name⟩ | ⟨slot, value⟩
  · rfl
  · rw [perform_get, Call.typed, Caller.widen]
    rcases hget : Header.get (h := .common) caller.pdu slot with reason | value
    · rfl
    · have hvalue : (UInt32.ofNat value).toNat = value :=
        UInt32.toNat_ofNat_of_lt' (lt_size_of_get hget)
      rw [Prod.map, Caller.widen_store, hvalue]
      rfl
  · rw [perform_set, Call.typed, Caller.widen]
    rcases Header.set (h := .common) caller.pdu slot value.toNat with reason | pdu
    · rfl
    · rfl

/-! ### Failures -/

/-- The call writes a value that does not fit to a field that is there. -/
def Call.Overflows (pdu : List UInt8) : Call → Prop
  | .get _ _ => False
  | .set slot value => (Header.place (h := .common) slot).requiredOctets ≤ pdu.length ∧
      ¬ (Header.place (h := .common) slot).Holds value.toNat

/-- The ways that a call fails on a data unit, with what it says. -/
inductive Call.Fails (pdu : List UInt8) : Call → AccessError → Prop where
  /-- Whether the field is there does not matter. -/
  | missing (slot : CommonSlot) : Fails pdu (.get slot none) .missingOutput
  | getShort (slot : CommonSlot) (name : Nat)
      (hshort : pdu.length < (Header.place (h := .common) slot).requiredOctets) :
      Fails pdu (.get slot (some name))
        (.field (.bufferTooSmall (Header.index (h := .common) slot)
          (Header.place (h := .common) slot).requiredOctets pdu.length))
  /-- Whether the value fits does not matter. -/
  | setShort (slot : CommonSlot) (value : UInt32)
      (hshort : pdu.length < (Header.place (h := .common) slot).requiredOctets) :
      Fails pdu (.set slot value)
        (.field (.bufferTooSmall (Header.index (h := .common) slot)
          (Header.place (h := .common) slot).requiredOctets pdu.length))
  | overflow (slot : CommonSlot) (value : UInt32) (hover : (Call.set slot value).Overflows pdu) :
      Fails pdu (.set slot value)
        (.field (.valueOutOfRange value.toNat (Header.place (h := .common) slot).width))

namespace Call

variable {call : Call} {pdu : List UInt8} {error : AccessError}

/-- A call that fails leaves the data unit and all variables as they were. -/
theorem Fails.perform_eq (h : call.Fails caller.pdu error) :
    call.perform caller = (.error error, caller) := by
  rcases h with slot | ⟨slot, name, hshort⟩ | ⟨slot, value, hshort⟩ | ⟨slot, value, hthere, hover⟩
  · rfl
  · rw [perform_get, Header.get_eq, if_pos hshort]
  · rw [perform_set, Header.set_eq, if_pos hshort]
  · rw [perform_set, Header.set_eq, if_neg (Nat.not_lt.mpr hthere), if_neg hover]

/-- **These are all failures.** -/
theorem fails_of_perform (h : (call.perform caller).1 = .error error) :
    call.Fails caller.pdu error := by
  rcases call with ⟨slot, - | name⟩ | ⟨slot, value⟩
  · obtain rfl := Except.error.inj h
    exact .missing slot
  · rw [perform_get, Header.get_eq] at h
    split_ifs at h with hshort
    obtain rfl := Except.error.inj h
    exact .getShort slot name hshort
  · rw [perform_set, Header.set_eq] at h
    split_ifs at h with hshort hholds
    · obtain rfl := Except.error.inj h
      exact .setShort slot value hshort
    · obtain rfl := Except.error.inj h
      exact .overflow slot value ⟨Nat.le_of_not_lt hshort, hholds⟩

/-- One code is for a value that does not fit to a field that is there. -/
theorem Fails.code_eq (h : call.Fails pdu error) :
    call.Overflows pdu ∧ error.code = -34 ∨ ¬ call.Overflows pdu ∧ error.code = -22 := by
  rcases h with slot | ⟨slot, name, hshort⟩ | ⟨slot, value, hshort⟩ | ⟨slot, value, hover⟩
  · exact .inr ⟨not_false, rfl⟩
  · exact .inr ⟨not_false, rfl⟩
  · exact .inr ⟨fun hover ↦ absurd hshort (Nat.not_lt.mpr hover.1), rfl⟩
  · exact .inl ⟨hover, rfl⟩

theorem Fails.ne_truncated (h : call.Fails pdu error) (value : Nat) (slot : CommonSlot) :
    error ≠ .truncated value slot := by
  rintro rfl
  exact nomatch h

theorem Overflows.exists_fails (h : call.Overflows pdu) : ∃ error, call.Fails pdu error := by
  rcases call with ⟨slot, output⟩ | ⟨slot, value⟩
  · exact h.elim
  · exact ⟨_, .overflow slot value h⟩

/-- What a call does, told by what the typed access says about the same data unit. -/
structure Refines (caller : Caller UInt32) (call : Call) : Prop where
  /-- A reading without a place for the result is refused, whatever the data unit is. -/
  missing : ∀ slot, call = .get slot none →
    call.perform caller = (.error .missingOutput, caller)
  /-- A reading succeeds if the typed reading does. -/
  get_ok_iff : ∀ slot name, call = .get slot (some name) →
    ((call.perform caller).1 = .ok () ↔
      ∃ value, Header.get (h := .common) caller.pdu slot = .ok value)
  /-- It stores the same value, and nothing else changes. -/
  get_stores : ∀ slot name value, call = .get slot (some name) →
    Header.get (h := .common) caller.pdu slot = .ok value →
      ∃ word : UInt32, word.toNat = value ∧ (call.perform caller).2 = caller.store name word
  /-- It fails for the reason of the typed reading. -/
  get_error_iff : ∀ slot name error, call = .get slot (some name) →
    ((call.perform caller).1 = .error error ↔
      ∃ reason, error = .field reason ∧
        Header.get (h := .common) caller.pdu slot = .error reason)
  /-- A writing succeeds if the typed writing does, and gives the same octets. -/
  set_ok_iff : ∀ slot value pdu, call = .set slot value →
    (call.perform caller = (.ok (), { caller with pdu }) ↔
      Header.set (h := .common) caller.pdu slot value.toNat = .ok pdu)
  /-- It fails for the reason of the typed writing. -/
  set_error_iff : ∀ slot value error, call = .set slot value →
    ((call.perform caller).1 = .error error ↔
      ∃ reason, error = .field reason ∧
        Header.set (h := .common) caller.pdu slot value.toNat = .error reason)
  /-- A call that fails leaves the data unit and all variables as they were. -/
  kept : ∀ error, (call.perform caller).1 = .error error → (call.perform caller).2 = caller
  /-- No value is ever found to be too large for a variable. -/
  not_truncated : ∀ value slot, (call.perform caller).1 ≠ .error (.truncated value slot)
  /-- One code is for a value that does not fit to a field that is there. -/
  outOfRange_iff : (∃ error, (call.perform caller).1 = .error error ∧ error.code = -34) ↔
    call.Overflows caller.pdu
  /-- The other code is for everything else. -/
  code_eq : ∀ error, (call.perform caller).1 = .error error → ¬ call.Overflows caller.pdu →
    error.code = -22

/-- **Every call refines the typed access.** -/
theorem refines (caller : Caller UInt32) (call : Call) : call.Refines caller where
  missing := by
    rintro slot rfl
    rfl
  get_ok_iff := by
    rintro slot name rfl
    rw [perform_get]
    cases Header.get (h := .common) caller.pdu slot <;> simp
  get_stores := by
    rintro slot name value rfl hget
    rw [perform_get, hget]
    exact ⟨.ofNat value, UInt32.toNat_ofNat_of_lt' (lt_size_of_get hget), rfl⟩
  get_error_iff := by
    rintro slot name error rfl
    rw [perform_get]
    cases Header.get (h := .common) caller.pdu slot <;> simp [eq_comm]
  set_ok_iff := by
    rintro slot value pdu rfl
    rw [perform_set]
    cases Header.set (h := .common) caller.pdu slot value.toNat <;> simp
  set_error_iff := by
    rintro slot value error rfl
    rw [perform_set]
    cases Header.set (h := .common) caller.pdu slot value.toNat <;> simp [eq_comm]
  kept error h := by rw [(fails_of_perform h).perform_eq]
  not_truncated value slot h := (fails_of_perform h).ne_truncated value slot rfl
  outOfRange_iff := by
    constructor
    · rintro ⟨error, herror, hcode⟩
      rcases (fails_of_perform herror).code_eq with ⟨hover, -⟩ | ⟨-, hother⟩
      · exact hover
      · rw [hother] at hcode
        exact absurd hcode (by decide)
    · intro hover
      obtain ⟨error, hfails⟩ := hover.exists_fails
      refine ⟨error, congrArg Prod.fst hfails.perform_eq, ?_⟩
      exact (hfails.code_eq.resolve_right fun h ↦ h.1 hover).2
  code_eq error h hover := ((fails_of_perform h).code_eq.resolve_left fun h ↦ hover h.1).2

end Call

/-! ### Sequences of calls -/

/-- What became of the calls, and the caller after them. -/
def run {α : Type} (perform : Caller α → Call → Outcome α) :
    List Call → Caller α → List (Except AccessError Unit) × Caller α
  | [], caller => ([], caller)
  | call :: calls, caller =>
    let (status, next) := perform caller call
    let (statuses, last) := run perform calls next
    (status :: statuses, last)

/-- The writings among the calls, by index. -/
def writings (calls : List Call) : List (Nat × Nat) :=
  calls.filterMap fun
    | .get _ _ => none
    | .set slot value => some (Header.index (h := .common) slot, value.toNat)

/-- **A sequence of calls by status code is the sequence of typed calls**, with words for numbers:
each of them has the same status, and the caller is the same in the end. -/
theorem run_typed_widen (calls : List Call) (caller : Caller UInt32) :
    run Call.typed calls caller.widen =
      Prod.map id Caller.widen (run Call.perform calls caller) := by
  induction calls generalizing caller with
  | nil => rfl
  | cons call calls ih =>
    simp only [run, typed_widen, Prod.map_snd, ih]
    rfl

/-- Only a writing changes the data unit, and it does so as a step of the table. -/
theorem pdu_perform (call : Call) (caller : Caller UInt32) :
    (call.perform caller).2.pdu = (Header.table .common).run (writings [call]) caller.pdu := by
  rcases call with ⟨slot, - | name⟩ | ⟨slot, value⟩
  · rfl
  · rw [perform_get]
    cases Header.get (h := .common) caller.pdu slot <;> rfl
  · have hstep : (Header.table .common).run (writings [.set slot value]) caller.pdu =
        match Header.set (h := .common) caller.pdu slot value.toNat with
        | .ok out => out
        | .error _ => caller.pdu := rfl
    rw [perform_set, hstep]
    cases Header.set (h := .common) caller.pdu slot value.toNat <;> rfl

/-- **The data unit is a store of its fields**: readings do not touch it, and writings do what
accesses by index do. -/
theorem pdu_run (calls : List Call) (caller : Caller UInt32) :
    (run Call.perform calls caller).2.pdu =
      (Header.table .common).run (writings calls) caller.pdu := by
  induction calls generalizing caller with
  | nil => rfl
  | cons call calls ih =>
    have hwritings : writings (call :: calls) = writings [call] ++ writings calls :=
      List.filterMap_append (l := [call])
    rw [hwritings, FieldTable.run_append, ← pdu_perform, ← ih]
    rfl

/-- What a sequence of calls by status code has to do with the typed access. -/
structure Refinement (calls : List Call) (caller : Caller UInt32) : Prop where
  /-- Each call refines the typed access to the data unit that it finds. -/
  call_refines : ∀ front call back, calls = front ++ call :: back →
    call.Refines (run Call.perform front caller).2
  /-- The calls have the statuses of the typed calls, and the variables hold the same numbers. -/
  run_typed : run Call.typed calls caller.widen =
    Prod.map id Caller.widen (run Call.perform calls caller)
  /-- The data unit is what the writings among the calls make of it. -/
  pdu_eq : (run Call.perform calls caller).2.pdu =
    (Header.table .common).run (writings calls) caller.pdu

/-- **Access by status code refines the typed access**, over sequences of any length that mix calls
that succeed with calls that fail. -/
theorem run_refinement (calls : List Call) (caller : Caller UInt32) : Refinement calls caller where
  call_refines _ call _ _ := call.refines _
  run_typed := run_typed_widen calls caller
  pdu_eq := pdu_run calls caller

/-- The version is set and read, a flag is not set to two, and a reading without a place for the
result is refused. -/
example : (run Call.perform [.set .version 5, .get .version (some 0), .set .h 2, .get .h none]
    ⟨[0x80, 0x03, 0, 0], fun _ ↦ 7⟩).1 =
      [.ok (), .ok (), .error (.field (.valueOutOfRange 2 1)), .error .missingOutput] := by
  decide +kernel

end StatusCode

end Avtp
