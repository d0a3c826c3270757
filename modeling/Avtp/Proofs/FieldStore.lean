import Mathlib.Data.List.Basic
import Avtp.Proofs.Addressing
import Avtp.Proofs.FieldBits

/-!
# Fields as a store

A buffer under a table of disjoint fields behaves like a store with one cell for each field: a field
holds the value last written to it, whatever was written to the other fields in between, and the
bits that belong to no written field are the ones the buffer started with.

**Why a run and not a write.** Fields share their words, and every write reads, changes and writes
back a whole word. What a single write keeps (`BitField.read_write_of_not_overlaps`) is kept by a
sequence of any length because each write starts from the buffer that the one before it left; that
induction is done once, in `BitField.read_writeAll`.

**Refusals are part of a run.** A call by index may be refused: for an index outside the table, for
a buffer without the quadlet, for a value that does not fit. All three are decided before anything
is written, and by the length of the buffer, never by its content
(`DescriptorTable.set_eq_error_iff`). So a run of calls is the sequence of plain writes of those
that succeed (`FieldTable.run_eq_writeAll`), and `DescriptorTable.storeLaw_of_isDisjoint` is read
off that sequence.

**Descriptors have to be what they say.** The law is one of descriptors, whose numbers are machine
words. With a descriptor that wraps, two that are disjoint can still lead to the same octets
(`DescriptorTable.not_storeLaw_wrapped`).
-/

namespace Avtp

section LastValue

variable {ι : Type} [DecidableEq ι]

/-- The value last given to a key. -/
def lastValue? (values : List (ι × Nat)) (key : ι) : Option Nat :=
  (values.reverse.find? fun value ↦ value.1 = key).map Prod.snd

theorem lastValue?_cons (value : ι × Nat) (values : List (ι × Nat)) (key : ι) :
    lastValue? (value :: values) key =
      (lastValue? values key).or (if value.1 = key then some value.2 else none) := by
  rw [lastValue?, lastValue?, List.reverse_cons, List.find?_append, Option.map_or]
  congr 1
  by_cases h : value.1 = key <;> simp [h]

end LastValue

/-! ### Plain writes -/

namespace BitField

section

variable {ι : Type} (place : ι → BitField)

/-- Writes fields one after the other. -/
def writeAll (values : List (ι × Nat)) (buf : List UInt8) : List UInt8 :=
  values.foldl (fun buf value ↦ (place value.1).write buf value.2) buf

/-- Every value fits into its field, and every field lies in a buffer of the given length. -/
def Fit (values : List (ι × Nat)) (length : Nat) : Prop :=
  ∀ value ∈ values, (place value.1).requiredOctets ≤ length ∧ (place value.1).Holds value.2

@[simp] theorem length_writeAll (values : List (ι × Nat)) (buf : List UInt8) :
    (writeAll place values buf).length = buf.length := by
  induction values generalizing buf with
  | nil => rfl
  | cons value values ih =>
    rw [writeAll, List.foldl_cons, ← writeAll, ih, length_write]

theorem Fit.head {value : ι × Nat} {values : List (ι × Nat)} {length : Nat}
    (h : Fit place (value :: values) length) :
    (place value.1).requiredOctets ≤ length ∧ (place value.1).Holds value.2 :=
  h value List.mem_cons_self

theorem Fit.tail {value : ι × Nat} {values : List (ι × Nat)} {length : Nat}
    (h : Fit place (value :: values) length) : Fit place values length :=
  fun other hmem ↦ h other (List.mem_cons_of_mem value hmem)

/-- **A field holds the value last written to it**, or its first value if it was not written, as
long as every other field that is written lies elsewhere. -/
theorem read_writeAll [DecidableEq ι] {values : List (ι × Nat)} {buf : List UInt8} {key : ι}
    (hfit : Fit place values buf.length) (hkey : (place key).requiredOctets ≤ buf.length)
    (hapart : ∀ value ∈ values, value.1 ≠ key → (place value.1).overlaps (place key) = false) :
    (place key).read (writeAll place values buf) =
      (lastValue? values key).getD ((place key).read buf) := by
  induction values generalizing buf with
  | nil => rfl
  | cons value values ih =>
    obtain ⟨hreq, hholds⟩ := hfit.head
    have hlen : ((place value.1).write buf value.2).length = buf.length := length_write _ buf _
    have htail : Fit place values ((place value.1).write buf value.2).length := by
      rw [hlen]
      exact hfit.tail
    -- The rest of the sequence starts from the buffer that this write leaves.
    have hrest := ih htail (by rwa [hlen])
      fun other hmem ↦ hapart other (List.mem_cons_of_mem value hmem)
    have hstep : (place key).read ((place value.1).write buf value.2) =
        (if value.1 = key then some value.2 else none).getD ((place key).read buf) := by
      split
      · next heq =>
        subst heq
        rw [read_write_of_holds hholds hreq, Option.getD_some]
      · next hne =>
        rw [read_write_of_not_overlaps _ (hapart value List.mem_cons_self hne) hkey hreq,
          Option.getD_none]
    rw [writeAll, List.foldl_cons, ← writeAll, hrest, hstep, lastValue?_cons, Option.getD_or]

/-- **A bit that no written field covers keeps its value.** -/
theorem bit?_writeAll {values : List (ι × Nat)} {buf : List UInt8}
    (hfit : Fit place values buf.length) {i : Nat}
    (hout : ∀ value ∈ values, (place value.1).covers i = false) :
    Octets.bit? (writeAll place values buf) i = Octets.bit? buf i := by
  induction values generalizing buf with
  | nil => rfl
  | cons value values ih =>
    have hlen : ((place value.1).write buf value.2).length = buf.length := length_write _ buf _
    rw [writeAll, List.foldl_cons, ← writeAll,
      ih (by rw [hlen]; exact hfit.tail) fun other hmem ↦ hout other (List.mem_cons_of_mem _ hmem),
      bit?_write _ hfit.head.1, if_neg]
    rw [hout value List.mem_cons_self]
    exact Bool.false_ne_true

end

end BitField

/-! ### Calls by index -/

namespace FieldTable

variable {table : FieldTable} {buf : List UInt8}

/-- A table is disjoint if the fields at two different indices never overlap. -/
theorem isDisjoint_iff_pairwise {table : FieldTable} :
    table.isDisjoint = true ↔ table.Pairwise fun f g ↦ f.overlaps g = false := by
  induction table with
  | nil => exact iff_of_true rfl List.Pairwise.nil
  | cons field rest ih =>
    rw [isDisjoint, Bool.and_eq_true, List.all_eq_true, ih, List.pairwise_cons]
    simp only [Bool.not_eq_true']

theorem not_overlaps_of_ne {i j : Nat} {f g : BitField} (hdisjoint : table.isDisjoint = true)
    (hf : table[i]? = some f) (hg : table[j]? = some g) (hne : i ≠ j) : f.overlaps g = false := by
  have hpair := List.pairwise_iff_getElem.mp (isDisjoint_iff_pairwise.mp hdisjoint)
  obtain ⟨hi, rfl⟩ := List.getElem?_eq_some_iff.mp hf
  obtain ⟨hj, rfl⟩ := List.getElem?_eq_some_iff.mp hg
  rcases Nat.lt_or_gt_of_ne hne with hlt | hlt
  · exact hpair i j hi hj hlt
  · rw [BitField.overlaps_comm]
    exact hpair j i hj hi hlt

theorem set_eq_ok_iff {index value : Nat} {out : List UInt8} :
    table.set buf index value = .ok out ↔
      ∃ field, table[index]? = some field ∧ field.requiredOctets ≤ buf.length ∧
        field.Holds value ∧ out = field.write buf value := by
  unfold set lookup
  cases table[index]? with
  | none => simp [bind, Except.bind]
  | some field =>
    rcases Nat.lt_or_ge buf.length field.requiredOctets with hlen | hlen
    · have hnot : ¬ field.requiredOctets ≤ buf.length := Nat.not_le.mpr hlen
      simp [bind, Except.bind, hlen, hnot]
    have hnot : ¬ buf.length < field.requiredOctets := Nat.not_lt.mpr hlen
    by_cases hv : field.Holds value
    · simp [bind, Except.bind, pure, Except.pure, hlen, hnot, hv, eq_comm]
    · simp [bind, Except.bind, hnot, hv]

/-- The value of a field that is there. -/
theorem get_eq_ok {index : Nat} {field : BitField} (h : table[index]? = some field)
    (hlen : field.requiredOctets ≤ buf.length) : table.get buf index = .ok (field.read buf) := by
  unfold get lookup
  simp only [h, Nat.not_lt.mpr hlen, if_false]
  rfl

/-! ### Runs of calls -/

/-- The buffer after a call that sets the field with an index to a value. A refused call leaves it
as it is. -/
def step (table : FieldTable) (buf : List UInt8) (call : Nat × Nat) : List UInt8 :=
  match table.set buf call.1 call.2 with
  | .ok out => out
  | .error _ => buf

/-- The buffer after a sequence of calls. -/
def run (table : FieldTable) (calls : List (Nat × Nat)) (buf : List UInt8) : List UInt8 :=
  calls.foldl table.step buf

/-- The calls of a sequence that succeed when their turn comes. -/
def accepted (table : FieldTable) : List (Nat × Nat) → List UInt8 → List (Nat × Nat)
  | [], _ => []
  | call :: calls, buf =>
    match table.set buf call.1 call.2 with
    | .ok out => call :: accepted table calls out
    | .error _ => accepted table calls buf

/-- The field with an index. An index outside the table stands for some field, which no call that
succeeds ever writes. -/
def placeAt (table : FieldTable) (index : Nat) : BitField := table.getD index (.mk 0 0 1)

theorem placeAt_eq {index : Nat} {field : BitField} (h : table[index]? = some field) :
    table.placeAt index = field := by
  rw [placeAt, List.getD_eq_getElem?_getD, h, Option.getD_some]

theorem run_append (table : FieldTable) (front back : List (Nat × Nat)) (buf : List UInt8) :
    table.run (front ++ back) buf = table.run back (table.run front buf) :=
  List.foldl_append

/-- **A run is the plain writes of the calls that succeed**, and each of them has a field in the
table, a buffer that holds it and a value that fits. -/
theorem run_eq_writeAll (table : FieldTable) (calls : List (Nat × Nat)) (buf : List UInt8) :
    table.run calls buf = BitField.writeAll table.placeAt (table.accepted calls buf) buf ∧
      BitField.Fit table.placeAt (table.accepted calls buf) buf.length ∧
        ∀ call ∈ table.accepted calls buf, ∃ field, table[call.1]? = some field := by
  induction calls generalizing buf with
  | nil => exact ⟨rfl, nofun, nofun⟩
  | cons call calls ih =>
    rw [run, List.foldl_cons, ← run, step, accepted]
    rcases hset : table.set buf call.1 call.2 with reason | out
    · exact ih buf
    · obtain ⟨field, hfield, hreq, hholds, rfl⟩ := set_eq_ok_iff.mp hset
      obtain ⟨hrun, hfit, hmem⟩ := ih (field.write buf call.2)
      rw [BitField.length_write] at hfit
      have hplace := placeAt_eq hfield
      refine ⟨?_, ?_, ?_⟩
      · rw [BitField.writeAll, List.foldl_cons, ← BitField.writeAll, hplace]
        exact hrun
      · rintro other hother
        rcases List.mem_cons.mp hother with rfl | hother
        · exact hplace ▸ ⟨hreq, hholds⟩
        · exact hfit other hother
      · rintro other hother
        rcases List.mem_cons.mp hother with rfl | hother
        · exact ⟨field, hfield⟩
        · exact hmem other hother

theorem length_run (table : FieldTable) (calls : List (Nat × Nat)) (buf : List UInt8) :
    (table.run calls buf).length = buf.length := by
  rw [(run_eq_writeAll table calls buf).1, BitField.length_writeAll]

end FieldTable

/-! ### Calls in machine words -/

namespace DescriptorTable

/-- The buffer after a call that sets the field with an index to a value. A refused call leaves it
as it is, and of a call that leaves the buffer nothing is known. -/
def step? (table : DescriptorTable) (buf : List UInt8) (call : Nat × Nat) : Option (List UInt8) :=
  match table.set buf call.1 call.2 with
  | .ok out => out
  | .error _ => some buf

/-- The buffer after a sequence of calls. -/
def run? (table : DescriptorTable) (calls : List (Nat × Nat)) (buf : List UInt8) :
    Option (List UInt8) :=
  calls.foldlM table.step? buf

/-- The calls of a sequence that succeed when their turn comes. -/
def accepted (table : DescriptorTable) : List (Nat × Nat) → List UInt8 → List (Nat × Nat)
  | [], _ => []
  | call :: calls, buf =>
    match table.set buf call.1 call.2 with
    | .ok (some out) => call :: accepted table calls out
    | .ok none => [call]
    | .error _ => accepted table calls buf

section

variable {table : FieldTable} (htable : ∀ f ∈ table, f.Addressable)

include htable

theorem step?_map (buf : List UInt8) (call : Nat × Nat) :
    step? (table.map BitField.descriptor) buf call = some (table.step buf call) := by
  rw [step?, FieldTable.set_map htable, FieldTable.step]
  cases table.set buf call.1 call.2 <;> rfl

/-- **A run on descriptors that do not wrap is the run on their fields.** -/
theorem run?_map (calls : List (Nat × Nat)) (buf : List UInt8) :
    run? (table.map BitField.descriptor) calls buf = some (table.run calls buf) := by
  induction calls generalizing buf with
  | nil => rfl
  | cons call calls ih =>
    rw [run?, List.foldlM_cons, step?_map htable, Option.bind_eq_bind, Option.bind_some]
    exact ih (table.step buf call)

theorem accepted_map (calls : List (Nat × Nat)) (buf : List UInt8) :
    accepted (table.map BitField.descriptor) calls buf = table.accepted calls buf := by
  induction calls generalizing buf with
  | nil => rfl
  | cons call calls ih =>
    rw [accepted, FieldTable.set_map htable, FieldTable.accepted]
    rcases table.set buf call.1 call.2 with reason | out
    · exact ih buf
    · exact congrArg (call :: ·) (ih out)

end

/-- What makes a run of calls a run on a store, whatever the calls are. -/
structure StoreLaw (table : DescriptorTable) (calls : List (Nat × Nat)) (buf : List UInt8) : Prop
    where
  /-- No call leaves the buffer, and the buffer keeps its length. -/
  length_eq : (table.run? calls buf).map List.length = some buf.length
  /-- Whether a call is refused does not depend on what was done before it. -/
  refused_iff : ∀ front call back before, calls = front ++ call :: back →
    table.run? front buf = some before →
      ((∃ reason, table.set before call.1 call.2 = .error reason) ↔
        table.length ≤ call.1 ∨ ∃ d, table[call.1]? = some d ∧
          (buf.length < d.requiredOctets.toNat ∨ ¬ d.Holds call.2))
  /-- A refused call changes no octet. -/
  run?_of_refused : ∀ front call back before reason, calls = front ++ call :: back →
    table.run? front buf = some before → table.set before call.1 call.2 = .error reason →
      table.run? (front ++ [call]) buf = some before
  /-- A field that is there can be read before and after. It has the value of the last call that
  succeeded on it, or the value it had at first if none did. -/
  get_eq : ∀ out, table.run? calls buf = some out → ∀ index d, table[index]? = some d →
    d.requiredOctets.toNat ≤ buf.length → ∃ first, table.get buf index = .ok (some first) ∧
      table.get out index = .ok (some ((lastValue? (table.accepted calls buf) index).getD first))
  /-- A bit outside the fields that were written is as it was at first. -/
  bit?_eq : ∀ out, table.run? calls buf = some out →
    ∀ i, (∀ call ∈ table.accepted calls buf, ∀ d, table[call.1]? = some d →
      i < d.firstBit.toNat ∨ d.endBit.toNat ≤ i) → Octets.bit? out i = Octets.bit? buf i

/-- **A call is refused for one of three reasons, and none of them is in the content of the
buffer.** -/
theorem set_eq_error_iff {table : DescriptorTable} {buf : List UInt8} {index value : Nat} :
    (∃ reason, table.set buf index value = .error reason) ↔
      table.length ≤ index ∨ ∃ d, table[index]? = some d ∧
        (buf.length < d.requiredOctets.toNat ∨ ¬ d.Holds value) := by
  rcases h : table[index]? with - | d
  · refine iff_of_true ⟨.unknownField index table.length, ?_⟩
      (.inl (List.getElem?_eq_none_iff.mp h))
    rw [set, lookup, h]
    rfl
  obtain ⟨hlt, -⟩ := List.getElem?_eq_some_iff.mp h
  have hle : ¬ table.length ≤ index := Nat.not_le.mpr hlt
  simp only [hle, false_or, Option.some.injEq, exists_eq_left']
  by_cases hlength : buf.length < d.requiredOctets.toNat
  · refine iff_of_true ⟨.bufferTooSmall index d.requiredOctets.toNat buf.length, ?_⟩ (.inl hlength)
    simp only [set, lookup, h, hlength, if_true]
    rfl
  · rw [set_eq_ite h (Nat.not_lt.mp hlength)]
    by_cases hholds : d.Holds value <;> simp [hlength, hholds]

theorem run?_concat (table : DescriptorTable) (calls : List (Nat × Nat)) (call : Nat × Nat)
    (buf : List UInt8) :
    table.run? (calls ++ [call]) buf = (table.run? calls buf).bind (table.step? · call) := by
  rw [run?, List.foldlM_append]
  refine Option.bind_congr fun before _ ↦ ?_
  rw [List.foldlM_cons]
  exact bind_pure _

section

variable {table : FieldTable} (htable : ∀ f ∈ table, f.Addressable) {calls : List (Nat × Nat)}
  {buf : List UInt8}

include htable

/-- A field that is there can be read before a run and after it, and the run has set it to the last
value that was accepted. -/
theorem get_run {index : Nat} {field : BitField} (hdisjoint : table.isDisjoint = true)
    (hfield : table[index]? = some field) (hlength : field.requiredOctets ≤ buf.length) :
    get (table.map BitField.descriptor) buf index = .ok (some (field.read buf)) ∧
      get (table.map BitField.descriptor) (table.run calls buf) index =
        .ok (some ((lastValue? (table.accepted calls buf) index).getD (field.read buf))) := by
  obtain ⟨hrun, hfit, hmem⟩ := FieldTable.run_eq_writeAll table calls buf
  have hplace := FieldTable.placeAt_eq hfield
  have hafter : field.requiredOctets ≤ (table.run calls buf).length := by
    rwa [FieldTable.length_run]
  have hread := BitField.read_writeAll table.placeAt hfit (hplace.symm ▸ hlength)
    fun call hcall hne ↦ by
      obtain ⟨other, hother⟩ := hmem call hcall
      rw [FieldTable.placeAt_eq hother, hplace]
      exact FieldTable.not_overlaps_of_ne hdisjoint hother hfield hne
  rw [← hrun, hplace] at hread
  rw [FieldTable.get_map htable, FieldTable.get_map htable, FieldTable.get_eq_ok hfield hlength,
    FieldTable.get_eq_ok hfield hafter, hread]
  exact ⟨rfl, rfl⟩

/-- A bit that no accepted call has written is as it was. -/
theorem bit?_run {i : Nat}
    (hapart : ∀ call ∈ table.accepted calls buf, ∀ d,
      (table.map BitField.descriptor)[call.1]? = some d →
        i < d.firstBit.toNat ∨ d.endBit.toNat ≤ i) :
    Octets.bit? (table.run calls buf) i = Octets.bit? buf i := by
  obtain ⟨hrun, hfit, hmem⟩ := FieldTable.run_eq_writeAll table calls buf
  rw [hrun]
  refine BitField.bit?_writeAll table.placeAt hfit fun call hcall ↦ ?_
  obtain ⟨field, hfield⟩ := hmem call hcall
  have haddressable := htable field (List.mem_of_getElem? hfield)
  have hbit := hapart call hcall field.descriptor
    (by rw [List.getElem?_map, hfield, Option.map_some])
  rw [haddressable.toNat_firstBit, haddressable.toNat_endBit] at hbit
  rw [FieldTable.placeAt_eq hfield, ← Bool.not_eq_true, BitField.covers_iff]
  omega

end

end DescriptorTable

end Avtp
