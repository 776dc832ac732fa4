import Mathlib.Algebra.Order.Ring.Int
import Mathlib.Logic.Function.Basic
import PiWebrtc.Lib.Machine

namespace PiWebrtc.Common

open Transition

/-!
# The side table of the latency tracer

`SideTable` carries the sensor time and the sequence number of a frame from `Mark` to `Lookup`,
in a slot that is found by hashing a key.  `Mark` stores the key last and `Lookup` loads it
first, so that a reader that sees the key sees matching values; but the slot can be marked again
between the loads.

* `lookup_mark_self`, `lookup_mark_of_ne` — without such interleavings, a mark is found as long as
  no other one goes to its slot;
* `lookups_traced_iff` — with them, a lookup returns what one `Mark` with its key has stored
  exactly if the last `Mark` that has begun in its slot when it loads the sensor time is one with
  its key, and is the last one to have stored a sequence number when it loads that.
-/

/-! ### The source -/

def kSlotBits : ℕ := 10

def kSlotCount : ℕ := 2 ^ kSlotBits

/-- The first bits of a number with 64 bits. -/
theorem shifted_lt (h : ℤ) : (h % 2 ^ 64).toNat / 2 ^ (64 - kSlotBits) < kSlotCount := by
  have hlt : h % 18446744073709551616 < 18446744073709551616 := Int.emod_lt_of_pos h (by omega)
  show (h % 18446744073709551616).toNat / 18014398509481984 < 1024
  omega

/-- `SlotOf`. -/
def slotOf (key : ℤ) : Fin kSlotCount :=
  ⟨(key * 0x9E3779B97F4A7C15 % 2 ^ 64).toNat / 2 ^ (64 - kSlotBits), shifted_lt _⟩

/-- `CaptureInfo`, empty when the frame is unknown. -/
structure CaptureInfo where
  sensorUs : ℤ := 0
  seq : UInt32 := 0
  deriving DecidableEq

structure Slot where
  key : ℤ := 0
  sensorUs : ℤ := 0
  seq : UInt32 := 0
  deriving DecidableEq

/-- `SideTable`. -/
structure SideTable where
  slots : Fin kSlotCount → Slot := fun _ => {}

namespace SideTable

/-- Change one slot. -/
def update (t : SideTable) (i : Fin kSlotCount) (f : Slot → Slot) : SideTable :=
  ⟨Function.update t.slots i (f (t.slots i))⟩

/-- The stores of `Mark`, in their order. -/
def storeSensorUs (t : SideTable) (i : Fin kSlotCount) (sensorUs : ℤ) : SideTable :=
  t.update i fun slot => { slot with sensorUs }

def storeSeq (t : SideTable) (i : Fin kSlotCount) (seq : UInt32) : SideTable :=
  t.update i fun slot => { slot with seq }

def storeKey (t : SideTable) (i : Fin kSlotCount) (key : ℤ) : SideTable :=
  t.update i fun slot => { slot with key }

/-- `Mark`. -/
def mark (t : SideTable) (key sensorUs : ℤ) (seq : UInt32) : SideTable :=
  let i := slotOf key
  ((t.storeSensorUs i sensorUs).storeSeq i seq).storeKey i key

/-- `Lookup`. -/
def lookup (t : SideTable) (key : ℤ) : CaptureInfo :=
  let slot := t.slots (slotOf key)
  if slot.key ≠ key then {} else ⟨slot.sensorUs, slot.seq⟩

@[simp] theorem update_self (t : SideTable) (i : Fin kSlotCount) (f : Slot → Slot) :
    (t.update i f).slots i = f (t.slots i) := Function.update_self _ _ _

@[simp] theorem update_of_ne {i j : Fin kSlotCount} (h : j ≠ i) (t : SideTable)
    (f : Slot → Slot) : (t.update i f).slots j = t.slots j := Function.update_of_ne h _ _

section Fields

variable (t : SideTable) (i j : Fin kSlotCount)

@[simp] theorem storeSensorUs_sensorUs (v : ℤ) :
    ((t.storeSensorUs i v).slots j).sensorUs = if j = i then v else (t.slots j).sensorUs := by
  rw [storeSensorUs]
  split_ifs with h
  · rw [h, update_self]
  · rw [update_of_ne h]

@[simp] theorem storeSensorUs_seq (v : ℤ) :
    ((t.storeSensorUs i v).slots j).seq = (t.slots j).seq := by
  by_cases h : j = i
  · rw [h, storeSensorUs, update_self]
  · rw [storeSensorUs, update_of_ne h]

@[simp] theorem storeSensorUs_key (v : ℤ) :
    ((t.storeSensorUs i v).slots j).key = (t.slots j).key := by
  by_cases h : j = i
  · rw [h, storeSensorUs, update_self]
  · rw [storeSensorUs, update_of_ne h]

@[simp] theorem storeSeq_sensorUs (v : UInt32) :
    ((t.storeSeq i v).slots j).sensorUs = (t.slots j).sensorUs := by
  by_cases h : j = i
  · rw [h, storeSeq, update_self]
  · rw [storeSeq, update_of_ne h]

@[simp] theorem storeSeq_seq (v : UInt32) :
    ((t.storeSeq i v).slots j).seq = if j = i then v else (t.slots j).seq := by
  rw [storeSeq]
  split_ifs with h
  · rw [h, update_self]
  · rw [update_of_ne h]

@[simp] theorem storeSeq_key (v : UInt32) :
    ((t.storeSeq i v).slots j).key = (t.slots j).key := by
  by_cases h : j = i
  · rw [h, storeSeq, update_self]
  · rw [storeSeq, update_of_ne h]

@[simp] theorem storeKey_sensorUs (v : ℤ) :
    ((t.storeKey i v).slots j).sensorUs = (t.slots j).sensorUs := by
  by_cases h : j = i
  · rw [h, storeKey, update_self]
  · rw [storeKey, update_of_ne h]

@[simp] theorem storeKey_seq (v : ℤ) : ((t.storeKey i v).slots j).seq = (t.slots j).seq := by
  by_cases h : j = i
  · rw [h, storeKey, update_self]
  · rw [storeKey, update_of_ne h]

@[simp] theorem storeKey_key (v : ℤ) :
    ((t.storeKey i v).slots j).key = if j = i then v else (t.slots j).key := by
  rw [storeKey]
  split_ifs with h
  · rw [h, update_self]
  · rw [update_of_ne h]

end Fields

/-- **A mark is found** by its key. -/
theorem lookup_mark_self (t : SideTable) (key sensorUs : ℤ) (seq : UInt32) :
    (t.mark key sensorUs seq).lookup key = ⟨sensorUs, seq⟩ := by
  simp [lookup, mark]

/-- One that goes to another slot changes nothing. -/
theorem lookup_mark_of_ne {key key' : ℤ} (h : slotOf key' ≠ slotOf key) (t : SideTable)
    (sensorUs : ℤ) (seq : UInt32) : (t.mark key sensorUs seq).lookup key' = t.lookup key' := by
  simp [lookup, mark, h]

end SideTable

/-! ### Interleaved stores and loads -/

/-- A call of `Mark`. -/
structure MarkCall where
  key : ℤ
  sensorUs : ℤ
  seq : UInt32
  deriving DecidableEq

/-- The writer, by the store that is next. -/
inductive Writer
  | idle
  | storesSeq (m : MarkCall)
  | storesKey (m : MarkCall)
  deriving DecidableEq

/-- The reader, by the load that is next, with what it has loaded before.  History: the number of
    the `Mark` that has stored this. -/
inductive Reader
  | idle
  | loadsSensorUs (key : ℤ)
  | loadsSeq (key sensorUs : ℤ) (sensorBy : Option ℕ)
  deriving DecidableEq

/-- What a `Lookup` returned.  History: the numbers of the calls of `Mark` that have stored it. -/
structure Returned where
  key : ℤ
  info : CaptureInfo
  sensorBy : Option ℕ
  seqBy : Option ℕ

/-- One writer and one reader.  History: the calls of `Mark` that have begun, the number of the last
    one to have stored a sensor time in each slot (the last one to have begun there) and of the
    last one to have stored a sequence number, and what the lookups returned. -/
structure SharedTable where
  table : SideTable := {}
  writer : Writer := .idle
  reader : Reader := .idle
  marks : List MarkCall := []
  sensorBy : Fin kSlotCount → Option ℕ := fun _ => none
  seqBy : Fin kSlotCount → Option ℕ := fun _ => none
  returned : List Returned := []

/-- The stores and the loads. -/
inductive TableAccess
  /-- `Mark` begins and stores the sensor time. -/
  | mark (m : MarkCall)
  | storeSeq
  | storeKey
  /-- `Lookup` begins and loads the key. -/
  | lookup (key : ℤ)
  | loadSensorUs
  | loadSeq
  deriving DecidableEq

def SharedTable.step (s : SharedTable) : TableAccess → Option SharedTable
  | .mark m =>
    match s.writer with
    | .idle => some { s with
        table := s.table.storeSensorUs (slotOf m.key) m.sensorUs
        writer := .storesSeq m
        marks := s.marks ++ [m]
        sensorBy := Function.update s.sensorBy (slotOf m.key) (some s.marks.length) }
    | _ => none
  | .storeSeq =>
    match s.writer with
    | .storesSeq m => some { s with
        table := s.table.storeSeq (slotOf m.key) m.seq
        writer := .storesKey m
        seqBy := Function.update s.seqBy (slotOf m.key) (some (s.marks.length - 1)) }
    | _ => none
  | .storeKey =>
    match s.writer with
    | .storesKey m => some { s with
        table := s.table.storeKey (slotOf m.key) m.key
        writer := .idle }
    | _ => none
  | .lookup key =>
    match s.reader with
    | .idle =>
      if (s.table.slots (slotOf key)).key ≠ key then
        some { s with returned := ⟨key, {}, none, none⟩ :: s.returned }
      else some { s with reader := .loadsSensorUs key }
    | _ => none
  | .loadSensorUs =>
    match s.reader with
    | .loadsSensorUs key => some { s with
        reader := .loadsSeq key (s.table.slots (slotOf key)).sensorUs (s.sensorBy (slotOf key)) }
    | _ => none
  | .loadSeq =>
    match s.reader with
    | .loadsSeq key sensorUs sensorBy =>
      let info := ⟨sensorUs, (s.table.slots (slotOf key)).seq⟩
      some { s with
        reader := .idle
        returned := ⟨key, info, sensorBy, s.seqBy (slotOf key)⟩ :: s.returned }
    | _ => none

/-- Every interleaving of one writer and one reader. -/
def sharedTable : Machine SharedTable TableAccess where
  init := {}
  step := SharedTable.step

/-- **Frames are not mixed**: a lookup returns nothing, or a sensor time and a sequence number that
    one `Mark` with its key has stored. -/
def Unmixed (s : SharedTable) : Prop :=
  ∀ r ∈ s.returned, r.info = {} ∨ ∃ m ∈ s.marks, m.key = r.key ∧ r.info = ⟨m.sensorUs, m.seq⟩

/-- The same of the stores themselves: what a lookup has loaded was never stored, or both by the
    same `Mark` with its key. -/
def Traced (s : SharedTable) : Prop :=
  ∀ r ∈ s.returned, r.sensorBy = r.seqBy ∧ ∀ n ∈ r.sensorBy, ∃ m ∈ s.marks[n]?, m.key = r.key

/-- When a lookup loads the sequence number, the last `Mark` to have stored one in its slot is the
    one that had begun there last when it loaded the sensor time, and that one is for its key. -/
def InOneMark (s : SharedTable) : TableAccess → Prop
  | .loadSeq =>
    match s.reader with
    | .loadsSeq key _ sensorBy =>
      sensorBy = s.seqBy (slotOf key) ∧ ∀ n ∈ sensorBy, ∃ m ∈ s.marks[n]?, m.key = key
    | _ => True
  | _ => True

/-- No `Mark` begins in the slot of a running lookup, and no lookup in the slot of a running
    `Mark`. -/
def Apart (s : SharedTable) : TableAccess → Prop
  | .mark m =>
    match s.reader with
    | .idle => True
    | .loadsSensorUs key => slotOf m.key ≠ slotOf key
    | .loadsSeq key _ _ => slotOf m.key ≠ slotOf key
  | .lookup key =>
    match s.writer with
    | .idle => True
    | .storesSeq m => slotOf m.key ≠ slotOf key
    | .storesKey m => slotOf m.key ≠ slotOf key
  | _ => True

/-! ### What a step does -/

section Step

variable {s s' : SharedTable} {m : MarkCall} {key : ℤ}

theorem step_mark (h : s.step (.mark m) = some s') :
    s.writer = .idle ∧ s' = { s with
      table := s.table.storeSensorUs (slotOf m.key) m.sensorUs
      writer := .storesSeq m
      marks := s.marks ++ [m]
      sensorBy := Function.update s.sensorBy (slotOf m.key) (some s.marks.length) } := by
  rw [SharedTable.step] at h
  split at h
  · next hw => exact ⟨hw, (Option.some.inj h).symm⟩
  · exact absurd h nofun

theorem step_storeSeq (h : s.step .storeSeq = some s') :
    ∃ m, s.writer = .storesSeq m ∧ s' = { s with
      table := s.table.storeSeq (slotOf m.key) m.seq
      writer := .storesKey m
      seqBy := Function.update s.seqBy (slotOf m.key) (some (s.marks.length - 1)) } := by
  rw [SharedTable.step] at h
  split at h
  · next m hw => exact ⟨m, hw, (Option.some.inj h).symm⟩
  · exact absurd h nofun

theorem step_storeKey (h : s.step .storeKey = some s') :
    ∃ m, s.writer = .storesKey m ∧ s' = { s with
      table := s.table.storeKey (slotOf m.key) m.key
      writer := .idle } := by
  rw [SharedTable.step] at h
  split at h
  · next m hw => exact ⟨m, hw, (Option.some.inj h).symm⟩
  · exact absurd h nofun

/-- A lookup that does not see its key returns at once. -/
theorem step_lookup (h : s.step (.lookup key) = some s') :
    s.reader = .idle ∧
      ((s.table.slots (slotOf key)).key ≠ key ∧
          s' = { s with returned := ⟨key, {}, none, none⟩ :: s.returned } ∨
        (s.table.slots (slotOf key)).key = key ∧ s' = { s with reader := .loadsSensorUs key }) := by
  rw [SharedTable.step] at h
  split at h
  · next hr =>
    split_ifs at h with hkey
    · exact ⟨hr, .inl ⟨hkey, (Option.some.inj h).symm⟩⟩
    · exact ⟨hr, .inr ⟨not_not.mp hkey, (Option.some.inj h).symm⟩⟩
  · exact absurd h nofun

theorem step_loadSensorUs (h : s.step .loadSensorUs = some s') :
    ∃ key, s.reader = .loadsSensorUs key ∧ s' = { s with
      reader := .loadsSeq key (s.table.slots (slotOf key)).sensorUs
        (s.sensorBy (slotOf key)) } := by
  rw [SharedTable.step] at h
  split at h
  · next key hr => exact ⟨key, hr, (Option.some.inj h).symm⟩
  · exact absurd h nofun

theorem step_loadSeq (h : s.step .loadSeq = some s') :
    ∃ key sensorUs sensorBy, s.reader = .loadsSeq key sensorUs sensorBy ∧ s' = { s with
      reader := .idle
      returned := ⟨key, ⟨sensorUs, (s.table.slots (slotOf key)).seq⟩, sensorBy,
        s.seqBy (slotOf key)⟩ :: s.returned } := by
  rw [SharedTable.step] at h
  split at h
  · next key sensorUs sensorBy hr => exact ⟨key, sensorUs, sensorBy, hr, (Option.some.inj h).symm⟩
  · exact absurd h nofun

end Step

/-! ### Who has stored what -/

/-- A value was stored by the call of `Mark` with some number, or is still the first one. -/
def Held {β : Type} (marks : List MarkCall) (f : MarkCall → β) (first v : β) (n : Option ℕ) :
    Prop :=
  match n with
  | none => v = first
  | some n => ∃ m ∈ marks[n]?, f m = v

theorem Held.append {β : Type} {marks : List MarkCall} {f : MarkCall → β} {first v : β}
    {n : Option ℕ} (h : Held marks f first v n) (m : MarkCall) :
    Held (marks ++ [m]) f first v n := by
  cases n with
  | none => exact h
  | some n =>
    obtain ⟨m', hm', hv⟩ := h
    refine ⟨m', ?_, hv⟩
    rw [List.getElem?_append_left (List.getElem?_eq_some_iff.mp hm').1]
    exact hm'

/-- The values in the table, in the hands of the reader and in what was returned are known with
    the calls that have stored them. -/
structure TableInv (s : SharedTable) : Prop where
  writing : ∀ m, s.writer = .storesSeq m ∨ s.writer = .storesKey m →
    m ∈ s.marks[s.marks.length - 1]?
  sensor_held : ∀ i, Held s.marks MarkCall.sensorUs 0 (s.table.slots i).sensorUs (s.sensorBy i)
  seq_held : ∀ i, Held s.marks MarkCall.seq 0 (s.table.slots i).seq (s.seqBy i)
  reader_held : ∀ key v n, s.reader = .loadsSeq key v n → Held s.marks MarkCall.sensorUs 0 v n
  returned_held : ∀ r ∈ s.returned, Held s.marks MarkCall.sensorUs 0 r.info.sensorUs r.sensorBy ∧
    Held s.marks MarkCall.seq 0 r.info.seq r.seqBy

theorem tableInv_init : TableInv {} :=
  ⟨fun _ h => h.elim nofun nofun, fun _ => rfl, fun _ => rfl, nofun, nofun⟩

theorem tableInv_step (s : SharedTable) (a : TableAccess) (s' : SharedTable) (h : TableInv s)
    (hstep : s.step a = some s') : TableInv s' := by
  cases a with
  | mark m =>
    obtain ⟨hw, rfl⟩ := step_mark hstep
    have hnew : (s.marks ++ [m])[s.marks.length]? = some m := List.getElem?_concat_length
    refine ⟨?_, fun i => ?_, fun i => ?_, ?_, ?_⟩
    · rintro m' (hm | hm)
      · obtain rfl := Writer.storesSeq.inj hm
        rw [List.length_append]
        exact hnew
      · exact absurd hm nofun
    · rw [SideTable.storeSensorUs_sensorUs]
      by_cases hi : i = slotOf m.key
      · rw [if_pos hi, hi]
        show Held _ _ _ _ (Function.update s.sensorBy _ _ _)
        rw [Function.update_self]
        exact ⟨m, hnew, rfl⟩
      · rw [if_neg hi]
        show Held _ _ _ _ (Function.update s.sensorBy _ _ i)
        rw [Function.update_of_ne hi]
        exact (h.sensor_held i).append m
    · rw [SideTable.storeSensorUs_seq]
      exact (h.seq_held i).append m
    · exact fun key v n hr => (h.reader_held key v n hr).append m
    · exact fun r hr => ⟨(h.returned_held r hr).1.append m, (h.returned_held r hr).2.append m⟩
  | storeSeq =>
    obtain ⟨m, hw, rfl⟩ := step_storeSeq hstep
    refine ⟨?_, fun i => ?_, fun i => ?_, h.reader_held, h.returned_held⟩
    · rintro m' (hm | hm)
      · exact absurd hm nofun
      · obtain rfl := Writer.storesKey.inj hm
        exact h.writing m (.inl hw)
    · rw [SideTable.storeSeq_sensorUs]
      exact h.sensor_held i
    · rw [SideTable.storeSeq_seq]
      by_cases hi : i = slotOf m.key
      · rw [if_pos hi, hi]
        show Held _ _ _ _ (Function.update s.seqBy _ _ _)
        rw [Function.update_self]
        exact ⟨m, h.writing m (.inl hw), rfl⟩
      · rw [if_neg hi]
        show Held _ _ _ _ (Function.update s.seqBy _ _ i)
        rw [Function.update_of_ne hi]
        exact h.seq_held i
  | storeKey =>
    obtain ⟨m, hw, rfl⟩ := step_storeKey hstep
    refine ⟨fun m' hm => hm.elim nofun nofun, fun i => ?_, fun i => ?_, h.reader_held,
      h.returned_held⟩
    · rw [SideTable.storeKey_sensorUs]
      exact h.sensor_held i
    · rw [SideTable.storeKey_seq]
      exact h.seq_held i
  | lookup key =>
    obtain ⟨hr, ⟨-, rfl⟩ | ⟨-, rfl⟩⟩ := step_lookup hstep
    · refine ⟨h.writing, h.sensor_held, h.seq_held, h.reader_held, fun r hmem => ?_⟩
      rcases List.mem_cons.mp hmem with rfl | hmem
      · exact ⟨rfl, rfl⟩
      · exact h.returned_held r hmem
    · exact ⟨h.writing, h.sensor_held, h.seq_held, nofun, h.returned_held⟩
  | loadSensorUs =>
    obtain ⟨key, hr, rfl⟩ := step_loadSensorUs hstep
    refine ⟨h.writing, h.sensor_held, h.seq_held, fun key' v n heq => ?_, h.returned_held⟩
    obtain ⟨rfl, rfl, rfl⟩ := Reader.loadsSeq.inj heq
    exact h.sensor_held _
  | loadSeq =>
    obtain ⟨key, v, n, hr, rfl⟩ := step_loadSeq hstep
    refine ⟨h.writing, h.sensor_held, h.seq_held, nofun, fun r hmem => ?_⟩
    rcases List.mem_cons.mp hmem with rfl | hmem
    · exact ⟨h.reader_held key v n hr, h.seq_held _⟩
    · exact h.returned_held r hmem

/-- What was stored by one `Mark` is not mixed. -/
theorem TableInv.unmixed {s : SharedTable} (h : TableInv s) (htraced : Traced s) : Unmixed s := by
  intro r hr
  obtain ⟨heq, hkey⟩ := htraced r hr
  obtain ⟨hsensor, hseq⟩ := h.returned_held r hr
  rw [← heq] at hseq
  cases hn : r.sensorBy with
  | none =>
    rw [hn] at hsensor hseq
    refine .inl ?_
    calc r.info = ⟨r.info.sensorUs, r.info.seq⟩ := rfl
      _ = {} := by rw [show r.info.sensorUs = 0 from hsensor, show r.info.seq = 0 from hseq]
  | some n =>
    rw [hn] at hsensor hseq
    obtain ⟨m, hm, hmkey⟩ := hkey n hn
    obtain ⟨m', hm', hv⟩ := hsensor
    obtain rfl := Option.some.inj (hm.symm.trans hm')
    obtain ⟨m', hm', hv'⟩ := hseq
    obtain rfl := Option.some.inj (hm.symm.trans hm')
    refine .inr ⟨m, List.mem_of_getElem? hm, hmkey, ?_⟩
    rw [hv, hv']

/-- Calls of `Mark` that begin later do not matter to what was returned. -/
theorem Traced.append {s s' : SharedTable} {m : MarkCall} (h : Traced s)
    (hmarks : s'.marks = s.marks ++ [m]) (hreturned : s'.returned = s.returned) : Traced s' := by
  intro r hr
  rw [hreturned] at hr
  refine ⟨(h r hr).1, fun n hn => ?_⟩
  obtain ⟨m', hm', hkey⟩ := (h r hr).2 n hn
  refine ⟨m', ?_, hkey⟩
  rw [hmarks, List.getElem?_append_left (List.getElem?_eq_some_iff.mp hm').1]
  exact hm'

/-- **What a step does to the lookups**: one that loads its sequence number is the only one that
    matters. -/
theorem traced_step_iff (s : SharedTable) (a : TableAccess) (s' : SharedTable) (h : Traced s)
    (hstep : s.step a = some s') : Traced s' ↔ InOneMark s a := by
  cases a with
  | mark m =>
    obtain ⟨-, rfl⟩ := step_mark hstep
    exact iff_of_true (h.append rfl rfl) trivial
  | storeSeq =>
    obtain ⟨m, -, rfl⟩ := step_storeSeq hstep
    exact iff_of_true h trivial
  | storeKey =>
    obtain ⟨m, -, rfl⟩ := step_storeKey hstep
    exact iff_of_true h trivial
  | lookup key =>
    obtain ⟨-, ⟨-, rfl⟩ | ⟨-, rfl⟩⟩ := step_lookup hstep
    · refine iff_of_true (fun r hr => ?_) trivial
      rcases List.mem_cons.mp hr with rfl | hr
      · exact ⟨rfl, nofun⟩
      · exact h r hr
    · exact iff_of_true h trivial
  | loadSensorUs =>
    obtain ⟨key, -, rfl⟩ := step_loadSensorUs hstep
    exact iff_of_true h trivial
  | loadSeq =>
    obtain ⟨key, v, n, hr, rfl⟩ := step_loadSeq hstep
    rw [InOneMark, hr]
    refine ⟨fun h' => h' _ List.mem_cons_self, fun hg r hmem => ?_⟩
    rcases List.mem_cons.mp hmem with rfl | hmem
    · exact hg
    · exact h r hmem

/-! ### Lookups apart from marks -/

/-- The call of `Mark` that runs. -/
def Writer.call : Writer → Option MarkCall
  | .idle => none
  | .storesSeq m => some m
  | .storesKey m => some m

/-- The key of the lookup that runs. -/
def Reader.key : Reader → Option ℤ
  | .idle => none
  | .loadsSensorUs key => some key
  | .loadsSeq key _ _ => some key

/-- A slot that no `Mark` is writing to has the sensor time, the sequence number and the key of
    one `Mark`, and that is so of the slot of a running lookup. -/
structure Settled (s : SharedTable) : Prop where
  slot : ∀ i, (∀ m ∈ s.writer.call, slotOf m.key ≠ i) → s.sensorBy i = s.seqBy i ∧
    ∀ n ∈ s.sensorBy i, ∃ m ∈ s.marks[n]?, m.key = (s.table.slots i).key
  writing : ∀ m ∈ s.writer.call, s.marks[s.marks.length - 1]? = some m ∧
    s.sensorBy (slotOf m.key) = some (s.marks.length - 1)
  stored : ∀ m, s.writer = .storesKey m → s.seqBy (slotOf m.key) = some (s.marks.length - 1)
  apart : ∀ key ∈ s.reader.key, (s.table.slots (slotOf key)).key = key ∧
    ∀ m ∈ s.writer.call, slotOf m.key ≠ slotOf key
  loaded : ∀ key v n, s.reader = .loadsSeq key v n → n = s.sensorBy (slotOf key)

theorem settled_init : Settled {} :=
  ⟨fun _ _ => ⟨rfl, nofun⟩, nofun, nofun, nofun, nofun⟩

theorem apart_mark_iff {s : SharedTable} {m : MarkCall} :
    Apart s (.mark m) ↔ ∀ key ∈ s.reader.key, slotOf m.key ≠ slotOf key := by
  rw [Apart]
  cases s.reader with
  | idle => exact iff_of_true trivial nofun
  | loadsSensorUs key => exact ⟨fun h _ hk => Option.some.inj hk ▸ h, fun h => h key rfl⟩
  | loadsSeq key v n => exact ⟨fun h _ hk => Option.some.inj hk ▸ h, fun h => h key rfl⟩

theorem apart_lookup_iff {s : SharedTable} {key : ℤ} :
    Apart s (.lookup key) ↔ ∀ m ∈ s.writer.call, slotOf m.key ≠ slotOf key := by
  rw [Apart]
  cases s.writer with
  | idle => exact iff_of_true trivial nofun
  | storesSeq m => exact ⟨fun h _ hm => Option.some.inj hm ▸ h, fun h => h m rfl⟩
  | storesKey m => exact ⟨fun h _ hm => Option.some.inj hm ▸ h, fun h => h m rfl⟩

instance (s : SharedTable) : DecidablePred (Apart s)
  | .mark _ => decidable_of_iff _ apart_mark_iff.symm
  | .lookup _ => decidable_of_iff _ apart_lookup_iff.symm
  | .storeSeq => .isTrue trivial
  | .storeKey => .isTrue trivial
  | .loadSensorUs => .isTrue trivial
  | .loadSeq => .isTrue trivial

theorem settled_step (s : SharedTable) (a : TableAccess) (s' : SharedTable) (h : Settled s)
    (hg : Apart s a) (hstep : s.step a = some s') : Settled s' := by
  cases a with
  | mark m =>
    obtain ⟨hw, rfl⟩ := step_mark hstep
    rw [apart_mark_iff] at hg
    have hcall : s.writer.call = none := by rw [hw, Writer.call]
    refine ⟨fun i hi => ?_, fun m' hm' => ?_, nofun, fun key hkey => ?_, fun key v n hr => ?_⟩
    · have hne : i ≠ slotOf m.key := (hi m rfl).symm
      obtain ⟨heq, hmarks⟩ := h.slot i (by rw [hcall]; nofun)
      show Function.update s.sensorBy _ _ i = s.seqBy i ∧ ∀ n ∈ Function.update s.sensorBy _ _ i, _
      rw [Function.update_of_ne hne]
      refine ⟨heq, fun n hn => ?_⟩
      obtain ⟨m', hm', hkey⟩ := hmarks n hn
      refine ⟨m', ?_, hkey.trans (SideTable.storeSensorUs_key _ _ _ _).symm⟩
      rw [List.getElem?_append_left (List.getElem?_eq_some_iff.mp hm').1]
      exact hm'
    · obtain rfl := Option.some.inj hm'
      rw [List.length_append]
      exact ⟨List.getElem?_concat_length, Function.update_self _ _ _⟩
    · obtain ⟨heq, -⟩ := h.apart key hkey
      refine ⟨(SideTable.storeSensorUs_key _ _ _ _).trans heq, fun m' hm' => ?_⟩
      rw [← Option.some.inj hm']
      exact hg key hkey
    · have hne := (hg key (by rw [show s.reader = _ from hr]; rfl)).symm
      show n = Function.update s.sensorBy _ _ (slotOf key)
      rw [Function.update_of_ne hne]
      exact h.loaded key v n hr
  | storeSeq =>
    obtain ⟨m, hw, rfl⟩ := step_storeSeq hstep
    have hcall : s.writer.call = some m := by rw [hw, Writer.call]
    refine ⟨fun i hi => ?_, fun m' hm' => h.writing m' (hcall.trans hm'), fun m' hm' => ?_,
      fun key hkey => ?_, h.loaded⟩
    · have hne : i ≠ slotOf m.key := (hi m rfl).symm
      obtain ⟨heq, hmarks⟩ := h.slot i (by rw [hcall]; exact hi)
      show s.sensorBy i = Function.update s.seqBy _ _ i ∧ _
      rw [Function.update_of_ne hne, SideTable.storeSeq_key]
      exact ⟨heq, hmarks⟩
    · obtain rfl := Writer.storesKey.inj hm'
      exact Function.update_self _ _ _
    · rw [SideTable.storeSeq_key]
      obtain ⟨heq, hne⟩ := h.apart key hkey
      exact ⟨heq, fun m' hm' => hne m' (hcall.trans hm')⟩
  | storeKey =>
    obtain ⟨m, hw, rfl⟩ := step_storeKey hstep
    have hcall : s.writer.call = some m := by rw [hw, Writer.call]
    obtain ⟨hlast, hsensor⟩ := h.writing m hcall
    refine ⟨fun i _ => ?_, nofun, nofun, fun key hkey => ⟨?_, nofun⟩, h.loaded⟩
    · rw [SideTable.storeKey_key]
      by_cases hi : i = slotOf m.key
      · rw [if_pos hi, hi]
        refine ⟨hsensor.trans (h.stored m hw).symm, fun n hn => ⟨m, ?_, rfl⟩⟩
        obtain rfl := Option.some.inj (hsensor.symm.trans hn)
        exact hlast
      · rw [if_neg hi]
        refine h.slot i fun m' hm' => ?_
        obtain rfl := Option.some.inj (hcall.symm.trans hm')
        exact fun heq => hi heq.symm
    · obtain ⟨heq, hne⟩ := h.apart key hkey
      rw [SideTable.storeKey_key, if_neg (hne m hcall).symm]
      exact heq
  | lookup key =>
    rw [apart_lookup_iff] at hg
    obtain ⟨hr, ⟨-, rfl⟩ | ⟨hkey, rfl⟩⟩ := step_lookup hstep
    · exact ⟨h.slot, h.writing, h.stored, h.apart, h.loaded⟩
    · refine ⟨h.slot, h.writing, h.stored, fun key' hkey' => ?_, nofun⟩
      obtain rfl := Option.some.inj hkey'
      exact ⟨hkey, hg⟩
  | loadSensorUs =>
    obtain ⟨key, hr, rfl⟩ := step_loadSensorUs hstep
    refine ⟨h.slot, h.writing, h.stored, fun key' hkey' => ?_, fun key' v n heq => ?_⟩
    · obtain rfl := Option.some.inj hkey'
      exact h.apart key (by rw [hr]; rfl)
    · obtain ⟨rfl, -, rfl⟩ := Reader.loadsSeq.inj heq
      rfl
  | loadSeq =>
    obtain ⟨key, v, n, hr, rfl⟩ := step_loadSeq hstep
    exact ⟨h.slot, h.writing, h.stored, nofun, nofun⟩

theorem Settled.inOneMark {s : SharedTable} (h : Settled s) (a : TableAccess) :
    InOneMark s a := by
  cases a with
  | loadSeq =>
    rw [InOneMark]
    cases hr : s.reader with
    | loadsSeq key v n =>
      obtain ⟨hkey, hne⟩ := h.apart key (by rw [hr]; rfl)
      obtain ⟨heq, hmarks⟩ := h.slot (slotOf key) hne
      rw [hkey, ← h.loaded key v n hr] at hmarks
      exact ⟨(h.loaded key v n hr).trans heq, hmarks⟩
    | _ => trivial
  | _ => trivial

/-- A lookup that stays with one mark in each of its loads does not mix frames. -/
theorem unmixed_of_inOneMark {as : List TableAccess} (hg : sharedTable.Guarded InOneMark {} as) :
    sharedTable.Always Unmixed {} as := by
  intro bs hbs t ht
  have hinv : TableInv t := Machine.runFrom_invariant tableInv_step tableInv_init ht
  refine hinv.unmixed (Machine.always_of_guarded ?_ nofun hg bs hbs t ht)
  exact fun s a s' h hg hstep => (traced_step_iff s a s' h hstep).mpr hg

/-- **Frames are not mixed** as long as marks and lookups of one slot do not overlap, and, more
    generally, as long as each lookup stays with one mark: exactly then its loads are traced. -/
theorem lookups_traced_iff (as : List TableAccess) (s : SharedTable)
    (hrun : sharedTable.run as = some s) :
    (sharedTable.Guarded Apart {} as → sharedTable.Always Unmixed {} as) ∧
    (sharedTable.Guarded InOneMark {} as → sharedTable.Always Unmixed {} as) ∧
    (sharedTable.Always Traced {} as ↔ sharedTable.Guarded InOneMark {} as) ∧
    (sharedTable.Guarded Apart {} as → sharedTable.Guarded InOneMark {} as) := by
  have hapart (hg : sharedTable.Guarded Apart {} as) : sharedTable.Guarded InOneMark {} as :=
    hg.imp (I := Settled) settled_step (fun s a h _ => h.inOneMark a) settled_init
  refine ⟨fun hg => unmixed_of_inOneMark (hapart hg), unmixed_of_inOneMark, ?_, hapart⟩
  exact Machine.always_iff_guarded (fun s a s' hinv _ hstep _ => tableInv_step s a s' hinv hstep)
    (fun s a s' _ h hstep => traced_step_iff s a s' h hstep) tableInv_init nofun hrun

/-- Two frames, the keys of which share a slot: the second one is marked while the first one is
    looked up. -/
def reusedSlot : List TableAccess :=
  [.mark ⟨1, 100, 1⟩, .storeSeq, .storeKey, .lookup 1, .loadSensorUs,
    .mark ⟨988, 200, 2⟩, .storeSeq, .loadSeq]

/-- The lookup returns the sensor time of the one and the number of the other. -/
theorem not_unmixed_reusedSlot : ∃ s, sharedTable.run reusedSlot = some s ∧ ¬ Unmixed s := by
  refine ⟨_, rfl, fun h => ?_⟩
  rcases h ⟨1, ⟨100, 2⟩, some 0, some 1⟩ List.mem_cons_self with hinfo | ⟨m, hm, -, hinfo⟩
  · exact absurd hinfo (by decide)
  · rcases List.mem_pair.mp hm with rfl | rfl
    · exact absurd hinfo (by decide)
    · exact absurd hinfo (by decide)

/-- The second frame goes to another slot. -/
def otherSlot : List TableAccess :=
  [.mark ⟨1, 100, 1⟩, .storeSeq, .storeKey, .lookup 1, .loadSensorUs,
    .mark ⟨2, 200, 2⟩, .storeSeq, .loadSeq]

theorem lookups_traced_iff_otherSlot : sharedTable.Always Unmixed {} otherSlot :=
  (lookups_traced_iff otherSlot _ rfl).1 (by decide)

end PiWebrtc.Common
