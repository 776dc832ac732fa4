import Mathlib.Data.List.Induction
import Mathlib.Order.Bounds.Basic
import Mathlib.Order.MinMax
import PiWebrtc.Lib.OrderStatistics

namespace PiWebrtc.Common

open OrderStatistics

/-!
# Latency percentiles

A stage of the pipeline counts its durations in 256 buckets of half a millisecond, the last one
of which takes whatever is longer, in 32-bit counters.  `TakeSnapshot` reads two percentiles at
the upper edges of their buckets, so that none of them reads as faster than it was, and empties
the histogram.

* `buckets_foldl_record` — what the counters say;
* `takeSnapshot_snd` — a snapshot leaves the histogram as it was at the start;
* `percentilesFrom_eq` — the loop finds the buckets of both ranks;
* `snapshot_sound_iff` — for which durations the snapshot is sound: as long as no counter wraps
  these are the ones whose 95th percentile is no longer than 128 ms.
-/

/-! ### The source -/

def kBucketCount : ℕ := 256

/-- The width of a bucket in microseconds. -/
def kBucketWidthUs : ℤ := 500

def int64Max : ℤ := 2 ^ 63 - 1

structure Histogram where
  buckets : List ℕ
  maxUs : ℤ
  minUs : ℤ
  deriving DecidableEq

/-- The histogram of a stage, as `Start` leaves it. -/
def Histogram.start : Histogram := ⟨List.replicate kBucketCount 0, 0, int64Max⟩

structure Snapshot where
  count : ℕ := 0
  p50Us : ℤ := 0
  p95Us : ℤ := 0
  minUs : ℤ := 0
  maxUs : ℤ := 0
  deriving DecidableEq

/-- What is recorded of a duration. -/
def clamp (durationUs : ℤ) : ℤ := if durationUs < 0 then 0 else durationUs

/-- The bucket of a recorded duration. -/
def bucketOf (durationUs : ℤ) : ℕ :=
  let bucket := durationUs / kBucketWidthUs
  if bucket ≥ kBucketCount then kBucketCount - 1 else bucket.toNat

/-- `Record`.  The counters have 32 bits. -/
def Histogram.record (hist : Histogram) (durationUs : ℤ) : Histogram :=
  let durationUs := clamp durationUs
  { buckets := hist.buckets.modify (bucketOf durationUs) fun n => (n + 1) % 2 ^ 32
    maxUs := if durationUs > hist.maxUs then durationUs else hist.maxUs
    minUs := if durationUs < hist.minUs then durationUs else hist.minUs }

/-- The upper edge of a bucket. -/
def upperEdge (i : ℕ) : ℤ := (i + 1) * kBucketWidthUs

/-- The loop of `TakeSnapshot`, from the bucket `i` on.  `p50` is there when it is done. -/
def percentilesFrom (p50Target p95Target : ℕ) :
    ℕ → ℕ → Option ℤ → List ℕ → ℤ × ℤ
  | _, _, p50, [] => (p50.getD 0, 0)
  | i, cumulative, p50, count :: counts =>
    let cumulative := cumulative + count
    let p50 := if p50 = none ∧ cumulative > p50Target then some (upperEdge i) else p50
    if cumulative > p95Target then (p50.getD 0, upperEdge i)
    else percentilesFrom p50Target p95Target (i + 1) cumulative p50 counts

/-- `TakeSnapshot`: the snapshot, and what is left of the histogram. -/
def Histogram.takeSnapshot (hist : Histogram) : Snapshot × Histogram :=
  let total := hist.buckets.sum
  let minUs := if hist.minUs = int64Max then 0 else hist.minUs
  let snap : Snapshot := { count := total, minUs, maxUs := hist.maxUs }
  let left : Histogram := ⟨hist.buckets.map fun _ => 0, 0, int64Max⟩
  if total = 0 then (snap, left)
  else
    let (p50, p95) := percentilesFrom (total / 2) (total * 95 / 100) 0 0 none hist.buckets
    let p95 := min p95 hist.maxUs
    ({ snap with p50Us := min p50 p95, p95Us := p95 }, left)

/-! ### What is asked for -/

/-- The durations as they are recorded. -/
def recorded (durations : List ℤ) : List ℤ := durations.map clamp

/-- The snapshot of some durations. -/
def snapshotOf (durations : List ℤ) : Snapshot :=
  (durations.foldl Histogram.record .start).takeSnapshot.1

/-- The exact value of a percentile. -/
def exactP50 (durations : List ℤ) : ℤ := orderStat (recorded durations) (durations.length / 2)

def exactP95 (durations : List ℤ) : ℤ :=
  orderStat (recorded durations) (95 * durations.length / 100)

/-- **A sound snapshot**: nothing reads as faster than it was. -/
structure Sound (durations : List ℤ) (snap : Snapshot) : Prop where
  min_le_p50 : snap.minUs ≤ snap.p50Us
  p50_le_p95 : snap.p50Us ≤ snap.p95Us
  p95_le_max : snap.p95Us ≤ snap.maxUs
  min_eq : IsLeast {d | d ∈ recorded durations} snap.minUs
  max_eq : IsGreatest {d | d ∈ recorded durations} snap.maxUs
  p50_le : exactP50 durations ≤ snap.p50Us
  p95_le : exactP95 durations ≤ snap.p95Us

/-! ### When it is so -/

/-- What the counters say. -/
def counted (durations : List ℤ) : List ℕ :=
  (List.range kBucketCount).map fun i => (recorded durations).countP (bucketOf · = i) % 2 ^ 32

/-- How many buckets have an upper edge below `v`. -/
def edgesBelow (v : ℤ) : ℕ := ((v - 1) / kBucketWidthUs).toNat

/-- How many durations are in these, as the counters say. -/
def readBelow (durations : List ℤ) (v : ℤ) : ℕ := ((counted durations).take (edgesBelow v)).sum

/-- No percentile is counted as less than it is.  Where all counters say zero, almost all
    durations have to be zero too. -/
def ReadsAsSlow (durations : List ℤ) : Prop :=
  if (counted durations).sum = 0 then exactP95 durations = 0
  else readBelow durations (exactP50 durations) ≤ (counted durations).sum / 2 ∧
    readBelow durations (exactP95 durations) ≤ (counted durations).sum * 95 / 100

/-! ### Buckets -/

theorem clamp_nonneg (d : ℤ) : 0 ≤ clamp d := by
  rw [clamp]
  split_ifs with h
  · exact le_rfl
  · exact not_lt.mp h

theorem nonneg_of_mem_recorded {ds : List ℤ} {d : ℤ} (h : d ∈ recorded ds) : 0 ≤ d := by
  obtain ⟨c, -, rfl⟩ := List.mem_map.mp h
  exact clamp_nonneg c

theorem bucketOf_lt (d : ℤ) : bucketOf d < kBucketCount := by
  rw [bucketOf, kBucketCount]
  split_ifs with h <;> omega

/-- A duration that is not in the last bucket is below the upper edge of its own. -/
theorem lt_upperEdge {d : ℤ} (h : bucketOf d < kBucketCount - 1) : d < upperEdge (bucketOf d) := by
  rw [bucketOf] at h ⊢
  split_ifs at h ⊢ with hlast
  · exact absurd h (Nat.lt_irrefl _)
  · rw [upperEdge, kBucketWidthUs]
    omega

/-- The edges below `v` come first. -/
theorem upperEdge_lt_iff {i : ℕ} {v : ℤ} : upperEdge i < v ↔ i < edgesBelow v := by
  rw [upperEdge, edgesBelow, kBucketWidthUs]
  omega

theorem le_upperEdge_iff {i : ℕ} {v : ℤ} : v ≤ upperEdge i ↔ edgesBelow v ≤ i := by
  rw [← not_lt, upperEdge_lt_iff, not_lt]

theorem upperEdge_mono {i j : ℕ} (h : i ≤ j) : upperEdge i ≤ upperEdge j := by
  rw [upperEdge, upperEdge, kBucketWidthUs]
  omega

/-! ### What is recorded -/

theorem recorded_append (ds : List ℤ) (d : ℤ) : recorded (ds ++ [d]) = recorded ds ++ [clamp d] :=
  List.map_append

@[simp] theorem length_recorded (ds : List ℤ) : (recorded ds).length = ds.length :=
  List.length_map _

@[simp] theorem length_counted (ds : List ℤ) : (counted ds).length = kBucketCount := by
  rw [counted, List.length_map, List.length_range]

/-- **What the counters say.** -/
theorem buckets_foldl_record (ds : List ℤ) :
    (ds.foldl Histogram.record .start).buckets = counted ds := by
  induction ds using List.reverseRecOn with
  | nil =>
    show List.replicate kBucketCount 0 = (List.range kBucketCount).map fun _ => 0
    rw [List.map_const', List.length_range]
  | append_singleton ds d ih =>
    rw [List.foldl_append]
    show (List.foldl Histogram.record .start ds).buckets.modify (bucketOf (clamp d)) _ = _
    rw [ih]
    refine List.ext_getElem ?_ fun i hi _ => ?_
    · rw [List.length_modify, length_counted, length_counted]
    · have hcount : (recorded (ds ++ [d])).countP (bucketOf · = i) =
          (recorded ds).countP (bucketOf · = i) + if bucketOf (clamp d) = i then 1 else 0 := by
        simp only [recorded_append, List.countP_append, List.countP_singleton, decide_eq_true_eq]
      rw [List.getElem_modify]
      simp only [counted, List.getElem_map, List.getElem_range, hcount]
      split_ifs with h
      · rw [Nat.mod_add_mod]
      · rfl

/-- What the extremes are compared with in the end. -/
structure Extremes (ds : List ℤ) (hist : Histogram) : Prop where
  le_max : ∀ d ∈ recorded ds, d ≤ hist.maxUs
  min_le : ∀ d ∈ recorded ds, hist.minUs ≤ d
  max_mem : ds ≠ [] → hist.maxUs ∈ recorded ds
  min_mem : hist.minUs ≠ int64Max → hist.minUs ∈ recorded ds

theorem Extremes.record {ds : List ℤ} {hist : Histogram} (h : Extremes ds hist)
    (hmax : ds = [] → hist.maxUs = 0) (d : ℤ) : Extremes (ds ++ [d]) (hist.record d) := by
  constructor
  · intro x hx
    rw [recorded_append, List.mem_append, List.mem_singleton] at hx
    show x ≤ if clamp d > hist.maxUs then clamp d else hist.maxUs
    rcases hx with hx | rfl
    · have hle := h.le_max x hx
      split_ifs <;> omega
    · split_ifs <;> omega
  · intro x hx
    rw [recorded_append, List.mem_append, List.mem_singleton] at hx
    show (if clamp d < hist.minUs then clamp d else hist.minUs) ≤ x
    rcases hx with hx | rfl
    · have hle := h.min_le x hx
      split_ifs <;> omega
    · split_ifs <;> omega
  · intro _
    rw [recorded_append, List.mem_append, List.mem_singleton]
    show (if clamp d > hist.maxUs then clamp d else hist.maxUs) ∈ recorded ds ∨
      (if clamp d > hist.maxUs then clamp d else hist.maxUs) = clamp d
    split_ifs with hgt
    · exact .inr rfl
    · rcases eq_or_ne ds [] with hnil | hne
      · -- the first duration is not negative
        rw [hmax hnil] at hgt ⊢
        exact .inr (le_antisymm (clamp_nonneg d) (not_lt.mp hgt))
      · exact .inl (h.max_mem hne)
  · intro hne
    rw [recorded_append, List.mem_append, List.mem_singleton]
    change (if clamp d < hist.minUs then clamp d else hist.minUs) ≠ int64Max at hne
    show (if clamp d < hist.minUs then clamp d else hist.minUs) ∈ recorded ds ∨
      (if clamp d < hist.minUs then clamp d else hist.minUs) = clamp d
    split_ifs at hne ⊢
    · exact .inr rfl
    · exact .inl (h.min_mem hne)

theorem extremes_foldl_record (ds : List ℤ) :
    Extremes ds (ds.foldl Histogram.record .start) := by
  induction ds using List.reverseRecOn with
  | nil => exact ⟨nofun, nofun, fun h => absurd rfl h, fun h => absurd rfl h⟩
  | append_singleton ds d ih =>
    rw [List.foldl_append]
    refine ih.record ?_ d
    rintro rfl
    rfl

/-! ### The loop -/

section Loop

variable {t50 t95 : ℕ} {j : ℕ}

/-- The rest of the loop, when the first percentile is done. -/
theorem percentilesFrom_some {i cumulative : ℕ} {counts : List ℕ} (hcum : cumulative ≤ t95)
    (h95 : firstAbove (t95 - cumulative) counts = some j) (x : ℤ) :
    percentilesFrom t50 t95 i cumulative (some x) counts = (x, upperEdge (i + j)) := by
  induction counts generalizing i cumulative j with
  | nil => exact absurd h95 nofun
  | cons c counts ih =>
    rw [firstAbove] at h95
    show (if cumulative + c > t95 then (x, upperEdge i)
      else percentilesFrom t50 t95 (i + 1) (cumulative + c) (some x) counts) = _
    split_ifs at h95 with hc
    · obtain rfl := Option.some.inj h95
      exact if_pos (by omega)
    · obtain ⟨j, hj, rfl⟩ := Option.map_eq_some_iff.mp h95
      rw [Nat.sub_sub] at hj
      rw [if_neg (by omega), ih (by omega) hj, Nat.add_right_comm i 1 j]
      rfl

/-- **The loop finds the buckets** of both ranks. -/
theorem percentilesFrom_none {i cumulative k : ℕ} {counts : List ℕ} (hcum : cumulative ≤ t50)
    (ht : t50 ≤ t95) (h50 : firstAbove (t50 - cumulative) counts = some k)
    (h95 : firstAbove (t95 - cumulative) counts = some j) :
    percentilesFrom t50 t95 i cumulative none counts =
      (upperEdge (i + k), upperEdge (i + j)) := by
  induction counts generalizing i cumulative j k with
  | nil => exact absurd h95 nofun
  | cons c counts ih =>
    rw [firstAbove] at h50 h95
    rw [percentilesFrom]
    split_ifs at h50 with hk
    · -- the first percentile is in this bucket
      obtain rfl := Option.some.inj h50
      have hfound : cumulative + c > t50 := by omega
      simp only [hfound, and_self, if_true]
      split_ifs at h95 with hj
      · obtain rfl := Option.some.inj h95
        exact if_pos (by omega)
      · obtain ⟨j, hj', rfl⟩ := Option.map_eq_some_iff.mp h95
        rw [Nat.sub_sub] at hj'
        rw [if_neg (by omega), percentilesFrom_some (by omega) hj', Nat.add_right_comm i 1 j]
        rfl
    · obtain ⟨k, hk', rfl⟩ := Option.map_eq_some_iff.mp h50
      rw [if_neg (by omega)] at h95
      obtain ⟨j, hj', rfl⟩ := Option.map_eq_some_iff.mp h95
      rw [Nat.sub_sub] at hk' hj'
      have hnot : ¬ cumulative + c > t50 := by omega
      simp only [hnot, and_false, if_false]
      rw [if_neg (by omega), ih (by omega) hk' hj', Nat.add_right_comm i 1 j,
        Nat.add_right_comm i 1 k]
      rfl

end Loop

/-! ### The snapshot -/

section Snapshot

variable {ds : List ℤ}

/-- The histogram of some durations. -/
abbrev histogramOf (ds : List ℤ) : Histogram := ds.foldl Histogram.record .start

theorem snapshotOf_maxUs (ds : List ℤ) : (snapshotOf ds).maxUs = (histogramOf ds).maxUs := by
  rw [snapshotOf, Histogram.takeSnapshot]
  split_ifs <;> rfl

theorem snapshotOf_minUs (ds : List ℤ) : (snapshotOf ds).minUs =
    if (histogramOf ds).minUs = int64Max then 0 else (histogramOf ds).minUs := by
  rw [snapshotOf, Histogram.takeSnapshot]
  split_ifs <;> rfl

/-- Where all counters say zero, so do the percentiles. -/
theorem snapshotOf_zero (h : (counted ds).sum = 0) :
    (snapshotOf ds).p50Us = 0 ∧ (snapshotOf ds).p95Us = 0 := by
  rw [snapshotOf, Histogram.takeSnapshot, buckets_foldl_record]
  simp only [h, if_true, and_self]

/-- Otherwise they are at the upper edges of their buckets, or at the longest duration. -/
theorem snapshotOf_pos (h : (counted ds).sum ≠ 0) : ∃ i j,
    firstAbove ((counted ds).sum / 2) (counted ds) = some i ∧
    firstAbove ((counted ds).sum * 95 / 100) (counted ds) = some j ∧
    (snapshotOf ds).p95Us = min (upperEdge j) (histogramOf ds).maxUs ∧
    (snapshotOf ds).p50Us = min (upperEdge i) (snapshotOf ds).p95Us := by
  obtain ⟨i, hi⟩ := exists_firstAbove (show (counted ds).sum / 2 < (counted ds).sum by omega)
  obtain ⟨j, hj⟩ := exists_firstAbove
    (show (counted ds).sum * 95 / 100 < (counted ds).sum by omega)
  have hle : (counted ds).sum / 2 ≤ (counted ds).sum * 95 / 100 := by omega
  have hloop : percentilesFrom ((counted ds).sum / 2) ((counted ds).sum * 95 / 100) 0 0 none
      (counted ds) = (upperEdge i, upperEdge j) := by
    rw [percentilesFrom_none (Nat.zero_le _) hle hi hj, Nat.zero_add, Nat.zero_add]
  refine ⟨i, j, hi, hj, ?_⟩
  rw [snapshotOf, Histogram.takeSnapshot, buckets_foldl_record]
  simp only [h, if_false, hloop, and_self]

/-- After a snapshot the histogram is what it was at the start. -/
theorem takeSnapshot_snd (ds : List ℤ) : (histogramOf ds).takeSnapshot.2 = .start := by
  have hleft : (histogramOf ds).takeSnapshot.2 =
      ⟨(histogramOf ds).buckets.map fun _ => 0, 0, int64Max⟩ := by
    rw [Histogram.takeSnapshot]
    split_ifs <;> rfl
  rw [hleft, buckets_foldl_record, List.map_const', length_counted]
  rfl

theorem exactP95_mem (hne : ds ≠ []) : exactP95 ds ∈ recorded ds := by
  have hlen := List.length_pos_of_ne_nil hne
  exact orderStat_mem (by rw [length_recorded]; omega)

theorem exactP50_le (hne : ds ≠ []) : exactP50 ds ≤ exactP95 ds := by
  have hlen := List.length_pos_of_ne_nil hne
  exact orderStat_mono (by omega) (by rw [length_recorded]; omega)

theorem exactP50_mem (hne : ds ≠ []) : exactP50 ds ∈ recorded ds := by
  have hlen := List.length_pos_of_ne_nil hne
  exact orderStat_mem (by rw [length_recorded]; omega)

/-- **The extremes are exact** if some duration is not the largest number. -/
theorem isLeast_minUs {d : ℤ} (hd : d ∈ recorded ds) (hlt : d < int64Max) :
    IsLeast {d | d ∈ recorded ds} (snapshotOf ds).minUs := by
  have hext := extremes_foldl_record ds
  have hmin : (histogramOf ds).minUs ≠ int64Max := ((hext.min_le d hd).trans_lt hlt).ne
  rw [snapshotOf_minUs, if_neg hmin]
  exact ⟨hext.min_mem hmin, hext.min_le⟩

theorem isGreatest_maxUs (hne : ds ≠ []) :
    IsGreatest {d | d ∈ recorded ds} (snapshotOf ds).maxUs := by
  have hext := extremes_foldl_record ds
  rw [snapshotOf_maxUs]
  exact ⟨hext.max_mem hne, hext.le_max⟩

/-- With the order of the percentiles, it is all about their exact values. -/
theorem sound_iff (hne : ds ≠ []) (hlt : exactP95 ds ≤ (snapshotOf ds).p95Us →
      exactP95 ds < int64Max)
    (h50 : (snapshotOf ds).p50Us ≤ (snapshotOf ds).p95Us)
    (h95 : (snapshotOf ds).p95Us ≤ (snapshotOf ds).maxUs) :
    Sound ds (snapshotOf ds) ↔ exactP50 ds ≤ (snapshotOf ds).p50Us ∧
      exactP95 ds ≤ (snapshotOf ds).p95Us := by
  refine ⟨fun h => ⟨h.p50_le, h.p95_le⟩, fun ⟨hp50, hp95⟩ => ?_⟩
  have hleast := isLeast_minUs (exactP95_mem hne) (hlt hp95)
  exact ⟨(hleast.2 (exactP50_mem hne)).trans hp50, h50, h95, hleast, isGreatest_maxUs hne, hp50,
    hp95⟩

/-- A duration is read as no less than it is. -/
theorem le_upperEdge_iff_readBelow {t i : ℕ} (h : firstAbove t (counted ds) = some i) (v : ℤ) :
    v ≤ upperEdge i ↔ readBelow ds v ≤ t := by
  rw [le_upperEdge_iff, readBelow, le_firstAbove_iff h]

/-- The last bucket is read as 128 ms. -/
theorem upperEdge_le {t i : ℕ} (h : firstAbove t (counted ds) = some i) : upperEdge i ≤ 128000 := by
  have hlt := firstAbove_lt_length h
  rw [length_counted, kBucketCount] at hlt
  rw [upperEdge, kBucketWidthUs]
  omega

/-- **For which durations the snapshot is sound.** -/
theorem sound_iff_readsAsSlow (hne : ds ≠ []) : Sound ds (snapshotOf ds) ↔ ReadsAsSlow ds := by
  have hmax := isGreatest_maxUs hne
  rw [ReadsAsSlow]
  split_ifs with hzero
  · obtain ⟨hp50, hp95⟩ := snapshotOf_zero hzero
    have hmaxnn : 0 ≤ (snapshotOf ds).maxUs := nonneg_of_mem_recorded hmax.1
    have hnn := nonneg_of_mem_recorded (exactP95_mem hne)
    have hle := exactP50_le hne
    rw [sound_iff hne (fun h => by rw [hp95] at h; exact h.trans_lt (by decide))
      (by rw [hp50, hp95]) (by rw [hp95]; exact hmaxnn), hp50, hp95]
    omega
  · obtain ⟨i, j, hi, hj, hp95, hp50⟩ := snapshotOf_pos hzero
    have hij : upperEdge i ≤ upperEdge j := upperEdge_mono (firstAbove_mono (by omega) hi hj)
    have hedge := upperEdge_le hj
    rw [← snapshotOf_maxUs] at hp95
    have hlt : (snapshotOf ds).p95Us < int64Max := by
      rw [hp95]
      exact ((min_le_left _ _).trans hedge).trans_lt (by decide)
    rw [sound_iff hne (fun h => h.trans_lt hlt) (by rw [hp50]; exact min_le_right _ _)
      (by rw [hp95]; exact min_le_right _ _), ← le_upperEdge_iff_readBelow hi,
      ← le_upperEdge_iff_readBelow hj]
    have h50 := hmax.2 (exactP50_mem hne)
    have h95 := hmax.2 (exactP95_mem hne)
    rw [hp50, hp95, le_min_iff, le_min_iff, le_min_iff]
    exact ⟨fun h => ⟨h.1.1, h.2.1⟩, fun h => ⟨⟨h.1, h.1.trans hij, h50⟩, h.2, h95⟩⟩

/-! ### Counters that do not wrap -/

/-- As many durations as a counter can count are counted one by one. -/
theorem counted_eq (hlen : ds.length < 2 ^ 32) :
    counted ds = (List.range kBucketCount).map fun i => (recorded ds).countP (bucketOf · = i) := by
  refine List.map_congr_left fun i _ => Nat.mod_eq_of_lt ?_
  refine List.countP_le_length.trans_lt ?_
  rwa [length_recorded]

theorem sum_counted (hlen : ds.length < 2 ^ 32) : (counted ds).sum = ds.length := by
  rw [counted_eq hlen, sum_countP_eq, List.countP_eq_length.mpr fun d _ => ?_, length_recorded]
  exact decide_eq_true (bucketOf_lt d)

/-- What is read below a duration is below it. -/
theorem readBelow_le (hlen : ds.length < 2 ^ 32) {v : ℤ} (hv : v ≤ 128000) :
    readBelow ds v ≤ (recorded ds).countP (· < v) := by
  have hbelow : edgesBelow v ≤ kBucketCount - 1 := by
    rw [edgesBelow, kBucketWidthUs, kBucketCount]
    omega
  rw [readBelow, counted_eq hlen, ← List.map_take, List.take_range,
    min_eq_left (hbelow.trans (Nat.sub_le _ _)), sum_countP_eq]
  refine List.countP_mono_left fun d _ hd => ?_
  rw [decide_eq_true_eq] at hd ⊢
  exact (lt_upperEdge (hd.trans_le hbelow)).trans (upperEdge_lt_iff.mpr hd)

/-- **As long as no counter wraps**, it is all about the 95th percentile. -/
theorem readsAsSlow_iff (hne : ds ≠ []) (hlen : ds.length < 2 ^ 32) :
    ReadsAsSlow ds ↔ exactP95 ds ≤ 128000 := by
  have hpos := List.length_pos_of_ne_nil hne
  rw [ReadsAsSlow, sum_counted hlen, if_neg hpos.ne']
  constructor
  · rintro ⟨-, h⟩
    by_contra hgt
    have hall : kBucketCount ≤ edgesBelow (exactP95 ds) := by
      rw [edgesBelow, kBucketWidthUs, kBucketCount]
      omega
    rw [readBelow, List.take_of_length_le (by rwa [length_counted]), sum_counted hlen] at h
    omega
  · intro h
    have h50 := (readBelow_le hlen ((exactP50_le hne).trans h)).trans
      (countP_lt_orderStat_le (by rw [length_recorded]; omega))
    have h95 := (readBelow_le hlen h).trans
      (countP_lt_orderStat_le (by rw [length_recorded]; omega))
    rw [Nat.mul_comm] at h95
    exact ⟨h50, h95⟩

/-- **For which durations a snapshot is sound.** -/
theorem snapshot_sound_iff (ds : List ℤ) (hne : ds ≠ []) :
    (Sound ds (snapshotOf ds) ↔ ReadsAsSlow ds) ∧
    (ds.length < 2 ^ 32 → (ReadsAsSlow ds ↔ exactP95 ds ≤ 128000)) :=
  ⟨sound_iff_readsAsSlow hne, readsAsSlow_iff hne⟩

end Snapshot

/-- A single frame that took 200 ms reads as 128 ms. -/
theorem not_sound_slowFrame : ¬ Sound [200000] (snapshotOf [200000]) := by
  rw [sound_iff_readsAsSlow (List.cons_ne_nil _ _),
    readsAsSlow_iff (List.cons_ne_nil _ _) (by decide)]
  decide

theorem snapshot_sound_iff_threeFrames :
    Sound [700, -5, 127900] (snapshotOf [700, -5, 127900]) := by
  obtain ⟨hsound, hslow⟩ := snapshot_sound_iff [700, -5, 127900] (List.cons_ne_nil _ _)
  rw [hsound, hslow (by decide)]
  decide

end PiWebrtc.Common
