import Mathlib.Data.List.GetD
import Mathlib.Data.List.Sort
import Mathlib.Algebra.BigOperators.Group.List.Basic
import Mathlib.Algebra.Order.Ring.Nat

namespace OrderStatistics

/-!
# Order statistics and counted values

`orderStat l r` is the element of a list that has `r` others before it when the list is sorted.
`firstAbove t counts` is the place where the sum of a list of counts, from the left, gets above
`t`: the bucket of a histogram that the value with this rank was counted in.

* `countP_lt_orderStat_le` — no more than `r` elements are smaller than `orderStat l r`.
* `le_firstAbove_iff` — a place is not behind `firstAbove` exactly when the counts in front of it
  do not get above `t`.
* `sum_countP_eq` — the counts of some values add up to the count of all of them.
-/

section OrderStat

variable {α : Type*} [LinearOrder α] [Inhabited α] {l : List α} {r s : ℕ}

/-- The element at a place of the sorted list. -/
def orderStat (l : List α) (r : ℕ) : α := (l.insertionSort (· ≤ ·)).getD r default

theorem orderStat_eq (hr : r < l.length) :
    ∃ h : r < (l.insertionSort (· ≤ ·)).length,
      orderStat l r = (l.insertionSort (· ≤ ·))[r] := by
  have h : r < (l.insertionSort (· ≤ ·)).length := by rwa [List.length_insertionSort]
  exact ⟨h, List.getD_eq_getElem _ _ h⟩

theorem orderStat_mem (hr : r < l.length) : orderStat l r ∈ l := by
  obtain ⟨h, heq⟩ := orderStat_eq hr
  rw [heq, ← List.mem_insertionSort (· ≤ ·)]
  exact List.getElem_mem h

theorem orderStat_mono (hrs : r ≤ s) (hs : s < l.length) : orderStat l r ≤ orderStat l s := by
  obtain ⟨hr', hr⟩ := orderStat_eq (hrs.trans_lt hs)
  obtain ⟨hs', hs⟩ := orderStat_eq hs
  rw [hr, hs]
  exact List.sortedLE_insertionSort.getElem_le_getElem_of_le hrs

/-- **No more elements than its rank are smaller.** -/
theorem countP_lt_orderStat_le (hr : r < l.length) : l.countP (· < orderStat l r) ≤ r := by
  obtain ⟨h, heq⟩ := orderStat_eq hr
  have hle : ∀ x ∈ (l.insertionSort (· ≤ ·)).drop r, orderStat l r ≤ x := by
    intro x hx
    obtain ⟨i, hi, rfl⟩ := List.mem_iff_getElem.mp hx
    rw [heq, List.getElem_drop]
    exact List.sortedLE_insertionSort.getElem_le_getElem_of_le (Nat.le_add_right r i)
  have hdrop : ((l.insertionSort (· ≤ ·)).drop r).countP (· < orderStat l r) = 0 :=
    List.countP_eq_zero.mpr fun x hx hlt => (hle x hx).not_gt (of_decide_eq_true hlt)
  rw [← (List.perm_insertionSort (· ≤ ·) l).countP_eq,
    ← List.take_append_drop r (l.insertionSort (· ≤ ·)), List.countP_append, hdrop, Nat.add_zero]
  exact List.countP_le_length.trans (List.length_take_le _ _)

end OrderStat

/-! ### Counts -/

/-- The place where the sum of the counts gets above `t`. -/
def firstAbove : ℕ → List ℕ → Option ℕ
  | _, [] => none
  | t, c :: counts => if t < c then some 0 else (firstAbove (t - c) counts).map (· + 1)

/-- There is such a place if the sum of all counts is above. -/
theorem exists_firstAbove {t : ℕ} {counts : List ℕ} (h : t < counts.sum) :
    ∃ i, firstAbove t counts = some i := by
  induction counts generalizing t with
  | nil => exact absurd h (Nat.not_lt_zero t)
  | cons c counts ih =>
    rw [firstAbove]
    split
    · exact ⟨0, rfl⟩
    · next hc =>
      rw [List.sum_cons] at h
      obtain ⟨i, hi⟩ := ih (t := t - c) (by omega)
      exact ⟨i + 1, by rw [hi, Option.map_some]⟩

/-- **What is not behind it**: the counts in front do not get above `t`. -/
theorem le_firstAbove_iff {t i : ℕ} {counts : List ℕ} (h : firstAbove t counts = some i) (j : ℕ) :
    j ≤ i ↔ (counts.take j).sum ≤ t := by
  induction counts generalizing t i j with
  | nil => exact absurd h nofun
  | cons c counts ih =>
    rw [firstAbove] at h
    cases j with
    | zero => exact iff_of_true (Nat.zero_le i) (Nat.zero_le t)
    | succ j =>
      rw [List.take_succ_cons, List.sum_cons]
      split_ifs at h with hc
      · obtain rfl := Option.some.inj h
        exact iff_of_false (Nat.not_succ_le_zero j) (by omega)
      · obtain ⟨i', hi', rfl⟩ := Option.map_eq_some_iff.mp h
        rw [Nat.succ_le_succ_iff, ih hi' j]
        omega

theorem firstAbove_lt_length {t i : ℕ} {counts : List ℕ} (h : firstAbove t counts = some i) :
    i < counts.length := by
  by_contra hlen
  have hle := (le_firstAbove_iff h i).mp le_rfl
  have hgt := (le_firstAbove_iff h (i + 1)).not.mp (Nat.not_succ_le_self i)
  rw [List.take_of_length_le (by omega)] at hle hgt
  exact hgt hle

/-- With a larger sum it is not in front. -/
theorem firstAbove_mono {t t' i i' : ℕ} {counts : List ℕ} (htt' : t ≤ t')
    (h : firstAbove t counts = some i) (h' : firstAbove t' counts = some i') : i ≤ i' := by
  rw [le_firstAbove_iff h' i]
  exact ((le_firstAbove_iff h i).mp le_rfl).trans htt'

theorem countP_lt_succ {α : Type*} (l : List α) (f : α → ℕ) (k : ℕ) :
    l.countP (f · < k + 1) = l.countP (f · < k) + l.countP (f · = k) := by
  induction l with
  | nil => rfl
  | cons x l ih =>
    simp only [List.countP_cons, ih, decide_eq_true_eq]
    split_ifs <;> omega

/-- **The counts of some values** add up to the count of all of them. -/
theorem sum_countP_eq {α : Type*} (l : List α) (f : α → ℕ) (k : ℕ) :
    ((List.range k).map fun i => l.countP (f · = i)).sum = l.countP (f · < k) := by
  induction k with
  | zero =>
    rw [eq_comm, List.range_zero]
    exact List.countP_eq_zero.mpr fun x _ => by simp
  | succ k ih =>
    rw [List.range_succ, List.map_append, List.sum_append, ih, countP_lt_succ]
    exact congrArg _ (List.sum_singleton)

end OrderStatistics
