import Mathlib.Algebra.BigOperators.Group.List.Basic
import Mathlib.Algebra.Order.BigOperators.Group.Finset
import Mathlib.Data.Nat.ModEq
import Mathlib.Order.Interval.Finset.Nat

namespace Scatter

/-!
# Pieces written into a buffer

A piece is data with the offset it goes to.  Pieces are written one after another, may
overlap and may leave holes.

* `getElem?_putAll` — what a position holds after all writes is what one of the pieces
  that cover it has there.
* `repeated_eq_zero_iff` — nothing is written twice exactly when no two pieces share a
  position.
* `covers_iff_dvd_repeated` — a counter of the data written, modulo `m`, tells whether the
  buffer is covered only up to what was written twice.
* `putAll_eq_of_agree` — pieces cut out of one text that cover all of it give it back, in
  any order.
-/

variable {β : Type*}

/-- Data and the offset it goes to. -/
structure Piece (β : Type*) where
  offset : ℕ
  data : List β

namespace Piece

/-- The positions the piece covers. -/
def cells (p : Piece β) : Finset ℕ := Finset.Ico p.offset (p.offset + p.data.length)

/-- Write the piece into a buffer. -/
def put (p : Piece β) (buf : List β) : List β :=
  buf.take p.offset ++ p.data ++ buf.drop (p.offset + p.data.length)

/-- The piece lies inside a buffer of length `n`. -/
def Fits (n : ℕ) (p : Piece β) : Prop := p.offset + p.data.length ≤ n

@[simp] theorem mem_cells {p : Piece β} {i : ℕ} :
    i ∈ p.cells ↔ p.offset ≤ i ∧ i < p.offset + p.data.length := Finset.mem_Ico

@[simp] theorem card_cells (p : Piece β) : p.cells.card = p.data.length := by
  rw [cells, Nat.card_Ico, Nat.add_sub_cancel_left]

/-- A piece that fits does not change the length. -/
theorem length_put {p : Piece β} {buf : List β} (h : p.Fits buf.length) :
    (p.put buf).length = buf.length := by
  unfold Fits at h
  simp only [put, List.length_append, List.length_take, List.length_drop]
  omega

/-- Where the piece lies, the buffer has its data. -/
theorem getElem?_put_of_mem {p : Piece β} {buf : List β} (h : p.Fits buf.length) {i : ℕ}
    (hi : i ∈ p.cells) : (p.put buf)[i]? = p.data[i - p.offset]? := by
  rw [mem_cells] at hi
  unfold Fits at h
  have htake : (buf.take p.offset).length = p.offset := by
    rw [List.length_take]
    omega
  rw [put, List.getElem?_append_left (by rw [List.length_append, htake]; omega),
    List.getElem?_append_right (by rw [htake]; exact hi.1), htake]

/-- Everywhere else it has what it had. -/
theorem getElem?_put_of_not_mem {p : Piece β} {buf : List β} (h : p.Fits buf.length) {i : ℕ}
    (hi : i ∉ p.cells) : (p.put buf)[i]? = buf[i]? := by
  rw [mem_cells, not_and_or, not_le, not_lt] at hi
  unfold Fits at h
  have htake : (buf.take p.offset).length = p.offset := by
    rw [List.length_take]
    omega
  rcases hi with hi | hi
  · rw [put, List.append_assoc, List.getElem?_append_left (by rw [htake]; exact hi),
      List.getElem?_take_of_lt hi]
  · rw [put, List.getElem?_append_right (by rw [List.length_append, htake]; exact hi),
      List.getElem?_drop, List.length_append, htake]
    congr 1
    omega

end Piece

open Piece

/-! ### Many pieces -/

/-- Write the pieces one after another. -/
def putAll (buf : List β) (ps : List (Piece β)) : List β := ps.foldl (fun b p => p.put b) buf

/-- The positions that some piece covers. -/
def covered (ps : List (Piece β)) : Finset ℕ := ps.foldr (fun p s => p.cells ∪ s) ∅

/-- No two of the pieces share a position. -/
def Apart (ps : List (Piece β)) : Prop := ps.Pairwise fun p q => Disjoint p.cells q.cells

/-- How much data the pieces have together. -/
def volume (ps : List (Piece β)) : ℕ := (ps.map fun p => p.data.length).sum

@[simp] theorem putAll_append (buf : List β) (ps qs : List (Piece β)) :
    putAll buf (ps ++ qs) = putAll (putAll buf ps) qs := List.foldl_append

@[simp] theorem putAll_singleton (buf : List β) (p : Piece β) : putAll buf [p] = p.put buf := rfl

@[simp] theorem volume_nil : volume ([] : List (Piece β)) = 0 := rfl

@[simp] theorem volume_append (ps qs : List (Piece β)) :
    volume (ps ++ qs) = volume ps + volume qs := by
  rw [volume, List.map_append, List.sum_append, volume, volume]

@[simp] theorem volume_cons (p : Piece β) (ps : List (Piece β)) :
    volume (p :: ps) = p.data.length + volume ps := by
  rw [volume, List.map_cons, List.sum_cons, volume]

theorem mem_covered {ps : List (Piece β)} {i : ℕ} :
    i ∈ covered ps ↔ ∃ p ∈ ps, i ∈ p.cells := by
  induction ps with
  | nil => simp [covered]
  | cons p ps ih =>
    have hcons : covered (p :: ps) = p.cells ∪ covered ps := rfl
    rw [hcons, Finset.mem_union, ih]
    simp

/-- Pieces that fit cover nothing beyond the buffer. -/
theorem covered_subset_range {n : ℕ} {ps : List (Piece β)} (h : ∀ p ∈ ps, p.Fits n) :
    covered ps ⊆ Finset.range n := by
  intro i hi
  obtain ⟨p, hp, hpi⟩ := mem_covered.mp hi
  have hfit := h p hp
  unfold Fits at hfit
  rw [mem_cells] at hpi
  exact Finset.mem_range.mpr (by omega)

/-- Pieces that fit do not change the length. -/
theorem length_putAll {n : ℕ} {buf : List β} {ps : List (Piece β)} (hlen : buf.length = n)
    (h : ∀ p ∈ ps, p.Fits n) : (putAll buf ps).length = n := by
  induction ps generalizing buf with
  | nil => exact hlen
  | cons p ps ih =>
    have hp : p.Fits buf.length := hlen ▸ h p List.mem_cons_self
    exact ih ((length_put hp).trans hlen) fun q hq => h q (List.mem_cons_of_mem p hq)

/-- **What was written is what some piece had.** -/
theorem getElem?_putAll {n : ℕ} {buf : List β} {ps : List (Piece β)} (hlen : buf.length = n)
    (h : ∀ p ∈ ps, p.Fits n) {i : ℕ} (hi : i ∈ covered ps) :
    ∃ p ∈ ps, i ∈ p.cells ∧ (putAll buf ps)[i]? = p.data[i - p.offset]? := by
  -- the piece is the last one that covers `i`
  induction ps using List.reverseRecOn with
  | nil => simp [covered] at hi
  | append_singleton ps p ih =>
    have hps : ∀ q ∈ ps, q.Fits n := fun q hq => h q (List.mem_append_left [p] hq)
    have hp : p.Fits (putAll buf ps).length := by
      rw [length_putAll hlen hps]
      exact h p (by simp)
    rw [putAll_append, putAll_singleton]
    by_cases hmem : i ∈ p.cells
    · exact ⟨p, by simp, hmem, getElem?_put_of_mem hp hmem⟩
    · have hi' : i ∈ covered ps := by
        rw [mem_covered] at hi ⊢
        obtain ⟨q, hq, hqi⟩ := hi
        rcases List.mem_append.mp hq with hq | hq
        · exact ⟨q, hq, hqi⟩
        · exact absurd (List.mem_singleton.mp hq ▸ hqi) hmem
      obtain ⟨q, hq, hqi, hval⟩ := ih hps hi'
      exact ⟨q, List.mem_append_left [p] hq, hqi,
        (getElem?_put_of_not_mem hp hmem).trans hval⟩

/-- Pieces cut out of one text that cover all of it give it back. -/
theorem putAll_eq_of_agree {buf target : List β} {ps : List (Piece β)}
    (hlen : buf.length = target.length) (h : ∀ p ∈ ps, p.Fits target.length)
    (hagree : ∀ p ∈ ps, ∀ i ∈ p.cells, p.data[i - p.offset]? = target[i]?)
    (hcov : ∀ i < target.length, i ∈ covered ps) : putAll buf ps = target := by
  have hlen' := length_putAll hlen h
  refine List.ext_getElem? fun i => ?_
  by_cases hi : i < target.length
  · obtain ⟨p, hp, hpi, hval⟩ := getElem?_putAll hlen h (hcov i hi)
    exact hval.trans (hagree p hp i hpi)
  · rw [List.getElem?_eq_none (by omega), List.getElem?_eq_none (by omega)]

/-! ### Counting and covering -/

/-- How much of the data went to positions that another piece covers as well. -/
def repeated (ps : List (Piece β)) : ℕ := volume ps - (covered ps).card

/-- Pieces cover no more positions than they have data, and as many only if no two share
    a position. -/
theorem card_covered_le_and_eq_iff (ps : List (Piece β)) :
    (covered ps).card ≤ volume ps ∧ ((covered ps).card = volume ps ↔ Apart ps) := by
  induction ps with
  | nil => simp [covered, volume, Apart]
  | cons p ps ih =>
    obtain ⟨hle, hiff⟩ := ih
    have hcons : covered (p :: ps) = p.cells ∪ covered ps := rfl
    have hcard := Finset.card_union_add_card_inter p.cells (covered ps)
    rw [← hcons, card_cells] at hcard
    -- `p` is apart from the others if it shares no position with any of them
    have hapart : Apart (p :: ps) ↔ (p.cells ∩ covered ps).card = 0 ∧ Apart ps := by
      rw [Apart, List.pairwise_cons, Finset.card_eq_zero, ← Finset.disjoint_iff_inter_eq_empty]
      refine and_congr_left fun _ => ?_
      simp only [Finset.disjoint_left, mem_covered]
      constructor
      · rintro h i hi ⟨q, hq, hqi⟩
        exact h q hq hi hqi
      · intro h q hq i hi hqi
        exact h hi ⟨q, hq, hqi⟩
    rw [hapart, ← hiff, volume_cons]
    omega

theorem repeated_add_card (ps : List (Piece β)) :
    repeated ps + (covered ps).card = volume ps :=
  Nat.sub_add_cancel (card_covered_le_and_eq_iff ps).1

/-- Nothing is repeated exactly when no two pieces share a position. -/
theorem repeated_eq_zero_iff (ps : List (Piece β)) : repeated ps = 0 ↔ Apart ps := by
  rw [← (card_covered_le_and_eq_iff ps).2, ← repeated_add_card ps]
  omega

/-- Pieces that fit into `n` positions cover all of them if they cover `n`. -/
theorem covers_iff_card {n : ℕ} {ps : List (Piece β)} (h : ∀ p ∈ ps, p.Fits n) :
    (∀ i < n, i ∈ covered ps) ↔ (covered ps).card = n := by
  have hsub := covered_subset_range h
  constructor
  · intro hall
    have heq : covered ps = Finset.range n :=
      Finset.Subset.antisymm hsub fun i hi => hall i (Finset.mem_range.mp hi)
    rw [heq, Finset.card_range]
  · intro hcard i hi
    have heq : covered ps = Finset.range n :=
      Finset.eq_of_subset_of_card_le hsub (by rw [Finset.card_range, hcard])
    exact heq ▸ Finset.mem_range.mpr hi

/-- **What a counter knows.** Pieces fit into `n < m` positions, and modulo `m` they have
    as much data as there are positions.  Then they cover all positions exactly when what
    they repeat is a multiple of `m`. -/
theorem covers_iff_dvd_repeated {n m : ℕ} {ps : List (Piece β)} (hn : n < m)
    (h : ∀ p ∈ ps, p.Fits n) (hvol : volume ps ≡ n [MOD m]) :
    (∀ i < n, i ∈ covered ps) ↔ m ∣ repeated ps := by
  have hle : (covered ps).card ≤ n := by
    have := Finset.card_le_card (covered_subset_range h)
    rwa [Finset.card_range] at this
  rw [covers_iff_card h]
  have hsum := repeated_add_card ps
  constructor
  · intro hcard
    rw [hcard] at hsum
    have hmod : n + repeated ps ≡ n + 0 [MOD m] := by
      rw [Nat.add_comm, hsum, Nat.add_zero]
      exact hvol
    exact (Nat.modEq_zero_iff_dvd).mp (Nat.ModEq.add_left_cancel' n hmod)
  · rintro ⟨k, hk⟩
    have hmod : (covered ps).card ≡ n [MOD m] := by
      refine Nat.ModEq.trans ?_ hvol
      rw [← hsum, hk]
      exact (Nat.mul_add_mod m k _).symm
    exact Nat.ModEq.eq_of_lt_of_lt hmod (by omega) hn

end Scatter
