import Mathlib.Data.List.Pairwise
import Mathlib.Order.Lattice
import Mathlib.Tactic.Common

/-!
# Maps in key order

A map as the list of its entries, by strictly increasing keys: looping over it visits the
entries in key order, and no key has two values.  `insert` overwrites; `erase` and `filter`
keep the rest of the entries.
-/

/-- Entries by strictly increasing keys. -/
structure SortedMap (κ α : Type*) [LinearOrder κ] where
  entries : List (κ × α)
  sorted : entries.Pairwise fun a b => a.1 < b.1

namespace SortedMap

variable {κ α : Type*} [LinearOrder κ]

/-- The map without entries. -/
def empty : SortedMap κ α := ⟨[], .nil⟩

/-- The keys, in order. -/
def keys (m : SortedMap κ α) : List κ := m.entries.map Prod.fst

/-! ### Insertion -/

/-- Put an entry in its place, over an entry of the same key. -/
def insertEntry (k : κ) (v : α) : List (κ × α) → List (κ × α)
  | [] => [(k, v)]
  | (j, w) :: rest =>
    if k < j then (k, v) :: (j, w) :: rest
    else if j < k then (j, w) :: insertEntry k v rest
    else (k, v) :: rest

variable {k : κ} {v : α} {l : List (κ × α)}

/-- What is in the list afterwards. -/
theorem mem_insertEntry (hl : l.Pairwise fun a b => a.1 < b.1) {e : κ × α} :
    e ∈ insertEntry k v l ↔ e = (k, v) ∨ e.1 ≠ k ∧ e ∈ l := by
  induction l with
  | nil => simp [insertEntry]
  | cons a rest ih =>
    obtain ⟨j, w⟩ := a
    obtain ⟨hj, hrest⟩ := List.pairwise_cons.mp hl
    unfold insertEntry
    split
    case isTrue hlt =>
      -- all keys of the list are greater than `k`
      have hne : ∀ a ∈ (j, w) :: rest, a.1 ≠ k := by
        intro a ha
        rcases List.mem_cons.mp ha with rfl | ha
        · exact hlt.ne'
        · exact (hlt.trans (hj a ha)).ne'
      rw [List.mem_cons]
      exact or_congr_right ⟨fun h => ⟨hne e h, h⟩, And.right⟩
    case isFalse hlt =>
      split
      case isTrue hgt =>
        rw [List.mem_cons, List.mem_cons, ih hrest]
        constructor
        · rintro (rfl | rfl | ⟨hne, h⟩)
          · exact .inr ⟨hgt.ne, .inl rfl⟩
          · exact .inl rfl
          · exact .inr ⟨hne, .inr h⟩
        · rintro (rfl | ⟨hne, rfl | h⟩)
          · exact .inr (.inl rfl)
          · exact .inl rfl
          · exact .inr (.inr ⟨hne, h⟩)
      case isFalse hgt =>
        obtain rfl : j = k := le_antisymm (not_lt.mp hlt) (not_lt.mp hgt)
        rw [List.mem_cons, List.mem_cons]
        constructor
        · rintro (rfl | h)
          · exact .inl rfl
          · exact .inr ⟨(hj e h).ne', .inr h⟩
        · rintro (rfl | ⟨hne, rfl | h⟩)
          · exact .inl rfl
          · exact absurd rfl hne
          · exact .inr h

theorem pairwise_insertEntry (hl : l.Pairwise fun a b => a.1 < b.1) :
    (insertEntry k v l).Pairwise fun a b => a.1 < b.1 := by
  induction l with
  | nil => exact List.pairwise_singleton _ _
  | cons a rest ih =>
    obtain ⟨j, w⟩ := a
    obtain ⟨hj, hrest⟩ := List.pairwise_cons.mp hl
    unfold insertEntry
    split
    case isTrue hlt =>
      refine List.pairwise_cons.mpr ⟨fun a ha => ?_, hl⟩
      rcases List.mem_cons.mp ha with rfl | ha
      · exact hlt
      · exact hlt.trans (hj a ha)
    case isFalse hlt =>
      split
      case isTrue hgt =>
        refine List.pairwise_cons.mpr ⟨fun a ha => ?_, ih hrest⟩
        rcases (mem_insertEntry hrest).mp ha with rfl | ⟨_, ha⟩
        · exact hgt
        · exact hj a ha
      case isFalse hgt =>
        obtain rfl : j = k := le_antisymm (not_lt.mp hlt) (not_lt.mp hgt)
        exact List.pairwise_cons.mpr ⟨hj, hrest⟩

/-- Set the value of a key. -/
def insert (m : SortedMap κ α) (k : κ) (v : α) : SortedMap κ α :=
  ⟨insertEntry k v m.entries, pairwise_insertEntry m.sorted⟩

@[simp] theorem mem_insert {m : SortedMap κ α} {e : κ × α} :
    e ∈ (m.insert k v).entries ↔ e = (k, v) ∨ e.1 ≠ k ∧ e ∈ m.entries :=
  mem_insertEntry m.sorted

/-! ### Removal -/

/-- Keep the entries that satisfy a condition. -/
def filter (m : SortedMap κ α) (p : κ × α → Bool) : SortedMap κ α :=
  ⟨m.entries.filter p, m.sorted.filter p⟩

@[simp] theorem mem_filter {m : SortedMap κ α} {p : κ × α → Bool} {e : κ × α} :
    e ∈ (m.filter p).entries ↔ e ∈ m.entries ∧ p e = true :=
  List.mem_filter

/-- Remove a key. -/
def erase (m : SortedMap κ α) (k : κ) : SortedMap κ α := m.filter fun e => e.1 ≠ k

@[simp] theorem mem_erase {m : SortedMap κ α} {e : κ × α} :
    e ∈ (m.erase k).entries ↔ e ∈ m.entries ∧ e.1 ≠ k := by
  simp [erase]

end SortedMap
