import Mathlib.Data.List.Infix
import Mathlib.Data.List.Dedup
import Mathlib.Order.Lattice

namespace FileTree

/-!
# Directory trees

A directory tree is the finite list of its entries, each with its path from the root of
the tree; an entry below the top level stands in a directory of the tree.  The operations
are those of `std::filesystem` that only the tree decides: listing a directory, `remove`
(which refuses a directory that still has entries) and `remove_all`.
-/

/-- What a directory entry is: `other` are sockets, devices and the like. -/
inductive Kind where
  | directory
  | regular
  | other
  deriving DecidableEq, Repr

/-- A directory tree over names `ν`, the root itself not being an entry. -/
structure Tree (ν : Type*) where
  entries : List (List ν × Kind)
  nodup : (entries.map Prod.fst).Nodup
  nonroot : ∀ e ∈ entries, e.1 ≠ []
  rooted : ∀ e ∈ entries, e.1.dropLast = [] ∨ (e.1.dropLast, Kind.directory) ∈ entries

namespace Tree

variable {ν : Type*} (t : Tree ν)

/-- A path has one kind. -/
theorem kind_unique {p : List ν} {k k' : Kind} (h : (p, k) ∈ t.entries)
    (h' : (p, k') ∈ t.entries) : k = k' :=
  congrArg Prod.snd (List.inj_on_of_nodup_map t.nodup h h' rfl)

/-- An entry below the top level stands in a directory of the tree. -/
theorem parent_mem {p : List ν} {x : ν} {k : Kind} (h : (p ++ [x], k) ∈ t.entries) :
    p = [] ∨ (p, Kind.directory) ∈ t.entries := by
  simpa using t.rooted _ h

/-- Every directory on the way to an entry is an entry. -/
theorem ancestor_mem {p q : List ν} {k : Kind} (hp : p ≠ []) (hq : q ≠ [])
    (h : (p ++ q, k) ∈ t.entries) : (p, Kind.directory) ∈ t.entries := by
  induction q using List.reverseRecOn generalizing k with
  | nil => exact absurd rfl hq
  | append_singleton q x ih =>
    rw [← List.append_assoc] at h
    have hup := t.parent_mem h
    by_cases hq' : q = []
    · subst hq'
      rw [List.append_nil] at hup
      exact hup.resolve_left hp
    · exact ih hq' (hup.resolve_left (by simp [hp]))

variable [DecidableEq ν]

/-- The entries of the directory `p`, by their names in it. -/
def list (p : List ν) : List (ν × Kind) :=
  t.entries.filterMap fun e =>
    if e.1.dropLast = p then e.1.getLast?.map (·, e.2) else none

theorem mem_list {p : List ν} {x : ν} {k : Kind} :
    (x, k) ∈ t.list p ↔ (p ++ [x], k) ∈ t.entries := by
  rw [list, List.mem_filterMap]
  constructor
  · rintro ⟨⟨q, k'⟩, hmem, hq⟩
    split at hq
    case isTrue hdrop =>
      obtain ⟨y, hy, hxk⟩ := Option.map_eq_some_iff.mp hq
      obtain ⟨rfl, rfl⟩ := Prod.mk.inj hxk
      rw [← hdrop, List.dropLast_append_getLast? y hy]
      exact hmem
    case isFalse => cases hq
  · intro h
    exact ⟨(p ++ [x], k), h, by simp⟩

/-- A directory has no two entries of one name. -/
theorem nodup_list (p : List ν) : (t.list p).Nodup := by
  refine (List.Nodup.of_map _ t.nodup).filterMap fun e e' x he he' => ?_
  rw [Option.mem_def] at he he'
  split_ifs at he he' with hp hp'
  obtain ⟨y, hy, rfl⟩ := Option.map_eq_some_iff.mp he
  obtain ⟨y', hy', heq⟩ := Option.map_eq_some_iff.mp he'
  obtain ⟨rfl, hk⟩ := Prod.mk.inj heq
  refine Prod.ext ?_ hk.symm
  rw [← List.dropLast_append_getLast? y' hy, ← List.dropLast_append_getLast? y' hy', hp, hp']

/-- The directory `p` has no entries. -/
def isEmpty (p : List ν) : Bool := (t.list p).isEmpty

/-- Nothing lies below an empty directory, at any depth. -/
theorem eq_of_isEmpty {p q : List ν} {k : Kind} (he : t.isEmpty p = true)
    (hq : (q, k) ∈ t.entries) (hpq : p <+: q) : q = p := by
  obtain ⟨s, rfl⟩ := hpq
  cases s with
  | nil => rw [List.append_nil]
  | cons x s =>
    -- the first step below `p` would be one of its entries
    have hchild : ∃ k', (p ++ [x], k') ∈ t.entries := by
      by_cases hs : s = []
      · exact ⟨k, hs ▸ hq⟩
      · refine ⟨.directory, t.ancestor_mem (q := s) (k := k) (by simp) hs ?_⟩
        rw [List.append_assoc]
        exact hq
    obtain ⟨k', hk'⟩ := hchild
    have hlist := t.mem_list.mpr hk'
    rw [isEmpty, List.isEmpty_iff] at he
    rw [he] at hlist
    cases hlist

/-- `remove_all`: drop `p` and everything below it. -/
def removeAll (p : List ν) : Tree ν where
  entries := t.entries.filter fun e => ¬ p <+: e.1
  nodup := t.nodup.sublist (List.filter_sublist.map _)
  nonroot e h := t.nonroot e (List.mem_of_mem_filter h)
  rooted e h := by
    rw [List.mem_filter, decide_eq_true_eq] at h
    refine (t.rooted e h.1).imp_right fun hq => List.mem_filter.mpr ⟨hq, ?_⟩
    rw [decide_eq_true_eq]
    exact fun hpq => h.2 (List.IsPrefix.trans hpq (List.dropLast_prefix e.1))

theorem mem_removeAll {p : List ν} {e : List ν × Kind} :
    e ∈ (t.removeAll p).entries ↔ e ∈ t.entries ∧ ¬ p <+: e.1 := by
  rw [removeAll, List.mem_filter, decide_eq_true_eq]

/-- `remove`: delete a file or an empty directory.  The result is whether there was
    something to delete; `none` is the `filesystem_error` on a directory with entries. -/
def remove (p : List ν) : Option (Bool × Tree ν) :=
  if p ∉ t.entries.map Prod.fst then some (false, t)
  else if !t.isEmpty p then none
  else some (true, t.removeAll p)

/-- `remove` touches no entry but the one it names. -/
theorem mem_of_remove {p : List ν} {b : Bool} {t' : Tree ν}
    (h : t.remove p = some (b, t')) {e : List ν × Kind} (he : e ∈ t.entries)
    (hne : e.1 ≠ p) : e ∈ t'.entries := by
  unfold remove at h
  split at h
  · cases h
    exact he
  · split at h
    · cases h
    case isFalse hempty =>
      cases h
      refine t.mem_removeAll.mpr ⟨he, fun hpre => hne ?_⟩
      exact t.eq_of_isEmpty (by simpa using hempty) he hpre

/-- A directory that `remove` deletes has nothing below it. -/
theorem eq_of_remove {p q : List ν} {k : Kind} {t' : Tree ν}
    (h : t.remove p = some (true, t')) (hq : (q, k) ∈ t.entries) (hpq : p <+: q) : q = p := by
  unfold remove at h
  split at h
  · cases h
  · split at h
    · cases h
    case isFalse hempty => exact t.eq_of_isEmpty (by simpa using hempty) hq hpq

/-! ### A tree of given folders -/

/-- The root, the folders and those on the way to them. -/
def onTheWay (folders : List (List ν)) : List (List ν) := ([] :: folders.flatMap List.inits).dedup

theorem mem_onTheWay {folders : List (List ν)} {p : List ν} :
    p ∈ onTheWay folders ↔ p = [] ∨ ∃ f ∈ folders, p <+: f := by
  simp only [onTheWay, List.mem_dedup, List.mem_cons, List.mem_flatMap, List.mem_inits]

/-- The tree that has just these folders, with a file `x` in those where there is to be one. -/
def ofFolders (folders : List (List ν)) (x : ν) (hx : ∀ f ∈ folders, x ∉ f)
    (hasFile : List ν → Bool) : Tree ν where
  entries := ((onTheWay folders).filter (· ≠ [])).map (·, Kind.directory) ++
    ((onTheWay folders).filter hasFile).map fun p => (p ++ [x], Kind.regular)
  nodup := by
    have hfolders : (onTheWay folders).Nodup := List.nodup_dedup _
    rw [List.map_append, List.map_map, List.map_map]
    refine List.nodup_append.mpr ⟨?_, ?_, ?_⟩
    · exact (hfolders.filter _).map fun _ _ => id
    · exact (hfolders.filter _).map fun _ _ => List.append_cancel_right
    · -- no folder has the name of the file
      rintro p hp q hq rfl
      obtain ⟨p, hp', rfl⟩ := List.mem_map.mp hp
      obtain ⟨q, -, heq⟩ := List.mem_map.mp hq
      have hpq : q ++ [x] = p := heq
      have hmem : x ∈ p := hpq ▸ List.mem_append_right q (List.mem_singleton_self x)
      rcases mem_onTheWay.mp (List.mem_of_mem_filter hp') with rfl | ⟨f, hf, hpre⟩
      · cases hmem
      · exact hx f hf (hpre.subset hmem)
  nonroot e he := by
    rcases List.mem_append.mp he with he | he
    · obtain ⟨p, hp, rfl⟩ := List.mem_map.mp he
      exact of_decide_eq_true (List.mem_filter.mp hp).2
    · obtain ⟨p, -, rfl⟩ := List.mem_map.mp he
      exact List.append_ne_nil_of_right_ne_nil p (List.cons_ne_nil x [])
  rooted e he := by
    have hfolder : ∀ p ∈ onTheWay folders, p = [] ∨ (p, Kind.directory) ∈
        ((onTheWay folders).filter (· ≠ [])).map (·, Kind.directory) ++
          ((onTheWay folders).filter hasFile).map fun p => (p ++ [x], Kind.regular) := by
      intro p hp
      by_cases hnil : p = []
      · exact .inl hnil
      · refine .inr (List.mem_append_left _ (List.mem_map_of_mem (List.mem_filter.mpr ⟨hp, ?_⟩)))
        exact decide_eq_true hnil
    rcases List.mem_append.mp he with he | he
    · obtain ⟨p, hp, rfl⟩ := List.mem_map.mp he
      refine hfolder _ (mem_onTheWay.mpr ?_)
      rcases mem_onTheWay.mp (List.mem_of_mem_filter hp) with rfl | ⟨f, hf, hpre⟩
      · exact .inl rfl
      · exact .inr ⟨f, hf, (List.dropLast_prefix p).trans hpre⟩
    · obtain ⟨p, hp, rfl⟩ := List.mem_map.mp he
      rw [List.dropLast_concat]
      exact hfolder p (List.mem_of_mem_filter hp)

section OfFolders

variable {folders : List (List ν)} {x : ν} (hx : ∀ f ∈ folders, x ∉ f) {hasFile : List ν → Bool}

theorem directory_mem_ofFolders {p : List ν} :
    (p, Kind.directory) ∈ (ofFolders folders x hx hasFile).entries ↔
      p ≠ [] ∧ ∃ f ∈ folders, p <+: f := by
  simp only [ofFolders, List.mem_append, List.mem_map, List.mem_filter, mem_onTheWay,
    decide_eq_true_eq, Prod.mk.injEq, and_true, exists_eq_right, reduceCtorEq, and_false,
    exists_false, or_false]
  exact ⟨fun ⟨h, hne⟩ => ⟨hne, h.resolve_left hne⟩, fun ⟨hne, h⟩ => ⟨.inr h, hne⟩⟩

theorem regular_mem_ofFolders {p : List ν} :
    (p, Kind.regular) ∈ (ofFolders folders x hx hasFile).entries ↔
      ∃ q, (q = [] ∨ ∃ f ∈ folders, q <+: f) ∧ hasFile q ∧ q ++ [x] = p := by
  simp only [ofFolders, List.mem_append, List.mem_map, List.mem_filter, mem_onTheWay,
    Prod.mk.injEq, reduceCtorEq, and_false, exists_false, false_or, and_true, and_assoc]

theorem regular_mem_list_ofFolders {p : List ν} {y : ν} :
    (y, Kind.regular) ∈ (ofFolders folders x hx hasFile).list p ↔
      y = x ∧ (p = [] ∨ ∃ f ∈ folders, p <+: f) ∧ hasFile p := by
  rw [mem_list, regular_mem_ofFolders hx]
  constructor
  · rintro ⟨q, hq, hfile, heq⟩
    obtain ⟨rfl, hxy⟩ := List.append_inj' heq rfl
    exact ⟨(List.cons.inj hxy).1.symm, hq, hfile⟩
  · rintro ⟨rfl, hq, hfile⟩
    exact ⟨p, hq, hfile, rfl⟩

/-- It has the names of the folders and the file. -/
theorem eq_or_mem_of_mem_ofFolders {e : List ν × Kind} {y : ν}
    (he : e ∈ (ofFolders folders x hx hasFile).entries) (hy : y ∈ e.1) :
    y = x ∨ ∃ f ∈ folders, y ∈ f := by
  have hfolder : ∀ p ∈ onTheWay folders, y ∈ p → ∃ f ∈ folders, y ∈ f := by
    intro p hp hyp
    rcases mem_onTheWay.mp hp with rfl | ⟨f, hf, hpre⟩
    · cases hyp
    · exact ⟨f, hf, hpre.subset hyp⟩
  rcases List.mem_append.mp he with he | he
  · obtain ⟨p, hp, rfl⟩ := List.mem_map.mp he
    exact .inr (hfolder p (List.mem_of_mem_filter hp) hy)
  · obtain ⟨p, hp, rfl⟩ := List.mem_map.mp he
    rcases List.mem_append.mp hy with hy | hy
    · exact .inr (hfolder p (List.mem_of_mem_filter hp) hy)
    · exact .inl (List.mem_singleton.mp hy)

end OfFolders

end Tree

/-! ### The least element by a scan -/

section Least

variable {α β : Type*} [LinearOrder β] (key : α → β) (keep : α → Bool)

/-- The loop that keeps the first smallest element satisfying `keep`. -/
def least (l : List α) : Option α :=
  l.foldl (fun best a =>
    if keep a ∧ (best.all fun b => key a < key b) then some a else best) none

/-- The scan started with a candidate ends with an element that is smallest among it and
    the list. -/
private theorem foldl_least (l : List α) (best : Option α) :
    (∀ m, l.foldl (fun best a =>
        if keep a ∧ (best.all fun b => key a < key b) then some a else best) best = some m →
      (best = some m ∨ m ∈ l ∧ keep m) ∧ (∀ b ∈ best, key m ≤ key b) ∧
        ∀ a ∈ l, keep a → key m ≤ key a) ∧
    (l.foldl (fun best a =>
        if keep a ∧ (best.all fun b => key a < key b) then some a else best) best = none →
      best = none ∧ ∀ a ∈ l, ¬ keep a) := by
  induction l generalizing best with
  | nil =>
    refine ⟨fun m hm => ?_, fun hn => ⟨hn, by simp⟩⟩
    rw [List.foldl_nil] at hm
    subst hm
    exact ⟨.inl rfl, fun b hb => by cases hb; exact le_rfl, by simp⟩
  | cons a l ih =>
    rw [List.foldl_cons]
    split
    case isTrue hka =>
      obtain ⟨hk, hall⟩ := hka
      refine ⟨fun m hm => ?_, fun hn => by simpa using ((ih (some a)).2 hn).1⟩
      obtain ⟨hfrom, hle, hmin⟩ := (ih (some a)).1 m hm
      have hma : key m ≤ key a := hle a rfl
      refine ⟨.inr ?_, fun b hb => ?_, fun c hc hkc => ?_⟩
      · rcases hfrom with h | ⟨h, hkm⟩
        · cases h
          exact ⟨List.mem_cons_self, hk⟩
        · exact ⟨List.mem_cons_of_mem a h, hkm⟩
      · have hb' : key a < key b := by
          rw [Option.mem_def] at hb
          simpa [hb] using hall
        exact hma.trans hb'.le
      · rcases List.mem_cons.mp hc with rfl | hc
        · exact hma
        · exact hmin c hc hkc
    case isFalse hka =>
      refine ⟨fun m hm => ?_, fun hn => ?_⟩
      · obtain ⟨hfrom, hle, hmin⟩ := (ih best).1 m hm
        refine ⟨hfrom.imp_right fun h => ⟨List.mem_cons_of_mem a h.1, h.2⟩, hle, ?_⟩
        intro c hc hkc
        rcases List.mem_cons.mp hc with rfl | hc
        · -- a kept element that did not replace the candidate is not smaller than it
          cases best with
          | none => simp [hkc] at hka
          | some b =>
            have hbc : key b ≤ key c := by simpa [hkc] using hka
            exact (hle b rfl).trans hbc
        · exact hmin c hc hkc
      · obtain ⟨rfl, hnone⟩ := (ih best).2 hn
        refine ⟨rfl, fun c hc hkc => ?_⟩
        rcases List.mem_cons.mp hc with rfl | hc
        · simp [hkc] at hka
        · exact hnone c hc hkc

/-- What the scan finds is kept and smallest. -/
theorem least_eq_some {l : List α} {m : α} (h : least key keep l = some m) :
    m ∈ l ∧ keep m ∧ ∀ a ∈ l, keep a → key m ≤ key a := by
  obtain ⟨hfrom, -, hmin⟩ := (foldl_least key keep l none).1 m h
  rcases hfrom with hnone | ⟨hm, hk⟩
  · cases hnone
  · exact ⟨hm, hk, hmin⟩

/-- The scan finds nothing only if nothing is kept. -/
theorem least_eq_none {l : List α} (h : least key keep l = none) : ∀ a ∈ l, ¬ keep a :=
  ((foldl_least key keep l none).2 h).2

end Least

end FileTree
