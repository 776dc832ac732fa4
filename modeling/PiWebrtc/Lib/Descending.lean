import Mathlib.Data.List.Sort

/-!
# Lists in descending order

A list sorted from the greatest key down, and what is left of it above a point.  The part
that satisfies an upward closed condition is an initial segment, so the first elements of
the part are the first elements of the whole as soon as the part has enough of them.

* `le_of_find?_eq_some` — the first element with a property is the greatest one.
* `take_filter` — enough elements above a point are the greatest ones of the list.
* `map_filter_eq_map_take_iff` — too few elements above a point are the greatest ones exactly when
  the list has no others.
* `second_filter_eq_iff` — the second element above a point is the second one of the list exactly
  when the first two are above it.
* `filter_le_eq_append` — what is at a point or above it is what is above it, then what is
  at it.
-/

namespace Descending

variable {α β : Type*} [LinearOrder β]

/-- Sort from the greatest key down. -/
def sort (key : α → β) (l : List α) : List α := l.insertionSort fun a b => key b ≤ key a

section Sorting

variable {key : α → β} {l : List α}

@[simp] theorem mem_sort {a : α} : a ∈ sort key l ↔ a ∈ l := List.mem_insertionSort _

theorem pairwise_sort : (sort key l).Pairwise fun a b => key b ≤ key a :=
  letI : Std.Total fun a b : α => key b ≤ key a := ⟨fun a b => le_total (key b) (key a)⟩
  letI : IsTrans α fun a b : α => key b ≤ key a := ⟨fun _ _ _ h h' => h'.trans h⟩
  List.pairwise_insertionSort _ l

/-- Elements with keys of their own are strictly sorted. -/
theorem pairwise_sort_lt (hnodup : l.Nodup) (hkey : ∀ a ∈ l, ∀ b ∈ l, key a = key b → a = b) :
    (sort key l).Pairwise fun a b => key b < key a := by
  have hnodup' : (sort key l).Nodup := (List.perm_insertionSort _ l).nodup_iff.mpr hnodup
  refine (pairwise_sort.and hnodup').imp_of_mem fun ha hb h => lt_of_le_of_ne h.1 fun heq => ?_
  exact h.2 (hkey _ (mem_sort.mp ha) _ (mem_sort.mp hb) heq.symm)

/-- Two strictly sorted lists of the same elements are the same list. -/
theorem eq_of_mem_iff {l l' : List α} (h : l.Pairwise fun a b => key b < key a)
    (h' : l'.Pairwise fun a b => key b < key a) (hmem : ∀ a, a ∈ l ↔ a ∈ l') : l = l' :=
  letI : Std.Irrefl fun a b : α => key b < key a := ⟨fun _ => lt_irrefl _⟩
  letI : Std.Antisymm fun a b : α => key b < key a := ⟨fun _ _ h h' => absurd h h'.asymm⟩
  h.eq_of_mem_iff h' hmem

/-- The first element with a property is the greatest one. -/
theorem le_of_find?_eq_some {p : α → Bool} {a b : α} (h : l.Pairwise fun a b => key b ≤ key a)
    (hfind : l.find? p = some a) (hb : b ∈ l) (hpb : p b) : key b ≤ key a := by
  induction h with
  | nil => cases hb
  | @cons c l hc _ ih =>
    by_cases hpc : p c
    · obtain rfl : c = a := by simpa [hpc] using hfind
      rcases List.mem_cons.mp hb with rfl | hb
      · exact le_rfl
      · exact hc b hb
    · rw [List.find?_cons_of_neg hpc] at hfind
      rcases List.mem_cons.mp hb with rfl | hb
      · exact absurd hpb hpc
      · exact ih hfind hb

end Sorting

/-! ### Upward closed parts -/

section Part

variable {l : List α} {p : α → Bool}

/-- An upward closed part is an initial segment. -/
theorem filter_isPrefix (h : l.Pairwise fun a b => p b → p a) : l.filter p <+: l := by
  induction h with
  | nil => exact List.nil_prefix
  | cons ha hl ih =>
    rename_i a l
    by_cases hpa : p a
    · rw [List.filter_cons_of_pos hpa]
      exact (List.prefix_cons_inj a).mpr ih
    · -- below an element outside the part there is nothing of it
      have hnone : l.filter p = [] := List.filter_eq_nil_iff.mpr fun b hb hpb => hpa (ha b hb hpb)
      rw [List.filter_cons_of_neg hpa, hnone]
      exact List.nil_prefix

/-- Enough elements above a point are the greatest ones of the list. -/
theorem take_filter (h : l.Pairwise fun a b => p b → p a) {n : ℕ}
    (hn : n ≤ (l.filter p).length) : (l.filter p).take n = l.take n := by
  obtain ⟨rest, hrest⟩ := filter_isPrefix h
  conv_rhs => rw [← hrest]
  rw [List.take_append_of_le_length hn]

/-- Too few elements above a point are the greatest ones exactly when the list has no
    others. -/
theorem map_filter_eq_map_take_iff {γ : Type*} (f : α → γ) {n : ℕ}
    (hn : (l.filter p).length < n) :
    (l.filter p).map f = (l.take n).map f ↔ ∀ a ∈ l, p a := by
  rw [← List.filter_eq_self]
  constructor
  · intro h
    have hlen : (l.filter p).length = min n l.length := by
      simpa using congrArg List.length h
    exact List.filter_sublist.eq_of_length (by omega)
  · intro h
    rw [h] at hn ⊢
    rw [List.take_of_length_le hn.le]

/-- The second element of a part is the second one of the list exactly when the part has the
    first two. -/
theorem second_filter_eq_iff {γ : Type*} {f : α → γ} (hnodup : (l.map f).Nodup)
    (hlen : 2 ≤ l.length) :
    ((l.filter p)[1]?).map f = (l[1]?).map f ↔ ∀ a ∈ l.take 2, p a := by
  match l with
  | [] | [_] => simp at hlen
  | a :: b :: rest =>
    have hfresh : ∀ c ∈ rest, f c ≠ f b := by
      intro c hc heq
      rw [List.map_cons, List.map_cons, List.nodup_cons, List.nodup_cons] at hnodup
      exact hnodup.2.1 (heq ▸ List.mem_map_of_mem hc)
    -- where one of the two is missing, the second element comes from the rest
    have hrest : ∀ c ∈ (rest.filter p).head?, f c ≠ f b := fun c hc =>
      hfresh c (List.mem_of_mem_filter (List.mem_of_mem_head? hc))
    have hnot : ∀ o : Option α, (∀ c ∈ o, f c ≠ f b) → o.map f ≠ some (f b) := by
      rintro (_ | c) ho
      · exact nofun
      · exact fun heq => ho c rfl (Option.some.inj heq)
    cases ha : p a with
    | true =>
      cases hb : p b with
      | true => simp [ha, hb]
      | false =>
        have hsecond : ((a :: b :: rest).filter p)[1]? = (rest.filter p).head? := by
          simp [ha, hb, List.head?_eq_getElem?]
        rw [hsecond]
        exact iff_of_false (hnot _ hrest) fun h => by simp [hb] at h
    | false =>
      refine iff_of_false (hnot _ ?_) fun h => by simp [ha] at h
      cases hb : p b with
      | true =>
        have hsecond : ((a :: b :: rest).filter p)[1]? = (rest.filter p).head? := by
          simp [ha, hb, List.head?_eq_getElem?]
        exact hsecond ▸ hrest
      | false =>
        intro c hc
        rw [List.filter_cons_of_neg (by simp [ha]), List.filter_cons_of_neg (by simp [hb])] at hc
        exact hfresh c (List.mem_of_mem_filter (List.mem_of_getElem? hc))

/-- What is at a point or above it is what is above it, then what is at it. -/
theorem filter_le_eq_append {key : α → β} (h : l.Pairwise fun a b => key b ≤ key a) (c : β) :
    l.filter (fun a => c ≤ key a)
      = l.filter (fun a => c < key a) ++ l.filter fun a => key a = c := by
  induction h with
  | nil => rfl
  | cons ha hl ih =>
    rename_i a l
    rcases lt_trichotomy c (key a) with hlt | heq | hgt
    · simp [hlt, hlt.le, hlt.ne', ih]
    · -- from here on nothing is above the point
      have hnone : l.filter (fun a => decide (c < key a)) = [] :=
        List.filter_eq_nil_iff.mpr fun b hb => by simpa [heq] using ha b hb
      rw [hnone, List.nil_append] at ih
      simp [heq.symm, hnone, ih]
    · simp [hgt.not_ge, hgt.not_gt, hgt.ne, ih]

end Part

end Descending
