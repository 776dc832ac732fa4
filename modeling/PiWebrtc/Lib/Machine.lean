import Mathlib.Data.List.Infix

namespace Transition

/-!
# Machines, their runs, and invariants over whole runs

A `Machine` is an initial state and a partial step function whose label resolves every
choice of the environment and of the scheduler, so that a run is a list of labels and
"every interleaving" is a quantifier over lists.

* `run_invariant` — what holds initially and is kept by every step holds at the end of
  every run.
* `guarded_invariant` — the same for the runs whose steps all meet a condition `G` on the
  state before the step (`Guarded`).
* `always_iff_guarded` — when a step from a good state lands in a good state exactly if it
  meets `G`, the runs that stay good are exactly the guarded ones.
-/

/-- A machine over states `σ` with labels `α`; `step s a = none` means that `a` is not
    enabled in `s`. -/
structure Machine (σ α : Type*) where
  init : σ
  step : σ → α → Option σ

namespace Machine

variable {σ α : Type*} (M : Machine σ α)

/-- The state reached from `s` by the labels `as`, if each is enabled in turn. -/
def runFrom : σ → List α → Option σ
  | s, [] => some s
  | s, a :: as => (M.step s a).bind fun s' => runFrom s' as

/-- The state reached from the initial one. -/
def run (as : List α) : Option σ := M.runFrom M.init as

@[simp] theorem runFrom_nil (s : σ) : M.runFrom s [] = some s := rfl

@[simp] theorem runFrom_cons (s : σ) (a : α) (as : List α) :
    M.runFrom s (a :: as) = (M.step s a).bind fun s' => M.runFrom s' as := rfl

/-- A nonempty run takes its first step and continues from there. -/
theorem runFrom_cons_eq_some {s s' : σ} {a : α} {as : List α} :
    M.runFrom s (a :: as) = some s' ↔
      ∃ t, M.step s a = some t ∧ M.runFrom t as = some s' := by
  rw [runFrom_cons, Option.bind_eq_some_iff]

variable {M}

/-- A run that goes on passes through the state in between. -/
theorem runFrom_append {s s' : σ} {as bs : List α} :
    M.runFrom s (as ++ bs) = some s' ↔ ∃ t, M.runFrom s as = some t ∧ M.runFrom t bs = some s' := by
  induction as generalizing s with
  | nil => simp
  | cons a as ih =>
    rw [List.cons_append, runFrom_cons_eq_some]
    constructor
    · rintro ⟨u, hu, hrest⟩
      obtain ⟨t, ht, hbs⟩ := ih.mp hrest
      exact ⟨t, M.runFrom_cons_eq_some.mpr ⟨u, hu, ht⟩, hbs⟩
    · rintro ⟨t, ht, hbs⟩
      obtain ⟨u, hu, hrest⟩ := M.runFrom_cons_eq_some.mp ht
      exact ⟨u, hu, ih.mpr ⟨t, hrest, hbs⟩⟩

/-! ### Invariants of every run -/

/-- What every step keeps, every run keeps. -/
theorem runFrom_invariant {P : σ → Prop}
    (hstep : ∀ s a s', P s → M.step s a = some s' → P s')
    {s s' : σ} {as : List α} (h0 : P s) (hrun : M.runFrom s as = some s') : P s' := by
  induction as generalizing s with
  | nil =>
    rw [runFrom_nil, Option.some.injEq] at hrun
    exact hrun ▸ h0
  | cons a as ih =>
    obtain ⟨t, ht, hrest⟩ := M.runFrom_cons_eq_some.mp hrun
    exact ih (hstep s a t h0 ht) hrest

/-- **Invariant rule.** What holds initially and is kept by every step holds at the end of
    every run. -/
theorem run_invariant {P : σ → Prop} (h0 : P M.init)
    (hstep : ∀ s a s', P s → M.step s a = some s' → P s')
    {s' : σ} {as : List α} (hrun : M.run as = some s') : P s' :=
  runFrom_invariant hstep h0 hrun

/-- **Invariant rule with a history.** What holds of no labels and the initial state, and is kept
    when a step adds its label, holds of every run and the state at its end. -/
theorem run_history {P : List α → σ → Prop} (h0 : P [] M.init)
    (hstep : ∀ as s a s', P as s → M.step s a = some s' → P (as ++ [a]) s')
    {s' : σ} {as : List α} (hrun : M.run as = some s') : P as s' := by
  suffices h : ∀ (bs as : List α) (s : σ), P bs s → M.runFrom s as = some s' → P (bs ++ as) s' from
    h [] as M.init h0 hrun
  intro bs as s h hfrom
  induction as generalizing bs s with
  | nil =>
    rw [runFrom_nil, Option.some.injEq] at hfrom
    rw [List.append_nil]
    exact hfrom ▸ h
  | cons a as ih =>
    obtain ⟨t, ht, hrest⟩ := M.runFrom_cons_eq_some.mp hfrom
    have hnext := ih (bs ++ [a]) t (hstep bs s a t h ht) hrest
    rwa [List.append_assoc, List.singleton_append] at hnext

/-! ### Runs whose steps all meet a condition -/

variable (M)

/-- Every step of the run `as` from `s` meets the condition `G` on the state before it. -/
def Guarded (G : σ → α → Prop) : σ → List α → Prop
  | _, [] => True
  | s, a :: as => G s a ∧ ∀ s', M.step s a = some s' → Guarded G s' as

instance decidableGuarded (G : σ → α → Prop) [∀ s a, Decidable (G s a)] :
    ∀ s as, Decidable (M.Guarded G s as)
  | _, [] => isTrue trivial
  | s, a :: as =>
    match h : M.step s a with
    | none => decidable_of_iff (G s a) (by simp [Guarded, h])
    | some t =>
      have := decidableGuarded G t as
      decidable_of_iff (G s a ∧ M.Guarded G t as) (by simp [Guarded, h])

variable {M}

/-- A run that goes on is guarded if both its parts are. -/
theorem guarded_append {G : σ → α → Prop} {s t : σ} {as bs : List α}
    (hrun : M.runFrom s as = some t) :
    M.Guarded G s (as ++ bs) ↔ M.Guarded G s as ∧ M.Guarded G t bs := by
  induction as generalizing s with
  | nil =>
    rw [runFrom_nil, Option.some.injEq] at hrun
    exact hrun ▸ (and_iff_right trivial).symm
  | cons a as ih =>
    obtain ⟨u, hu, hrest⟩ := M.runFrom_cons_eq_some.mp hrun
    have hnext : ∀ cs, M.Guarded G s (a :: cs) ↔ G s a ∧ M.Guarded G u cs := by
      intro cs
      simp [Guarded, hu]
    rw [List.cons_append, hnext, hnext, ih hrest, and_assoc]

theorem guarded_of_forall {G : σ → α → Prop} (h : ∀ s a, G s a) (s : σ) (as : List α) :
    M.Guarded G s as := by
  induction as generalizing s with
  | nil => trivial
  | cons a as ih => exact ⟨h s a, fun t _ => ih t⟩

/-- A condition on the labels alone can be added to one on the steps. -/
theorem guarded_and {G : σ → α → Prop} {Q : α → Prop} {s : σ} {as : List α}
    (hg : M.Guarded G s as) (hq : ∀ a ∈ as, Q a) : M.Guarded (fun s a => G s a ∧ Q a) s as := by
  induction as generalizing s with
  | nil => trivial
  | cons a as ih =>
    rw [List.forall_mem_cons] at hq
    exact ⟨⟨hg.1, hq.1⟩, fun t ht => ih (hg.2 t ht) hq.2⟩

/-- A condition on the labels alone. -/
theorem guarded_of_labels {Q : α → Prop} {as : List α} (hq : ∀ a ∈ as, Q a) (s : σ) :
    M.Guarded (fun _ a => Q a) s as := by
  induction as generalizing s with
  | nil => trivial
  | cons a as ih =>
    rw [List.forall_mem_cons] at hq
    exact ⟨hq.1, fun t _ => ih hq.2 t⟩

/-- A condition can be replaced by one that follows from it in the states that are reached. -/
theorem Guarded.imp {I : σ → Prop} {G G' : σ → α → Prop}
    (hstep : ∀ s a s', I s → G s a → M.step s a = some s' → I s')
    (himp : ∀ s a, I s → G s a → G' s a) {s : σ} {as : List α} (h0 : I s)
    (hg : M.Guarded G s as) : M.Guarded G' s as := by
  induction as generalizing s with
  | nil => trivial
  | cons a as ih =>
    exact ⟨himp s a h0 hg.1, fun t ht => ih (hstep s a t h0 hg.1 ht) (hg.2 t ht)⟩

/-- **Guarded invariant rule.** What holds initially and is kept by every step that meets
    `G` holds at the end of every run whose steps all meet `G`. -/
theorem guarded_invariant {P : σ → Prop} {G : σ → α → Prop}
    (hstep : ∀ s a s', P s → G s a → M.step s a = some s' → P s')
    {s s' : σ} {as : List α} (h0 : P s) (hg : M.Guarded G s as)
    (hrun : M.runFrom s as = some s') : P s' := by
  induction as generalizing s with
  | nil =>
    rw [runFrom_nil, Option.some.injEq] at hrun
    exact hrun ▸ h0
  | cons a as ih =>
    obtain ⟨t, ht, hrest⟩ := M.runFrom_cons_eq_some.mp hrun
    exact ih (hstep s a t h0 hg.1 ht) (hg.2 t ht) hrest

variable (M)

/-- `P` holds in every state that the run `as` from `s` goes through, `s` and the last one
    included. -/
def Always (P : σ → Prop) (s : σ) (as : List α) : Prop :=
  ∀ bs, bs <+: as → ∀ t, M.runFrom s bs = some t → P t

variable {M}

theorem always_nil {P : σ → Prop} {s : σ} : M.Always P s [] ↔ P s := by
  constructor
  · intro h
    exact h [] List.prefix_rfl s rfl
  · intro h bs hbs t ht
    rw [List.prefix_nil.mp hbs, runFrom_nil, Option.some.injEq] at ht
    exact ht ▸ h

theorem always_cons {P : σ → Prop} {s t : σ} {a : α} {as : List α}
    (ht : M.step s a = some t) : M.Always P s (a :: as) ↔ P s ∧ M.Always P t as := by
  constructor
  · intro h
    refine ⟨h [] List.nil_prefix s rfl, fun bs hbs u hu => ?_⟩
    exact h (a :: bs) ((List.prefix_cons_inj a).mpr hbs) u (by rw [runFrom_cons, ht]; exact hu)
  · rintro ⟨hs, h⟩ bs hbs u hu
    cases bs with
    | nil =>
      rw [runFrom_nil, Option.some.injEq] at hu
      exact hu ▸ hs
    | cons b bs =>
      obtain ⟨rfl, hbs'⟩ := List.cons_prefix_cons.mp hbs
      rw [runFrom_cons, ht] at hu
      exact h bs hbs' u hu

/-- What holds initially and is kept by every step that meets `G` holds throughout a run whose
    steps all meet `G`. -/
theorem always_of_guarded {P : σ → Prop} {G : σ → α → Prop}
    (hstep : ∀ s a s', P s → G s a → M.step s a = some s' → P s')
    {s : σ} {as : List α} (h0 : P s) (hg : M.Guarded G s as) : M.Always P s as := by
  rintro bs ⟨cs, rfl⟩ t ht
  exact guarded_invariant hstep h0 ((guarded_append ht).mp hg).1 ht

/-- **Exactness rule.** Let `I` be an invariant of the good states (`P`).  If a step from
    such a state stays good exactly when it meets `G`, then a run from one of them stays
    good throughout exactly when all its steps meet `G`. -/
theorem always_iff_guarded {I P : σ → Prop} {G : σ → α → Prop}
    (hinv : ∀ s a s', I s → P s → M.step s a = some s' → P s' → I s')
    (hiff : ∀ s a s', I s → P s → M.step s a = some s' → (P s' ↔ G s a))
    {s s' : σ} {as : List α} (hI : I s) (hP : P s) (hrun : M.runFrom s as = some s') :
    M.Always P s as ↔ M.Guarded G s as := by
  induction as generalizing s with
  | nil => exact ⟨fun _ => trivial, fun _ => always_nil.mpr hP⟩
  | cons a as ih =>
    obtain ⟨t, ht, hrest⟩ := M.runFrom_cons_eq_some.mp hrun
    rw [always_cons ht]
    -- both sides say something about the first step and the same about the rest
    constructor
    · rintro ⟨_, h⟩
      have hPt : P t := h [] List.nil_prefix t rfl
      refine ⟨(hiff s a t hI hP ht).mp hPt, fun u hu => ?_⟩
      obtain rfl : t = u := Option.some.inj (ht.symm.trans hu)
      exact (ih (hinv s a t hI hP ht hPt) hPt hrest).mp h
    · rintro ⟨hg, h⟩
      have hPt : P t := (hiff s a t hI hP ht).mpr hg
      exact ⟨hP, (ih (hinv s a t hI hP ht hPt) hPt hrest).mpr (h t ht)⟩

/-- **Exactness rule for what is never regained.** If a step keeps `P` exactly if `P` held and its
    guard does, then `P` holds at the end of a run exactly if it held at first and the run is
    guarded. -/
theorem last_iff_guarded {I P : σ → Prop} {G : σ → α → Prop}
    (hinv : ∀ s a s', I s → M.step s a = some s' → I s')
    (hiff : ∀ s a s', I s → M.step s a = some s' → (P s' ↔ P s ∧ G s a))
    {s s' : σ} {as : List α} (hI : I s) (hrun : M.runFrom s as = some s') :
    P s' ↔ P s ∧ M.Guarded G s as := by
  induction as generalizing s with
  | nil =>
    obtain rfl := Option.some.inj hrun
    exact (and_iff_left trivial).symm
  | cons a as ih =>
    obtain ⟨t, ht, hrest⟩ := M.runFrom_cons_eq_some.mp hrun
    have hguard : M.Guarded G s (a :: as) ↔ G s a ∧ M.Guarded G t as := by
      refine and_congr_right fun _ => ⟨fun h => h t ht, fun h t' ht' => ?_⟩
      exact Option.some.inj (ht.symm.trans ht') ▸ h
    rw [ih (hinv s a t hI ht) hrest, hiff s a t hI ht, hguard, and_assoc]

/-! ### Refinement -/

/-- **Simulation rule.** Let `view` show a state of `M` as one of `N`.  If every step that meets
    `G` is seen as a step of `N` or not at all, then every run whose steps all meet `G` is seen
    as a run of `N`. -/
theorem exists_run_of_simulates {τ β : Type*} {N : Machine τ β} (view : σ → τ) {P : σ → Prop}
    {G : σ → α → Prop}
    (hstep : ∀ s a s', P s → G s a → M.step s a = some s' →
      P s' ∧ (view s' = view s ∨ ∃ b, N.step (view s) b = some (view s')))
    {s s' : σ} {as : List α} (h0 : P s) (hg : M.Guarded G s as)
    (hrun : M.runFrom s as = some s') : ∃ bs, N.runFrom (view s) bs = some (view s') := by
  induction as generalizing s with
  | nil =>
    rw [runFrom_nil, Option.some.injEq] at hrun
    exact ⟨[], hrun ▸ rfl⟩
  | cons a as ih =>
    obtain ⟨t, ht, hrest⟩ := M.runFrom_cons_eq_some.mp hrun
    obtain ⟨hPt, hseen⟩ := hstep s a t h0 hg.1 ht
    obtain ⟨bs, hbs⟩ := ih hPt (hg.2 t ht) hrest
    rcases hseen with hsame | ⟨b, hb⟩
    · exact ⟨bs, hsame ▸ hbs⟩
    · exact ⟨b :: bs, N.runFrom_cons_eq_some.mpr ⟨view t, hb, hbs⟩⟩

end Machine

end Transition
