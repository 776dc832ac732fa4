import PiWebrtc.Lib.Machine
import Mathlib.Algebra.Order.Group.Multiset

namespace Transition

/-!
# Threads over a shared state

Threads that run straight-line code cut into atomic operations (a mutex-protected section,
one access to an atomic, one system call).  A thread is the list of operations it still
has to do; executing the first one may change the shared state, put further operations in
its place (a branch, a loop, a call) and start new threads.

The proofs never look at which thread does what: `inFlight` is the bag of all operations
still to be done, and `step_run` says that a step takes one of them out, executes it and
puts what it continues with in.  `tokens_conserved` is the rule for things that are
handed around between places of the shared state and operations.
-/

/-- A shared state and, for each thread, the operations it has not executed yet. -/
structure Threads (σ ι : Type*) where
  shared : σ
  todo : List (List ι)

/-- What executing one operation does: the new shared state, the operations the thread
    does next, and the threads it starts. -/
structure Effect (σ ι : Type*) where
  shared : σ
  next : List ι := []
  spawn : List (List ι) := []

/-- Code over a shared state `σ` with operations `ι`.  `χ` are the outcomes an operation
    may have, `κ` the calls that may come in from outside. -/
structure Code (σ ι χ κ : Type*) where
  init : Threads σ ι
  /-- The operations of a call, if it may be made now. -/
  entry : κ → Threads σ ι → Option (List ι)
  /-- Execute an operation with the given outcome; `none` if it blocks or if it cannot
      have that outcome. -/
  exec : ι → χ → Threads σ ι → Option (Effect σ ι)

/-- A label: a call comes in on a new thread, or thread `i` executes its next operation
    with outcome `x`. -/
inductive Label (χ κ : Type*) where
  | call (k : κ)
  | run (i : ℕ) (x : χ)

variable {σ ι χ κ : Type*}

namespace Threads

/-- All operations that some thread still has to execute. -/
def inFlight (s : Threads σ ι) : Multiset ι := (s.todo.flatten : Multiset ι)

/-- No thread has anything left to do. -/
def Quiet (s : Threads σ ι) : Prop := s.inFlight = 0

end Threads

namespace Code

variable (C : Code σ ι χ κ)

/-- One step of the threads. -/
def step (s : Threads σ ι) : Label χ κ → Option (Threads σ ι)
  | .call k => (C.entry k s).map fun ops => { s with todo := s.todo ++ [ops] }
  | .run i x =>
    match s.todo[i]? with
    | some (op :: rest) => (C.exec op x s).map fun e =>
        { shared := e.shared, todo := s.todo.set i (e.next ++ rest) ++ e.spawn }
    | _ => none

/-- The machine of all interleavings. -/
def machine : Machine (Threads σ ι) (Label χ κ) where
  init := C.init
  step := C.step

variable {C}

/-- Taking the head of thread `i` out leaves the same bag as replacing it does. -/
private theorem flatten_set_perm {l : List (List ι)} {i : ℕ} {op : ι} {rest : List ι}
    (h : l[i]? = some (op :: rest)) (next : List ι) :
    ∃ others : Multiset ι, (l.flatten : Multiset ι) = op ::ₘ others ∧
      ((l.set i (next ++ rest)).flatten : Multiset ι) = ↑next + others := by
  induction l generalizing i with
  | nil => simp at h
  | cons x xs ih =>
    cases i with
    | zero =>
      rw [List.getElem?_cons_zero, Option.some.injEq] at h
      subst h
      refine ⟨↑(rest ++ xs.flatten), ?_, ?_⟩
      · rw [List.flatten_cons, List.cons_append, Multiset.cons_coe]
      · rw [List.set_cons_zero, List.flatten_cons, List.append_assoc, Multiset.coe_add]
    | succ i =>
      rw [List.getElem?_cons_succ] at h
      obtain ⟨others, h1, h2⟩ := ih h
      refine ⟨↑x + others, ?_, ?_⟩
      · rw [List.flatten_cons, ← Multiset.coe_add, h1, Multiset.add_cons]
      · rw [List.set_cons_succ, List.flatten_cons, ← Multiset.coe_add, h2, add_left_comm]

/-- **What a call does.** It adds its operations to the ones in flight. -/
theorem step_call {s s' : Threads σ ι} {k : κ} (h : C.step s (.call k) = some s') :
    ∃ ops, C.entry k s = some ops ∧ s'.shared = s.shared ∧
      s'.inFlight = s.inFlight + ↑ops := by
  rw [step, Option.map_eq_some_iff] at h
  obtain ⟨ops, hops, rfl⟩ := h
  refine ⟨ops, hops, rfl, ?_⟩
  simp [Threads.inFlight, ← Multiset.coe_add]

/-- **What executing an operation does.** One operation in flight is executed; what it
    continues with and the threads it starts take its place. -/
theorem step_run {s s' : Threads σ ι} {i : ℕ} {x : χ} (h : C.step s (.run i x) = some s') :
    ∃ op rest others e, s.todo[i]? = some (op :: rest) ∧ s.inFlight = op ::ₘ others ∧
      C.exec op x s = some e ∧ s'.shared = e.shared ∧
      s'.inFlight = ↑e.next + others + ↑e.spawn.flatten := by
  rw [step] at h
  split at h
  case h_1 op rest hi =>
    rw [Option.map_eq_some_iff] at h
    obtain ⟨e, he, rfl⟩ := h
    obtain ⟨others, h1, h2⟩ := flatten_set_perm hi e.next
    refine ⟨op, rest, others, e, hi, h1, he, rfl, ?_⟩
    rw [Threads.inFlight, List.flatten_append, ← Multiset.coe_add, h2]
  case h_2 => cases h

/-- What comes next and what is started, in one bag. -/
theorem next_add_spawn (next : List ι) (others : Multiset ι) (spawn : List (List ι)) :
    (↑next + others + ↑spawn.flatten : Multiset ι) = ↑(next ++ spawn.flatten) + others := by
  rw [← Multiset.coe_add, add_right_comm]

/-! ### One thread on its own -/

section Alone

variable (C) in
/-- Thread `i`, when nothing comes in between and all its operations have the outcome `x`,
    comes to its end and leaves the shared state `t`. -/
def RunsAlone (i : ℕ) (x : χ) (s : Threads σ ι) (t : σ) : Prop :=
  ∃ n s', C.machine.runFrom s (List.replicate n (.run i x)) = some s' ∧ s'.todo[i]? = some [] ∧
    s'.shared = t

variable {i : ℕ} {x : χ} {s : Threads σ ι} {t : σ}

theorem RunsAlone.done (hi : s.todo[i]? = some []) (hs : s.shared = t) : C.RunsAlone i x s t :=
  ⟨0, s, rfl, hi, hs⟩

/-- The thread executes its next operation and goes on. -/
theorem RunsAlone.step {op : ι} {rest : List ι} {e : Effect σ ι}
    (hi : s.todo[i]? = some (op :: rest)) (he : C.exec op x s = some e) (hspawn : e.spawn = [])
    (hrest : ∀ s', s'.todo[i]? = some (e.next ++ rest) → s'.shared = e.shared →
      C.RunsAlone i x s' t) : C.RunsAlone i x s t := by
  have hlt : i < s.todo.length := (List.getElem?_eq_some_iff.mp hi).1
  have hstep : C.machine.step s (.run i x) =
      some { shared := e.shared, todo := s.todo.set i (e.next ++ rest) } := by
    show C.step s (.run i x) = _
    rw [Code.step, hi]
    simp [he, hspawn]
  have hi' : (s.todo.set i (e.next ++ rest))[i]? = some (e.next ++ rest) := by simp [hlt]
  obtain ⟨n, s', hrun, hend⟩ := hrest ⟨e.shared, s.todo.set i (e.next ++ rest)⟩ hi' rfl
  exact ⟨n + 1, s', C.machine.runFrom_cons_eq_some.mpr ⟨_, hstep, hrun⟩, hend⟩

end Alone

/-! ### Operations in flight -/

section InFlight

variable {p : ι → Prop} [DecidablePred p] {op : ι} {others : Multiset ι}

/-- Beside the only operation of a kind there is no other one. -/
theorem countP_others (hone : (op ::ₘ others).countP p ≤ 1) (hop : p op) :
    others.countP p = 0 := by
  rw [Multiset.countP_cons_of_pos others hop] at hone
  exact Nat.le_zero.mp (Nat.le_of_succ_le_succ hone)

theorem not_of_countP (hone : (op ::ₘ others).countP p ≤ 1) (hop : p op) {o : ι}
    (ho : o ∈ others) : ¬ p o :=
  Multiset.countP_eq_zero.mp (countP_others hone hop) o ho

/-- If what an operation carries is carried by what it continues with, nothing changes. -/
theorem filterMap_next {α : Type*} {f : ι → Option α} {next : List ι}
    (hnext : next.filterMap f = (f op).toList) :
    (↑next + others : Multiset ι).filterMap f = (op ::ₘ others).filterMap f := by
  rw [Multiset.filterMap_add, Multiset.filterMap_coe, hnext]
  cases hop : f op with
  | none => rw [Multiset.filterMap_cons_none op others hop]; exact Multiset.zero_add _
  | some a => rw [Multiset.filterMap_cons_some f op others hop]; exact Multiset.singleton_add a _

end InFlight

/-! ### Invariants over all interleavings -/

/-- The condition `g` on the state before an operation is executed, as a condition on
    labels. -/
def When (g : ι → Threads σ ι → Prop) (s : Threads σ ι) : Label χ κ → Prop
  | .call _ => True
  | .run i _ => ∀ op rest, s.todo[i]? = some (op :: rest) → g op s

/-- On the thread that takes the step, the condition is one on its next operation. -/
theorem when_run {g : ι → Threads σ ι → Prop} {s : Threads σ ι} {i : ℕ} {op : ι} {rest : List ι}
    (hi : s.todo[i]? = some (op :: rest)) (x : χ) :
    When g s (.run i x : Label χ κ) ↔ g op s := by
  simp [When, hi]

theorem when_true (s : Threads σ ι) (a : Label χ κ) : When (fun _ _ => True) s a := by
  cases a with
  | call k => trivial
  | run i x => exact fun _ _ _ => trivial

instance (g : ι → Threads σ ι → Prop) [∀ op s, Decidable (g op s)] (s : Threads σ ι) :
    ∀ a : Label χ κ, Decidable (When g s a)
  | .call _ => isTrue trivial
  | .run i _ =>
    match h : s.todo[i]? with
    | some (op :: rest) => decidable_of_iff (g op s) (when_run h _).symm
    | some [] => isTrue (by simp [When, h])
    | none => isTrue (by simp [When, h])

section Rules

variable {P : σ → Multiset ι → Prop} {g : ι → Threads σ ι → Prop}

section Calls

variable {c : κ → Prop}
  (hcall : ∀ s k ops, c k → P s.shared s.inFlight → C.entry k s = some ops →
    P s.shared (s.inFlight + ↑ops))
  (hexec : ∀ s op others x e, s.inFlight = op ::ₘ others → P s.shared s.inFlight → g op s →
    C.exec op x s = some e → P e.shared (↑e.next + others + ↑e.spawn.flatten))

include hcall hexec

/-- What every call of a kind keeps, and every operation executed under `g`, a step under `g`
    keeps unless a call of another kind comes in. -/
theorem step_keeps_of_calls {s s' : Threads σ ι} {a : Label χ κ} (hP : P s.shared s.inFlight)
    (hg : When g s a) (hc : ∀ k, a = .call k → c k) (h : C.step s a = some s') :
    P s'.shared s'.inFlight := by
  cases a with
  | call k =>
    obtain ⟨ops, hops, hsh, hfl⟩ := step_call h
    rw [hsh, hfl]
    exact hcall s k ops (hc k rfl) hP hops
  | run i x =>
    obtain ⟨op, rest, others, e, hi, hfl, he, hsh, hfl'⟩ := step_run h
    rw [hsh, hfl']
    exact hexec s op others x e hfl hP (hg op rest hi) he

/-- **Rule of interleavings from a state on.** What holds in a state and is kept by every call
    of a kind and by every operation executed under `g` holds after every interleaving in
    which only such calls come in and all operations are executed under `g`. -/
theorem guarded_interleavings_from {s s' : Threads σ ι} {as : List (Label χ κ)}
    (h0 : P s.shared s.inFlight) (hg : C.machine.Guarded (When g) s as)
    (hc : ∀ k, .call k ∈ as → c k) (hrun : C.machine.runFrom s as = some s') :
    P s'.shared s'.inFlight := by
  have hlabels : ∀ a ∈ as, ∀ k, a = .call k → c k := fun a ha k hk => hc k (hk ▸ ha)
  exact Machine.guarded_invariant (M := C.machine) (P := fun s => P s.shared s.inFlight)
    (fun _ _ _ hP hga h => step_keeps_of_calls hcall hexec hP hga.1 hga.2 h) h0
    (Machine.guarded_and hg hlabels) hrun

end Calls

variable (hcall : ∀ s k ops, P s.shared s.inFlight → C.entry k s = some ops →
    P s.shared (s.inFlight + ↑ops))
  (hexec : ∀ s op others x e, s.inFlight = op ::ₘ others → P s.shared s.inFlight → g op s →
    C.exec op x s = some e → P e.shared (↑e.next + others + ↑e.spawn.flatten))

include hcall hexec

/-- What every call keeps, and every operation executed under `g`, a step under `g` keeps. -/
theorem step_keeps {s s' : Threads σ ι} {a : Label χ κ} (hP : P s.shared s.inFlight)
    (hg : When g s a) (h : C.step s a = some s') : P s'.shared s'.inFlight :=
  step_keeps_of_calls (c := fun _ => True) (fun s k ops _ => hcall s k ops) hexec hP hg
    (fun _ _ => trivial) h

/-- **Rule of interleavings.** What holds of the initial state and is kept by every call
    and by every operation executed under `g` holds after every interleaving whose
    operations are all executed under `g`. -/
theorem guarded_interleavings (h0 : P C.init.shared C.init.inFlight)
    {s' : Threads σ ι} {as : List (Label χ κ)}
    (hg : C.machine.Guarded (When g) C.init as) (hrun : C.machine.run as = some s') :
    P s'.shared s'.inFlight :=
  Machine.guarded_invariant (M := C.machine) (P := fun s => P s.shared s.inFlight)
    (fun _ _ _ hP hg h => step_keeps hcall hexec hP hg h) h0 hg hrun

end Rules

section Unconditional

variable {I : σ → Multiset ι → Prop}
  (hcall : ∀ s k ops, I s.shared s.inFlight → C.entry k s = some ops →
    I s.shared (s.inFlight + ↑ops))
  (hexec : ∀ s op others x e, s.inFlight = op ::ₘ others → I s.shared s.inFlight →
    C.exec op x s = some e → I e.shared (↑e.next + others + ↑e.spawn.flatten))

include hcall hexec

/-- What every call and every operation keeps, a step keeps. -/
theorem step_keeps_always {s s' : Threads σ ι} {a : Label χ κ} (hI : I s.shared s.inFlight)
    (h : C.step s a = some s') : I s'.shared s'.inFlight :=
  step_keeps (g := fun _ _ => True) hcall
    (fun s op others x e hfl hI _ he => hexec s op others x e hfl hI he) hI (when_true s a) h

/-- **Rule of interleavings from a state on**, without a condition on the steps. -/
theorem interleavings_from {s s' : Threads σ ι} {as : List (Label χ κ)}
    (h0 : I s.shared s.inFlight) (hrun : C.machine.runFrom s as = some s') :
    I s'.shared s'.inFlight :=
  Machine.runFrom_invariant (M := C.machine) (P := fun s => I s.shared s.inFlight)
    (fun _ _ _ hI h => step_keeps_always hcall hexec hI h) h0 hrun

/-- **Rule of interleavings**, without a condition on the steps. -/
theorem interleavings (h0 : I C.init.shared C.init.inFlight) {s' : Threads σ ι}
    {as : List (Label χ κ)} (hrun : C.machine.run as = some s') : I s'.shared s'.inFlight :=
  interleavings_from hcall hexec h0 hrun

/-- **Exactness rule of interleavings.** Let `I` be an invariant.  If calls keep the states
    good (`P`), and an operation executed in a good state leads to a good one exactly if it
    meets `g`, then an interleaving stays good throughout exactly if all its operations are
    executed under `g`. -/
theorem always_iff_guarded {P : Threads σ ι → Prop} {g : ι → Threads σ ι → Prop}
    (hgood : ∀ s s' k ops, I s.shared s.inFlight → P s → C.entry k s = some ops →
      s'.shared = s.shared → s'.inFlight = s.inFlight + ↑ops → P s')
    (hiff : ∀ s s' op others x e, I s.shared s.inFlight → P s → s.inFlight = op ::ₘ others →
      C.exec op x s = some e → s'.shared = e.shared →
      s'.inFlight = ↑e.next + others + ↑e.spawn.flatten → (P s' ↔ g op s))
    (h0 : I C.init.shared C.init.inFlight) (hP0 : P C.init) {s' : Threads σ ι}
    {as : List (Label χ κ)} (hrun : C.machine.run as = some s') :
    C.machine.Always P C.init as ↔ C.machine.Guarded (When g) C.init as := by
  refine Machine.always_iff_guarded (M := C.machine) (I := fun s => I s.shared s.inFlight)
    ?_ ?_ h0 hP0 hrun
  · intro s a s' hI _ hstep _
    exact step_keeps_always hcall hexec hI hstep
  · intro s a s' hI hP hstep
    cases a with
    | call k =>
      obtain ⟨ops, hops, hsh, hfl⟩ := step_call hstep
      exact iff_of_true (hgood s s' k ops hI hP hops hsh hfl) trivial
    | run i x =>
      obtain ⟨op, rest, others, e, hi, hfl, he, hsh, hfl'⟩ := step_run hstep
      rw [when_run hi]
      exact hiff s s' op others x e hI hP hfl he hsh hfl'

end Unconditional

/-! ### Things that are handed around -/

section Tokens

variable {α : Type*} (places : σ → Multiset α) (hand : ι → Option α)

/-- What is at some place of the shared state or in the hands of an operation in flight. -/
def tokens (c : σ) (flight : Multiset ι) : Multiset α := places c + flight.filterMap hand

variable {places hand} {c c' : σ}

/-- What an operation has in hand, and what the other ones have. -/
theorem tokens_cons (c : σ) (op : ι) (others : Multiset ι) :
    tokens places hand c (op ::ₘ others) =
      places c + ↑(hand op).toList + others.filterMap hand := by
  rw [tokens, add_assoc]
  congr 1
  cases hop : hand op with
  | none => rw [Multiset.filterMap_cons_none op others hop]; exact (Multiset.zero_add _).symm
  | some a => rw [Multiset.filterMap_cons_some hand op others hop]; rfl

/-- Two operations that have the same thing in hand. -/
theorem two_le_count_tokens [DecidableEq α] {flight : Multiset ι} {a b : ι} {t : α} (hne : a ≠ b)
    (ha : a ∈ flight) (hb : b ∈ flight) (hat : hand a = some t) (hbt : hand b = some t) :
    2 ≤ (flight.filterMap hand).count t := by
  obtain ⟨rest, rfl⟩ := Multiset.exists_cons_of_mem ha
  have hb' : b ∈ rest := (Multiset.mem_cons.mp hb).resolve_left hne.symm
  obtain ⟨rest, rfl⟩ := Multiset.exists_cons_of_mem hb'
  rw [Multiset.filterMap_cons_some hand a _ hat, Multiset.filterMap_cons_some hand b _ hbt,
    Multiset.count_cons_self, Multiset.count_cons_self]
  omega

/-- An operation moves: what was in its hands or at the places is there or in hand afterwards. -/
theorem tokens_next {op : ι} {others : Multiset ι} {next : List ι}
    (hmove : places c' + ↑(next.filterMap hand) = places c + ↑(hand op).toList) :
    tokens places hand c' (↑next + others) = tokens places hand c (op ::ₘ others) := by
  rw [tokens_cons, ← hmove, tokens, Multiset.filterMap_add, Multiset.filterMap_coe, add_assoc]

/-- **Conservation rule.** If calls come in with empty hands and every operation only moves, then
    what there was in the beginning is there after every interleaving. -/
theorem tokens_conserved {tok : Multiset α}
    (hcall : ∀ s k ops, C.entry k s = some ops → ops.filterMap hand = [])
    (hexec : ∀ s op others x e, s.inFlight = op ::ₘ others →
      tokens places hand s.shared s.inFlight = tok → C.exec op x s = some e →
        places e.shared + ↑((e.next ++ e.spawn.flatten).filterMap hand) =
          places s.shared + ↑(hand op).toList)
    (h0 : tokens places hand C.init.shared C.init.inFlight = tok) {s' : Threads σ ι}
    {as : List (Label χ κ)} (hrun : C.machine.run as = some s') :
    tokens places hand s'.shared s'.inFlight = tok := by
  refine interleavings (I := fun c flight => tokens places hand c flight = tok) ?_ ?_ h0 hrun
  · intro s k ops h hops
    rw [tokens, Multiset.filterMap_add, Multiset.filterMap_coe, hcall s k ops hops,
      Multiset.coe_nil, add_zero]
    exact h
  · intro s op others x e hfl h he
    rw [next_add_spawn, tokens_next (hexec s op others x e hfl h he), ← hfl]
    exact h

end Tokens

end Code

end Transition
