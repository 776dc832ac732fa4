import PiWebrtc.Common.Subject
import PiWebrtc.Lib.Threads

namespace PiWebrtc.Common

open Transition

/-!
# Delivery beside unsubscribing

`Next` copies the observers under the lock and calls them outside of it; the destructor of a
`Subscription` takes its observer out of the list under the lock.  So a call of `Next` that has
copied the observer before goes on to call it, whether or not the destructor has returned.

* `deliveryCode` — calls of `Next`, `Subscribe` and destructors on any threads, by locked
  sections and callback calls.
* `undelivered_of_guarded`, `guarded_of_undelivered` — no callback is run for an owner that is
  gone if, and in runs to the end only if, no destructor returns while a call of `Next` still
  has its observer before it.

The subject outlives its subscriptions here, so `weak_alive` does not expire.
-/

/-- The operations. A call of `Next` carries the rest of its snapshot. -/
inductive SubjectOp (κ ν : Type*) where
  /-- `Subscribe`: the locked section. -/
  | subscribe (callback : κ)
  /-- `Next`: the locked section. -/
  | copy (value : ν)
  /-- `Next`: the loop calls the next callback, or ends. -/
  | callNext (rest : List (Observer κ)) (value : ν)
  /-- `Next`: the callback of `o`, which is running, returns. -/
  | callbackReturns (o : Observer κ) (rest : List (Observer κ)) (value : ν)
  /-- `~Subscription`: the locked section. -/
  | erase (o : Observer κ)
  /-- `~Subscription`: the destructor returns. -/
  | destructorReturns (o : Observer κ)

/-- The calls. -/
inductive SubjectCall (κ ν : Type*) where
  | subscribe (callback : κ)
  | next (value : ν)
  | destroy (o : Observer κ)

/-- The subject, the observers whose handle is there, and the ids of those whose destructor has
    returned. -/
structure Delivery (κ : Type*) where
  subject : Subject κ := {}
  handles : List (Observer κ) := []
  nextObserver : ℕ := 0
  destroyed : List ℕ := []

section Operations

variable {κ ν : Type*}

/-- The destructor of `o` is about to take it out. -/
def SubjectOp.erases (o : Observer κ) : SubjectOp κ ν → Bool
  | .erase o' => o'.id = o.id
  | _ => false

/-- The operations of a call.  A handle is destroyed once. -/
def deliveryEntry [DecidableEq κ] (call : SubjectCall κ ν)
    (s : Threads (Delivery κ) (SubjectOp κ ν)) : Option (List (SubjectOp κ ν)) :=
  match call with
  | .subscribe callback => some [.subscribe callback]
  | .next value => some [.copy value]
  | .destroy o =>
    if o ∈ s.shared.handles ∧ s.todo.flatten.any (SubjectOp.erases o) = false then
      some [.erase o]
    else none

/-- Execute an operation. -/
def deliveryExec (op : SubjectOp κ ν) (_ : Unit) (s : Threads (Delivery κ) (SubjectOp κ ν)) :
    Option (Effect (Delivery κ) (SubjectOp κ ν)) :=
  let r := s.shared
  match op with
  | .subscribe callback =>
    let o : Observer κ := ⟨r.nextObserver, callback⟩
    some { shared :=
      { r with
        subject := { observers := r.subject.observers ++ [o] }
        handles := r.handles ++ [o]
        nextObserver := r.nextObserver + 1 } }
  | .copy value => some { shared := r, next := [.callNext r.subject.observers value] }
  | .callNext [] _ => some { shared := r }
  | .callNext (o :: rest) value => some { shared := r, next := [.callbackReturns o rest value] }
  | .callbackReturns _ rest value => some { shared := r, next := [.callNext rest value] }
  | .erase o =>
    some
      { shared :=
          { r with
            subject := r.subject.unsubscribe o
            handles := r.handles.filter fun p => p.id ≠ o.id }
        next := [.destructorReturns o] }
  | .destructorReturns o => some { shared := { r with destroyed := o.id :: r.destroyed } }

/-- Calls on any threads. -/
def deliveryCode (κ ν : Type*) [DecidableEq κ] :
    Code (Delivery κ) (SubjectOp κ ν) Unit (SubjectCall κ ν) where
  init := ⟨{}, []⟩
  entry := deliveryEntry
  exec := deliveryExec

/-- The observer whose callback is running: it returns next. -/
def SubjectOp.running : SubjectOp κ ν → Option ℕ
  | .callbackReturns o _ _ => some o.id
  | _ => none

/-- What is asked for: no callback is running, just started or for longer, whose destructor has
    returned. -/
def Undelivered (s : Threads (Delivery κ) (SubjectOp κ ν)) : Prop :=
  ∀ op ∈ s.inFlight, ∀ i ∈ op.running, i ∉ s.shared.destroyed

/-- The observers that a call of `Next` is calling or has still to call. -/
def SubjectOp.ahead : SubjectOp κ ν → List ℕ
  | .callNext rest _ => rest.map Observer.id
  | .callbackReturns o rest _ => o.id :: rest.map Observer.id
  | _ => []

/-- The condition: when a destructor returns, no call of `Next` has its observer before it. -/
def NoneAhead (op : SubjectOp κ ν) (s : Threads (Delivery κ) (SubjectOp κ ν)) : Prop :=
  match op with
  | .destructorReturns o => ∀ op' ∈ s.todo.flatten, o.id ∉ op'.ahead
  | _ => True

instance (op : SubjectOp κ ν) (s : Threads (Delivery κ) (SubjectOp κ ν)) :
    Decidable (NoneAhead op s) :=
  match op with
  | .destructorReturns o =>
    inferInstanceAs (Decidable (∀ op' ∈ s.todo.flatten, o.id ∉ op'.ahead))
  | .subscribe _ | .copy _ | .callNext _ _ | .callbackReturns _ _ _ | .erase _ => isTrue trivial

end Operations

/-! ### No call of `Next` has a destroyed observer before it -/

section Sufficient

variable {κ ν : Type*}

/-- The observer that a destructor is taking out, and whether it has. -/
def SubjectOp.leaving : SubjectOp κ ν → Option (ℕ × Bool)
  | .erase o => some (o.id, false)
  | .destructorReturns o => some (o.id, true)
  | _ => none

/-- **The invariant.** The observers that are destroyed, or taken out by a destructor, are not
    in the list, and ids are not used again; the destroyed ones are before no call of `Next`. -/
structure UndeliveredInv (r : Delivery κ) (flight : Multiset (SubjectOp κ ν)) : Prop where
  observers : ∀ o ∈ r.subject.observers, o.id < r.nextObserver
  handles : ∀ o ∈ r.handles, o.id < r.nextObserver
  leaving : ∀ op ∈ flight, ∀ x ∈ op.leaving, x.1 < r.nextObserver
  erased : ∀ op ∈ flight, ∀ x ∈ op.leaving, x.2 = true →
    x.1 ∉ r.subject.observers.map Observer.id
  destroyed : ∀ i ∈ r.destroyed, i < r.nextObserver ∧ i ∉ r.subject.observers.map Observer.id
  ahead : ∀ i ∈ r.destroyed, ∀ op ∈ flight, i ∉ op.ahead

namespace UndeliveredInv

variable {r : Delivery κ} {op : SubjectOp κ ν} {others : Multiset (SubjectOp κ ν)}

theorem undelivered {s : Threads (Delivery κ) (SubjectOp κ ν)}
    (h : UndeliveredInv s.shared s.inFlight) : Undelivered s := by
  intro op hop i hi hgone
  cases op with
  | callbackReturns o rest value =>
    obtain rfl : o.id = i := Option.some.inj hi
    exact h.ahead o.id hgone _ hop List.mem_cons_self
  | _ => cases hi

/-- **Frame.** An operation that leaves the subject as it is goes on to one that is ahead of no
    destroyed observer and takes none out. -/
theorem goOn (h : UndeliveredInv r (op ::ₘ others)) (op' : SubjectOp κ ν)
    (hleaving : op'.leaving = none) (hahead : ∀ i ∈ r.destroyed, i ∉ op'.ahead) :
    UndeliveredInv r (op' ::ₘ others) := by
  refine ⟨h.observers, h.handles, ?_, ?_, h.destroyed, ?_⟩
  · intro o ho x hx
    rcases Multiset.mem_cons.mp ho with rfl | ho
    · rw [hleaving] at hx
      cases hx
    · exact h.leaving o (Multiset.mem_cons_of_mem ho) x hx
  · intro o ho x hx
    rcases Multiset.mem_cons.mp ho with rfl | ho
    · rw [hleaving] at hx
      cases hx
    · exact h.erased o (Multiset.mem_cons_of_mem ho) x hx
  · intro i hi o ho
    rcases Multiset.mem_cons.mp ho with rfl | ho
    · exact hahead i hi
    · exact h.ahead i hi o (Multiset.mem_cons_of_mem ho)

/-- A call of `Next` comes to its end. -/
theorem done (h : UndeliveredInv r (op ::ₘ others)) : UndeliveredInv r others where
  observers := h.observers
  handles := h.handles
  leaving o ho := h.leaving o (Multiset.mem_cons_of_mem ho)
  erased o ho := h.erased o (Multiset.mem_cons_of_mem ho)
  destroyed := h.destroyed
  ahead i hi o ho := h.ahead i hi o (Multiset.mem_cons_of_mem ho)

/-- A new observer has an id of its own. -/
theorem subscribed (h : UndeliveredInv r others) (callback : κ) :
    UndeliveredInv { r with
      subject := { observers := r.subject.observers ++ [⟨r.nextObserver, callback⟩] }
      handles := r.handles ++ [⟨r.nextObserver, callback⟩]
      nextObserver := r.nextObserver + 1 } others := by
  have hnew : ∀ i < r.nextObserver, i ∉ r.subject.observers.map Observer.id →
      i ∉ (r.subject.observers ++ [Observer.mk r.nextObserver callback]).map Observer.id := by
    intro i hlt hi
    simpa [hlt.ne] using hi
  refine ⟨?_, ?_, ?_, ?_, ?_, h.ahead⟩
  · intro o ho
    rcases List.mem_append.mp ho with ho | ho
    · exact Nat.lt_succ_of_lt (h.observers o ho)
    · rw [List.mem_singleton.mp ho]
      exact Nat.lt_succ_self _
  · intro o ho
    rcases List.mem_append.mp ho with ho | ho
    · exact Nat.lt_succ_of_lt (h.handles o ho)
    · rw [List.mem_singleton.mp ho]
      exact Nat.lt_succ_self _
  · exact fun o ho x hx => Nat.lt_succ_of_lt (h.leaving o ho x hx)
  · exact fun o ho x hx hout => hnew x.1 (h.leaving o ho x hx) (h.erased o ho x hx hout)
  · exact fun i hi => ⟨Nat.lt_succ_of_lt (h.destroyed i hi).1,
      hnew i (h.destroyed i hi).1 (h.destroyed i hi).2⟩

/-- A destructor takes its observer out. -/
theorem takenOut {o : Observer κ} (h : UndeliveredInv r (.erase o ::ₘ others)) :
    UndeliveredInv { r with
      subject := r.subject.unsubscribe o
      handles := r.handles.filter fun p => p.id ≠ o.id } (.destructorReturns o ::ₘ others) := by
  have hsub : ((r.subject.unsubscribe o).observers.map Observer.id) ⊆
      r.subject.observers.map Observer.id := List.map_subset _ List.filter_sublist.subset
  refine ⟨?_, ?_, ?_, ?_, ?_, ?_⟩
  · exact fun p hp => h.observers p (List.mem_of_mem_filter hp)
  · exact fun p hp => h.handles p (List.mem_of_mem_filter hp)
  · intro op hop x hx
    rcases Multiset.mem_cons.mp hop with rfl | hop
    · obtain rfl := Option.some.inj hx
      exact h.leaving (.erase o) (Multiset.mem_cons_self _ _) (o.id, false) rfl
    · exact h.leaving op (Multiset.mem_cons_of_mem hop) x hx
  · intro op hop x hx hout
    rcases Multiset.mem_cons.mp hop with rfl | hop
    · obtain rfl := Option.some.inj hx
      simp [Subject.unsubscribe]
    · exact fun hmem => h.erased op (Multiset.mem_cons_of_mem hop) x hx hout (hsub hmem)
  · exact fun i hi => ⟨(h.destroyed i hi).1, fun hmem => (h.destroyed i hi).2 (hsub hmem)⟩
  · intro i hi op hop
    rcases Multiset.mem_cons.mp hop with rfl | hop
    · exact List.not_mem_nil
    · exact h.ahead i hi op (Multiset.mem_cons_of_mem hop)

/-- A destructor returns while no call of `Next` has its observer before it. -/
theorem returned {o : Observer κ} (h : UndeliveredInv r (.destructorReturns o ::ₘ others))
    (hahead : ∀ op ∈ others, o.id ∉ op.ahead) :
    UndeliveredInv { r with destroyed := o.id :: r.destroyed } others := by
  have hself := Multiset.mem_cons_self (SubjectOp.destructorReturns (ν := ν) o) others
  refine ⟨h.observers, h.handles, h.done.leaving, h.done.erased, fun i hi => ?_, ?_⟩
  · rcases List.mem_cons.mp hi with rfl | hi
    · exact ⟨h.leaving _ hself _ rfl, h.erased _ hself _ rfl rfl⟩
    · exact h.destroyed i hi
  · intro i hi op hop
    rcases List.mem_cons.mp hi with rfl | hi
    · exact hahead op hop
    · exact h.done.ahead i hi op hop

/-- **Execution of an operation** under the condition. -/
theorem exec {s : Threads (Delivery κ) (SubjectOp κ ν)} {x : Unit}
    {e : Effect (Delivery κ) (SubjectOp κ ν)} (hfl : s.inFlight = op ::ₘ others)
    (h : UndeliveredInv s.shared s.inFlight) (hg : NoneAhead op s)
    (he : deliveryExec op x s = some e) :
    UndeliveredInv e.shared
      (↑e.next + others + ↑e.spawn.flatten : Multiset (SubjectOp κ ν)) := by
  rw [hfl] at h
  cases op with
  | subscribe callback =>
    obtain rfl := Option.some.inj he
    simpa using h.done.subscribed callback
  | copy value =>
    obtain rfl := Option.some.inj he
    simpa using h.goOn (.callNext s.shared.subject.observers value) rfl
      fun i hi => (h.destroyed i hi).2
  | callNext rest value =>
    cases rest with
    | nil =>
      obtain rfl := Option.some.inj he
      simpa using h.done
    | cons o rest =>
      obtain rfl := Option.some.inj he
      simpa using h.goOn (.callbackReturns o rest value) rfl
        fun i hi => h.ahead i hi (.callNext (o :: rest) value) (Multiset.mem_cons_self _ _)
  | callbackReturns o rest value =>
    obtain rfl := Option.some.inj he
    simpa using h.goOn (.callNext rest value) rfl fun i hi hmem =>
      h.ahead i hi _ (Multiset.mem_cons_self _ _) (List.mem_cons_of_mem _ hmem)
  | erase o =>
    obtain rfl := Option.some.inj he
    simpa using h.takenOut
  | destructorReturns o =>
    obtain rfl := Option.some.inj he
    have hahead : ∀ op ∈ others, o.id ∉ op.ahead := by
      intro op hop
      have hmem : op ∈ s.inFlight := hfl ▸ Multiset.mem_cons_of_mem hop
      exact hg op (Multiset.mem_coe.mp hmem)
    simpa using h.returned hahead

variable [DecidableEq κ]

/-- No call starts ahead of an observer, and a destructor starts with its handle there. -/
theorem call {s : Threads (Delivery κ) (SubjectOp κ ν)} {k : SubjectCall κ ν}
    {ops : List (SubjectOp κ ν)} (h : UndeliveredInv s.shared s.inFlight)
    (hops : deliveryEntry k s = some ops) :
    UndeliveredInv s.shared (s.inFlight + ↑ops : Multiset (SubjectOp κ ν)) := by
  have hnew : ∀ op ∈ ops, op.ahead = [] ∧
      ∀ x ∈ op.leaving, x.1 < s.shared.nextObserver ∧ x.2 = false := by
    intro op hop
    cases k with
    | subscribe callback =>
      obtain rfl := Option.some.inj hops
      rw [List.mem_singleton.mp hop]
      exact ⟨rfl, by rintro x ⟨⟩⟩
    | next value =>
      obtain rfl := Option.some.inj hops
      rw [List.mem_singleton.mp hop]
      exact ⟨rfl, by rintro x ⟨⟩⟩
    | destroy o =>
      rw [deliveryEntry, Option.ite_none_right_eq_some] at hops
      obtain ⟨⟨hmem, -⟩, hops⟩ := hops
      obtain rfl := Option.some.inj hops
      rw [List.mem_singleton.mp hop]
      refine ⟨rfl, fun x hx => ?_⟩
      obtain rfl := Option.some.inj hx
      exact ⟨h.handles o hmem, rfl⟩
  refine ⟨h.observers, h.handles, fun op hop x hx => ?_, fun op hop x hx hout => ?_,
    h.destroyed, fun i hi op hop => ?_⟩
  · rcases Multiset.mem_add.mp hop with hop | hop
    · exact h.leaving op hop x hx
    · exact ((hnew op hop).2 x hx).1
  · rcases Multiset.mem_add.mp hop with hop | hop
    · exact h.erased op hop x hx hout
    · rw [((hnew op hop).2 x hx).2] at hout
      cases hout
  · rcases Multiset.mem_add.mp hop with hop | hop
    · exact h.ahead i hi op hop
    · rw [(hnew op hop).1]
      exact List.not_mem_nil

theorem init : UndeliveredInv (deliveryCode κ ν).init.shared (deliveryCode κ ν).init.inFlight :=
  ⟨fun _ ho => absurd ho List.not_mem_nil, fun _ ho => absurd ho List.not_mem_nil,
    fun _ ho => absurd ho (Multiset.notMem_zero _), fun _ ho => absurd ho (Multiset.notMem_zero _),
    fun _ hi => absurd hi List.not_mem_nil, fun _ hi => absurd hi List.not_mem_nil⟩

end UndeliveredInv

/-- If no destructor returns while a call of `Next` has its observer before it, no callback of a
    destroyed one is running at any time. -/
theorem undelivered_of_guarded [DecidableEq κ] {as : List (Label Unit (SubjectCall κ ν))}
    (hg : (deliveryCode κ ν).machine.Guarded (Code.When NoneAhead) (deliveryCode κ ν).init as) :
    (deliveryCode κ ν).machine.Always Undelivered (deliveryCode κ ν).init as := by
  have halways := Machine.always_of_guarded (M := (deliveryCode κ ν).machine)
    (P := fun s => UndeliveredInv s.shared s.inFlight)
    (fun _ _ _ h hg hs => Code.step_keeps (C := deliveryCode κ ν)
      (fun _ _ _ h hops => h.call hops)
      (fun _ _ _ x _ hfl h hg he => h.exec (x := x) hfl hg he) h hg hs)
    UndeliveredInv.init hg
  exact fun bs hbs t ht => (halways bs hbs t ht).undelivered

end Sufficient

/-! ### What is ahead of a call of `Next` is called -/

section Necessary

variable {κ ν : Type*} {i : ℕ}

/-- Some call of `Next` has the destroyed observer `i` before it. -/
def GoneAhead (i : ℕ) (s : Threads (Delivery κ) (SubjectOp κ ν)) : Prop :=
  i ∈ s.shared.destroyed ∧ ∃ op ∈ s.inFlight, i ∈ op.ahead

/-- What is destroyed stays so. -/
theorem destroyed_exec {s : Threads (Delivery κ) (SubjectOp κ ν)} {op : SubjectOp κ ν} (x : Unit)
    {e : Effect (Delivery κ) (SubjectOp κ ν)} (he : deliveryExec op x s = some e)
    (hi : i ∈ s.shared.destroyed) : i ∈ e.shared.destroyed := by
  cases op with
  | callNext rest value =>
    cases rest with
    | nil => exact Option.some.inj he ▸ hi
    | cons o rest => exact Option.some.inj he ▸ hi
  | destructorReturns o => exact Option.some.inj he ▸ List.mem_cons_of_mem _ hi
  | _ => exact Option.some.inj he ▸ hi

/-- An operation with `i` before it goes on to one with `i` before it, unless it is the return
    of the callback of `i`. -/
theorem ahead_exec {s : Threads (Delivery κ) (SubjectOp κ ν)} {op : SubjectOp κ ν} (x : Unit)
    {e : Effect (Delivery κ) (SubjectOp κ ν)} (he : deliveryExec op x s = some e)
    (hi : i ∈ op.ahead) : op.running = some i ∨ ∃ op' ∈ e.next, i ∈ op'.ahead := by
  cases op with
  | callNext rest value =>
    cases rest with
    | nil => exact absurd hi List.not_mem_nil
    | cons o rest =>
      obtain rfl := Option.some.inj he
      exact .inr ⟨.callbackReturns o rest value, List.mem_singleton_self _, hi⟩
  | callbackReturns o rest value =>
    obtain rfl := Option.some.inj he
    rcases List.mem_cons.mp hi with rfl | hi
    · exact .inl rfl
    · exact .inr ⟨.callNext rest value, List.mem_singleton_self _, hi⟩
  | _ => exact absurd hi List.not_mem_nil

variable [DecidableEq κ]

/-- While no callback of a destroyed observer is running, one that is ahead stays so. -/
theorem GoneAhead.step {s s' : Threads (Delivery κ) (SubjectOp κ ν)}
    {a : Label Unit (SubjectCall κ ν)} (h : GoneAhead i s) (hP : Undelivered s)
    (hs : (deliveryCode κ ν).step s a = some s') : GoneAhead i s' := by
  obtain ⟨hi, op, hop, hahead⟩ := h
  cases a with
  | call k =>
    obtain ⟨ops, _, hshared, hfl⟩ := Code.step_call hs
    exact ⟨hshared ▸ hi, op, hfl ▸ Multiset.mem_add.mpr (.inl hop), hahead⟩
  | run j x =>
    obtain ⟨op', rest, others, e, _, hfl, he, hshared, hfl'⟩ := Code.step_run hs
    refine ⟨hshared ▸ destroyed_exec x he hi, ?_⟩
    rw [hfl']
    rcases Multiset.mem_cons.mp (hfl ▸ hop) with rfl | hother
    · rcases ahead_exec x he hahead with hrun | ⟨op'', hnext, hahead'⟩
      · exact absurd hi (hP op hop i hrun)
      · refine ⟨op'', ?_, hahead'⟩
        exact Multiset.mem_add.mpr (.inl (Multiset.mem_add.mpr (.inl (Multiset.mem_coe.mpr hnext))))
    · exact ⟨op, Multiset.mem_add.mpr (.inl (Multiset.mem_add.mpr (.inr hother))), hahead⟩

/-- A run to the end calls what is ahead. -/
theorem not_goneAhead {s s' : Threads (Delivery κ) (SubjectOp κ ν)}
    {as : List (Label Unit (SubjectCall κ ν))}
    (hrun : (deliveryCode κ ν).machine.runFrom s as = some s') (hquiet : s'.Quiet)
    (hP : (deliveryCode κ ν).machine.Always Undelivered s as) : ¬ GoneAhead i s := by
  induction as generalizing s with
  | nil =>
    obtain rfl := Option.some.inj hrun
    rintro ⟨_, op, hop, _⟩
    rw [show s.inFlight = 0 from hquiet] at hop
    exact Multiset.notMem_zero op hop
  | cons a as ih =>
    obtain ⟨t, ht, hrest⟩ := Machine.runFrom_cons_eq_some _ |>.mp hrun
    obtain ⟨hPs, hPt⟩ := (Machine.always_cons ht).mp hP
    exact fun h => ih hrest hPt (h.step hPs ht)

/-- In a run to the end the condition is needed. -/
theorem guarded_of_undelivered {s s' : Threads (Delivery κ) (SubjectOp κ ν)}
    {as : List (Label Unit (SubjectCall κ ν))}
    (hrun : (deliveryCode κ ν).machine.runFrom s as = some s') (hquiet : s'.Quiet)
    (hP : (deliveryCode κ ν).machine.Always Undelivered s as) :
    (deliveryCode κ ν).machine.Guarded (Code.When NoneAhead) s as := by
  induction as generalizing s with
  | nil => trivial
  | cons a as ih =>
    obtain ⟨t, ht, hrest⟩ := Machine.runFrom_cons_eq_some _ |>.mp hrun
    obtain ⟨hPs, hPt⟩ := (Machine.always_cons ht).mp hP
    refine ⟨?_, fun t' ht' => ?_⟩
    · cases a with
      | call k => trivial
      | run j x =>
        obtain ⟨op, rest, others, e, hj, hfl, he, hshared, hfl'⟩ := Code.step_run ht
        rw [Code.when_run hj]
        cases op with
        | destructorReturns o =>
          intro op' hop' hahead
          obtain rfl := Option.some.inj he
          refine not_goneAhead (i := o.id) hrest hquiet hPt ⟨hshared ▸ List.mem_cons_self, op', ?_,
            hahead⟩
          -- the destructor itself has nothing before it
          have hmem : op' ∈ s.inFlight := Multiset.mem_coe.mpr hop'
          rcases Multiset.mem_cons.mp (hfl ▸ hmem) with rfl | hother
          · exact absurd hahead List.not_mem_nil
          · rw [hfl']
            exact Multiset.mem_add.mpr (.inl (Multiset.mem_add.mpr (.inr hother)))
        | _ => trivial
    · obtain rfl : t = t' := Option.some.inj (ht.symm.trans ht')
      exact ih hrest hPt

end Necessary

/-! ### All interleavings -/

/-- **No delivery after unsubscribing, exactly.** No callback is running once the destructor of
    its subscription has returned, if no destructor returns while a call of `Next` has the
    observer before it; and in a run in which all calls come to their end, only if. -/
theorem no_delivery_after_unsubscribe {κ ν : Type*} [DecidableEq κ]
    (as : List (Label Unit (SubjectCall κ ν))) (s : Threads (Delivery κ) (SubjectOp κ ν))
    (hrun : (deliveryCode κ ν).machine.run as = some s) :
    ((deliveryCode κ ν).machine.Guarded (Code.When NoneAhead) (deliveryCode κ ν).init as →
      (deliveryCode κ ν).machine.Always Undelivered (deliveryCode κ ν).init as) ∧
    (s.Quiet →
      ((deliveryCode κ ν).machine.Always Undelivered (deliveryCode κ ν).init as ↔
        (deliveryCode κ ν).machine.Guarded (Code.When NoneAhead) (deliveryCode κ ν).init as)) :=
  ⟨undelivered_of_guarded, fun hquiet =>
    ⟨guarded_of_undelivered hrun hquiet, undelivered_of_guarded⟩⟩

/-- One value for one observer, which then unsubscribes. -/
def deliveredThenGone : List (Label Unit (SubjectCall Char ℕ)) :=
  [.call (.subscribe 'a'), .run 0 (), .call (.next 7), .run 1 (), .run 1 (), .run 1 (),
    .run 1 (), .call (.destroy ⟨0, 'a'⟩), .run 2 (), .run 2 ()]

theorem no_delivery_after_unsubscribe_thenGone :
    (deliveryCode Char ℕ).machine.Always Undelivered (deliveryCode Char ℕ).init
      deliveredThenGone :=
  (no_delivery_after_unsubscribe deliveredThenGone _ rfl).1 (by decide)

/-- The destructor comes between the copy and the call. -/
def goneBeforeDelivery : List (Label Unit (SubjectCall Char ℕ)) :=
  [.call (.subscribe 'a'), .run 0 (), .call (.next 7), .run 1 (), .call (.destroy ⟨0, 'a'⟩),
    .run 2 (), .run 2 (), .run 1 ()]

/-- The callback is started although the destructor has returned. -/
theorem not_undelivered_goneBeforeDelivery :
    ¬ ∀ (as : List (Label Unit (SubjectCall Char ℕ)))
        (s : Threads (Delivery Char) (SubjectOp Char ℕ)),
      (deliveryCode Char ℕ).machine.run as = some s → Undelivered s := by
  intro h
  have hfl : SubjectOp.callbackReturns (⟨0, 'a'⟩ : Observer Char) [] 7 ∈
      (([.callbackReturns ⟨0, 'a'⟩ [] 7] : List (SubjectOp Char ℕ)) :
        Multiset (SubjectOp Char ℕ)) := Multiset.mem_coe.mpr (List.mem_singleton_self _)
  exact h goneBeforeDelivery _ rfl _ hfl 0 rfl List.mem_cons_self

end PiWebrtc.Common
