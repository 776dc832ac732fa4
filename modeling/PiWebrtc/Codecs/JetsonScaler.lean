import PiWebrtc.Codecs.BufferIndices
import Mathlib.Tactic.Abel

namespace PiWebrtc.Codecs

open Transition

/-!
# The surfaces of the Jetson scaler

`EmplaceBuffer` takes a destination surface out of `free_buffers_`, transforms the frame into it
and queues a task; the worker takes the task out and calls its callback, which puts the surface
back. The early returns of `EmplaceBuffer` put it back as well. The destructor stops the worker,
collects the surfaces of the tasks that are left and destroys what is in `free_buffers_` then.

* `surfaces_safe` — in every interleaving each surface is in exactly one place, none is the target
  of a transform while a callback has it, and the destructor is done with each one exactly once.

`EmplaceBuffer` may be called from any number of threads. A surface is known by its descriptor.
When the worker has ended nobody else is there, so the loops of the destructor are one step. The
surface for CPU frames and the latency tracer are left out.
-/

/-- The scaler and, as history, what became of the surfaces in the destructor: `refused` are those
    that the library did not find or did not destroy. -/
structure JetsonScaler (numBuffer : ℕ) where
  freeBuffers : ThreadSafeQueue ℕ numBuffer
  /-- A task is its `dst_dma_fd`. -/
  capturingTasks : ThreadSafeQueue ℕ numBuffer := .empty
  abort : Bool := false
  workerAbort : Bool := false
  destroyed : List ℕ := []
  refused : List ℕ := []
  finished : Bool := false
  deriving DecidableEq, Repr

inductive ScalerThread where
  | caller
  | worker
  | destructor
  deriving DecidableEq, Repr

/-- The operations of `EmplaceBuffer`, of the worker and of the destructor. -/
inductive ScalerOp where
  | checkAbort
  | takeFree
  /-- `UploadToSurface` and `NvBufSurfTransform` into surface `fd`. -/
  | transform (fd : ℕ)
  | pushTask (fd : ℕ)
  | checkWorker
  | takeTask
  /-- `on_capture` with the frame in surface `fd`. -/
  | callback (fd : ℕ)
  /-- `free_buffers_.push`. -/
  | giveBack (thread : ScalerThread) (fd : ℕ)
  | setAbort
  | stopWorker
  | joinWorker
  | destroySurfaces
  deriving DecidableEq, Repr

/-- The thread that an operation belongs to. -/
def ScalerOp.thread : ScalerOp → ScalerThread
  | .checkAbort | .takeFree | .transform _ | .pushTask _ => .caller
  | .checkWorker | .takeTask | .callback _ => .worker
  | .giveBack thread _ => thread
  | .setAbort | .stopWorker | .joinWorker | .destroySurfaces => .destructor

/-- How an operation ends. -/
inductive ScalerOutcome where
  | ok
  /-- The upload or the transform failed; `abort` if the upload gives the scaler up. -/
  | failed (abort : Bool)
  /-- The surfaces that the library does not destroy. -/
  | destroys (refused : List ℕ)
  deriving DecidableEq, Repr

/-- The first loop of the destructor: the surfaces of the tasks go back into `free_buffers_`. -/
def collectTasks {numBuffer : ℕ} (free : ThreadSafeQueue ℕ numBuffer) :
    List ℕ → ThreadSafeQueue ℕ numBuffer
  | [] => free
  | fd :: tasks => collectTasks (free.push fd).1 tasks

/-- Executing an operation. -/
def scalerExec {numBuffer : ℕ} (op : ScalerOp) (x : ScalerOutcome)
    (s : Threads (JetsonScaler numBuffer) ScalerOp) :
    Option (Effect (JetsonScaler numBuffer) ScalerOp) :=
  let c := s.shared
  match op, x with
  | .checkAbort, .ok =>
    if c.abort then some { shared := c } else some { shared := c, next := [.takeFree] }
  | .takeFree, .ok =>
    match c.freeBuffers.pop with
    | none => some { shared := c }
    | some (fd, rest) => some { shared := { c with freeBuffers := rest }, next := [.transform fd] }
  | .transform fd, .failed abort =>
    some { shared := { c with abort := c.abort || abort }, next := [.giveBack .caller fd] }
  | .transform fd, .ok => some { shared := c, next := [.pushTask fd] }
  | .pushTask fd, .ok =>
    if c.capturingTasks.full then some { shared := c, next := [.giveBack .caller fd] }
    else some { shared := { c with capturingTasks := (c.capturingTasks.push fd).1 } }
  | .checkWorker, .ok =>
    if c.workerAbort then some { shared := c } else some { shared := c, next := [.takeTask] }
  | .takeTask, .ok =>
    match c.capturingTasks.pop with
    | none => some { shared := c, next := [.checkWorker] }
    | some (fd, rest) =>
      some { shared := { c with capturingTasks := rest }, next := [.callback fd] }
  | .callback fd, .ok => some { shared := c, next := [.giveBack .worker fd, .checkWorker] }
  | .giveBack _ fd, .ok =>
    some { shared := { c with freeBuffers := (c.freeBuffers.push fd).1 } }
  | .setAbort, .ok => some { shared := { c with abort := true }, next := [.stopWorker] }
  | .stopWorker, .ok => some { shared := { c with workerAbort := true }, next := [.joinWorker] }
  -- the join waits until the worker has nothing left to do
  | .joinWorker, .ok =>
    if ∀ op ∈ s.todo.flatten, op.thread ≠ .worker then
      some { shared := c, next := [.destroySurfaces] }
    else none
  | .destroySurfaces, .destroys refused =>
    let fds := (collectTasks c.freeBuffers c.capturingTasks.items).items
    some { shared := { c with
             freeBuffers := .empty
             capturingTasks := .empty
             destroyed := c.destroyed ++ fds.filter fun fd => fd ∉ refused
             refused := c.refused ++ fds.filter fun fd => fd ∈ refused
             finished := true } }
  | _, _ => none

/-- What comes in from outside. -/
inductive ScalerCall where
  | emplaceBuffer
  | destroy
  deriving DecidableEq, Repr

/-- Nothing is called once the destructor runs, and it runs after the last call. -/
def scalerEntry {numBuffer : ℕ} (call : ScalerCall)
    (s : Threads (JetsonScaler numBuffer) ScalerOp) : Option (List ScalerOp) :=
  if s.shared.finished = false ∧ ∀ op ∈ s.todo.flatten, op.thread ≠ .destructor then
    match call with
    | .emplaceBuffer => some [.checkAbort]
    | .destroy =>
      if ∀ op ∈ s.todo.flatten, op.thread ≠ .caller then some [.setAbort] else none
  else none

/-- A scaler after `Initialize` and `Start`. -/
def scalerCode (numBuffer : ℕ) :
    Code (JetsonScaler numBuffer) ScalerOp ScalerOutcome ScalerCall where
  init :=
    { shared :=
        { freeBuffers := (List.range numBuffer).foldl (fun q i => (q.push i).1) .empty }
      todo := [[.checkWorker]] }
  entry := scalerEntry
  exec := scalerExec

/-! ### Where the surfaces are -/

/-- The surface that an operation has in hand. -/
def ScalerOp.inHand : ScalerOp → Option ℕ
  | .transform fd | .pushTask fd | .callback fd | .giveBack _ fd => some fd
  | _ => none

/-- The surfaces in the queues and those that the destructor is done with. -/
def JetsonScaler.surfaces {numBuffer : ℕ} (c : JetsonScaler numBuffer) : Multiset ℕ :=
  ↑c.freeBuffers.items + ↑c.capturingTasks.items + (↑c.destroyed + ↑c.refused)

/-- What is asked for. -/
structure SurfacesSafe {numBuffer : ℕ} (s : Threads (JetsonScaler numBuffer) ScalerOp) :
    Prop where
  /-- Until the destructor is done each surface is in the free queue, in a task or in the hands of
      a running call, in exactly one of these, and there it is once. -/
  conserved : s.shared.finished = false → ∀ fd,
    s.shared.freeBuffers.items.count fd + s.shared.capturingTasks.items.count fd +
      (s.inFlight.filterMap ScalerOp.inHand).count fd = if fd < numBuffer then 1 else 0
  /-- A surface that a callback uses is not the target of a transform. -/
  exclusive : ∀ fd, .callback fd ∈ s.inFlight → .transform fd ∉ s.inFlight
  /-- Before that none is destroyed, -/
  alive : s.shared.finished = false → s.shared.destroyed = [] ∧ s.shared.refused = []
  /-- and then each one was, exactly once, unless the library refused it. -/
  destroyed_once : s.shared.finished = true → ∀ fd < numBuffer,
    s.shared.destroyed.count fd + s.shared.refused.count fd = 1

/-! ### Every operation only moves surfaces -/

section Operation

variable {numBuffer : ℕ} {c : JetsonScaler numBuffer} {op : ScalerOp} {others : Multiset ScalerOp}

/-- The surfaces of a scaler, wherever they are, fill one queue. -/
theorem length_le_of_tokens
    (h : Code.tokens JetsonScaler.surfaces ScalerOp.inHand c (op ::ₘ others) =
      Multiset.range numBuffer) :
    c.freeBuffers.items.length + c.capturingTasks.items.length + op.inHand.toList.length ≤
      numBuffer := by
  have hcard := congrArg Multiset.card h
  rw [Code.tokens_cons, JetsonScaler.surfaces, Multiset.card_add, Multiset.card_add,
    Multiset.card_add, Multiset.card_add, Multiset.coe_card, Multiset.coe_card,
    Multiset.coe_card, Multiset.card_range] at hcard
  omega

theorem collectTasks_items {free : ThreadSafeQueue ℕ numBuffer} {tasks : List ℕ}
    (h : free.items.length + tasks.length ≤ numBuffer) :
    (collectTasks free tasks).items = free.items ++ tasks := by
  induction tasks generalizing free with
  | nil => rw [collectTasks, List.append_nil]
  | cons fd tasks ih =>
    rw [List.length_cons] at h
    have hpush : (free.push fd).1.items = free.items ++ [fd] := by
      refine ThreadSafeQueue.push_items ?_ fd
      rw [ThreadSafeQueue.full, decide_eq_false_iff_not]
      omega
    rw [collectTasks, ih, hpush, List.append_assoc, List.singleton_append]
    rw [hpush, List.length_append, List.length_singleton]
    omega

/-- What is kept and what is left out are all there is. -/
theorem filter_not_mem_add_filter_mem (fds refused : List ℕ) :
    (↑(fds.filter fun fd => fd ∉ refused) + ↑(fds.filter fun fd => fd ∈ refused) :
      Multiset ℕ) = ↑fds := by
  have hsplit := Multiset.filter_add_not (fun fd => fd ∉ refused) (fds : Multiset ℕ)
  rw [Multiset.filter_coe, Multiset.filter_coe] at hsplit
  rw [← hsplit]
  simp only [not_not]

theorem surfaces_exec {s : Threads (JetsonScaler numBuffer) ScalerOp} {x : ScalerOutcome}
    {e : Effect (JetsonScaler numBuffer) ScalerOp} (hfl : s.inFlight = op ::ₘ others)
    (h : Code.tokens JetsonScaler.surfaces ScalerOp.inHand s.shared s.inFlight =
      Multiset.range numBuffer) (he : scalerExec op x s = some e) :
    e.shared.surfaces + ↑((e.next ++ e.spawn.flatten).filterMap ScalerOp.inHand) =
      s.shared.surfaces + ↑op.inHand.toList := by
  rw [hfl] at h
  have hroom := length_le_of_tokens h
  cases op with
  | checkAbort =>
    cases x with
    | ok =>
      rw [scalerExec] at he
      split at he <;> cases he <;> rfl
    | _ => cases he
  | takeFree =>
    cases x with
    | ok =>
      rw [scalerExec] at he
      split at he
      · cases he
        rfl
      case h_2 fd rest hpop =>
        cases he
        change (↑rest.items + ↑s.shared.capturingTasks.items +
          (↑s.shared.destroyed + ↑s.shared.refused) + {fd} : Multiset ℕ) = s.shared.surfaces + 0
        rw [JetsonScaler.surfaces, ThreadSafeQueue.pop_eq_some.mp hpop, ← Multiset.cons_coe,
          ← Multiset.singleton_add]
        abel
    | _ => cases he
  | transform fd =>
    cases x with
    | ok | failed abort =>
      cases he
      rfl
    | _ => cases he
  | pushTask fd =>
    cases x with
    | ok =>
      rw [scalerExec] at he
      split at he
      · cases he
        rfl
      case isFalse hfull =>
        cases he
        rw [Bool.not_eq_true] at hfull
        change (↑s.shared.freeBuffers.items + ↑(s.shared.capturingTasks.push fd).1.items +
          (↑s.shared.destroyed + ↑s.shared.refused) + 0 : Multiset ℕ) = s.shared.surfaces + {fd}
        rw [JetsonScaler.surfaces, ThreadSafeQueue.push_items hfull, ← Multiset.coe_add,
          Multiset.coe_singleton]
        abel
    | _ => cases he
  | checkWorker =>
    cases x with
    | ok =>
      rw [scalerExec] at he
      split at he <;> cases he <;> rfl
    | _ => cases he
  | takeTask =>
    cases x with
    | ok =>
      rw [scalerExec] at he
      split at he
      · cases he
        rfl
      case h_2 fd rest hpop =>
        cases he
        change (↑s.shared.freeBuffers.items + ↑rest.items +
          (↑s.shared.destroyed + ↑s.shared.refused) + {fd} : Multiset ℕ) = s.shared.surfaces + 0
        rw [JetsonScaler.surfaces, ThreadSafeQueue.pop_eq_some.mp hpop, ← Multiset.cons_coe,
          ← Multiset.singleton_add]
        abel
    | _ => cases he
  | callback fd =>
    cases x with
    | ok =>
      cases he
      rfl
    | _ => cases he
  | giveBack thread fd =>
    cases x with
    | ok =>
      cases he
      rw [ScalerOp.inHand, Option.toList_some, List.length_singleton] at hroom
      change (↑(s.shared.freeBuffers.push fd).1.items + ↑s.shared.capturingTasks.items +
        (↑s.shared.destroyed + ↑s.shared.refused) + 0 : Multiset ℕ) = s.shared.surfaces + {fd}
      rw [JetsonScaler.surfaces, ThreadSafeQueue.coe_push (by omega), ← Multiset.singleton_add]
      abel
    | _ => cases he
  | setAbort | stopWorker =>
    cases x with
    | ok =>
      cases he
      rfl
    | _ => cases he
  | joinWorker =>
    cases x with
    | ok =>
      rw [scalerExec, Option.ite_none_right_eq_some] at he
      obtain ⟨-, ⟨⟩⟩ := he
      rfl
    | _ => cases he
  | destroySurfaces =>
    cases x with
    | destroys refused =>
      cases he
      have hcollect := @collectTasks_items numBuffer s.shared.freeBuffers
        s.shared.capturingTasks.items (by omega)
      have hsplit := filter_not_mem_add_filter_mem
        (collectTasks s.shared.freeBuffers s.shared.capturingTasks.items).items refused
      rw [hcollect] at hsplit
      change (0 + 0 + (↑(s.shared.destroyed ++ (collectTasks s.shared.freeBuffers
          s.shared.capturingTasks.items).items.filter fun fd => fd ∉ refused) +
        ↑(s.shared.refused ++ (collectTasks s.shared.freeBuffers
          s.shared.capturingTasks.items).items.filter fun fd => fd ∈ refused)) + 0 :
            Multiset ℕ) = s.shared.surfaces + 0
      rw [← Multiset.coe_add s.shared.freeBuffers.items] at hsplit
      rw [hcollect, ← Multiset.coe_add, ← Multiset.coe_add, JetsonScaler.surfaces, ← hsplit]
      abel
    | _ => cases he

end Operation

/-! ### The destructor is alone when it destroys -/

/-- One destructor at most, no call beside it, no worker beside its end, and nothing after it. -/
structure DestructorInv {numBuffer : ℕ} (c : JetsonScaler numBuffer)
    (flight : Multiset ScalerOp) : Prop where
  one : flight.countP (fun op => op.thread = .destructor) ≤ 1
  callers : c.finished = true ∨ (∃ op ∈ flight, op.thread = .destructor) →
    ∀ op ∈ flight, op.thread ≠ .caller
  worker : .destroySurfaces ∈ flight → ∀ op ∈ flight, op.thread ≠ .worker
  alive : c.finished = false → c.destroyed = [] ∧ c.refused = []
  done : c.finished = true →
    c.freeBuffers.items = [] ∧ c.capturingTasks.items = [] ∧ flight = 0

namespace DestructorInv

variable {numBuffer : ℕ} {c c' : JetsonScaler numBuffer} {op : ScalerOp} {next : List ScalerOp}
  {others flight : Multiset ScalerOp}

/-- An operation that goes on in its own thread. -/
theorem goesOn (h : DestructorInv c (op ::ₘ others))
    (hdata : c'.finished = c.finished ∧ c'.destroyed = c.destroyed ∧ c'.refused = c.refused)
    (hnext : ∀ o ∈ next, o.thread = op.thread) (hlength : op.thread = .destructor → next.length ≤ 1)
    (hjoin : .destroySurfaces ∈ next → ∀ o ∈ others, o.thread ≠ .worker) :
    DestructorInv c' (↑next + others) := by
  obtain ⟨hfinished, hdestroyed, hrefused⟩ := hdata
  have hnot : c.finished = false := by
    by_contra hf
    exact Multiset.cons_ne_zero (h.done (Bool.not_eq_false _ ▸ hf)).2.2
  refine ⟨?_, ?_, ?_, ?_, ?_⟩
  · rw [Multiset.countP_add]
    by_cases hop : op.thread = .destructor
    · rw [Code.countP_others h.one hop, add_zero]
      exact (Multiset.countP_le_card _ _).trans (hlength hop)
    · have hzero : (↑next : Multiset ScalerOp).countP (fun o => o.thread = .destructor) = 0 :=
        Multiset.countP_eq_zero.mpr fun o ho => by rwa [hnext o (Multiset.mem_coe.mp ho)]
      have hone := h.one
      rw [Multiset.countP_cons_of_neg (p := fun o : ScalerOp => o.thread = .destructor) _ hop]
        at hone
      rwa [hzero, zero_add]
  · intro hany
    have hbefore : ∃ o ∈ op ::ₘ others, o.thread = .destructor := by
      obtain hf | ⟨o, ho, hthread⟩ := hany
      · rw [hfinished, hnot] at hf
        exact nomatch hf
      · obtain ho | ho := Multiset.mem_add.mp ho
        · exact ⟨op, Multiset.mem_cons_self _ _, (hnext o (Multiset.mem_coe.mp ho)) ▸ hthread⟩
        · exact ⟨o, Multiset.mem_cons_of_mem ho, hthread⟩
    have hcallers := h.callers (.inr hbefore)
    intro o ho
    obtain ho | ho := Multiset.mem_add.mp ho
    · rw [hnext o (Multiset.mem_coe.mp ho)]
      exact hcallers op (Multiset.mem_cons_self _ _)
    · exact hcallers o (Multiset.mem_cons_of_mem ho)
  · intro hdestroy o ho
    obtain hd | hd := Multiset.mem_add.mp hdestroy
    · obtain ho | ho := Multiset.mem_add.mp ho
      · rw [hnext o (Multiset.mem_coe.mp ho), ← hnext _ (Multiset.mem_coe.mp hd)]
        exact nofun
      · exact hjoin (Multiset.mem_coe.mp hd) o ho
    · have hworker := h.worker (Multiset.mem_cons_of_mem hd)
      obtain ho | ho := Multiset.mem_add.mp ho
      · rw [hnext o (Multiset.mem_coe.mp ho)]
        exact hworker op (Multiset.mem_cons_self _ _)
      · exact hworker o (Multiset.mem_cons_of_mem ho)
  · rw [hfinished, hdestroyed, hrefused]
    exact h.alive
  · rw [hfinished, hnot]
    exact nofun

/-- Beside the end of the destructor nothing is left. -/
theorem alone (h : DestructorInv c (.destroySurfaces ::ₘ others)) : others = 0 := by
  refine Multiset.eq_zero_of_forall_notMem fun o ho => ?_
  have hmem := Multiset.mem_cons_of_mem ho (b := ScalerOp.destroySurfaces)
  have hself := Multiset.mem_cons_self ScalerOp.destroySurfaces others
  cases hthread : o.thread with
  | caller => exact h.callers (.inr ⟨_, hself, rfl⟩) o hmem hthread
  | worker => exact h.worker hself o hmem hthread
  | destructor => exact Code.not_of_countP h.one rfl ho hthread

theorem exec {s : Threads (JetsonScaler numBuffer) ScalerOp} {x : ScalerOutcome}
    {e : Effect (JetsonScaler numBuffer) ScalerOp} (hfl : s.inFlight = op ::ₘ others)
    (h : DestructorInv s.shared s.inFlight) (he : scalerExec op x s = some e) :
    e.spawn = [] ∧ DestructorInv e.shared (↑e.next + others) := by
  rw [hfl] at h
  cases op with
  | checkAbort | checkWorker =>
    cases x with
    | ok =>
      rw [scalerExec] at he
      split at he <;> cases he <;>
        exact ⟨rfl, h.goesOn ⟨rfl, rfl, rfl⟩ (by simp [ScalerOp.thread]) (by simp) (by simp)⟩
    | _ => cases he
  | takeFree | takeTask =>
    cases x with
    | ok =>
      rw [scalerExec] at he
      split at he <;> cases he <;>
        exact ⟨rfl, h.goesOn ⟨rfl, rfl, rfl⟩ (by simp [ScalerOp.thread]) (by simp) (by simp)⟩
    | _ => cases he
  | transform fd =>
    cases x with
    | ok | failed abort =>
      cases he
      exact ⟨rfl, h.goesOn ⟨rfl, rfl, rfl⟩ (by simp [ScalerOp.thread]) (by simp) (by simp)⟩
    | _ => cases he
  | pushTask fd =>
    cases x with
    | ok =>
      rw [scalerExec] at he
      split at he <;> cases he <;>
        exact ⟨rfl, h.goesOn ⟨rfl, rfl, rfl⟩ (by simp [ScalerOp.thread]) (by simp) (by simp)⟩
    | _ => cases he
  | callback fd =>
    cases x with
    | ok =>
      cases he
      exact ⟨rfl, h.goesOn ⟨rfl, rfl, rfl⟩ (by simp [ScalerOp.thread]) nofun (by simp)⟩
    | _ => cases he
  | giveBack thread fd | setAbort | stopWorker =>
    cases x with
    | ok =>
      cases he
      exact ⟨rfl, h.goesOn ⟨rfl, rfl, rfl⟩ (by simp [ScalerOp.thread]) (by simp) (by simp)⟩
    | _ => cases he
  | joinWorker =>
    cases x with
    | ok =>
      rw [scalerExec, Option.ite_none_right_eq_some] at he
      obtain ⟨hjoined, ⟨⟩⟩ := he
      refine ⟨rfl, h.goesOn ⟨rfl, rfl, rfl⟩ (by simp [ScalerOp.thread]) (by simp) fun _ o ho => ?_⟩
      have hmem : o ∈ s.inFlight := hfl ▸ Multiset.mem_cons_of_mem ho
      exact hjoined o (Multiset.mem_coe.mp hmem)
    | _ => cases he
  | destroySurfaces =>
    cases x with
    | destroys refused =>
      cases he
      have halone := h.alone
      subst halone
      exact ⟨rfl, by simp, by simp, by simp, nofun, fun _ => ⟨rfl, rfl, rfl⟩⟩
    | _ => cases he

theorem call {s : Threads (JetsonScaler numBuffer) ScalerOp} {k : ScalerCall}
    {ops : List ScalerOp} (h : DestructorInv s.shared s.inFlight)
    (hops : scalerEntry k s = some ops) : DestructorInv s.shared (s.inFlight + ↑ops) := by
  unfold scalerEntry at hops
  split at hops
  case isFalse => cases hops
  case isTrue hentry =>
    obtain ⟨hfinished, hnone⟩ := hentry
    have hzero : s.inFlight.countP (fun op => op.thread = .destructor) = 0 :=
      Multiset.countP_eq_zero.mpr fun op hop => hnone op (Multiset.mem_coe.mp hop)
    have hdestroy : ScalerOp.destroySurfaces ∉ s.inFlight := fun hmem =>
      hnone _ (Multiset.mem_coe.mp hmem) rfl
    cases k with
    | emplaceBuffer =>
      cases hops
      refine ⟨?_, ?_, ?_, h.alive, ?_⟩
      · rw [Multiset.countP_add, hzero]
        exact Nat.zero_le 1
      · rintro (hf | ⟨op, hop, hthread⟩)
        · rw [hfinished] at hf
          exact nomatch hf
        · obtain hop | hop := Multiset.mem_add.mp hop
          · exact absurd hthread (hnone op (Multiset.mem_coe.mp hop))
          · rw [Multiset.mem_coe, List.mem_singleton] at hop
            rw [hop] at hthread
            exact nomatch hthread
      · intro hmem
        obtain hmem | hmem := Multiset.mem_add.mp hmem
        · exact absurd hmem hdestroy
        · rw [Multiset.mem_coe, List.mem_singleton] at hmem
          exact nomatch hmem
      · rw [hfinished]
        exact nofun
    | destroy =>
      dsimp only at hops
      rw [Option.ite_none_right_eq_some] at hops
      obtain ⟨hcallers, ⟨⟩⟩ := hops
      refine ⟨?_, fun _ op hop => ?_, ?_, h.alive, ?_⟩
      · rw [Multiset.countP_add, hzero]
        exact le_rfl
      · obtain hop | hop := Multiset.mem_add.mp hop
        · exact hcallers op (Multiset.mem_coe.mp hop)
        · rw [Multiset.mem_coe, List.mem_singleton] at hop
          rw [hop]
          exact nofun
      · intro hmem
        obtain hmem | hmem := Multiset.mem_add.mp hmem
        · exact absurd hmem hdestroy
        · rw [Multiset.mem_coe, List.mem_singleton] at hmem
          exact nomatch hmem
      · rw [hfinished]
        exact nofun

end DestructorInv

theorem destructorInv_run {numBuffer : ℕ} {as : List (Label ScalerOutcome ScalerCall)}
    {s : Threads (JetsonScaler numBuffer) ScalerOp}
    (hrun : (scalerCode numBuffer).machine.run as = some s) :
    DestructorInv s.shared s.inFlight := by
  refine Code.interleavings (I := DestructorInv) ?_ ?_ ?_ hrun
  · intro s k ops h hops
    exact h.call hops
  · intro s op others x e hfl h he
    obtain ⟨hspawn, hinv⟩ := h.exec hfl he
    rw [hspawn, List.flatten_nil, Multiset.coe_nil, add_zero]
    exact hinv
  · exact ⟨Nat.zero_le 1, by simp [scalerCode, Threads.inFlight, ScalerOp.thread],
      by simp [scalerCode, Threads.inFlight], fun _ => ⟨rfl, rfl⟩, nofun⟩

theorem surfaces_run {numBuffer : ℕ} {as : List (Label ScalerOutcome ScalerCall)}
    {s : Threads (JetsonScaler numBuffer) ScalerOp}
    (hrun : (scalerCode numBuffer).machine.run as = some s) :
    Code.tokens JetsonScaler.surfaces ScalerOp.inHand s.shared s.inFlight =
      Multiset.range numBuffer := by
  refine Code.tokens_conserved ?_ (fun _ _ _ _ _ => surfaces_exec) ?_ hrun
  · intro s k ops hops
    change scalerEntry k s = some ops at hops
    unfold scalerEntry at hops
    rw [Option.ite_none_right_eq_some] at hops
    cases k with
    | emplaceBuffer =>
      obtain ⟨-, ⟨⟩⟩ := hops
      rfl
    | destroy =>
      dsimp only at hops
      rw [Option.ite_none_right_eq_some] at hops
      obtain ⟨-, -, ⟨⟩⟩ := hops
      rfl
  · have hitems := ThreadSafeQueue.foldl_push_items (le_refl numBuffer)
    change (↑((List.range numBuffer).foldl (fun q i => (ThreadSafeQueue.push q i).1)
      (.empty : ThreadSafeQueue ℕ numBuffer)).items + 0 + (0 + 0) + 0 : Multiset ℕ) = _
    rw [hitems, add_zero, add_zero, add_zero, add_zero]
    rfl

/-- **Surfaces are conserved.** In every interleaving each surface is in exactly one place, no
    surface is the target of a transform while a callback has it, and the destructor is done with
    each one exactly once. -/
theorem surfaces_safe (numBuffer : ℕ) (as : List (Label ScalerOutcome ScalerCall))
    (s : Threads (JetsonScaler numBuffer) ScalerOp)
    (hrun : (scalerCode numBuffer).machine.run as = some s) : SurfacesSafe s := by
  have hinv := destructorInv_run hrun
  have htokens := surfaces_run hrun
  have hcount : ∀ fd, s.shared.freeBuffers.items.count fd +
      s.shared.capturingTasks.items.count fd +
        (s.shared.destroyed.count fd + s.shared.refused.count fd) +
          (s.inFlight.filterMap ScalerOp.inHand).count fd = if fd < numBuffer then 1 else 0 := by
    intro fd
    have hfd := congrArg (Multiset.count fd) htokens
    rw [Code.tokens, JetsonScaler.surfaces, Multiset.count_add, Multiset.count_add,
      Multiset.count_add, Multiset.count_add, Multiset.coe_count, Multiset.coe_count,
      Multiset.coe_count, Multiset.coe_count] at hfd
    rw [hfd, count_range]
  refine ⟨?_, ?_, hinv.alive, ?_⟩
  · intro hfinished fd
    obtain ⟨hdestroyed, hrefused⟩ := hinv.alive hfinished
    have hfd := hcount fd
    rw [hdestroyed, hrefused, List.count_nil, add_zero] at hfd
    exact hfd
  · intro fd hcallback htransform
    have htwo : 2 ≤ (s.inFlight.filterMap ScalerOp.inHand).count fd :=
      Code.two_le_count_tokens (by rintro ⟨⟩) hcallback htransform rfl rfl
    have hfd := hcount fd
    split_ifs at hfd <;> omega
  · intro hfinished fd hlt
    obtain ⟨hfree, htasks, hflight⟩ := hinv.done hfinished
    have hfd := hcount fd
    rw [hfree, htasks, hflight, if_pos hlt, Multiset.filterMap_zero, Multiset.count_zero,
      List.count_nil, add_zero, zero_add, zero_add] at hfd
    exact hfd

/-- A frame is passed on, the transform of a second one fails, and the scaler is destroyed while
    the task of a third one is waiting. -/
def scaledAndDestroyed : List (Label ScalerOutcome ScalerCall) :=
  [.call .emplaceBuffer, .run 1 .ok, .run 1 .ok, .run 1 .ok, .run 1 .ok,
    .run 0 .ok, .run 0 .ok, .call .emplaceBuffer, .run 2 .ok, .run 2 .ok,
    .run 2 (.failed false), .run 2 .ok, .run 0 .ok, .run 0 .ok,
    .call .emplaceBuffer, .run 3 .ok, .run 3 .ok, .run 3 .ok, .run 3 .ok,
    .call .destroy, .run 4 .ok, .run 4 .ok, .run 0 .ok, .run 4 .ok, .run 4 (.destroys [])]

theorem surfaces_safe_scaledAndDestroyed :
    ∃ s, (scalerCode 2).machine.run scaledAndDestroyed = some s ∧
      s.shared.destroyed = [0, 1] ∧ SurfacesSafe s :=
  ⟨_, rfl, rfl, surfaces_safe 2 scaledAndDestroyed _ rfl⟩

end PiWebrtc.Codecs
