import PiWebrtc.Codecs.V4L2Codec

namespace PiWebrtc.Codecs

open Transition

/-!
# Which callback gets a frame

The callbacks carry no number: a frame goes to the callback that is first in
`capturing_tasks_`.  It is the right one as long as each callback is put there before the
capture thread looks for it, in the order of the inputs, and not refused.  `tasks_paired`
shows that nothing else is needed; one slip shifts every frame after it.
-/

/-- The callback that an operation puts into `capturing_tasks_`. -/
def CodecOp.pushes : CodecOp → Option ℕ
  | .pushTask n => some n
  | _ => none

/-- The frame that an operation takes a callback for. -/
def CodecOp.runs : CodecOp → Option ℕ
  | .runTask n _ => some n
  | _ => none

/-- What is asked for: a callback gets the frame of its input, and no callback is called twice;
    every frame has been given to a callback or is about to be; and every callback of an input
    that the driver took has been called, waits for its frame or is about to do so. -/
structure TasksPaired (s : Threads V4L2Codec CodecOp) : Prop where
  paired : ∀ x ∈ s.shared.delivered, x.callback = x.frame
  once : (s.shared.delivered.map Delivery.callback).Nodup
  given : ∀ n < s.shared.captured,
    n ∈ s.shared.delivered.map Delivery.frame ∨ ∃ op ∈ s.inFlight, op.runs = some n
  kept : ∀ n < s.shared.queued,
    n ∈ s.shared.delivered.map Delivery.callback ∨ n ∈ s.shared.capturingTasks.items ∨
      ∃ op ∈ s.inFlight, op.pushes = some n

/-- The condition: when a callback is put into the queue, the queue is not full and no
    callback of an earlier input is still to be put there; when a callback is taken out, there
    is one. -/
def TaskAtHand (op : CodecOp) (s : Threads V4L2Codec CodecOp) : Prop :=
  (∀ n ∈ op.pushes, s.shared.capturingTasks.full = false ∧
    ∀ m ∈ s.inFlight.filterMap CodecOp.pushes, n ≤ m) ∧
  (op.runs.isSome = true → s.shared.capturingTasks.items ≠ [])

instance (op : CodecOp) (s : Threads V4L2Codec CodecOp) : Decidable (TaskAtHand op s) :=
  inferInstanceAs (Decidable (_ ∧ _))

/-- The operations of the capture thread. -/
def CodecOp.capturing : CodecOp → Bool
  | .select | .dequeueOutput _ | .dequeueCapture | .runTask _ _ | .requeue _ => true
  | _ => false

/-- **The invariant.** The callbacks that were called, those in the queue and those that are
    still to be put there are those of all inputs, in this order; the capture thread takes
    one frame after the other. -/
structure TasksInv (c : V4L2Codec) (flight : Multiset CodecOp) : Prop where
  delivered : c.delivered = (List.range c.delivered.length).map fun n => ⟨n, n⟩
  tasks : c.capturingTasks.items =
    List.range' c.delivered.length c.capturingTasks.items.length
  waiting : ∃ w, c.queued = c.delivered.length + c.capturingTasks.items.length + w ∧
    flight.filterMap CodecOp.pushes =
      ↑(List.range' (c.delivered.length + c.capturingTasks.items.length) w)
  running : ∃ r, c.captured = c.delivered.length + r ∧
    flight.filterMap CodecOp.runs = ↑(List.range' c.delivered.length r)
  thread : flight.countP (fun op => op.capturing = true) = 1

namespace TasksInv

/-- The invariant is all that is asked for. -/
theorem paired {s : Threads V4L2Codec CodecOp} (h : TasksInv s.shared s.inFlight) :
    TasksPaired s := by
  have hcallbacks : s.shared.delivered.map Delivery.callback =
      List.range s.shared.delivered.length := by
    rw [h.delivered, List.map_map, List.length_map, List.length_range]
    exact List.map_id _
  have hframes : s.shared.delivered.map Delivery.frame =
      List.range s.shared.delivered.length := by
    rw [h.delivered, List.map_map, List.length_map, List.length_range]
    exact List.map_id _
  refine ⟨fun x hx => ?_, hcallbacks ▸ List.nodup_range, fun n hn => ?_, fun n hn => ?_⟩
  · rw [h.delivered] at hx
    obtain ⟨n, -, rfl⟩ := List.mem_map.mp hx
    rfl
  -- a captured frame was given to its callback, or is just being given to it
  · obtain ⟨r, hcaptured, hruns⟩ := h.running
    rw [hframes, List.mem_range]
    by_cases hlt : n < s.shared.delivered.length
    · exact .inl hlt
    · have hmem : n ∈ s.inFlight.filterMap CodecOp.runs := by
        rw [hruns, Multiset.mem_coe, List.mem_range'_1]
        omega
      exact .inr ((Multiset.mem_filterMap _ _).mp hmem)
  -- a callback was called, or is in the queue, or is still to be put there
  · obtain ⟨w, hqueued, hpushes⟩ := h.waiting
    rw [hcallbacks, List.mem_range, h.tasks, List.mem_range'_1]
    by_cases hlt : n < s.shared.delivered.length + s.shared.capturingTasks.items.length
    · omega
    · have hmem : n ∈ s.inFlight.filterMap CodecOp.pushes := by
        rw [hpushes, Multiset.mem_coe, List.mem_range'_1]
        omega
      exact .inr (.inr ((Multiset.mem_filterMap _ _).mp hmem))

section Operation

variable {c c' : V4L2Codec} {op : CodecOp} {next : List CodecOp} {others : Multiset CodecOp}

/-- **Frame.** An operation that touches neither the callbacks nor the frames. -/
theorem same (h : TasksInv c (op ::ₘ others))
    (hdata : c'.delivered = c.delivered ∧ c'.capturingTasks = c.capturingTasks ∧
      c'.queued = c.queued ∧ c'.captured = c.captured)
    (hpushes : next.filterMap CodecOp.pushes = op.pushes.toList)
    (hruns : next.filterMap CodecOp.runs = op.runs.toList)
    (hthread : (↑next : Multiset CodecOp).countP (fun o => o.capturing = true) =
      ({op} : Multiset CodecOp).countP fun o => o.capturing = true) :
    TasksInv c' (↑next + others) := by
  obtain ⟨hdelivered, htasks, hqueued, hcaptured⟩ := hdata
  constructor
  · rw [hdelivered]
    exact h.delivered
  · rw [hdelivered, htasks]
    exact h.tasks
  · rw [hdelivered, htasks, hqueued, Code.filterMap_next hpushes]
    exact h.waiting
  · rw [hdelivered, hcaptured, Code.filterMap_next hruns]
    exact h.running
  · have hone := h.thread
    rw [← Multiset.singleton_add, Multiset.countP_add] at hone
    rw [Multiset.countP_add, hthread]
    exact hone

/-- The capture thread has only one operation in flight. -/
theorem alone (h : TasksInv c (op ::ₘ others)) (hop : op.capturing = true) :
    others.countP (fun op => op.capturing = true) = 0 ∧ others.filterMap CodecOp.runs = 0 := by
  have hzero := Code.countP_others h.thread.le hop
  refine ⟨hzero, Multiset.eq_zero_of_forall_notMem fun n hn => ?_⟩
  obtain ⟨o, ho, hruns⟩ := (Multiset.mem_filterMap _ _).mp hn
  refine Multiset.countP_eq_zero.mp hzero o ho ?_
  cases o with
  | runTask n index => rfl
  | _ => cases hruns

/-- An operation of a caller leaves the capture thread alone. -/
theorem caller (h : TasksInv c (op ::ₘ others)) (hop : op.capturing = false) :
    others.countP (fun o => o.capturing = true) = 1 ∧
      ∃ r, c.captured = c.delivered.length + r ∧
        others.filterMap CodecOp.runs = ↑(List.range' c.delivered.length r) := by
  have hnone : op.runs = none := by
    cases op with
    | runTask n index => cases hop
    | _ => rfl
  have hone := h.thread
  have hrunning := h.running
  rw [Multiset.countP_cons_of_neg (p := fun o => o.capturing = true) others
    (ne_true_of_eq_false hop)] at hone
  rw [Multiset.filterMap_cons_none _ _ hnone] at hrunning
  exact ⟨hone, hrunning⟩

/-- The driver has taken an input, whose callback comes next. -/
theorem queueInput {index : ℕ} (h : TasksInv c (.queueInput index ::ₘ others)) (driver : List ℕ) :
    TasksInv { c with queued := c.queued + 1, driverOutput := driver }
      (↑[CodecOp.pushTask c.queued] + others) := by
  obtain ⟨w, hqueued, hpushes⟩ := h.waiting
  obtain ⟨hthread, r, hcaptured, hruns⟩ := h.caller rfl
  refine ⟨h.delivered, h.tasks, ⟨w + 1, ?_, ?_⟩, ⟨r, hcaptured, ?_⟩, ?_⟩
  · show c.queued + 1 = _
    rw [hqueued, Nat.add_assoc]
  · rw [Multiset.filterMap_cons_none _ _ rfl] at hpushes
    rw [Multiset.filterMap_add, hpushes, List.range'_1_concat, ← hqueued, add_comm]
    rfl
  · rw [Multiset.filterMap_add, hruns]
    rfl
  · rw [Multiset.countP_add, hthread]
    rfl

/-- The callback that comes next is put into the queue. -/
theorem pushTask {n : ℕ} (h : TasksInv c (.pushTask n ::ₘ others))
    (hfull : c.capturingTasks.full = false)
    (hfirst : ∀ m ∈ (CodecOp.pushTask n ::ₘ others).filterMap CodecOp.pushes, n ≤ m) :
    TasksInv { c with capturingTasks := (c.capturingTasks.push n).1 } others := by
  obtain ⟨w, hqueued, hpushes⟩ := h.waiting
  rw [hpushes] at hfirst
  rw [Multiset.filterMap_cons_some CodecOp.pushes (.pushTask n) others rfl] at hpushes
  have hn : n ∈ List.range' (c.delivered.length + c.capturingTasks.items.length) w := by
    rw [← Multiset.mem_coe, ← hpushes]
    exact Multiset.mem_cons_self n _
  -- the callbacks still to come are consecutive, so the least of them is the next one
  obtain ⟨w, rfl⟩ : ∃ v, w = v + 1 := by
    rw [List.mem_range'_1] at hn
    exact ⟨w - 1, by omega⟩
  obtain rfl : n = c.delivered.length + c.capturingTasks.items.length := by
    rw [List.mem_range'_1] at hn
    have hle := hfirst _ (Multiset.mem_coe.mpr (List.mem_range'_1.mpr ⟨le_rfl, by omega⟩))
    omega
  have hitems := ThreadSafeQueue.push_items hfull
    (c.delivered.length + c.capturingTasks.items.length)
  have hlength : (c.capturingTasks.push
      (c.delivered.length + c.capturingTasks.items.length)).1.items.length =
        c.capturingTasks.items.length + 1 := by
    rw [hitems, List.length_append, List.length_singleton]
  obtain ⟨hthread, hrunning⟩ := h.caller rfl
  refine ⟨h.delivered, ?_, ⟨w, ?_, ?_⟩, hrunning, hthread⟩
  · show (c.capturingTasks.push _).1.items = List.range' c.delivered.length _
    rw [hlength, List.range'_1_concat, hitems, ← h.tasks]
  · show c.queued = c.delivered.length + _ + w
    rw [hlength]
    omega
  · show others.filterMap CodecOp.pushes = ↑(List.range' (c.delivered.length + _) w)
    rw [List.range'_succ, ← Multiset.cons_coe] at hpushes
    rw [hlength, ← Nat.add_assoc]
    exact (Multiset.cons_inj_right _).mp hpushes

/-- The capture thread takes a frame, the only one it has. -/
theorem dequeueCapture (h : TasksInv c (.dequeueCapture ::ₘ others)) (driver : List ℕ)
    (index : ℕ) :
    TasksInv { c with captured := c.captured + 1, driverCapture := driver }
      (↑[CodecOp.runTask c.captured index] + others) := by
  obtain ⟨hthread, hnone⟩ := h.alone rfl
  obtain ⟨r, hcaptured, hruns⟩ := h.running
  rw [Multiset.filterMap_cons_none _ _ rfl, hnone] at hruns
  -- the capture thread is here, so it is not giving a frame to anyone
  obtain rfl : r = 0 := by
    have hcard := congrArg Multiset.card hruns
    rw [Multiset.card_zero, Multiset.coe_card, List.length_range'] at hcard
    exact hcard.symm
  refine ⟨h.delivered, h.tasks, ?_, ⟨1, congrArg (· + 1) hcaptured, ?_⟩, ?_⟩
  · obtain ⟨w, hqueued, hpushes⟩ := h.waiting
    rw [Multiset.filterMap_cons_none _ _ rfl] at hpushes
    exact ⟨w, hqueued, by rw [Multiset.filterMap_add, hpushes]; rfl⟩
  · rw [Multiset.filterMap_add, hnone, hcaptured]
    rfl
  · rw [Multiset.countP_add, hthread]
    rfl

/-- The frame goes to the first callback in the queue. -/
theorem runTask {n index task : ℕ} {rest : ThreadSafeQueue ℕ 8}
    (h : TasksInv c (.runTask n index ::ₘ others))
    (hpop : c.capturingTasks.pop = some (task, rest)) :
    TasksInv { c with capturingTasks := rest, delivered := c.delivered ++ [⟨n, task⟩] }
      (↑[CodecOp.requeue index] + others) := by
  obtain ⟨hthread, hnone⟩ := h.alone rfl
  have hitems := ThreadSafeQueue.pop_eq_some.mp hpop
  have htasks := h.tasks
  rw [hitems, List.length_cons, List.range'_succ, List.cons.injEq] at htasks
  obtain ⟨rfl, hrest⟩ := htasks
  obtain ⟨r, hcaptured, hruns⟩ := h.running
  rw [Multiset.filterMap_cons_some CodecOp.runs (.runTask n index) others rfl, hnone] at hruns
  -- the frame is the only one that was taken and not given to anyone yet
  obtain ⟨rfl, rfl⟩ : n = c.delivered.length ∧ r = 1 := by
    obtain hlist : List.range' c.delivered.length r = [n] := by
      rw [← List.perm_singleton, ← Multiset.coe_eq_coe, ← hruns]
      rfl
    cases r with
    | zero => cases hlist
    | succ r =>
      rw [List.range'_succ, List.cons.injEq, List.range'_eq_nil_iff] at hlist
      exact ⟨hlist.1.symm, by omega⟩
  have hlength : (c.delivered ++ [Delivery.mk c.delivered.length c.delivered.length]).length =
      c.delivered.length + 1 := by
    rw [List.length_append, List.length_singleton]
  refine ⟨?_, ?_, ?_, ⟨0, ?_, ?_⟩, ?_⟩
  · show c.delivered ++ [Delivery.mk _ _] = (List.range (List.length _)).map _
    rw [hlength, List.range_succ, List.map_append, ← h.delivered]
    rfl
  · show rest.items = List.range' (List.length _) _
    rw [hlength]
    exact hrest
  · obtain ⟨w, hqueued, hpushes⟩ := h.waiting
    rw [hitems, List.length_cons] at hqueued
    rw [Multiset.filterMap_cons_none _ _ rfl, hitems, List.length_cons] at hpushes
    refine ⟨w, ?_, ?_⟩
    · show c.queued = List.length _ + rest.items.length + w
      rw [hlength]
      omega
    · show _ = (↑(List.range' (List.length _ + rest.items.length) w) : Multiset ℕ)
      rw [hlength, Multiset.filterMap_add, hpushes, Nat.add_right_comm, Nat.add_assoc]
      rfl
  · show c.captured = List.length _ + 0
    rw [hlength]
    exact hcaptured
  · rw [Multiset.filterMap_add, hnone]
    rfl
  · rw [Multiset.countP_add, hthread]
    rfl

end Operation

/-! ### All interleavings -/

/-- Every operation that is executed under the condition keeps the invariant. -/
theorem exec {output : OutputBuffers} {s : Threads V4L2Codec CodecOp} {op : CodecOp}
    {others : Multiset CodecOp} {x : CodecOutcome} {e : Effect V4L2Codec CodecOp}
    (hfl : s.inFlight = op ::ₘ others) (h : TasksInv s.shared s.inFlight) (hg : TaskAtHand op s)
    (he : codecExec output op x s = some e) :
    e.spawn = [] ∧ TasksInv e.shared (↑e.next + others) := by
  rw [hfl] at h
  cases op with
  | takeIndex buffer =>
    cases x with
    | ok =>
      rw [codecExec] at he
      split at he
      · cases he
        exact ⟨rfl, h.same ⟨rfl, rfl, rfl, rfl⟩ rfl rfl rfl⟩
      · cases he
        exact ⟨rfl, h.same ⟨rfl, rfl, rfl, rfl⟩ rfl rfl rfl⟩
    | _ => cases he
  | fill buffer index =>
    cases x with
    | ok =>
      rw [codecExec] at he
      split at he
      · cases he
        exact ⟨rfl, h.same ⟨rfl, rfl, rfl, rfl⟩ rfl rfl rfl⟩
      · cases he
        exact ⟨rfl, h.same ⟨rfl, rfl, rfl, rfl⟩ rfl rfl rfl⟩
    | _ => cases he
  | queueInput index =>
    cases x with
    | ok =>
      cases he
      exact ⟨rfl, h.queueInput _⟩
    | failed =>
      cases he
      exact ⟨rfl, h.same ⟨rfl, rfl, rfl, rfl⟩ rfl rfl rfl⟩
    | _ => cases he
  | pushTask n =>
    cases x with
    | ok =>
      cases he
      obtain ⟨hfull, hfirst⟩ := hg.1 n rfl
      rw [hfl] at hfirst
      exact ⟨rfl, (Multiset.zero_add others).symm ▸ h.pushTask hfull hfirst⟩
    | _ => cases he
  | select =>
    cases x with
    | ready writable readable =>
      cases he
      refine ⟨rfl, ?_⟩
      cases writable <;> cases readable <;> exact h.same ⟨rfl, rfl, rfl, rfl⟩ rfl rfl rfl
    | failed =>
      cases he
      exact ⟨rfl, h.same ⟨rfl, rfl, rfl, rfl⟩ rfl rfl rfl⟩
    | _ => cases he
  | dequeueOutput readable =>
    cases x with
    | dequeued index =>
      rw [codecExec, Option.ite_none_right_eq_some] at he
      obtain ⟨-, ⟨⟩⟩ := he
      refine ⟨rfl, ?_⟩
      cases readable <;> exact h.same ⟨rfl, rfl, rfl, rfl⟩ rfl rfl rfl
    | failed =>
      cases he
      refine ⟨rfl, ?_⟩
      cases readable <;> exact h.same ⟨rfl, rfl, rfl, rfl⟩ rfl rfl rfl
    | _ => cases he
  | dequeueCapture =>
    cases x with
    | dequeued index =>
      rw [codecExec, Option.ite_none_right_eq_some] at he
      obtain ⟨-, ⟨⟩⟩ := he
      exact ⟨rfl, h.dequeueCapture _ index⟩
    | failed =>
      cases he
      exact ⟨rfl, h.same ⟨rfl, rfl, rfl, rfl⟩ rfl rfl rfl⟩
    | _ => cases he
  | runTask n index =>
    cases x with
    | ok =>
      rw [codecExec] at he
      split at he
      -- the condition: the callback is there when its frame comes
      case h_1 hpop =>
        exact absurd (ThreadSafeQueue.pop_eq_none.mp hpop) (hg.2 rfl)
      case h_2 task rest hpop =>
        cases he
        exact ⟨rfl, h.runTask hpop⟩
    | _ => cases he
  | requeue index =>
    cases x with
    | ok =>
      cases he
      exact ⟨rfl, h.same ⟨rfl, rfl, rfl, rfl⟩ rfl rfl rfl⟩
    | failed =>
      cases he
      exact ⟨rfl, h.same ⟨rfl, rfl, rfl, rfl⟩ rfl rfl rfl⟩
    | _ => cases he

theorem init (output : OutputBuffers) (captureNum : ℕ) :
    TasksInv (codecCode output captureNum).init.shared
      (codecCode output captureNum).init.inFlight where
  delivered := rfl
  tasks := rfl
  waiting := ⟨0, rfl, rfl⟩
  running := ⟨0, rfl, rfl⟩
  thread := rfl

/-- A call adds an operation that concerns neither callbacks nor frames. -/
theorem call {c : V4L2Codec} {flight : Multiset CodecOp} (h : TasksInv c flight)
    (buffer : InputFrame) : TasksInv c (flight + ↑[CodecOp.takeIndex buffer]) := by
  have hsame : ∀ f : CodecOp → Option ℕ, f (.takeIndex buffer) = none →
      (flight + ↑[CodecOp.takeIndex buffer]).filterMap f = flight.filterMap f := by
    intro f hf
    rw [Multiset.filterMap_add, Multiset.filterMap_coe, List.filterMap_cons_none hf,
      List.filterMap_nil, Multiset.coe_nil, add_zero]
  refine ⟨h.delivered, h.tasks, ?_, ?_, ?_⟩
  · rw [hsame _ rfl]
    exact h.waiting
  · rw [hsame _ rfl]
    exact h.running
  · rw [Multiset.countP_add, h.thread]
    rfl

end TasksInv

/-- **Callbacks stay with their frames.** In every interleaving in which each callback is put
    into the queue while it has room, in the order of the inputs and before the capture
    thread looks for it, the n-th frame is given to the callback of the n-th input, and no
    callback is lost or called twice. -/
theorem tasks_paired (output : OutputBuffers) (captureNum : ℕ)
    (as : List (Label CodecOutcome InputFrame)) (s : Threads V4L2Codec CodecOp)
    (hathand : (codecCode output captureNum).machine.Guarded (Code.When TaskAtHand)
      (codecCode output captureNum).init as)
    (hrun : (codecCode output captureNum).machine.run as = some s) : TasksPaired s := by
  refine TasksInv.paired (Code.guarded_interleavings (P := TasksInv) ?_ ?_
    (TasksInv.init output captureNum) hathand hrun)
  · intro s buffer ops h hops
    cases hops
    exact h.call buffer
  · intro s op others x e hfl h hg he
    obtain ⟨hspawn, hinv⟩ := h.exec hfl hg he
    rw [hspawn, List.flatten_nil, Multiset.coe_nil, add_zero]
    exact hinv

/-- An encoder's input queue: two buffers, which are imported. -/
def encoderOutput : OutputBuffers := ⟨true, 640, 480, [460800, 460800]⟩

/-- A frame for it. -/
def encoderFrame : InputFrame := ⟨460800, true, 640, 480⟩

/-- An input whose callback is put into the queue before the capture thread gets the frame. -/
def encodedInTurn : List (Label CodecOutcome InputFrame) :=
  [.call encoderFrame, .run 1 .ok, .run 1 .ok, .run 1 .ok, .run 1 .ok,
    .run 0 (.ready true true), .run 0 (.dequeued 0), .run 0 (.dequeued 0), .run 0 .ok, .run 0 .ok]

theorem tasks_paired_encodedInTurn :
    ∃ s, (codecCode encoderOutput 2).machine.run encodedInTurn = some s ∧
      s.shared.delivered = [⟨0, 0⟩] ∧ TasksPaired s :=
  ⟨_, rfl, rfl, tasks_paired encoderOutput 2 encodedInTurn _ (by decide) rfl⟩

/-- The frame is there before `EmplaceBuffer` gets to put the callback into the queue. -/
def encodedAtOnce : List (Label CodecOutcome InputFrame) :=
  [.call encoderFrame, .run 1 .ok, .run 1 .ok, .run 1 .ok,
    .run 0 (.ready false true), .run 0 (.dequeued 0), .run 0 .ok, .run 0 .ok, .run 1 .ok,
    .call encoderFrame, .run 2 .ok, .run 2 .ok, .run 2 .ok, .run 2 .ok,
    .run 0 (.ready false true), .run 0 (.dequeued 0), .run 0 .ok]

/-- The first frame is given to nobody, and the second one to the first callback. -/
theorem not_tasksPaired_encodedAtOnce :
    ∃ s, (codecCode encoderOutput 2).machine.run encodedAtOnce = some s ∧
      s.shared.captured = 2 ∧ s.shared.delivered = [⟨1, 0⟩] ∧ ¬ TasksPaired s := by
  refine ⟨_, rfl, rfl, rfl, fun h => ?_⟩
  exact absurd (h.paired ⟨1, 0⟩ List.mem_cons_self) (by decide)

end PiWebrtc.Codecs
