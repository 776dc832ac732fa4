import PiWebrtc.Codecs.JetsonEncoder

namespace PiWebrtc.Codecs

open Transition

/-!
# Which callback gets an encoded frame

A frame goes to the callback that is first in `capturing_tasks_`; if there is none, it is
dropped.  The driver may have encoded a frame before `EmplaceBuffer`, which gave it to the
driver, has pushed the callback for it.

* `ownFrames_iff` — every frame meets its own callback, and no callback is refused, exactly if
  no frame is faster than the call for it: four output and four capture buffers hold no more
  frames than the queue has room for callbacks.
* `frame_callback_shift` — else each frame that came too early shifts all later ones by one, and
  each callback that was refused shifts them back.
-/

/-- The frames whose calls of `EmplaceBuffer` have returned. -/
def JetsonEncoder.returned (s : JetsonEncoder) : ℕ :=
  match s.phase with
  | .idle => s.inputs
  | .pushTask => s.inputs - 1

/-- What is asked for: no callback was refused, and each frame was passed to its own. -/
def OwnFrames (s : JetsonEncoder) : Prop :=
  s.refused = [] ∧ ∀ e ∈ s.encoded, e.callback = some e.frame

/-- The condition: the callback for a frame is looked for after it has been pushed. -/
def NotEarly (s : JetsonEncoder) : EncoderEvent → Prop
  | .runTask => s.captured < s.inputs → s.captured < s.returned
  | _ => True

instance (s : JetsonEncoder) : ∀ a, Decidable (NotEarly s a)
  | .runTask => inferInstanceAs (Decidable (_ → _))
  | .emplaceBuffer _ _ _ | .pushTask | .encode | .takeFrame | .requeue _ | .dequeueFails
  | .destroy _ _ => isTrue trivial

/-! ### What the steps do to the callbacks -/

/-- Neither the callbacks nor what was captured are touched. -/
structure SameTasks (s s' : JetsonEncoder) : Prop where
  capturingTasks : s'.capturingTasks = s.capturingTasks
  captured : s'.captured = s.captured
  refused : s'.refused = s.refused
  encoded : s'.encoded = s.encoded
  returned : s'.returned = s.returned
  inputs : s'.inputs = s.inputs ∨ s.destroyed = false
  live : s'.endOfStream = false → s.endOfStream = false

section Steps

variable {isDmaSrc : Bool} {s s' : JetsonEncoder}

/-- Only `pushTask` and `runTask` touch the callbacks. -/
theorem sameTasks_of_step {a : EncoderEvent} (h : EncoderStep isDmaSrc s a s')
    (hpush : a ≠ .pushTask) (hrun : a ≠ .runTask) : SameTasks s s' := by
  cases h with
  | pushed => exact absurd rfl hpush
  | ran => exact absurd rfl hrun
  | rejected => exact ⟨rfl, rfl, rfl, rfl, rfl, .inl rfl, id⟩
  | encoded | took | failed => exact ⟨rfl, rfl, rfl, rfl, rfl, .inl rfl, id⟩
  | requeued =>
    unfold JetsonEncoder.requeue
    split
    · exact ⟨rfl, rfl, rfl, rfl, rfl, .inl rfl, id⟩
    · exact ⟨rfl, rfl, rfl, rfl, rfl, .inl rfl, id⟩
  | @emplaced dequeues queues index t hphase hlive _ htakes _ =>
    obtain ⟨consumed, rfl⟩ := htakes.shape
    obtain ⟨filled, hfill⟩ := fill_shape isDmaSrc { s with consumed := consumed } index
    rw [hfill]
    rcases queueFrame_cases { s with consumed := consumed, filled := filled } index queues with
      ⟨-, -, heq⟩ | ⟨-, heq⟩
    · rw [heq]
      have hidle : s.returned = s.inputs := by rw [JetsonEncoder.returned, hphase]
      exact ⟨rfl, rfl, rfl, rfl, hidle.symm, .inr hlive, id⟩
    · rw [heq]
      exact ⟨rfl, rfl, rfl, rfl, rfl, .inl rfl, id⟩
  | @destroyed dequeues queues index t hphase _ htakes =>
    have hshape : ∃ consumed, t = { s with consumed := consumed } := by
      rcases htakes with ⟨htakes, -⟩ | ⟨-, rfl, -⟩
      · exact htakes.shape
      · exact ⟨_, rfl⟩
    obtain ⟨consumed, rfl⟩ := hshape
    rcases queueEndOfStream_cases
        { s with consumed := consumed, abort := true, destroyed := true } index queues with
      ⟨-, -, heq⟩ | ⟨-, heq⟩
    · rw [heq]
      exact ⟨rfl, rfl, rfl, rfl, rfl, .inl rfl, by rintro ⟨⟩⟩
    · rw [heq]
      exact ⟨rfl, rfl, rfl, rfl, rfl, .inl rfl, id⟩

/-- The callback of the last frame is pushed, and the call returns. -/
theorem pushTask_cases (s : JetsonEncoder) :
    s.capturingTasks.full = false ∧ s.pushTask.refused = s.refused ∧
        s.pushTask.capturingTasks.items = s.capturingTasks.items ++ [s.inputs - 1] ∨
      s.capturingTasks.full = true ∧ s.pushTask.refused = s.refused ++ [s.inputs - 1] ∧
        s.pushTask.capturingTasks.items = s.capturingTasks.items := by
  cases hfull : s.capturingTasks.full with
  | false =>
    refine .inl ⟨rfl, ?_, ThreadSafeQueue.push_items hfull _⟩
    have hlt : s.capturingTasks.items.length < 8 := by
      rw [ThreadSafeQueue.full, decide_eq_false_iff_not] at hfull
      exact Nat.lt_of_not_le hfull
    simp only [JetsonEncoder.pushTask, ThreadSafeQueue.push, dif_pos hlt, if_true]
  | true =>
    have hnot : ¬ s.capturingTasks.items.length < 8 := not_lt_of_ge (of_decide_eq_true hfull)
    refine .inr ⟨rfl, ?_, ?_⟩
    · simp [JetsonEncoder.pushTask, ThreadSafeQueue.push, dif_neg hnot]
    · simp [JetsonEncoder.pushTask, ThreadSafeQueue.push, dif_neg hnot]

/-- A callback is called if there is one; without one, a frame is dropped. -/
theorem runTask_cases (s : JetsonEncoder) :
    (∃ c rest, s.capturingTasks.items = c :: rest ∧ s.runTask.capturingTasks.items = rest ∧
        s.runTask.encoded = s.encoded ++ [⟨s.captured, some c⟩]) ∨
      s.capturingTasks.items = [] ∧ s.runTask.capturingTasks.items = [] ∧
        s.runTask.encoded =
          if s.captured = s.inputs then s.encoded else s.encoded ++ [⟨s.captured, none⟩] := by
  cases hpop : s.capturingTasks.pop with
  | none =>
    have hitems := ThreadSafeQueue.pop_eq_none.mp hpop
    refine .inr ⟨hitems, ?_, ?_⟩
    · simp [JetsonEncoder.runTask, hpop, hitems]
    · simp [JetsonEncoder.runTask, hpop]
  | some item =>
    obtain ⟨c, rest⟩ := item
    refine .inl ⟨c, rest.items, ThreadSafeQueue.pop_eq_some.mp hpop, ?_, ?_⟩
    · simp [JetsonEncoder.runTask, hpop]
    · simp [JetsonEncoder.runTask, hpop]

end Steps

/-! ### No frame is early -/

/-- **The invariant.** The callbacks in the queue are those of the frames to come whose calls
    have returned. -/
structure TasksAligned (s : JetsonEncoder) : Prop where
  tasks : s.capturingTasks.items = List.range' s.captured (s.returned - s.captured)
  le : s.endOfStream = false → s.captured ≤ s.returned

section Aligned

variable {isDmaSrc : Bool} {s s' : JetsonEncoder}

/-- Before the end of stream, the driver and the capture thread have at most as many frames as
    there are buffers. -/
theorem Counted.inputs_le (h : Counted s) (hend : s.endOfStream = false) :
    s.captured ≤ s.inputs ∧ s.inputs ≤ s.captured + 2 * bufferNum := by
  have hitems := h.items
  have hpending : s.pending.length ≤ s.numQueued := by
    rw [JetsonEncoder.numQueued, JetsonEncoder.queued, List.length_append]
    exact Nat.le_add_right _ _
  have hqueued := h.numQueued_le
  have hcapture := h.capture
  have hunseen : s.thread.unseen ≤ s.thread.holds := by
    cases s.thread <;> decide
  have hfalse : false.toNat = 0 := rfl
  rw [hend] at hitems
  constructor
  · omega
  · omega

/-- A call that is running is not beside the destructor. -/
theorem Counted.live (h : Counted s) (hphase : s.phase = .pushTask) : s.endOfStream = false := by
  by_contra hyes
  have hidle := h.ended (h.last (Bool.eq_true_of_not_eq_false hyes))
  exact absurd (hphase.symm.trans hidle) (by decide)

/-- The task that is looked for is one of a frame, or the end of stream has come. -/
theorem Counted.captured_le (h : Counted s) (hthread : s.thread = .runTask) :
    s.captured ≤ s.inputs ∧ (s.captured = s.inputs → s.endOfStream = true) := by
  have hitems := h.items
  have hone : CapturePhase.unseen .runTask = 1 := rfl
  rw [hthread] at hitems
  cases hend : s.endOfStream with
  | false =>
    have hfalse : false.toNat = 0 := rfl
    rw [hend] at hitems
    exact ⟨by omega, fun heq => by omega⟩
  | true =>
    have htrue : true.toNat = 1 := rfl
    rw [hend] at hitems
    exact ⟨by omega, fun _ => rfl⟩

theorem TasksAligned.same (h : TasksAligned s) (hsame : SameTasks s s') : TasksAligned s' where
  tasks := by rw [hsame.capturingTasks, hsame.captured, hsame.returned]; exact h.tasks
  le hend := by rw [hsame.captured, hsame.returned]; exact h.le (hsame.live hend)

/-- There is room for the callback of the call that is running. -/
theorem TasksAligned.not_full (h : TasksAligned s) (hcounted : Counted s)
    (hphase : s.phase = .pushTask) : s.capturingTasks.full = false := by
  obtain ⟨-, hle⟩ := hcounted.inputs_le (hcounted.live hphase)
  have hpos := hcounted.busy hphase
  have hreturned : s.returned = s.inputs - 1 := by rw [JetsonEncoder.returned, hphase]
  have hlength : s.capturingTasks.items.length = s.returned - s.captured := by
    rw [h.tasks, List.length_range']
  have hnum : bufferNum = 4 := rfl
  rw [ThreadSafeQueue.full, decide_eq_false_iff_not]
  omega

theorem TasksAligned.pushTask (h : TasksAligned s) (hcounted : Counted s)
    (hphase : s.phase = .pushTask) : TasksAligned s.pushTask ∧ s.pushTask.refused = s.refused := by
  have hroom := h.not_full hcounted hphase
  have hle := h.le (hcounted.live hphase)
  have hpos := hcounted.busy hphase
  have hreturned : s.returned = s.inputs - 1 := by rw [JetsonEncoder.returned, hphase]
  have hreturned' : s.pushTask.returned = s.inputs := rfl
  rcases pushTask_cases s with ⟨-, hrefused, hitems⟩ | ⟨hfull, -, -⟩
  · refine ⟨⟨?_, fun _ => ?_⟩, hrefused⟩
    · show s.pushTask.capturingTasks.items = List.range' s.captured (s.inputs - s.captured)
      have hlast : s.captured + (s.returned - s.captured) = s.inputs - 1 := by omega
      have hmore : s.inputs - s.captured = s.returned - s.captured + 1 := by omega
      rw [hitems, h.tasks, hmore, List.range'_concat, Nat.one_mul, hlast]
    · show s.captured ≤ s.inputs
      omega
  · exact absurd (hroom.symm.trans hfull) (by decide)

/-- The queue holds the callback of the next frame if its call has returned. -/
theorem TasksAligned.next (h : TasksAligned s) (hlt : s.captured < s.returned) :
    s.capturingTasks.items =
      s.captured :: List.range' (s.captured + 1) (s.returned - (s.captured + 1)) := by
  have hmore : s.returned - s.captured = s.returned - (s.captured + 1) + 1 := by omega
  rw [h.tasks, hmore, List.range'_succ]

/-- The queue is empty if no call of a frame to come has returned. -/
theorem TasksAligned.empty (h : TasksAligned s) (hle : s.returned ≤ s.captured) :
    s.capturingTasks.items = [] := by
  rw [h.tasks, Nat.sub_eq_zero_of_le hle, List.range'_zero]

/-- **A task is looked for.** The frame meets its own callback exactly if the condition is met,
    and then the callbacks are in step again; the end of stream meets none. -/
theorem TasksAligned.runTask (h : TasksAligned s) (hcounted : Counted s)
    (hown : ∀ e ∈ s.encoded, e.callback = some e.frame) (hthread : s.thread = .runTask) :
    ((∀ e ∈ s.runTask.encoded, e.callback = some e.frame) ↔ NotEarly s .runTask) ∧
      (NotEarly s .runTask → TasksAligned s.runTask) := by
  obtain ⟨hle, hlast⟩ := hcounted.captured_le hthread
  have aligned (hitems : s.runTask.capturingTasks.items =
        List.range' (s.captured + 1) (s.returned - (s.captured + 1)))
      (hlt : s.endOfStream = false → s.captured < s.returned) : TasksAligned s.runTask :=
    ⟨hitems, hlt⟩
  by_cases hearly : s.captured < s.returned
  · have hnext := h.next hearly
    rcases runTask_cases s with ⟨c, rest, hitems, hitems', hencoded⟩ | ⟨hitems, -, -⟩
    · obtain ⟨rfl, rfl⟩ := List.cons.inj (hitems.symm.trans hnext)
      refine ⟨iff_of_true ?_ fun _ => hearly, fun _ => aligned hitems' fun _ => hearly⟩
      rw [hencoded]
      intro e he
      rcases List.mem_append.mp he with he | he
      · exact hown e he
      · rw [List.mem_singleton.mp he]
    · rw [hitems] at hnext
      cases hnext
  · have hnone := h.empty (Nat.le_of_not_lt hearly)
    rcases runTask_cases s with ⟨c, rest, hitems, -, -⟩ | ⟨-, hitems', hencoded⟩
    · rw [hitems] at hnone
      cases hnone
    · rcases Nat.lt_or_eq_of_le hle with hlt | heq
      · -- a frame without a callback
        refine ⟨iff_of_false (fun hall => ?_) fun hmet => hearly (hmet hlt),
          fun hmet => absurd (hmet hlt) hearly⟩
        rw [hencoded, if_neg (Nat.ne_of_lt hlt)] at hall
        have hnone := hall ⟨s.captured, none⟩ (List.mem_append_right _ (List.mem_singleton_self _))
        cases hnone
      · -- the end of stream
        have hmet : NotEarly s .runTask := fun hlt => absurd heq (Nat.ne_of_lt hlt)
        refine ⟨iff_of_true ?_ hmet, fun _ => aligned ?_ fun hend => ?_⟩
        · rw [hencoded, if_pos heq]
          exact hown
        · rw [hitems', Nat.sub_eq_zero_of_le (Nat.le_succ_of_le (Nat.le_of_not_lt hearly)),
            List.range'_zero]
        · exact absurd (hend.symm.trans (hlast heq)) (by decide)

/-- **A step** from a state in which all frames have met their own callbacks. -/
theorem ownFrames_step {a : EncoderEvent} (hcounted : Counted s) (h : TasksAligned s)
    (hown : OwnFrames s) (hs : EncoderStep isDmaSrc s a s') :
    (OwnFrames s' ↔ NotEarly s a) ∧ (NotEarly s a → TasksAligned s') := by
  have same (hmet : NotEarly s a) (hsame : SameTasks s s') :
      (OwnFrames s' ↔ NotEarly s a) ∧ (NotEarly s a → TasksAligned s') := by
    refine ⟨iff_of_true ?_ hmet, fun _ => h.same hsame⟩
    rw [OwnFrames, hsame.refused, hsame.encoded]
    exact hown
  have hs' := hs
  cases hs with
  | pushed hphase =>
    obtain ⟨haligned, hrefused⟩ := h.pushTask hcounted hphase
    exact ⟨iff_of_true ⟨hrefused.trans hown.1, hown.2⟩ trivial, fun _ => haligned⟩
  | ran hthread =>
    obtain ⟨hiff, haligned⟩ := h.runTask hcounted hown.2 hthread
    exact ⟨(and_iff_right hown.1).trans hiff, haligned⟩
  | rejected | emplaced | encoded | took | requeued | failed | destroyed =>
    exact same trivial (sameTasks_of_step hs' (by rintro ⟨⟩) (by rintro ⟨⟩))

end Aligned

theorem tasksAligned_init (isDmaSrc : Bool) (prepared : Fin (bufferNum + 1)) :
    TasksAligned (jetsonEncoder isDmaSrc prepared).init :=
  ⟨rfl, fun _ => le_rfl⟩

/-- **Encoded frames meet their own callbacks, exactly.** In every run, each frame is passed to
    the callback it was given with and no callback is refused, exactly if no frame's callback is
    looked for before it has been pushed. -/
theorem ownFrames_iff (isDmaSrc : Bool) (prepared : Fin (bufferNum + 1))
    (as : List EncoderEvent) (s : JetsonEncoder)
    (hrun : (jetsonEncoder isDmaSrc prepared).run as = some s) :
    (jetsonEncoder isDmaSrc prepared).Always OwnFrames (jetsonEncoder isDmaSrc prepared).init as ↔
      (jetsonEncoder isDmaSrc prepared).Guarded NotEarly
        (jetsonEncoder isDmaSrc prepared).init as := by
  refine Machine.always_iff_guarded (I := fun s => Counted s ∧ TasksAligned s) ?_ ?_
    ⟨counted_init isDmaSrc prepared, tasksAligned_init isDmaSrc prepared⟩ ⟨rfl, nofun⟩ hrun
  · rintro s a s' ⟨hcounted, h⟩ hown hs hown'
    have hstep := encoderStep_of_step hs
    obtain ⟨hiff, haligned⟩ := ownFrames_step hcounted h hown hstep
    exact ⟨hcounted.step hstep, haligned (hiff.mp hown')⟩
  · rintro s a s' ⟨hcounted, h⟩ hown hs
    exact (ownFrames_step hcounted h hown (encoderStep_of_step hs)).1

/-- A frame, and one that is encoded before its callback is pushed. -/
def frameInTime : List EncoderEvent :=
  [.emplaceBuffer false false true, .encode, .pushTask, .takeFrame, .runTask, .requeue true,
    .emplaceBuffer false false true, .encode, .takeFrame, .pushTask, .runTask]

theorem ownFrames_frameInTime :
    (jetsonEncoder true 4).Always OwnFrames (jetsonEncoder true 4).init frameInTime :=
  (ownFrames_iff true 4 frameInTime _ rfl).mpr (by decide)

/-! ### Early frames shift the later ones -/

/-- **What holds in every run.** The frames came in order; and the callbacks that were called,
    and those in the queue, are those of the returned calls that were not refused, in order. -/
structure TasksInOrder (s : JetsonEncoder) : Prop where
  frames : s.encoded.map EncodedFrame.frame = List.range s.encoded.length
  length : s.captured ≤ s.inputs → s.encoded.length = s.captured
  refused : ∀ n ∈ s.refused, n < s.returned
  tasks : s.encoded.filterMap EncodedFrame.callback ++ s.capturingTasks.items =
    (List.range s.returned).filter fun n => decide (n ∉ s.refused)

section InOrder

variable {isDmaSrc : Bool} {s s' : JetsonEncoder}

theorem TasksInOrder.pushTask (h : TasksInOrder s) (hcounted : Counted s)
    (hphase : s.phase = .pushTask) : TasksInOrder s.pushTask := by
  have hpos := hcounted.busy hphase
  have hreturned : s.returned = s.inputs - 1 := by rw [JetsonEncoder.returned, hphase]
  have hreturned' : s.pushTask.returned = s.returned + 1 := by
    rw [hreturned]
    exact (Nat.sub_add_cancel hpos).symm
  have hlt : ∀ n ∈ s.refused, n < s.returned + 1 := fun n hn => Nat.lt_succ_of_lt (h.refused n hn)
  have hnew : s.returned ∉ s.refused := fun hmem => lt_irrefl _ (h.refused _ hmem)
  have hencoded : s.pushTask.encoded = s.encoded := rfl
  rcases pushTask_cases s with ⟨-, hrefused, hitems⟩ | ⟨-, hrefused, hitems⟩
  · refine ⟨h.frames, h.length, ?_, ?_⟩
    · rw [hrefused, hreturned']
      exact hlt
    · rw [hencoded, hitems, hrefused, hreturned', ← hreturned, ← List.append_assoc, h.tasks,
        List.range_succ, List.filter_append]
      simp [hnew]
  · refine ⟨h.frames, h.length, ?_, ?_⟩
    · rw [hrefused, hreturned', ← hreturned]
      intro n hn
      rcases List.mem_append.mp hn with hn | hn
      · exact hlt n hn
      · rw [List.mem_singleton.mp hn]
        exact Nat.lt_succ_self _
    · rw [hencoded, hitems, hrefused, hreturned', ← hreturned, h.tasks, List.range_succ,
        List.filter_append]
      -- the refused callback is the last one
      have hsame : ∀ n ∈ List.range s.returned, decide (n ∉ s.refused ++ [s.returned]) =
          decide (n ∉ s.refused) := by
        intro n hn
        have hne : n ≠ s.returned := Nat.ne_of_lt (List.mem_range.mp hn)
        simp [hne]
      rw [List.filter_congr hsame]
      simp

theorem TasksInOrder.runTask (h : TasksInOrder s) (hcounted : Counted s)
    (hthread : s.thread = .runTask) : TasksInOrder s.runTask := by
  obtain ⟨hle, hlast⟩ := hcounted.captured_le hthread
  have hlength := h.length hle
  have hframes : ∀ callback : Option ℕ,
      (s.encoded ++ [EncodedFrame.mk s.captured callback]).map EncodedFrame.frame =
        List.range (s.encoded ++ [EncodedFrame.mk s.captured callback]).length := by
    intro callback
    rw [List.map_append, h.frames, List.length_append, List.length_singleton, List.range_succ,
      List.map_singleton, hlength]
  have hmore : ∀ callback : Option ℕ, s.captured + 1 ≤ s.inputs →
      (s.encoded ++ [EncodedFrame.mk s.captured callback]).length = s.captured + 1 := by
    intro callback _
    rw [List.length_append, List.length_singleton, hlength]
  rcases runTask_cases s with ⟨c, rest, hitems, hitems', hencoded⟩ | ⟨hitems, hitems', hencoded⟩
  · refine ⟨hencoded ▸ hframes _, fun hlt => hencoded ▸ hmore _ hlt, h.refused, ?_⟩
    rw [hencoded, hitems', List.filterMap_append, List.append_assoc]
    have htasks := h.tasks
    rw [hitems] at htasks
    exact htasks
  · have htasks : (s.runTask.encoded.filterMap EncodedFrame.callback) =
        s.encoded.filterMap EncodedFrame.callback := by
      rw [hencoded]
      split
      · rfl
      · rw [List.filterMap_append]
        exact List.append_nil _
    refine ⟨?_, fun hlt => ?_, h.refused, ?_⟩
    · rw [hencoded]
      split
      · exact h.frames
      · exact hframes _
    · have hframe : s.captured ≠ s.inputs := fun heq => absurd hlt (heq ▸ Nat.not_succ_le_self _)
      rw [hencoded, if_neg hframe]
      exact hmore _ hlt
    · have hall := h.tasks
      rw [hitems] at hall
      rw [htasks, hitems']
      exact hall

theorem TasksInOrder.step {a : EncoderEvent} (h : TasksInOrder s) (hcounted : Counted s)
    (hs : EncoderStep isDmaSrc s a s') : TasksInOrder s' := by
  have hs' := hs
  cases hs with
  | pushed hphase => exact h.pushTask hcounted hphase
  | ran hthread => exact h.runTask hcounted hthread
  | rejected | emplaced | encoded | took | requeued | failed | destroyed =>
    have hsame := sameTasks_of_step hs' (by rintro ⟨⟩) (by rintro ⟨⟩)
    refine ⟨?_, fun hle => ?_, ?_, ?_⟩
    · rw [hsame.encoded]
      exact h.frames
    · rw [hsame.encoded, hsame.captured]
      rw [hsame.captured] at hle
      rcases hsame.inputs with hinputs | hlive
      · exact h.length (hinputs ▸ hle)
      · have hend : s.endOfStream = false := by
          by_contra hyes
          have hgone := hcounted.last (Bool.eq_true_of_not_eq_false hyes)
          exact absurd (hgone.symm.trans hlive) (by decide)
        exact h.length (hcounted.inputs_le hend).1
    · rw [hsame.refused, hsame.returned]
      exact h.refused
    · rw [hsame.encoded, hsame.capturingTasks, hsame.refused, hsame.returned]
      exact h.tasks

end InOrder

theorem tasksInOrder_init (isDmaSrc : Bool) (prepared : Fin (bufferNum + 1)) :
    TasksInOrder (jetsonEncoder isDmaSrc prepared).init :=
  ⟨rfl, fun _ => rfl, nofun, rfl⟩

/-- Of the numbers that are kept, those before one are those kept up to it. -/
theorem filter_range_prefix {p : ℕ → Bool} {n c : ℕ} {before after : List ℕ}
    (h : (List.range n).filter p = before ++ c :: after) :
    before = (List.range c).filter p := by
  obtain ⟨front, back, hrange, hfront, hback⟩ := List.filter_eq_append_iff.mp h
  obtain ⟨skipped, rest, rfl, hskipped, -, -⟩ := List.filter_eq_cons_iff.mp hback
  rw [← List.append_assoc] at hrange
  have hlt : (front ++ skipped).length < n := by
    have hlength := congrArg List.length hrange
    rw [List.length_range, List.length_append, List.length_cons] at hlength
    omega
  have hc : (front ++ skipped).length = c := by
    have hget := congrArg (fun l => l[(front ++ skipped).length]?) hrange
    simp only [List.getElem?_append_right le_rfl, Nat.sub_self, List.getElem?_cons_zero,
      List.getElem?_range hlt] at hget
    exact Option.some.inj hget
  have hfirst : List.range c = front ++ skipped := by
    have htake := congrArg (List.take (front ++ skipped).length) hrange
    rwa [List.take_left, List.take_range, Nat.min_eq_left hlt.le, hc] at htake
  rw [hfirst, List.filter_append, hfront, List.filter_eq_nil_iff.mpr hskipped, List.append_nil]

/-- Of frames, those that found a callback and those that found none. -/
theorem length_eq_callbacks (frames : List EncodedFrame) :
    frames.length = (frames.filterMap EncodedFrame.callback).length +
      frames.countP fun e => e.callback.isNone := by
  induction frames with
  | nil => rfl
  | cons e frames ih =>
    rw [List.length_cons, ih, List.countP_cons]
    cases hcallback : e.callback with
    | none =>
      rw [List.filterMap_cons_none hcallback]
      exact Nat.add_assoc _ _ _
    | some c =>
      rw [List.filterMap_cons_some hcallback, List.length_cons]
      exact Nat.add_right_comm _ _ _

/-- **Early frames shift the later ones.** In every run, a frame, with the callbacks before its
    own that were refused, is as far as its callback, with the frames before it that found
    none. -/
theorem frame_callback_shift (isDmaSrc : Bool) (prepared : Fin (bufferNum + 1))
    (as : List EncoderEvent) (s : JetsonEncoder) (before after : List EncodedFrame)
    (frame callback : ℕ) (hrun : (jetsonEncoder isDmaSrc prepared).run as = some s)
    (hencoded : s.encoded = before ++ ⟨frame, some callback⟩ :: after) :
    frame + (List.range callback).countP (fun n => decide (n ∈ s.refused)) =
      callback + before.countP fun e => e.callback.isNone := by
  have h : Counted s ∧ TasksInOrder s := Machine.run_invariant
    (P := fun s => Counted s ∧ TasksInOrder s)
    ⟨counted_init isDmaSrc prepared, tasksInOrder_init isDmaSrc prepared⟩
    (fun _ _ _ h hs => ⟨h.1.step (encoderStep_of_step hs),
      h.2.step h.1 (encoderStep_of_step hs)⟩) hrun
  obtain ⟨-, horder⟩ := h
  have hframe : frame = before.length := by
    have hget := congrArg (fun l => l[before.length]?) horder.frames
    have hlt : before.length < s.encoded.length := by
      rw [hencoded, List.length_append, List.length_cons]
      omega
    simp only [List.getElem?_range hlt] at hget
    rw [hencoded, List.map_append, List.getElem?_append_right (by rw [List.length_map]),
      List.length_map, Nat.sub_self] at hget
    exact Option.some.inj hget
  have hcallbacks : before.filterMap EncodedFrame.callback =
      (List.range callback).filter fun n => decide (n ∉ s.refused) := by
    have hcons : (EncodedFrame.mk frame (some callback) :: after).filterMap
        EncodedFrame.callback = callback :: after.filterMap EncodedFrame.callback :=
      List.filterMap_cons_some rfl
    have htasks := horder.tasks
    rw [hencoded, List.filterMap_append, hcons, List.append_assoc] at htasks
    exact filter_range_prefix htasks.symm
  have hcount : callback = (List.range callback).countP (fun n => decide (n ∈ s.refused)) +
      (before.filterMap EncodedFrame.callback).length := by
    have hsplit := (List.range callback).length_eq_countP_add_countP
      fun n => decide (n ∈ s.refused)
    rw [List.length_range] at hsplit
    rw [hcallbacks, ← List.countP_eq_length_filter]
    simpa using hsplit
  have hlength := length_eq_callbacks before
  omega

/-- The first frame is early. -/
def earlyFrame : List EncoderEvent :=
  [.emplaceBuffer false false true, .encode, .takeFrame, .runTask, .pushTask, .requeue true,
    .emplaceBuffer false false true, .encode, .takeFrame, .pushTask, .runTask]

/-- The second frame is passed to the callback of the first. -/
theorem frame_callback_shift_earlyFrame :
    1 + (List.range 0).countP (fun n => decide (n ∈ ([] : List ℕ))) =
      0 + ([⟨0, none⟩] : List EncodedFrame).countP fun e => e.callback.isNone :=
  frame_callback_shift true 4 earlyFrame _ [⟨0, none⟩] [] 1 0 rfl rfl

end PiWebrtc.Codecs
