import PiWebrtc.Codecs.JetsonDecoder
import PiWebrtc.Codecs.V4L2Codec
import Mathlib.Data.Fintype.Card

namespace PiWebrtc.Codecs

open Transition

/-!
# The Jetson encoder

`EmplaceBuffer` chooses an output buffer, fills it, gives it to the driver and then puts the
callback for it into `capturing_tasks_`; the capture thread takes an encoded frame from the
driver, then the first callback out of there, and gives the capture buffer back.  The
destructor queues an end of stream and waits for the capture thread to see it.

* `jetsonEncoder` — one call after the other, beside the driver and the capture thread.
* `nextBuffer_free_iff` — the buffer that a call fills is never one that the driver has, exactly
  if no call fails to queue a buffer it got back, unless that was the last one.
* `stuck_forever` — otherwise no frame is taken any more.
* `endOfStream_queued_iff` — when the end of stream of the destructor gets to the driver, and
  that the capture thread is not told to stop if it does not.

The driver is taken at its word: it grants the buffers asked for, encodes the frames in the
order it took them, each into one capture buffer, and rejects a buffer that it already has.
-/

/-- `BUFFER_NUM`, of the output plane and of the capture plane. -/
abbrev bufferNum : ℕ := 4

/-- What the call of `EmplaceBuffer` that is running does next. -/
inductive EncoderPhase where
  | idle
  | pushTask
  deriving DecidableEq, Repr

/-- What the capture thread does next; `runTask` and `requeue` are those of
    `EncoderCapturePlaneDqCallback`. -/
inductive CapturePhase where
  | waiting
  | runTask
  | requeue
  | stopped
  deriving DecidableEq, Repr

/-- The capture thread has a buffer in hand. -/
def CapturePhase.holds : CapturePhase → ℕ
  | .runTask | .requeue => 1
  | .waiting | .stopped => 0

/-- An encoded frame whose task has not been looked for. -/
def CapturePhase.unseen : CapturePhase → ℕ
  | .runTask => 1
  | .waiting | .requeue | .stopped => 0

/-- An encoded frame, and the one whose callback it was passed to, if any. -/
structure EncodedFrame where
  frame : ℕ
  callback : Option ℕ
  deriving DecidableEq, Repr

/-- The encoder and the driver.  Of the output buffers that the driver has, those with frames to
    encode and those it is done with; the empty capture buffers that it has, and the number of
    those with a frame in them; how many frames it took, and how many were taken from it.
    Then, as history, the buffers that were filled, the callbacks that were refused, and what
    became of the frames. -/
structure JetsonEncoder where
  pending : List ℕ := []
  consumed : List ℕ := []
  spare : ℕ := bufferNum
  ready : ℕ := 0
  inputs : ℕ := 0
  captured : ℕ := 0
  endOfStream : Bool := false
  destroyed : Bool := false
  abort : Bool := false
  phase : EncoderPhase := .idle
  thread : CapturePhase := .waiting
  capturingTasks : ThreadSafeQueue ℕ 8 := .empty
  filled : List Fill := []
  refused : List ℕ := []
  encoded : List EncodedFrame := []
  deriving DecidableEq, Repr

/-- The steps of `EmplaceBuffer`, of the driver, of the capture thread and of the destructor. -/
inductive EncoderEvent where
  /-- `EmplaceBuffer`, up to `qBuffer`. -/
  | emplaceBuffer (inError dequeues queues : Bool)
  | pushTask
  /-- The driver encodes a frame. -/
  | encode
  | takeFrame
  | runTask
  | requeue (queues : Bool)
  /-- The capture thread gets no buffer. -/
  | dequeueFails
  /-- The destructor, up to `waitForDQThread`. -/
  | destroy (dequeues queues : Bool)
  deriving DecidableEq, Repr

namespace JetsonEncoder

/-- The output buffers that the driver has. -/
def queued (s : JetsonEncoder) : List ℕ := s.pending ++ s.consumed

/-- `getNumQueuedBuffers` of the output plane. -/
def numQueued (s : JetsonEncoder) : ℕ := s.queued.length

/-- Output buffer `index` is written to; an imported one is not. -/
def fill (isDmaSrc : Bool) (s : JetsonEncoder) (index : ℕ) : JetsonEncoder :=
  if isDmaSrc then s else { s with filled := ⟨index, decide (index ∈ s.queued)⟩ :: s.filled }

/-- `dqBuffer` of the output plane: the driver gives back the first buffer that it is done
    with. -/
def dqBuffer (s : JetsonEncoder) : Option (ℕ × JetsonEncoder) :=
  match s.consumed with
  | [] => none
  | index :: rest => some (index, { s with consumed := rest })

/-- `qBuffer` of the output plane, with a frame. -/
def queueFrame (s : JetsonEncoder) (index : ℕ) (queues : Bool) : JetsonEncoder :=
  if queues = true ∧ index ∉ s.queued then
    { s with pending := s.pending ++ [index], inputs := s.inputs + 1, phase := .pushTask }
  else s

/-- `qBuffer` of the output plane, with an end of stream. -/
def queueEndOfStream (s : JetsonEncoder) (index : ℕ) (queues : Bool) : JetsonEncoder :=
  if queues = true ∧ index ∉ s.queued then
    { s with pending := s.pending ++ [index], endOfStream := true }
  else s

/-- `EmplaceBuffer`, up to `qBuffer`. -/
def emplaceBuffer (isDmaSrc : Bool) (s : JetsonEncoder) (inError dequeues queues : Bool) :
    Option JetsonEncoder :=
  if inError || s.abort then some s
  else if s.numQueued = bufferNum then
    if dequeues then
      s.dqBuffer.map fun (index, t) => (t.fill isDmaSrc index).queueFrame index queues
    else some s
  else some ((s.fill isDmaSrc s.numQueued).queueFrame s.numQueued queues)

/-- `capturing_tasks_.push`, with the callback of the last frame. -/
def pushTask (s : JetsonEncoder) : JetsonEncoder :=
  let pushed := s.capturingTasks.push (s.inputs - 1)
  { s with
    capturingTasks := pushed.1
    refused := if pushed.2 then s.refused else s.refused ++ [s.inputs - 1]
    phase := .idle }

/-- The first callback is taken out and called with the frame.  The end of stream comes after
    all frames. -/
def runTask (s : JetsonEncoder) : JetsonEncoder :=
  let item := s.capturingTasks.pop
  let callback := item.map Prod.fst
  { s with
    capturingTasks := (item.map Prod.snd).getD s.capturingTasks
    captured := s.captured + 1
    thread := .requeue
    encoded :=
      if s.captured = s.inputs ∧ callback = none then s.encoded
      else s.encoded ++ [⟨s.captured, callback⟩] }

/-- The capture buffer is given back; the thread ends after the end of stream. -/
def requeue (s : JetsonEncoder) (queues : Bool) : JetsonEncoder :=
  if queues = false then { s with abort := true, thread := .stopped }
  else
    { s with
      spare := s.spare + 1
      thread := if s.captured = s.inputs + 1 then .stopped else .waiting }

/-- `SendEOS`: the buffer that was not dequeued is the first one. -/
def sendEOS (s : JetsonEncoder) (dequeues queues : Bool) : Option JetsonEncoder :=
  if s.numQueued = bufferNum ∧ dequeues = true then
    s.dqBuffer.map fun (index, t) => t.queueEndOfStream index queues
  else some (s.queueEndOfStream 0 queues)

/-- One step. -/
def step (isDmaSrc : Bool) (s : JetsonEncoder) : EncoderEvent → Option JetsonEncoder
  | .emplaceBuffer inError dequeues queues =>
    if s.phase = .idle ∧ s.destroyed = false then
      s.emplaceBuffer isDmaSrc inError dequeues queues
    else none
  | .pushTask => if s.phase = .pushTask then some s.pushTask else none
  | .encode =>
    match s.pending with
    | [] => none
    | index :: rest =>
      if 0 < s.spare then
        some
          { s with
            pending := rest, consumed := s.consumed ++ [index], spare := s.spare - 1
            ready := s.ready + 1 }
      else none
  | .takeFrame =>
    if s.thread = .waiting ∧ 0 < s.ready then
      some { s with ready := s.ready - 1, thread := .runTask }
    else none
  | .runTask => if s.thread = .runTask then some s.runTask else none
  | .requeue queues => if s.thread = .requeue then some (s.requeue queues) else none
  | .dequeueFails =>
    if s.thread = .waiting then some { s with abort := true, thread := .stopped } else none
  | .destroy dequeues queues =>
    if s.phase = .idle ∧ s.destroyed = false then
      { s with abort := true, destroyed := true }.sendEOS dequeues queues
    else none

end JetsonEncoder

/-- An encoder that was started with `prepared` capture buffers queued, and all orders of
    steps. -/
def jetsonEncoder (isDmaSrc : Bool) (prepared : Fin (bufferNum + 1)) :
    Machine JetsonEncoder EncoderEvent where
  init := { spare := prepared }
  step := JetsonEncoder.step isDmaSrc

/-! ### What a step does -/

/-- The buffer that a call goes on with, and the encoder then. -/
inductive Takes (s : JetsonEncoder) : ℕ → JetsonEncoder → Prop
  | next (hroom : s.numQueued ≠ bufferNum) : Takes s s.numQueued s
  | dequeued {index : ℕ} {rest : List ℕ} (hfull : s.numQueued = bufferNum)
      (hconsumed : s.consumed = index :: rest) : Takes s index { s with consumed := rest }

/-- The steps, by what they come to. -/
inductive EncoderStep (isDmaSrc : Bool) (s : JetsonEncoder) :
    EncoderEvent → JetsonEncoder → Prop
  | rejected {inError dequeues queues : Bool} (hwhy : inError = true ∨ s.abort = true ∨
      s.numQueued = bufferNum ∧ dequeues = false) :
      EncoderStep isDmaSrc s (.emplaceBuffer inError dequeues queues) s
  | emplaced {dequeues queues : Bool} {index : ℕ} {t : JetsonEncoder} (hphase : s.phase = .idle)
      (hdestroyed : s.destroyed = false) (habort : s.abort = false) (htakes : Takes s index t)
      (hdequeues : s.numQueued = bufferNum → dequeues = true) :
      EncoderStep isDmaSrc s (.emplaceBuffer false dequeues queues)
        ((t.fill isDmaSrc index).queueFrame index queues)
  | pushed (hphase : s.phase = .pushTask) : EncoderStep isDmaSrc s .pushTask s.pushTask
  | encoded {index : ℕ} {rest : List ℕ} (hpending : s.pending = index :: rest)
      (hspare : 0 < s.spare) :
      EncoderStep isDmaSrc s .encode
        { s with
          pending := rest, consumed := s.consumed ++ [index], spare := s.spare - 1
          ready := s.ready + 1 }
  | took (hthread : s.thread = .waiting) (hready : 0 < s.ready) :
      EncoderStep isDmaSrc s .takeFrame { s with ready := s.ready - 1, thread := .runTask }
  | ran (hthread : s.thread = .runTask) : EncoderStep isDmaSrc s .runTask s.runTask
  | requeued {queues : Bool} (hthread : s.thread = .requeue) :
      EncoderStep isDmaSrc s (.requeue queues) (s.requeue queues)
  | failed (hthread : s.thread = .waiting) :
      EncoderStep isDmaSrc s .dequeueFails { s with abort := true, thread := .stopped }
  | destroyed {dequeues queues : Bool} {index : ℕ} {t : JetsonEncoder} (hphase : s.phase = .idle)
      (hdestroyed : s.destroyed = false)
      (htakes : Takes s index t ∧ s.numQueued = bufferNum ∧ dequeues = true ∨
        index = 0 ∧ t = s ∧ ¬ (s.numQueued = bufferNum ∧ dequeues = true)) :
      EncoderStep isDmaSrc s (.destroy dequeues queues)
        ({ t with abort := true, destroyed := true }.queueEndOfStream index queues)

theorem dqBuffer_eq_some {s t : JetsonEncoder} {index : ℕ} :
    s.dqBuffer = some (index, t) ↔
      ∃ rest, s.consumed = index :: rest ∧ t = { s with consumed := rest } := by
  unfold JetsonEncoder.dqBuffer
  split
  case h_1 hnone => simp [hnone]
  case h_2 i rest hsome =>
    rw [Option.some.injEq, Prod.mk.injEq]
    constructor
    · rintro ⟨rfl, rfl⟩
      exact ⟨rest, hsome, rfl⟩
    · rintro ⟨rest', hrest, rfl⟩
      obtain ⟨rfl, rfl⟩ := List.cons.inj (hsome.symm.trans hrest)
      exact ⟨rfl, rfl⟩

theorem encoderStep_of_step {isDmaSrc : Bool} {s s' : JetsonEncoder} {a : EncoderEvent}
    (h : s.step isDmaSrc a = some s') : EncoderStep isDmaSrc s a s' := by
  cases a with
  | emplaceBuffer inError dequeues queues =>
    rw [JetsonEncoder.step, Option.ite_none_right_eq_some] at h
    obtain ⟨⟨hphase, hdestroyed⟩, h⟩ := h
    unfold JetsonEncoder.emplaceBuffer at h
    split at h
    case isTrue hgo =>
      obtain rfl := Option.some.inj h
      exact .rejected ((Bool.or_eq_true _ _).mp hgo |>.imp_right .inl)
    case isFalse hgo =>
      rw [Bool.not_eq_true, Bool.or_eq_false_iff] at hgo
      obtain ⟨rfl, habort⟩ := hgo
      split at h
      case isTrue hfull =>
        split at h
        case isTrue hdequeues =>
          obtain ⟨⟨index, t⟩, hdq, rfl⟩ := Option.map_eq_some_iff.mp h
          obtain ⟨rest, hconsumed, rfl⟩ := dqBuffer_eq_some.mp hdq
          exact .emplaced hphase hdestroyed habort (.dequeued hfull hconsumed) fun _ => hdequeues
        case isFalse hdequeues =>
          obtain rfl := Option.some.inj h
          exact .rejected (.inr (.inr ⟨hfull, Bool.eq_false_of_not_eq_true hdequeues⟩))
      case isFalse hroom =>
        obtain rfl := Option.some.inj h
        exact .emplaced hphase hdestroyed habort (.next hroom) fun hfull => absurd hfull hroom
  | pushTask =>
    rw [JetsonEncoder.step, Option.ite_none_right_eq_some] at h
    obtain rfl := Option.some.inj h.2
    exact .pushed h.1
  | encode =>
    rw [JetsonEncoder.step] at h
    split at h
    · cases h
    case h_2 index rest hpending =>
      rw [Option.ite_none_right_eq_some] at h
      obtain rfl := Option.some.inj h.2
      exact .encoded hpending h.1
  | takeFrame =>
    rw [JetsonEncoder.step, Option.ite_none_right_eq_some] at h
    obtain rfl := Option.some.inj h.2
    exact .took h.1.1 h.1.2
  | runTask =>
    rw [JetsonEncoder.step, Option.ite_none_right_eq_some] at h
    obtain rfl := Option.some.inj h.2
    exact .ran h.1
  | requeue queues =>
    rw [JetsonEncoder.step, Option.ite_none_right_eq_some] at h
    obtain rfl := Option.some.inj h.2
    exact .requeued h.1
  | dequeueFails =>
    rw [JetsonEncoder.step, Option.ite_none_right_eq_some] at h
    obtain rfl := Option.some.inj h.2
    exact .failed h.1
  | destroy dequeues queues =>
    rw [JetsonEncoder.step, Option.ite_none_right_eq_some] at h
    obtain ⟨⟨hphase, hdestroyed⟩, h⟩ := h
    unfold JetsonEncoder.sendEOS at h
    split at h
    case isTrue hfull =>
      obtain ⟨⟨index, t⟩, hdq, rfl⟩ := Option.map_eq_some_iff.mp h
      obtain ⟨rest, hconsumed, rfl⟩ := dqBuffer_eq_some.mp hdq
      exact .destroyed hphase hdestroyed (.inl ⟨.dequeued hfull.1 hconsumed, hfull⟩)
    case isFalse hnot =>
      obtain rfl := Option.some.inj h
      exact .destroyed hphase hdestroyed (.inr ⟨rfl, rfl, hnot⟩)

section Fields

variable {s t : JetsonEncoder} {isDmaSrc : Bool} {index : ℕ}

/-- Nothing but the history is changed. -/
theorem fill_shape (isDmaSrc : Bool) (s : JetsonEncoder) (index : ℕ) :
    ∃ filled, s.fill isDmaSrc index = { s with filled := filled } := by
  unfold JetsonEncoder.fill
  split
  · exact ⟨s.filled, rfl⟩
  · exact ⟨_, rfl⟩

@[simp] theorem fill_queued : (s.fill isDmaSrc index).queued = s.queued := by
  unfold JetsonEncoder.fill
  split <;> rfl

@[simp] theorem fill_inputs : (s.fill isDmaSrc index).inputs = s.inputs := by
  unfold JetsonEncoder.fill
  split <;> rfl

@[simp] theorem fill_destroyed : (s.fill isDmaSrc index).destroyed = s.destroyed := by
  unfold JetsonEncoder.fill
  split <;> rfl

/-- What was filled, with the buffer of this call. -/
theorem fill_filled : ∃ new, (s.fill isDmaSrc index).filled = new ++ s.filled ∧
    ∀ x ∈ new, x.owned = decide (index ∈ s.queued) := by
  unfold JetsonEncoder.fill
  split
  · exact ⟨[], rfl, nofun⟩
  · exact ⟨[_], rfl, fun x hx => by rw [List.mem_singleton.mp hx]⟩

/-- `qBuffer` with a frame: it is taken, or nothing happens. -/
theorem queueFrame_cases (s : JetsonEncoder) (index : ℕ) (queues : Bool) :
    queues = true ∧ index ∉ s.queued ∧ s.queueFrame index queues =
        { s with pending := s.pending ++ [index], inputs := s.inputs + 1, phase := .pushTask } ∨
      (queues = true → index ∈ s.queued) ∧ s.queueFrame index queues = s := by
  unfold JetsonEncoder.queueFrame
  split
  case isTrue h => exact .inl ⟨h.1, h.2, rfl⟩
  case isFalse h => exact .inr ⟨fun hq => not_not.mp fun hnot => h ⟨hq, hnot⟩, rfl⟩

/-- `qBuffer` with an end of stream: it is taken, or nothing happens. -/
theorem queueEndOfStream_cases (s : JetsonEncoder) (index : ℕ) (queues : Bool) :
    queues = true ∧ index ∉ s.queued ∧ s.queueEndOfStream index queues =
        { s with pending := s.pending ++ [index], endOfStream := true } ∨
      (queues = true → index ∈ s.queued) ∧ s.queueEndOfStream index queues = s := by
  unfold JetsonEncoder.queueEndOfStream
  split
  case isTrue h => exact .inl ⟨h.1, h.2, rfl⟩
  case isFalse h => exact .inr ⟨fun hq => not_not.mp fun hnot => h ⟨hq, hnot⟩, rfl⟩

theorem queueFrame_filled (s : JetsonEncoder) (index : ℕ) (queues : Bool) :
    (s.queueFrame index queues).filled = s.filled := by
  rcases queueFrame_cases s index queues with ⟨-, -, h⟩ | ⟨-, h⟩
  · rw [h]
  · rw [h]

theorem queueEndOfStream_destroyed (s : JetsonEncoder) (index : ℕ) (queues : Bool) :
    (s.queueEndOfStream index queues).destroyed = s.destroyed := by
  rcases queueEndOfStream_cases s index queues with ⟨-, -, h⟩ | ⟨-, h⟩
  · rw [h]
  · rw [h]

theorem queueEndOfStream_filled (s : JetsonEncoder) (index : ℕ) (queues : Bool) :
    (s.queueEndOfStream index queues).filled = s.filled := by
  rcases queueEndOfStream_cases s index queues with ⟨-, -, h⟩ | ⟨-, h⟩
  · rw [h]
  · rw [h]

theorem queueEndOfStream_inputs (s : JetsonEncoder) (index : ℕ) (queues : Bool) :
    (s.queueEndOfStream index queues).inputs = s.inputs := by
  rcases queueEndOfStream_cases s index queues with ⟨-, -, h⟩ | ⟨-, h⟩
  · rw [h]
  · rw [h]

/-- A buffer that is queued comes in front of those that the driver is done with. -/
theorem queued_append (pending consumed : List ℕ) (index : ℕ) :
    (pending ++ [index] ++ consumed).Perm (index :: (pending ++ consumed)) := by
  rw [List.append_assoc]
  exact List.perm_middle

/-- What is taken is not with the driver, or is the number of those that are. -/
theorem Takes.perm {index : ℕ} (h : Takes s index t) (hfull : s.numQueued = bufferNum) :
    s.queued.Perm (index :: t.queued) := by
  cases h with
  | next hroom => exact absurd hfull hroom
  | dequeued _ hconsumed =>
    rw [JetsonEncoder.queued, hconsumed]
    exact List.perm_middle

/-- Nothing but the buffers that the driver is done with is changed. -/
theorem Takes.shape (h : Takes s index t) : ∃ consumed, t = { s with consumed := consumed } := by
  cases h with
  | next => exact ⟨s.consumed, rfl⟩
  | @dequeued _ rest => exact ⟨rest, rfl⟩

theorem Takes.destroyed (h : Takes s index t) : t.destroyed = s.destroyed := by
  cases h with
  | next | dequeued => rfl

theorem Takes.filled (h : Takes s index t) : t.filled = s.filled := by
  cases h with
  | next | dequeued => rfl

theorem Takes.phase (h : Takes s index t) : t.phase = s.phase := by
  cases h with
  | next | dequeued => rfl

theorem Takes.endOfStream (h : Takes s index t) : t.endOfStream = s.endOfStream := by
  cases h with
  | next | dequeued => rfl

theorem Takes.inputs (h : Takes s index t) : t.inputs = s.inputs := by
  cases h with
  | next | dequeued => rfl

theorem Takes.head (h : Takes s index t) (hfull : s.numQueued = bufferNum) :
    s.consumed.head? = some index := by
  cases h with
  | next hroom => exact absurd hfull hroom
  | dequeued _ hconsumed => rw [hconsumed, List.head?_cons]

end Fields

/-! ### The output buffers -/

/-- The buffer that the next call chooses is not one that the driver has. -/
def NextFree (s : JetsonEncoder) : Prop :=
  s.destroyed = false → s.numQueued = bufferNum ∨ s.numQueued ∉ s.queued

/-- What is asked for: no buffer was filled while the driver had it, nor will the next call choose
    one that it has. -/
def BuffersFree (s : JetsonEncoder) : Prop :=
  NextFree s ∧ ∀ x ∈ s.filled, x.owned = false

/-- The condition: if a call gets a buffer back and cannot queue it again, it is the last one. -/
def RequeuesOrLast (s : JetsonEncoder) : EncoderEvent → Prop
  | .emplaceBuffer inError dequeues queues =>
    inError = false → s.abort = false → s.numQueued = bufferNum → dequeues = true →
      queues = false → s.consumed.head? = some (bufferNum - 1)
  | _ => True

instance (s : JetsonEncoder) : ∀ a, Decidable (RequeuesOrLast s a)
  | .emplaceBuffer _ _ _ => inferInstanceAs (Decidable (_ → _ → _ → _ → _ → _))
  | .pushTask | .encode | .takeFrame | .runTask | .requeue _ | .dequeueFails | .destroy _ _ =>
    isTrue trivial

/-- **The invariant.** The driver has the first buffers. -/
def FirstBuffers (s : JetsonEncoder) : Prop :=
  s.destroyed = false → s.numQueued ≤ bufferNum ∧ s.queued.Perm (List.range s.numQueued)

section Buffers

variable {isDmaSrc : Bool} {s s' : JetsonEncoder}

/-- Only the call of `EmplaceBuffer`, `encode` and the destructor change the output buffers. -/
theorem buffers_same {a : EncoderEvent} (h : EncoderStep isDmaSrc s a s')
    (hemplace : ∀ inError dequeues queues, a ≠ .emplaceBuffer inError dequeues queues)
    (hencode : a ≠ .encode) (hdestroy : ∀ dequeues queues, a ≠ .destroy dequeues queues) :
    s'.queued = s.queued ∧ s'.destroyed = s.destroyed ∧ s'.filled = s.filled ∧
      s'.inputs = s.inputs := by
  cases h with
  | rejected | emplaced => exact absurd rfl (hemplace _ _ _)
  | encoded => exact absurd rfl hencode
  | destroyed => exact absurd rfl (hdestroy _ _)
  | pushed | took | ran | failed => exact ⟨rfl, rfl, rfl, rfl⟩
  | requeued =>
    unfold JetsonEncoder.requeue
    split
    · exact ⟨rfl, rfl, rfl, rfl⟩
    · exact ⟨rfl, rfl, rfl, rfl⟩

/-- An encoded frame leaves its buffer with the driver. -/
theorem encode_perm {index : ℕ} {rest : List ℕ} (hpending : s.pending = index :: rest) :
    (rest ++ (s.consumed ++ [index])).Perm s.queued := by
  rw [JetsonEncoder.queued, hpending, ← List.append_assoc]
  exact List.perm_append_singleton index _

/-- The invariant goes by which buffers the driver has, not by their order. -/
theorem FirstBuffers.perm (h : FirstBuffers s) (hperm : s'.queued.Perm s.queued)
    (hdestroyed : s'.destroyed = s.destroyed) : FirstBuffers s' := by
  intro hlive
  have hlength : s'.numQueued = s.numQueued := hperm.length_eq
  rw [hlength]
  obtain ⟨hle, hrange⟩ := h (hdestroyed ▸ hlive)
  exact ⟨hle, hperm.trans hrange⟩

theorem FirstBuffers.fill {index : ℕ} (h : FirstBuffers s) :
    FirstBuffers (s.fill isDmaSrc index) :=
  h.perm (List.Perm.of_eq fill_queued) fill_destroyed

/-- The first buffers leave the next one free. -/
theorem FirstBuffers.nextFree (h : FirstBuffers s) : NextFree s := by
  intro hlive
  obtain ⟨-, hrange⟩ := h hlive
  exact .inr fun hmem => absurd (List.mem_range.mp (hrange.mem_iff.mp hmem)) (lt_irrefl _)

/-- A buffer that was taken is not with the driver. -/
theorem Takes.notMem {t : JetsonEncoder} {index : ℕ} (h : FirstBuffers s)
    (hlive : s.destroyed = false) (htakes : Takes s index t) : index ∉ t.queued := by
  obtain ⟨-, hrange⟩ := h hlive
  cases htakes with
  | next hroom =>
    exact fun hmem => absurd (List.mem_range.mp (hrange.mem_iff.mp hmem)) (lt_irrefl _)
  | dequeued hfull hconsumed =>
    have hnodup := hrange.nodup_iff.mpr List.nodup_range
    rw [(Takes.dequeued hfull hconsumed).perm hfull |>.nodup_iff] at hnodup
    exact (List.nodup_cons.mp hnodup).1

/-- A call whose buffer is queued: the driver has one buffer more than before, or as many. -/
theorem FirstBuffers.queueFrame {t : JetsonEncoder} {index : ℕ} (h : FirstBuffers s)
    (hlive : s.destroyed = false) (htakes : Takes s index t)
    (hperm : s'.queued.Perm (index :: t.queued)) : FirstBuffers s' := by
  obtain ⟨hle, hrange⟩ := h hlive
  intro _
  have hlength : s'.numQueued = t.numQueued + 1 := hperm.length_eq
  cases htakes with
  | next hroom =>
    refine ⟨hlength.trans_le (Nat.lt_of_le_of_ne hle hroom), hperm.trans ?_⟩
    rw [hlength, List.range_succ]
    exact (hrange.cons _).trans (List.perm_append_singleton _ _).symm
  | dequeued hfull hconsumed =>
    have hsame := hperm.trans ((Takes.dequeued hfull hconsumed).perm hfull).symm
    have hcount : s'.numQueued = s.numQueued := hsame.length_eq
    rw [hcount]
    exact ⟨hle, hsame.trans hrange⟩

/-- A call that cannot queue the buffer it got back: the next one is free if it is the last. -/
theorem nextFree_of_lost {t : JetsonEncoder} {index : ℕ} (h : FirstBuffers s)
    (hlive : s.destroyed = false) (htakes : Takes s index t) (hfull : s.numQueued = bufferNum)
    (hperm : s'.queued = t.queued) (hdestroyed : s'.destroyed = false) :
    NextFree s' ↔ index = bufferNum - 1 := by
  obtain ⟨-, hrange⟩ := h hlive
  have hcons := htakes.perm hfull
  have hlength : s'.numQueued + 1 = bufferNum := by
    rw [JetsonEncoder.numQueued, hperm, ← hfull]
    exact hcons.length_eq.symm
  have hlast : s'.numQueued = bufferNum - 1 := by omega
  -- the driver has all others
  have hmem : ∀ i, i = index ∨ i ∈ t.queued ↔ i < bufferNum := by
    intro i
    rw [← List.mem_cons, ← hcons.mem_iff, hrange.mem_iff, List.mem_range, hfull]
  have hnot := htakes.notMem h hlive
  constructor
  · intro hnext
    rcases hnext hdestroyed with hall | hfree
    · omega
    · rw [hlast, hperm] at hfree
      exact ((hmem (bufferNum - 1)).mpr (by decide)).resolve_right hfree |>.symm
  · rintro rfl hlive'
    rw [hlast, hperm]
    exact .inr hnot

/-- If the last buffer is lost, the driver has the first ones. -/
theorem FirstBuffers.lost {t : JetsonEncoder} {index : ℕ} (h : FirstBuffers s)
    (hlive : s.destroyed = false) (htakes : Takes s index t) (hfull : s.numQueued = bufferNum)
    (hlast : index = bufferNum - 1) : FirstBuffers t := by
  obtain ⟨-, hrange⟩ := h hlive
  intro _
  have hcons := htakes.perm hfull
  have hlength : s.numQueued = t.numQueued + 1 := hcons.length_eq
  have hcount : t.numQueued = bufferNum - 1 := by omega
  refine ⟨by omega, (List.perm_cons index).mp (hcons.symm.trans (hrange.trans ?_))⟩
  rw [hlength, List.range_succ, hlast, ← hcount]
  exact List.perm_append_singleton _ _

/-- What is filled in a call that goes on with a free buffer. -/
theorem filled_free {t : JetsonEncoder} {index : ℕ} {queues : Bool}
    (hfree : ∀ x ∈ s.filled, x.owned = false) (htakes : Takes s index t)
    (hnot : index ∉ t.queued) :
    ∀ x ∈ ((t.fill isDmaSrc index).queueFrame index queues).filled, x.owned = false := by
  intro x hx
  rw [queueFrame_filled] at hx
  obtain ⟨new, hnew, howned⟩ := @fill_filled t isDmaSrc index
  rw [hnew, List.mem_append] at hx
  rcases hx with hx | hx
  · rw [howned x hx]
    exact decide_eq_false hnot
  · cases htakes with
    | next | dequeued => exact hfree x hx

/-- **A step.** From the first buffers, a free buffer is filled, if any; the next one stays free
    exactly if the condition is met, and then the driver has the first buffers again. -/
theorem buffersFree_step {a : EncoderEvent} (h : FirstBuffers s)
    (hfree : ∀ x ∈ s.filled, x.owned = false) (hs : EncoderStep isDmaSrc s a s') :
    (∀ x ∈ s'.filled, x.owned = false) ∧ (NextFree s' ↔ RequeuesOrLast s a) ∧
      (RequeuesOrLast s a → FirstBuffers s') := by
  -- it is enough that the driver has the first buffers again
  have keeps (hmet : RequeuesOrLast s a) (hfirst : FirstBuffers s') :
      (NextFree s' ↔ RequeuesOrLast s a) ∧ (RequeuesOrLast s a → FirstBuffers s') :=
    ⟨iff_of_true hfirst.nextFree hmet, fun _ => hfirst⟩
  have hs' := hs
  cases hs with
  | rejected hwhy =>
    refine ⟨hfree, keeps (fun herror habort hfull hdequeues => ?_) h⟩
    rcases hwhy with hyes | hyes | ⟨-, hnot⟩
    · exact absurd (hyes.symm.trans herror) (by decide)
    · exact absurd (hyes.symm.trans habort) (by decide)
    · exact absurd (hdequeues.symm.trans hnot) (by decide)
  | @emplaced dequeues queues index t hphase hlive habort htakes hdequeues =>
    have hnot := htakes.notMem h hlive
    refine ⟨@filled_free isDmaSrc s t index queues hfree htakes hnot, ?_⟩
    rcases queueFrame_cases (t.fill isDmaSrc index) index queues with ⟨rfl, -, heq⟩ | ⟨hq, heq⟩
    · refine keeps (fun _ _ _ _ hno => absurd hno (by decide)) ?_
      rw [heq]
      refine h.queueFrame hlive htakes ((queued_append _ _ index).trans ?_)
      exact (List.Perm.of_eq fill_queued).cons index
    · -- `qBuffer` fails
      have hqueues : queues = false := by
        by_contra hyes
        exact hnot (fill_queued ▸ hq (Bool.eq_true_of_not_eq_false hyes))
      rw [heq] at keeps ⊢
      by_cases hfull : s.numQueued = bufferNum
      · have hmet : RequeuesOrLast s (.emplaceBuffer false dequeues queues) ↔
            index = bufferNum - 1 := by
          rw [← Option.some_inj, ← htakes.head hfull]
          exact ⟨fun hmet => hmet rfl habort hfull (hdequeues hfull) hqueues,
            fun hhead _ _ _ _ _ => hhead⟩
        rw [hmet]
        exact ⟨nextFree_of_lost h hlive htakes hfull fill_queued
          (fill_destroyed.trans (htakes.destroyed ▸ hlive)),
          fun hlast => (h.lost hlive htakes hfull hlast).fill⟩
      · refine keeps (fun _ _ hall => absurd hall hfull) ?_
        cases htakes with
        | next => exact h.fill
        | dequeued hall => exact absurd hall hfull
  | pushed | took | ran | requeued | failed =>
    obtain ⟨hqueued, hdestroyed, hfilled, -⟩ :=
      buffers_same hs' (by rintro _ _ _ ⟨⟩) (by rintro ⟨⟩) (by rintro _ _ ⟨⟩)
    exact ⟨hfilled ▸ hfree, keeps trivial (h.perm (List.Perm.of_eq hqueued) hdestroyed)⟩
  | encoded hpending => exact ⟨hfree, keeps trivial (h.perm (encode_perm hpending) rfl)⟩
  | @destroyed dequeues queues index t hphase hlive htakes =>
    have hfilled : t.filled = s.filled := by
      rcases htakes with ⟨htakes, -⟩ | ⟨-, rfl, -⟩
      · exact htakes.filled
      · rfl
    refine ⟨?_, keeps trivial fun hlive' => ?_⟩
    · rw [queueEndOfStream_filled]
      exact hfilled ▸ hfree
    · rw [queueEndOfStream_destroyed] at hlive'
      cases hlive'

end Buffers

/-! ### Frames and buffers are counted -/

/-- **What holds in every run.** The driver has each output buffer once; an item that it took
    waits, is encoded, is in hand or was captured, the end of stream last; and there are not
    more capture buffers than there were. -/
structure Counted (s : JetsonEncoder) : Prop where
  nodup : s.queued.Nodup
  lt : ∀ i ∈ s.queued, i < bufferNum
  items : s.pending.length + s.ready + s.thread.unseen + s.captured =
    s.inputs + s.endOfStream.toNat
  capture : s.ready + s.spare + s.thread.holds ≤ bufferNum
  last : s.endOfStream = true → s.destroyed = true
  ended : s.destroyed = true → s.phase = .idle
  busy : s.phase = .pushTask → 0 < s.inputs

namespace Counted

variable {isDmaSrc : Bool} {s s' t : JetsonEncoder} {index : ℕ}

theorem numQueued_le (h : Counted s) : s.numQueued ≤ bufferNum := by
  have hsub : s.queued.Subperm (List.range bufferNum) :=
    List.subperm_of_subset h.nodup fun i hi => List.mem_range.mpr (h.lt i hi)
  exact hsub.length_le.trans_eq List.length_range

/-- What the output buffers and the counters come to, whatever else changes. -/
theorem congr (h : Counted s) (hqueued : s'.queued = s.queued)
    (hpending : s'.pending = s.pending) (hready : s'.ready = s.ready)
    (hspare : s'.spare = s.spare) (hthread : s'.thread = s.thread)
    (hcaptured : s'.captured = s.captured) (hinputs : s'.inputs = s.inputs)
    (hend : s'.endOfStream = s.endOfStream) (hdestroyed : s'.destroyed = s.destroyed)
    (hphase : s'.phase = s.phase ∨ s'.phase = .idle) : Counted s' where
  nodup := hqueued ▸ h.nodup
  lt := hqueued ▸ h.lt
  items := by rw [hpending, hready, hthread, hcaptured, hinputs, hend]; exact h.items
  capture := by rw [hready, hspare, hthread]; exact h.capture
  last := by rw [hend, hdestroyed]; exact h.last
  ended := by
    intro hd
    rcases hphase with hp | hp
    · exact hp.trans (h.ended (hdestroyed ▸ hd))
    · exact hp
  busy := by
    intro hbusy
    rcases hphase with hp | hp
    · exact hinputs ▸ h.busy (hp ▸ hbusy)
    · exact absurd (hp.symm.trans hbusy) (by decide)

/-- A buffer that was taken can be filled. -/
theorem takes (h : Counted s) (htakes : Takes s index t) : Counted t ∧ index < bufferNum := by
  cases htakes with
  | next hroom => exact ⟨h, Nat.lt_of_le_of_ne h.numQueued_le hroom⟩
  | @dequeued _ rest hfull hconsumed =>
    have hperm := (Takes.dequeued hfull hconsumed).perm hfull
    have hnodup := List.nodup_cons.mp (hperm.nodup_iff.mp h.nodup)
    have hmem : ∀ i, i = index ∨ i ∈ JetsonEncoder.queued { s with consumed := rest } →
        i < bufferNum := fun i hi => h.lt i (hperm.mem_iff.mpr (List.mem_cons.mpr hi))
    exact ⟨⟨hnodup.2, fun i hi => hmem i (.inr hi), h.items, h.capture, h.last, h.ended, h.busy⟩,
      hmem index (.inl rfl)⟩

/-- A buffer that is queued is one more. -/
theorem queued (h : Counted s) (hnot : index ∉ s.queued) (hlt : index < bufferNum)
    (hqueued : s'.queued = s.pending ++ [index] ++ s.consumed) :
    s'.queued.Nodup ∧ ∀ i ∈ s'.queued, i < bufferNum := by
  have hperm : s'.queued.Perm (index :: s.queued) := hqueued ▸ queued_append _ _ index
  refine ⟨hperm.nodup_iff.mpr (List.nodup_cons.mpr ⟨hnot, h.nodup⟩), fun i hi => ?_⟩
  rcases List.mem_cons.mp (hperm.mem_iff.mp hi) with rfl | hi
  · exact hlt
  · exact h.lt i hi

theorem queueFrame (h : Counted s) (hlive : s.destroyed = false)
    (hlt : index < bufferNum) (queues : Bool) : Counted (s.queueFrame index queues) := by
  rcases queueFrame_cases s index queues with ⟨-, hnot, heq⟩ | ⟨-, heq⟩
  · rw [heq]
    obtain ⟨hnodup, hbound⟩ := @Counted.queued s
      { s with pending := s.pending ++ [index], inputs := s.inputs + 1, phase := .pushTask }
      index h hnot hlt rfl
    refine ⟨hnodup, hbound, ?_, h.capture, h.last, ?_, fun _ => Nat.succ_pos _⟩
    · have hitems := h.items
      show (s.pending ++ [index]).length + s.ready + s.thread.unseen + s.captured =
        s.inputs + 1 + s.endOfStream.toNat
      rw [List.length_append, List.length_singleton]
      omega
    · intro hd
      exact absurd (hd.symm.trans hlive) (by decide)
  · rw [heq]
    exact h

theorem queueEndOfStream (h : Counted s) (hphase : s.phase = .idle)
    (hend : s.endOfStream = false) (hlt : index < bufferNum) (queues : Bool) :
    Counted ({ s with abort := true, destroyed := true }.queueEndOfStream index queues) := by
  have h' : Counted { s with abort := true, destroyed := true } :=
    ⟨h.nodup, h.lt, h.items, h.capture, fun _ => rfl, fun _ => hphase, h.busy⟩
  rcases queueEndOfStream_cases { s with abort := true, destroyed := true } index queues with
    ⟨-, hnot, heq⟩ | ⟨-, heq⟩
  · rw [heq]
    obtain ⟨hnodup, hbound⟩ := @Counted.queued s
      { s with
        pending := s.pending ++ [index], abort := true, destroyed := true, endOfStream := true }
      index h hnot hlt rfl
    refine ⟨hnodup, hbound, ?_, h.capture, fun _ => rfl, fun _ => hphase, h.busy⟩
    have hitems := h.items
    rw [hend] at hitems
    show (s.pending ++ [index]).length + s.ready + s.thread.unseen + s.captured =
      s.inputs + true.toNat
    rw [List.length_append, List.length_singleton]
    have htrue : true.toNat = 1 := rfl
    have hfalse : false.toNat = 0 := rfl
    omega
  · rw [heq]
    exact h'

theorem requeue (h : Counted s) (hthread : s.thread = .requeue) (queues : Bool) :
    Counted (s.requeue queues) := by
  have hitems := h.items
  have hcapture := h.capture
  rw [hthread] at hitems hcapture
  unfold JetsonEncoder.requeue
  split
  · exact ⟨h.nodup, h.lt, hitems, (Nat.le_add_right _ _).trans hcapture, h.last, h.ended, h.busy⟩
  · refine ⟨h.nodup, h.lt, ?_, ?_, h.last, h.ended, h.busy⟩
    · dsimp only
      split
      · exact hitems
      · exact hitems
    · have hholds : CapturePhase.holds .requeue = 1 := rfl
      dsimp only
      split
      · show s.ready + (s.spare + 1) + 0 ≤ bufferNum
        omega
      · show s.ready + (s.spare + 1) + 0 ≤ bufferNum
        omega

theorem step {a : EncoderEvent} (h : Counted s) (hs : EncoderStep isDmaSrc s a s') :
    Counted s' := by
  cases hs with
  | rejected => exact h
  | @emplaced dequeues queues index t hphase hlive _ htakes _ =>
    obtain ⟨ht, hlt⟩ := h.takes htakes
    have hfill : Counted (t.fill isDmaSrc index) := by
      unfold JetsonEncoder.fill
      split
      · exact ht
      · exact ht.congr rfl rfl rfl rfl rfl rfl rfl rfl rfl (.inl rfl)
    exact hfill.queueFrame (fill_destroyed.trans (htakes.destroyed.trans hlive)) hlt queues
  | pushed => exact h.congr rfl rfl rfl rfl rfl rfl rfl rfl rfl (.inr rfl)
  | @encoded index rest hpending hspare =>
    have hperm := encode_perm hpending
    have hitems := h.items
    have hcapture := h.capture
    rw [hpending, List.length_cons] at hitems
    refine ⟨hperm.nodup_iff.mpr h.nodup, fun i hi => h.lt i (hperm.mem_iff.mp hi), ?_, ?_,
      h.last, h.ended, h.busy⟩
    · dsimp only
      omega
    · dsimp only
      omega
  | took hthread hready =>
    have hitems := h.items
    have hcapture := h.capture
    rw [hthread] at hitems hcapture
    refine ⟨h.nodup, h.lt, ?_, ?_, h.last, h.ended, h.busy⟩
    · show s.pending.length + (s.ready - 1) + 1 + s.captured = s.inputs + s.endOfStream.toNat
      have hunseen : CapturePhase.unseen .waiting = 0 := rfl
      omega
    · show s.ready - 1 + s.spare + 1 ≤ bufferNum
      omega
  | ran hthread =>
    have hitems := h.items
    have hcapture := h.capture
    rw [hthread] at hitems hcapture
    refine ⟨h.nodup, h.lt, ?_, hcapture, h.last, h.ended, h.busy⟩
    show s.pending.length + s.ready + 0 + (s.captured + 1) = s.inputs + s.endOfStream.toNat
    have hunseen : CapturePhase.unseen .runTask = 1 := rfl
    omega
  | requeued hthread => exact h.requeue hthread _
  | failed hthread =>
    have hitems := h.items
    have hcapture := h.capture
    rw [hthread] at hitems hcapture
    exact ⟨h.nodup, h.lt, hitems, hcapture, h.last, h.ended, h.busy⟩
  | @destroyed dequeues queues index t hphase hlive htakes =>
    have hend : s.endOfStream = false :=
      Bool.eq_false_of_not_eq_true fun hend => absurd ((h.last hend).symm.trans hlive) (by decide)
    rcases htakes with ⟨htakes, -⟩ | ⟨rfl, rfl, -⟩
    · obtain ⟨ht, hlt⟩ := h.takes htakes
      exact ht.queueEndOfStream (htakes.phase.trans hphase) (htakes.endOfStream.trans hend) hlt _
    · exact h.queueEndOfStream hphase hend (by decide) _

end Counted

theorem counted_init (isDmaSrc : Bool) (prepared : Fin (bufferNum + 1)) :
    Counted (jetsonEncoder isDmaSrc prepared).init where
  nodup := List.nodup_nil
  lt := nofun
  items := rfl
  capture := (Nat.zero_add _).trans_le (Nat.le_of_lt_succ prepared.isLt)
  last := nofun
  ended := nofun
  busy := nofun

/-! ### Without a free buffer -/

/-- Since `s₀`, no frame was taken, and only buffers of the driver were filled; and so it stays. -/
structure Stuck (s₀ s : JetsonEncoder) : Prop where
  inputs : s.inputs = s₀.inputs
  filled : ∃ new, s.filled = new ++ s₀.filled ∧ ∀ x ∈ new, x.owned = true
  still : s.destroyed = true ∨ s.numQueued ≠ bufferNum ∧ s.numQueued ∈ s.queued

section Stuck

variable {isDmaSrc : Bool} {s₀ s s' : JetsonEncoder}

theorem Stuck.perm (h : Stuck s₀ s) (hperm : s'.queued.Perm s.queued)
    (hdestroyed : s'.destroyed = s.destroyed) (hfilled : s'.filled = s.filled)
    (hinputs : s'.inputs = s.inputs) : Stuck s₀ s' := by
  have hlength : s'.numQueued = s.numQueued := hperm.length_eq
  refine ⟨hinputs.trans h.inputs, hfilled ▸ h.filled, ?_⟩
  rw [hdestroyed, hlength]
  exact h.still.imp_right fun hstill => ⟨hstill.1, hperm.mem_iff.mpr hstill.2⟩

theorem Stuck.step {a : EncoderEvent} (h : Stuck s₀ s) (hs : EncoderStep isDmaSrc s a s') :
    Stuck s₀ s' := by
  have hs' := hs
  cases hs with
  | rejected => exact h
  | @emplaced dequeues queues index t hphase hlive _ htakes _ =>
    obtain ⟨hroom, hmem⟩ := h.still.resolve_left (by rw [hlive]; decide)
    cases htakes with
    | dequeued hfull => exact absurd hfull hroom
    | next =>
      -- the driver rejects the buffer that it has
      rcases queueFrame_cases (s.fill isDmaSrc s.numQueued) s.numQueued queues with
        ⟨-, hnot, -⟩ | ⟨-, heq⟩
      · exact absurd hmem (fill_queued ▸ hnot)
      rw [heq]
      obtain ⟨new, hnew, howned⟩ := @fill_filled s isDmaSrc s.numQueued
      obtain ⟨old, hold, hall⟩ := h.filled
      refine ⟨fill_inputs.trans h.inputs, ⟨new ++ old, ?_, fun x hx => ?_⟩, .inr ?_⟩
      · rw [hnew, hold, List.append_assoc]
      · rcases List.mem_append.mp hx with hx | hx
        · rw [howned x hx]
          exact decide_eq_true hmem
        · exact hall x hx
      · rw [JetsonEncoder.numQueued, fill_queued]
        exact ⟨hroom, hmem⟩
  | pushed | took | ran | requeued | failed =>
    obtain ⟨hqueued, hdestroyed, hfilled, hinputs⟩ :=
      buffers_same hs' (by rintro _ _ _ ⟨⟩) (by rintro ⟨⟩) (by rintro _ _ ⟨⟩)
    exact h.perm (List.Perm.of_eq hqueued) hdestroyed hfilled hinputs
  | encoded hpending => exact h.perm (encode_perm hpending) rfl rfl rfl
  | @destroyed dequeues queues index t hphase hlive htakes =>
    have hsame : t.inputs = s.inputs ∧ t.filled = s.filled := by
      rcases htakes with ⟨htakes, -⟩ | ⟨-, rfl, -⟩
      · exact ⟨htakes.inputs, htakes.filled⟩
      · exact ⟨rfl, rfl⟩
    refine ⟨?_, ?_, .inl (queueEndOfStream_destroyed _ _ _)⟩
    · rw [queueEndOfStream_inputs]
      exact hsame.1.trans h.inputs
    · rw [queueEndOfStream_filled]
      exact hsame.2 ▸ h.filled

/-- Without a free buffer, the encoder is stuck. -/
theorem stuck_of_not_nextFree (h : ¬ NextFree s) : Stuck s s := by
  obtain ⟨-, hstill⟩ := Classical.not_imp.mp h
  rw [not_or, not_not] at hstill
  exact ⟨rfl, ⟨[], rfl, nofun⟩, .inr hstill⟩

/-- Stuck since some state is stuck since now. -/
theorem Stuck.self (h : Stuck s₀ s) : Stuck s s :=
  ⟨rfl, ⟨[], rfl, nofun⟩, h.still⟩

end Stuck

/-! ### All orders of steps -/

section Runs

variable {isDmaSrc : Bool} {prepared : Fin (bufferNum + 1)} {as : List EncoderEvent}
  {s : JetsonEncoder}

theorem firstBuffers_init : FirstBuffers (jetsonEncoder isDmaSrc prepared).init :=
  fun _ => ⟨Nat.zero_le _, List.Perm.refl _⟩

theorem counted_run (hrun : (jetsonEncoder isDmaSrc prepared).run as = some s) : Counted s :=
  Machine.run_invariant (counted_init isDmaSrc prepared)
    (fun _ _ _ h hs => h.step (encoderStep_of_step hs)) hrun

/-- Under the condition the driver has the first buffers. -/
theorem firstBuffers_run (hrun : (jetsonEncoder isDmaSrc prepared).run as = some s)
    (hg : (jetsonEncoder isDmaSrc prepared).Guarded RequeuesOrLast
      (jetsonEncoder isDmaSrc prepared).init as) : FirstBuffers s := by
  refine (Machine.guarded_invariant (G := RequeuesOrLast)
    (P := fun s => FirstBuffers s ∧ ∀ x ∈ s.filled, x.owned = false) ?_
    ⟨firstBuffers_init, nofun⟩ hg hrun).1
  intro s a s' ⟨h, hfree⟩ hmet hs
  obtain ⟨hfilled, -, hkeeps⟩ := buffersFree_step h hfree (encoderStep_of_step hs)
  exact ⟨hkeeps hmet, hfilled⟩

/-- A run that does not meet the condition ends stuck. -/
theorem stuck_of_not_guarded {s t : JetsonEncoder} (h : FirstBuffers s)
    (hfree : ∀ x ∈ s.filled, x.owned = false)
    (hrun : (jetsonEncoder isDmaSrc prepared).runFrom s as = some t)
    (hg : ¬ (jetsonEncoder isDmaSrc prepared).Guarded RequeuesOrLast s as) : Stuck t t := by
  induction as generalizing s with
  | nil => exact absurd trivial hg
  | cons a as ih =>
    obtain ⟨u, hu, hrest⟩ := Machine.runFrom_cons_eq_some _ |>.mp hrun
    obtain ⟨hfilled, hiff, hkeeps⟩ := buffersFree_step h hfree (encoderStep_of_step hu)
    by_cases hmet : RequeuesOrLast s a
    · refine ih (hkeeps hmet) hfilled hrest fun hguarded => hg ⟨hmet, fun u' hu' => ?_⟩
      obtain rfl : u = u' := Option.some.inj (hu.symm.trans hu')
      exact hguarded
    · exact (Machine.runFrom_invariant (P := Stuck u)
        (fun _ _ _ h hs => h.step (encoderStep_of_step hs))
        (stuck_of_not_nextFree fun hnext => hmet (hiff.mp hnext)) hrest).self

/-- **The encoder fills free buffers only, exactly.** No call fills a buffer that the driver has,
    nor would the next one, exactly if each call that cannot queue a buffer it got back got the
    last one. -/
theorem buffersFree_iff (isDmaSrc : Bool) (prepared : Fin (bufferNum + 1))
    (as : List EncoderEvent) (s : JetsonEncoder)
    (hrun : (jetsonEncoder isDmaSrc prepared).run as = some s) :
    (jetsonEncoder isDmaSrc prepared).Always BuffersFree
        (jetsonEncoder isDmaSrc prepared).init as ↔
      (jetsonEncoder isDmaSrc prepared).Guarded RequeuesOrLast
        (jetsonEncoder isDmaSrc prepared).init as := by
  refine Machine.always_iff_guarded (I := FirstBuffers) ?_ ?_ firstBuffers_init
    ⟨firstBuffers_init.nextFree, nofun⟩ hrun
  · intro s a s' h hfree hs hfree'
    obtain ⟨-, hiff, hkeeps⟩ := buffersFree_step h hfree.2 (encoderStep_of_step hs)
    exact hkeeps (hiff.mp hfree'.1)
  · intro s a s' h hfree hs
    obtain ⟨hfilled, hiff, -⟩ := buffersFree_step h hfree.2 (encoderStep_of_step hs)
    exact (and_iff_left hfilled).trans hiff

/-- Four frames, the first of which is encoded. -/
def fourFrames : List EncoderEvent :=
  [.emplaceBuffer false false true, .pushTask, .emplaceBuffer false false true, .pushTask,
    .emplaceBuffer false false true, .pushTask, .emplaceBuffer false false true, .pushTask,
    .encode]

theorem buffersFree_fourFrames :
    (jetsonEncoder false 4).Always BuffersFree (jetsonEncoder false 4).init fourFrames :=
  (buffersFree_iff false 4 fourFrames _ rfl).mpr (by decide)

/-- **An encoder that has lost a buffer is stuck.** After a run that does not meet the condition,
    no frame is taken any more, and every buffer that is filled is one that the driver has. -/
theorem no_frame_after_lost (isDmaSrc : Bool) (prepared : Fin (bufferNum + 1))
    (as bs : List EncoderEvent) (s t : JetsonEncoder)
    (hrun : (jetsonEncoder isDmaSrc prepared).run as = some s)
    (hlost : ¬ (jetsonEncoder isDmaSrc prepared).Guarded RequeuesOrLast
      (jetsonEncoder isDmaSrc prepared).init as)
    (hrest : (jetsonEncoder isDmaSrc prepared).runFrom s bs = some t) :
    t.inputs = s.inputs ∧ ∃ new, t.filled = new ++ s.filled ∧ ∀ x ∈ new, x.owned = true := by
  have hstuck : Stuck s s := stuck_of_not_guarded firstBuffers_init nofun hrun hlost
  have h : Stuck s t := Machine.runFrom_invariant (P := Stuck s)
    (fun _ _ _ h hs => h.step (encoderStep_of_step hs)) hstuck hrest
  exact ⟨h.inputs, h.filled⟩

/-- The first buffer is given back, and cannot be queued. -/
def loseFirst : List EncoderEvent := fourFrames ++ [.emplaceBuffer false true false]

/-- The next frames go to the last buffer. -/
theorem no_frame_after_lost_loseFirst :
    ∃ s t, (jetsonEncoder false 4).run loseFirst = some s ∧
      (jetsonEncoder false 4).runFrom s [.emplaceBuffer false true true] = some t ∧
      t.inputs = s.inputs ∧ ∃ new, t.filled = new ++ s.filled ∧ ∀ x ∈ new, x.owned = true :=
  ⟨_, _, rfl, rfl, no_frame_after_lost false 4 loseFirst [.emplaceBuffer false true true] _ _ rfl
    (by decide) rfl⟩

/-! ### The end of stream -/

/-- The capture thread is not told to stop: no end of stream is with the driver. -/
structure Running (s : JetsonEncoder) : Prop where
  counted : Counted s
  destroyed : s.destroyed = true
  noEnd : s.endOfStream = false
  thread : s.thread ≠ .stopped

/-- A step of the capture thread that fails. -/
def EncoderEvent.captureFails : EncoderEvent → Bool
  | .requeue queues => !queues
  | .dequeueFails => true
  | _ => false

theorem Running.step {s s' : JetsonEncoder} {a : EncoderEvent} (h : Running s)
    (ha : a.captureFails = false) (hs : EncoderStep isDmaSrc s a s') : Running s' := by
  have hcounted := h.counted.step hs
  cases hs with
  | rejected => exact h
  | emplaced _ hlive => exact absurd (h.destroyed.symm.trans hlive) (by decide)
  | pushed => exact ⟨hcounted, h.destroyed, h.noEnd, h.thread⟩
  | encoded => exact ⟨hcounted, h.destroyed, h.noEnd, h.thread⟩
  | took | ran => exact ⟨hcounted, h.destroyed, h.noEnd, by rintro ⟨⟩⟩
  | @requeued queues hthread =>
    have hyes : queues = true := (Bool.not_eq_false' _).mp ha
    subst hyes
    refine ⟨hcounted, h.destroyed, h.noEnd, ?_⟩
    -- what was captured is a frame
    have hitems := h.counted.items
    rw [h.noEnd, hthread] at hitems
    have hframe : s.captured ≠ s.inputs + 1 := by
      have hfalse : false.toNat = 0 := rfl
      omega
    show (if s.captured = s.inputs + 1 then CapturePhase.stopped else .waiting) ≠ .stopped
    rw [if_neg hframe]
    rintro ⟨⟩
  | failed => cases ha
  | destroyed _ hlive => exact absurd (h.destroyed.symm.trans hlive) (by decide)

/-- **The end of stream gets to the driver, exactly.** Under the condition, the destructor's end
    of stream is taken exactly if the driver has no buffer, or has them all and gives one back;
    if it is not, the capture thread does not stop, unless the capture plane fails. -/
theorem endOfStream_taken_iff (isDmaSrc : Bool) (prepared : Fin (bufferNum + 1))
    (as : List EncoderEvent) (s s' : JetsonEncoder) (dequeues : Bool)
    (hrun : (jetsonEncoder isDmaSrc prepared).run as = some s)
    (hg : (jetsonEncoder isDmaSrc prepared).Guarded RequeuesOrLast
      (jetsonEncoder isDmaSrc prepared).init as)
    (hs : (jetsonEncoder isDmaSrc prepared).step s (.destroy dequeues true) = some s') :
    (s'.endOfStream = true ↔
      s.numQueued = 0 ∨ s.numQueued = bufferNum ∧ dequeues = true) ∧
    (s'.endOfStream = false → s.thread ≠ .stopped → ∀ bs t, (∀ a ∈ bs, a.captureFails = false) →
      (jetsonEncoder isDmaSrc prepared).runFrom s' bs = some t → t.thread ≠ .stopped) := by
  have hfirst := firstBuffers_run hrun hg
  have hcounted := counted_run hrun
  have hstep : EncoderStep isDmaSrc s (.destroy dequeues true) s' := encoderStep_of_step hs
  have hcounted' := hcounted.step hstep
  cases hstep with
  | @destroyed _ _ index t hphase hlive htakes =>
    have hend : s.endOfStream = false := by
      by_contra hyes
      exact absurd ((hcounted.last (Bool.eq_true_of_not_eq_false hyes)).symm.trans hlive)
        (by decide)
    have hsent := queueEndOfStream_cases { t with abort := true, destroyed := true } index true
    rcases htakes with ⟨htakes, hfull⟩ | ⟨rfl, rfl, hnot⟩
    · have hfree := htakes.notMem hfirst hlive
      rcases hsent with ⟨-, -, heq⟩ | ⟨hhas, -⟩
      · rw [heq]
        exact ⟨iff_of_true rfl (.inr hfull), by rintro ⟨⟩⟩
      · exact absurd (hhas rfl) hfree
    · -- the first buffer is free only if all are
      have hzero : 0 ∈ t.queued ↔ t.numQueued ≠ 0 := by
        rw [(hfirst hlive).2.mem_iff, List.mem_range]
        exact Nat.pos_iff_ne_zero
      rcases hsent with ⟨-, hfree, heq⟩ | ⟨hhas, heq⟩
      · rw [heq]
        exact ⟨iff_of_true rfl (.inl (not_not.mp fun hne => hfree (hzero.mpr hne))),
          by rintro ⟨⟩⟩
      · rw [heq] at hcounted' ⊢
        have hne := hzero.mp (hhas rfl)
        refine ⟨iff_of_false (hend ▸ by decide) (not_or.mpr ⟨hne, hnot⟩), ?_⟩
        intro _ hthread bs u hbs hrest
        have h : Running u := Machine.guarded_invariant (G := fun _ a => a.captureFails = false)
          (fun _ _ _ h ha hs => h.step ha (encoderStep_of_step hs))
          ⟨hcounted', rfl, hend, hthread⟩
          (Machine.guarded_of_labels hbs _) hrest
        exact h.thread

/-- Two frames, of which the second is still to be encoded. -/
def twoFrames : List EncoderEvent :=
  [.emplaceBuffer false false true, .pushTask, .encode, .emplaceBuffer false false true, .pushTask]

/-- The end of stream is rejected after two frames. -/
theorem endOfStream_taken_iff_twoFrames :
    ∃ s s', (jetsonEncoder false 4).run twoFrames = some s ∧
      (jetsonEncoder false 4).step s (.destroy true true) = some s' ∧
      (s'.endOfStream = true ↔ s.numQueued = 0 ∨ s.numQueued = bufferNum ∧ true = true) ∧
      (s'.endOfStream = false → s.thread ≠ .stopped → ∀ bs t,
        (∀ a ∈ bs, a.captureFails = false) →
          (jetsonEncoder false 4).runFrom s' bs = some t → t.thread ≠ .stopped) :=
  ⟨_, _, rfl, rfl, endOfStream_taken_iff false 4 twoFrames _ _ true rfl (by decide) rfl⟩

end Runs

end PiWebrtc.Codecs
