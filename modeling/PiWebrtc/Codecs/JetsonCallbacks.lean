import PiWebrtc.Codecs.V4L2Codec
import Mathlib.Data.List.Basic

namespace PiWebrtc.Codecs

open Transition

/-!
# The callbacks of the Jetson decoder

`EmplaceBuffer` gives an input to the driver, sets the capture plane up once the resolution
event is there, and puts the callback for the input into `capturing_tasks_`; the capture thread
takes a frame from the driver and then the first callback out of there.  A call that finds no
event queues no task: "Nothing is decoded before the size is known".  But the input is with the
driver by then, and is decoded later if the event was on its way.

* `jetsonCallbacks` — one call after the other, beside the driver and the capture thread.
* `decoded_own_callback` — every frame meets its own callback if, and in runs to the end only
  if, no call misses the event of a keyframe that is queued, no task is refused, and no frame is
  faster than the call for its input.

The driver is taken at its word: the frames come in the order of the inputs, one for each, from
the first keyframe on.  Which buffer holds an input is left out here.
-/

/-- The resolution event. -/
inductive SizeEvent where
  | none
  | visible
  | taken
  deriving DecidableEq, Repr

/-- What the call of `EmplaceBuffer` that is running does next. -/
inductive EmplacePhase where
  | idle
  | ensureCapturePlane
  /-- `SetupCapturePlane`, after `startDQThread`. -/
  | prepareCaptureBuffer
  | pushTask
  deriving DecidableEq, Repr

/-- A decoded frame: its input, and the one whose callback it is passed to, if any. -/
structure DecodedFrame where
  input : ℕ
  callback : Option ℕ
  deriving DecidableEq, Repr

/-- The decoder; of each input that the driver took, whether it is a keyframe; how many frames
    were taken from the driver; and, as history, the frames taken while it was not given up. -/
structure JetsonCallbacks where
  inputs : List Bool := []
  event : SizeEvent := .none
  dqThread : Bool := false
  captureReady : Bool := false
  abort : Bool := false
  capturingTasks : ThreadSafeQueue ℕ 8 := .empty
  phase : EmplacePhase := .idle
  captured : ℕ := 0
  decoded : List DecodedFrame := []
  deriving DecidableEq, Repr

/-- The steps of `EmplaceBuffer`, of the driver and of the capture thread. -/
inductive DecodeEvent where
  /-- `EmplaceBuffer`, up to `qBuffer`; `queues` tells whether it gets the input queued. -/
  | emplaceBuffer (keyframe queues : Bool)
  /-- `EnsureCapturePlane`; `starts` tells whether `SetupCapturePlane` gets to `startDQThread`. -/
  | ensureCapturePlane (starts : Bool)
  | prepareCaptureBuffer (ok : Bool)
  | pushTask
  /-- The driver has seen a keyframe. -/
  | reportSize
  /-- `CapturePlaneDqCallback`, with how the transform and `qBuffer` end. -/
  | dqCallback (transforms requeues : Bool)
  /-- The decoder is given up: an end of stream, or the destructor. -/
  | giveUp
  deriving DecidableEq, Repr

namespace JetsonCallbacks

/-- The first input that is decoded. -/
def firstKeyframe (s : JetsonCallbacks) : ℕ := s.inputs.idxOf true

/-- The input of the next frame. -/
def nextFrame (s : JetsonCallbacks) : ℕ := s.firstKeyframe + s.captured

/-- The inputs whose calls of `EmplaceBuffer` have returned. -/
def returned (s : JetsonCallbacks) : ℕ :=
  if s.phase = .idle then s.inputs.length else s.inputs.length - 1

/-- `EnsureCapturePlane`, up to `startDQThread`. -/
def ensureCapturePlane (s : JetsonCallbacks) (starts : Bool) : JetsonCallbacks :=
  if s.captureReady then { s with phase := .pushTask }
  else if s.event ≠ .visible then { s with phase := .idle }
  else if starts then { s with event := .taken, dqThread := true, phase := .prepareCaptureBuffer }
  else { s with event := .taken, abort := true, phase := .idle }

/-- `CapturePlaneDqCallback`, for a frame. -/
def dqCallback (s : JetsonCallbacks) (transforms requeues : Bool) : JetsonCallbacks :=
  let item := s.capturingTasks.pop
  let callback := if transforms then item.map Prod.fst else none
  { s with
    capturingTasks := (item.map Prod.snd).getD s.capturingTasks
    captured := s.captured + 1
    abort := s.abort || !requeues
    decoded := if s.abort then s.decoded else s.decoded ++ [⟨s.nextFrame, callback⟩] }

/-- One step. -/
def step (s : JetsonCallbacks) : DecodeEvent → Option JetsonCallbacks
  | .emplaceBuffer keyframe queues =>
    if s.phase = .idle then
      if s.abort || !queues then some s
      else some { s with inputs := s.inputs ++ [keyframe], phase := .ensureCapturePlane }
    else none
  | .ensureCapturePlane starts =>
    if s.phase = .ensureCapturePlane then some (s.ensureCapturePlane starts) else none
  | .prepareCaptureBuffer ok =>
    if s.phase = .prepareCaptureBuffer then
      if ok then some { s with captureReady := true, phase := .pushTask }
      else some { s with abort := true, phase := .idle }
    else none
  | .pushTask =>
    if s.phase = .pushTask then
      some
        { s with
          capturingTasks := (s.capturingTasks.push (s.inputs.length - 1)).1, phase := .idle }
    else none
  | .reportSize =>
    if s.event = .none ∧ true ∈ s.inputs then some { s with event := .visible } else none
  | .dqCallback transforms requeues =>
    if s.dqThread = true ∧ s.nextFrame < s.inputs.length then
      some (s.dqCallback transforms requeues)
    else none
  | .giveUp => some { s with abort := true }

end JetsonCallbacks

/-- A decoder that was started, and all orders of steps. -/
def jetsonCallbacks : Machine JetsonCallbacks DecodeEvent where
  init := {}
  step := JetsonCallbacks.step

/-- What is asked for: each frame is passed to the callback of its own input. -/
def OwnCallbacks (s : JetsonCallbacks) : Prop :=
  ∀ d ∈ s.decoded, d.callback = some d.input

/-- The condition: a call finds the event, or the capture plane set up, if a keyframe is queued;
    a task is queued only while there is room; a frame comes after the call for its input has
    returned, and the transform of it succeeds. -/
def InStep (s : JetsonCallbacks) : DecodeEvent → Prop
  | .ensureCapturePlane _ =>
    s.abort = false → s.captureReady = false → s.event ≠ .visible → true ∉ s.inputs
  | .pushTask => s.abort = false → s.capturingTasks.full = false
  | .dqCallback transforms _ =>
    s.abort = false → s.nextFrame < s.returned ∧ transforms = true
  | .emplaceBuffer _ _ | .prepareCaptureBuffer _ | .reportSize | .giveUp => True

instance (s : JetsonCallbacks) : ∀ a, Decidable (InStep s a)
  | .ensureCapturePlane _ => inferInstanceAs (Decidable (_ → _ → _ → _))
  | .pushTask => inferInstanceAs (Decidable (_ → _))
  | .dqCallback _ _ => inferInstanceAs (Decidable (_ → _ ∧ _))
  | .emplaceBuffer _ _ | .prepareCaptureBuffer _ | .reportSize | .giveUp => isTrue trivial

/-- The run is at its end: no call is running, the decoder is not given up, and every frame has
    come. -/
def Drained (s : JetsonCallbacks) : Prop :=
  s.phase = .idle ∧ s.abort = false ∧
    ∀ n, s.firstKeyframe ≤ n → n < s.inputs.length → n ∈ s.decoded.map DecodedFrame.input

/-! ### What a step does -/

/-- The steps, by what they come to. -/
inductive DecodeStep (s : JetsonCallbacks) : DecodeEvent → JetsonCallbacks → Prop
  | refused {keyframe queues : Bool} : DecodeStep s (.emplaceBuffer keyframe queues) s
  | queued {keyframe queues : Bool} (hphase : s.phase = .idle) :
      DecodeStep s (.emplaceBuffer keyframe queues)
        { s with inputs := s.inputs ++ [keyframe], phase := .ensureCapturePlane }
  | ready {starts : Bool} (hphase : s.phase = .ensureCapturePlane)
      (hready : s.captureReady = true) :
      DecodeStep s (.ensureCapturePlane starts) { s with phase := .pushTask }
  | missed {starts : Bool} (hphase : s.phase = .ensureCapturePlane)
      (hready : s.captureReady = false) (hevent : s.event ≠ .visible) :
      DecodeStep s (.ensureCapturePlane starts) { s with phase := .idle }
  | started {starts : Bool} (hphase : s.phase = .ensureCapturePlane)
      (hevent : s.event = .visible) :
      DecodeStep s (.ensureCapturePlane starts)
        { s with event := .taken, dqThread := true, phase := .prepareCaptureBuffer }
  | notStarted {starts : Bool} (hevent : s.event = .visible) :
      DecodeStep s (.ensureCapturePlane starts)
        { s with event := .taken, abort := true, phase := .idle }
  | prepared {ok : Bool} (hphase : s.phase = .prepareCaptureBuffer) :
      DecodeStep s (.prepareCaptureBuffer ok) { s with captureReady := true, phase := .pushTask }
  | notPrepared {ok : Bool} :
      DecodeStep s (.prepareCaptureBuffer ok) { s with abort := true, phase := .idle }
  | pushed (hphase : s.phase = .pushTask) :
      DecodeStep s .pushTask
        { s with
          capturingTasks := (s.capturingTasks.push (s.inputs.length - 1)).1, phase := .idle }
  | reported (hkey : true ∈ s.inputs) : DecodeStep s .reportSize { s with event := .visible }
  | frame {transforms requeues : Bool} (hnext : s.nextFrame < s.inputs.length) :
      DecodeStep s (.dqCallback transforms requeues) (s.dqCallback transforms requeues)
  | givenUp : DecodeStep s .giveUp { s with abort := true }

theorem decodeStep_of_step {s s' : JetsonCallbacks} {a : DecodeEvent} (h : s.step a = some s') :
    DecodeStep s a s' := by
  cases a with
  | emplaceBuffer keyframe queues =>
    rw [JetsonCallbacks.step, Option.ite_none_right_eq_some] at h
    obtain ⟨hphase, h⟩ := h
    split at h
    · obtain rfl := Option.some.inj h
      exact .refused
    · obtain rfl := Option.some.inj h
      exact .queued hphase
  | ensureCapturePlane starts =>
    rw [JetsonCallbacks.step, Option.ite_none_right_eq_some] at h
    obtain ⟨hphase, h⟩ := h
    obtain rfl := Option.some.inj h
    unfold JetsonCallbacks.ensureCapturePlane
    split
    case isTrue hready => exact .ready hphase hready
    split
    case isTrue hnot hevent => exact .missed hphase (Bool.eq_false_of_not_eq_true hnot) hevent
    split
    case isTrue hevent _ => exact .started hphase (not_not.mp hevent)
    case isFalse hevent _ => exact .notStarted (not_not.mp hevent)
  | prepareCaptureBuffer ok =>
    rw [JetsonCallbacks.step, Option.ite_none_right_eq_some] at h
    obtain ⟨hphase, h⟩ := h
    split at h
    · obtain rfl := Option.some.inj h
      exact .prepared hphase
    · obtain rfl := Option.some.inj h
      exact .notPrepared
  | pushTask =>
    rw [JetsonCallbacks.step, Option.ite_none_right_eq_some] at h
    obtain rfl := Option.some.inj h.2
    exact .pushed h.1
  | reportSize =>
    rw [JetsonCallbacks.step, Option.ite_none_right_eq_some] at h
    obtain rfl := Option.some.inj h.2
    exact .reported h.1.2
  | dqCallback transforms requeues =>
    rw [JetsonCallbacks.step, Option.ite_none_right_eq_some] at h
    obtain rfl := Option.some.inj h.2
    exact .frame h.1.2
  | giveUp =>
    obtain rfl := Option.some.inj h
    exact .givenUp

/-! ### The numbers of the inputs -/

section Numbers

variable {s : JetsonCallbacks}

theorem firstKeyframe_lt_iff : s.firstKeyframe < s.inputs.length ↔ true ∈ s.inputs :=
  List.idxOf_lt_length_iff

/-- A keyframe among the inputs stays the first one. -/
theorem firstKeyframe_append (h : true ∈ s.inputs) (more : List Bool) :
    (s.inputs ++ more).idxOf true = s.firstKeyframe :=
  List.idxOf_append_of_mem h

theorem returned_idle (h : s.phase = .idle) : s.returned = s.inputs.length := if_pos h

theorem returned_busy (h : s.phase ≠ .idle) : s.returned = s.inputs.length - 1 := if_neg h

theorem returned_le : s.returned ≤ s.inputs.length := by
  unfold JetsonCallbacks.returned
  split
  · exact le_rfl
  · exact Nat.sub_le ..

/-- A keyframe was queued by a call that has returned, or by the one that is running. -/
theorem firstKeyframe_le_returned (hphase : s.phase ≠ .idle) (h : true ∈ s.inputs) :
    s.firstKeyframe ≤ s.returned := by
  rw [returned_busy hphase]
  exact Nat.le_sub_one_of_lt (firstKeyframe_lt_iff.mpr h)

/-- The frames, with the one that was just taken. -/
theorem mem_decoded_dqCallback {transforms requeues : Bool} {d : DecodedFrame}
    (h : d ∈ (s.dqCallback transforms requeues).decoded) : d ∈ s.decoded ∨
      d = ⟨s.nextFrame, if transforms then s.capturingTasks.pop.map Prod.fst else none⟩ := by
  cases habort : s.abort with
  | true => exact .inl (by simpa [JetsonCallbacks.dqCallback, habort] using h)
  | false => simpa [JetsonCallbacks.dqCallback, habort] using h

end Numbers

/-! ### Nothing is set up without a keyframe -/

/-- What holds in every run: the event and all that comes after it need a keyframe, and a call
    that is running has queued an input. -/
structure Sized (s : JetsonCallbacks) : Prop where
  key : s.event ≠ .none ∨ s.phase = .prepareCaptureBuffer ∨ s.captureReady = true →
    true ∈ s.inputs
  ready : s.phase = .pushTask → s.captureReady = true
  busy : s.phase ≠ .idle → s.inputs ≠ []

/-- A call that has its input queued returns. -/
theorem Sized.returns {s t : JetsonCallbacks} (h : Sized s) (hphase : t.phase = .idle)
    (hevent : t.event = s.event) (hready : t.captureReady = s.captureReady)
    (hinputs : t.inputs = s.inputs) : Sized t := by
  refine ⟨fun hkey => ?_, hphase ▸ nofun, fun hbusy => absurd hphase hbusy⟩
  rw [hevent, hready, hphase] at hkey
  exact hinputs ▸ h.key (hkey.imp id (Or.imp nofun id))

theorem Sized.step {s s' : JetsonCallbacks} {a : DecodeEvent} (h : Sized s)
    (hs : s.step a = some s') : Sized s' := by
  cases decodeStep_of_step hs with
  | refused => exact h
  | queued =>
    refine ⟨fun hkey => List.mem_append_left _ (h.key ?_), nofun,
      fun _ => List.append_ne_nil_of_right_ne_nil _ (List.cons_ne_nil _ _)⟩
    exact hkey.imp id (Or.imp nofun id)
  | ready hphase hready =>
    exact ⟨fun _ => h.key (.inr (.inr hready)), fun _ => hready, fun _ => h.busy (hphase ▸ nofun)⟩
  | missed | notPrepared | pushed => exact h.returns rfl rfl rfl rfl
  | started hphase hevent =>
    exact ⟨fun _ => h.key (.inl (hevent ▸ nofun)), nofun, fun _ => h.busy (hphase ▸ nofun)⟩
  | notStarted hevent =>
    exact ⟨fun _ => h.key (.inl (hevent ▸ nofun)), nofun, fun hphase => absurd rfl hphase⟩
  | prepared hphase =>
    exact ⟨fun _ => h.key (.inr (.inl hphase)), fun _ => rfl, fun _ => h.busy (hphase ▸ nofun)⟩
  | reported hkey => exact ⟨fun _ => hkey, h.ready, h.busy⟩
  | frame => exact ⟨h.key, h.ready, h.busy⟩
  | givenUp => exact ⟨h.key, h.ready, h.busy⟩

theorem sized_init : Sized jetsonCallbacks.init where
  key h := by
    rcases h with h | h | h
    · exact absurd rfl h
    · nomatch h
    · nomatch h
  ready := nofun
  busy h := absurd rfl h

/-! ### In step, the tasks are those of the frames to come -/

section Sufficient

variable {s s' : JetsonCallbacks}

/-- **The invariant.** The tasks are those of the frames to come whose calls have returned, in
    order; before the capture plane is ready there are none, and no call with a keyframe has
    returned. -/
structure Aligned (s : JetsonCallbacks) : Prop where
  waiting : s.captureReady = false → s.captured = 0 ∧ s.returned ≤ s.firstKeyframe
  next_le : true ∈ s.inputs → s.nextFrame ≤ s.returned
  tasks : s.capturingTasks.items = List.range' s.nextFrame (s.returned - s.nextFrame)

namespace Aligned

theorem tasks_waiting (h : Aligned s) (hready : s.captureReady = false) :
    s.capturingTasks.items = [] := by
  have hle : s.returned ≤ s.nextFrame := (h.waiting hready).2.trans (Nat.le_add_right ..)
  rw [h.tasks, Nat.sub_eq_zero_of_le hle]
  rfl

/-- An input is queued. -/
theorem queued (h : Aligned s) (hsized : Sized s) (hphase : s.phase = .idle) (keyframe : Bool) :
    Aligned { s with inputs := s.inputs ++ [keyframe], phase := .ensureCapturePlane } := by
  set t : JetsonCallbacks :=
    { s with inputs := s.inputs ++ [keyframe], phase := .ensureCapturePlane } with ht
  have hbusy : t.phase ≠ .idle := nofun
  have hreturned : t.returned = s.inputs.length := by
    rw [returned_busy hbusy, ht]
    exact congrArg (· - 1) List.length_append
  have hidle : s.returned = s.inputs.length := returned_idle hphase
  by_cases hmem : true ∈ s.inputs
  · have hfirst : t.firstKeyframe = s.firstKeyframe := firstKeyframe_append hmem _
    have hnext : t.nextFrame = s.nextFrame := congrArg (· + s.captured) hfirst
    refine ⟨fun hready => ?_, fun _ => ?_, ?_⟩
    · rw [hreturned, hfirst, ← hidle]
      exact h.waiting hready
    · rw [hreturned, hnext, ← hidle]
      exact h.next_le hmem
    · rw [hreturned, hnext, ← hidle]
      exact h.tasks
  · -- the first keyframe is still to come, or is this one
    have hready : s.captureReady = false :=
      Bool.eq_false_of_not_eq_true fun hr => hmem (hsized.key (.inr (.inr hr)))
    have hcaptured : s.captured = 0 := (h.waiting hready).1
    have hle : s.inputs.length ≤ t.firstKeyframe := by
      rw [ht, JetsonCallbacks.firstKeyframe, List.idxOf_append_of_notMem hmem]
      exact Nat.le_add_right ..
    have hnext : t.nextFrame = t.firstKeyframe := congrArg (t.firstKeyframe + ·) hcaptured
    refine ⟨fun _ => ⟨hcaptured, hreturned ▸ hle⟩, fun hkey => ?_, ?_⟩
    · rw [hnext]
      exact firstKeyframe_le_returned hbusy hkey
    · rw [hnext, hreturned, Nat.sub_eq_zero_of_le hle]
      exact h.tasks_waiting hready

/-- A call that has its input queued goes on, and stays there. -/
theorem goOn (h : Aligned s) {t : JetsonCallbacks} (hbusy : s.phase ≠ .idle)
    (hphase : t.phase ≠ .idle) (hinputs : t.inputs = s.inputs) (hcaptured : t.captured = s.captured)
    (htasks : t.capturingTasks = s.capturingTasks) (hkey : true ∈ s.inputs)
    (hready : s.captureReady = true → t.captureReady = true) : Aligned t := by
  have hreturned : t.returned = s.returned := by
    rw [returned_busy hphase, returned_busy hbusy, hinputs]
  have hfirst : t.firstKeyframe = s.firstKeyframe := congrArg (List.idxOf true) hinputs
  have hnext : t.nextFrame = s.nextFrame := congrArg₂ (· + ·) hfirst hcaptured
  refine ⟨fun hnot => ?_, fun _ => ?_, ?_⟩
  · rw [hcaptured, hreturned, hfirst]
    refine h.waiting (Bool.eq_false_of_not_eq_true fun hr => ?_)
    exact absurd (hready hr) (hnot ▸ Bool.false_ne_true)
  · rw [hreturned, hnext]
    exact h.next_le hkey
  · rw [hreturned, hnext, htasks]
    exact h.tasks

/-- A call without a keyframe returns. -/
theorem missed (h : Aligned s) (hready : s.captureReady = false) (hkey : true ∉ s.inputs) :
    Aligned { s with phase := .idle } := by
  set t : JetsonCallbacks := { s with phase := .idle } with ht
  have hfirst : t.firstKeyframe = s.inputs.length := List.idxOf_eq_length hkey
  have hreturned : t.returned = s.inputs.length := returned_idle rfl
  have hcaptured : t.captured = 0 := (h.waiting hready).1
  refine ⟨fun _ => ⟨hcaptured, ?_⟩, fun hk => absurd hk hkey, ?_⟩
  · rw [hreturned, hfirst]
  · rw [JetsonCallbacks.nextFrame, hcaptured, hfirst, hreturned, Nat.add_zero, Nat.sub_self]
    exact h.tasks_waiting hready

/-- The task of the last input is queued. -/
theorem pushed (h : Aligned s) (hsized : Sized s) (hphase : s.phase = .pushTask)
    (hfull : s.capturingTasks.full = false) :
    Aligned
      { s with
        capturingTasks := (s.capturingTasks.push (s.inputs.length - 1)).1, phase := .idle } := by
  set t : JetsonCallbacks :=
    { s with
      capturingTasks := (s.capturingTasks.push (s.inputs.length - 1)).1, phase := .idle } with ht
  have hready := hsized.ready hphase
  have hkey := hsized.key (.inr (.inr hready))
  have hlast : s.returned = s.inputs.length - 1 := returned_busy (hphase ▸ nofun)
  have hreturned : t.returned = s.returned + 1 := by
    rw [returned_idle (s := t) rfl, hlast]
    exact (Nat.succ_pred_eq_of_pos (List.length_pos_of_mem hkey)).symm
  have hnext : s.nextFrame ≤ s.returned := h.next_le hkey
  refine ⟨fun hnot => ?_, fun _ => ?_, ?_⟩
  · exact absurd (hready.symm.trans hnot) (by decide)
  · exact hreturned ▸ Nat.le_succ_of_le hnext
  · have hcount : t.returned - s.nextFrame = s.returned - s.nextFrame + 1 := by
      rw [hreturned, Nat.succ_sub hnext]
    have hend : s.nextFrame + 1 * (s.returned - s.nextFrame) = s.returned := by
      rw [Nat.one_mul, Nat.add_sub_cancel' hnext]
    calc t.capturingTasks.items
        = s.capturingTasks.items ++ [s.inputs.length - 1] := ThreadSafeQueue.push_items hfull _
      _ = List.range' s.nextFrame (s.returned - s.nextFrame) ++ [s.returned] := by
          rw [h.tasks, hlast]
      _ = List.range' s.nextFrame (t.returned - s.nextFrame) := by
          rw [hcount, List.range'_concat, hend]

/-- A frame whose call has returned meets its own callback. -/
theorem frame (h : Aligned s) (hnext : s.nextFrame < s.returned) (requeues : Bool) :
    Aligned (s.dqCallback true requeues) ∧
      (s.abort = false →
        (s.dqCallback true requeues).decoded = s.decoded ++ [⟨s.nextFrame, some s.nextFrame⟩]) := by
  have hkey : true ∈ s.inputs := by
    refine firstKeyframe_lt_iff.mp ?_
    exact (Nat.le_add_right ..).trans_lt (hnext.trans_le returned_le)
  have hready : s.captureReady = true := by
    refine Bool.eq_true_of_not_eq_false fun hr => ?_
    exact absurd ((h.waiting hr).2.trans (Nat.le_add_right ..)) (not_le_of_gt hnext)
  have hcount : s.returned - s.nextFrame = s.returned - (s.nextFrame + 1) + 1 := by omega
  have hitems := h.tasks
  rw [hcount, List.range'_succ] at hitems
  obtain ⟨⟨callback, rest⟩, hpop⟩ : ∃ r, s.capturingTasks.pop = some r := by
    refine Option.ne_none_iff_exists'.mp fun hnone => ?_
    rw [ThreadSafeQueue.pop_eq_none.mp hnone] at hitems
    nomatch hitems
  obtain ⟨rfl, hrest⟩ := List.cons.inj ((ThreadSafeQueue.pop_eq_some.mp hpop).symm.trans hitems)
  have htasks : (s.dqCallback true requeues).capturingTasks = rest := by
    simp [JetsonCallbacks.dqCallback, hpop]
  refine ⟨⟨fun hr => ?_, fun _ => hnext, htasks ▸ hrest⟩, fun habort => ?_⟩
  · exact absurd (hready.symm.trans hr) (by decide)
  · simp [JetsonCallbacks.dqCallback, hpop, habort]

end Aligned

theorem aligned_init : Aligned jetsonCallbacks.init where
  waiting _ := ⟨rfl, le_rfl⟩
  next_le h := nomatch h
  tasks := rfl

/-- **A step** that meets the condition: each frame still meets its own callback, and the tasks
    are aligned unless the decoder is given up. -/
theorem ownCallbacks_step {a : DecodeEvent} (hown : OwnCallbacks s) (hsized : Sized s)
    (h : s.abort = false → Aligned s) (hg : InStep s a) (hs : s.step a = some s') :
    OwnCallbacks s' ∧ (s'.abort = false → Aligned s') := by
  cases decodeStep_of_step hs with
  | refused => exact ⟨hown, h⟩
  | queued hphase => exact ⟨hown, fun habort => (h habort).queued hsized hphase _⟩
  | ready hphase hready =>
    refine ⟨hown, fun habort => ?_⟩
    have hkey := hsized.key (.inr (.inr hready))
    exact (h habort).goOn (hphase ▸ nofun) nofun rfl rfl rfl hkey id
  | missed hphase hready hevent =>
    exact ⟨hown, fun habort => (h habort).missed hready (hg habort hready hevent)⟩
  | started hphase hevent =>
    refine ⟨hown, fun habort => ?_⟩
    have hkey := hsized.key (.inl (hevent ▸ nofun))
    exact (h habort).goOn (hphase ▸ nofun) nofun rfl rfl rfl hkey id
  | notStarted => exact ⟨hown, nofun⟩
  | prepared hphase =>
    refine ⟨hown, fun habort => ?_⟩
    have hkey := hsized.key (.inr (.inl hphase))
    exact (h habort).goOn (hphase ▸ nofun) nofun rfl rfl rfl hkey fun _ => rfl
  | notPrepared => exact ⟨hown, nofun⟩
  | pushed hphase => exact ⟨hown, fun habort => (h habort).pushed hsized hphase (hg habort)⟩
  | reported =>
    refine ⟨hown, fun habort => ?_⟩
    obtain ⟨hwaiting, hnext, htasks⟩ := h habort
    exact ⟨hwaiting, hnext, htasks⟩
  | @frame transforms requeues hnext =>
    cases habort : s.abort with
    | true =>
      -- nothing is passed on any more
      refine ⟨?_, fun hlive => ?_⟩
      · simpa [OwnCallbacks, JetsonCallbacks.dqCallback, habort] using hown
      · simp [JetsonCallbacks.dqCallback, habort] at hlive
    | false =>
      obtain ⟨hret, rfl⟩ := hg habort
      obtain ⟨haligned, hdecoded⟩ := (h habort).frame hret requeues
      refine ⟨fun d hd => ?_, fun _ => haligned⟩
      rw [hdecoded habort, List.mem_append, List.mem_singleton] at hd
      rcases hd with hd | rfl
      · exact hown d hd
      · rfl
  | givenUp => exact ⟨hown, nofun⟩

/-- In a run in step, each frame meets its own callback. -/
theorem ownCallbacks_of_inStep {as : List DecodeEvent}
    (hg : jetsonCallbacks.Guarded InStep jetsonCallbacks.init as) :
    jetsonCallbacks.Always OwnCallbacks jetsonCallbacks.init as := by
  have halways := Machine.always_of_guarded (M := jetsonCallbacks)
    (P := fun s => Sized s ∧ OwnCallbacks s ∧ (s.abort = false → Aligned s))
    (fun _ _ _ h hg hs => ⟨h.1.step hs, ownCallbacks_step h.2.1 h.1 h.2.2 hg hs⟩) 
    ⟨sized_init, fun _ hd => absurd hd List.not_mem_nil, fun _ => aligned_init⟩ hg
  exact fun bs hbs t ht => (halways bs hbs t ht).2.1

end Sufficient

/-! ### A callback that is missed stays so -/

section Necessary

variable {s s' : JetsonCallbacks} {n : ℕ}

/-- Callback `n` is with a task or with a frame. -/
def Known (s : JetsonCallbacks) (n : ℕ) : Prop :=
  n ∈ s.capturingTasks.items ∨ ∃ d ∈ s.decoded, d.callback = some n

/-- A task that is queued stays at its place, and may be refused. -/
theorem mem_of_mem_push {α : Type*} {maxSize : ℕ} {q : ThreadSafeQueue α maxSize} {m t : α}
    (h : m ∈ (q.push t).1.items) : m ∈ q.items ∨ m = t := by
  cases hfull : q.full with
  | true =>
    have hle : ¬ q.items.length < maxSize := not_lt_of_ge (of_decide_eq_true hfull)
    rw [ThreadSafeQueue.push, dif_neg hle] at h
    exact .inl h
  | false =>
    rw [ThreadSafeQueue.push_items hfull, List.mem_append, List.mem_singleton] at h
    exact h

/-- A frame uses no callback but those in the queue. -/
theorem known_of_dqCallback {transforms requeues : Bool}
    (h : Known (s.dqCallback transforms requeues) n) : Known s n := by
  rcases h with h | ⟨d, hd, hn⟩
  · refine .inl ?_
    cases hpop : s.capturingTasks.pop with
    | none => simpa [JetsonCallbacks.dqCallback, hpop] using h
    | some r =>
      rw [ThreadSafeQueue.pop_eq_some.mp hpop]
      exact List.mem_cons_of_mem _ (by simpa [JetsonCallbacks.dqCallback, hpop] using h)
  · rcases mem_decoded_dqCallback hd with hd | rfl
    · exact .inr ⟨d, hd, hn⟩
    · -- the callback of this frame is the first in the queue
      obtain ⟨-, hn⟩ := Option.ite_none_right_eq_some.mp hn
      obtain ⟨⟨callback, rest⟩, hpop, rfl⟩ := Option.map_eq_some_iff.mp hn
      exact .inl (ThreadSafeQueue.pop_eq_some.mp hpop ▸ List.mem_cons_self)

/-- Only the last input gets its callback queued. -/
theorem known_step {a : DecodeEvent} (hs : s.step a = some s') (h : Known s' n) :
    Known s n ∨ a = .pushTask ∧ n = s.inputs.length - 1 := by
  cases decodeStep_of_step hs with
  | pushed =>
    rcases h with h | h
    · exact (mem_of_mem_push h).imp .inl fun hn => ⟨rfl, hn⟩
    · exact .inl (.inr h)
  | frame => exact .inl (known_of_dqCallback h)
  | _ => exact .inl h

/-- A call that has returned stays so. -/
theorem returned_step {a : DecodeEvent} (hs : s.step a = some s') : s.returned ≤ s'.returned := by
  have hend : ∀ t : JetsonCallbacks, t.phase = .idle → t.inputs = s.inputs →
      s.returned ≤ t.returned := by
    intro t hphase hinputs
    rw [returned_idle hphase, hinputs]
    exact returned_le
  cases decodeStep_of_step hs with
  | @queued keyframe _ hphase =>
    rw [returned_idle hphase, JetsonCallbacks.returned, if_neg nofun, List.length_append]
    exact le_rfl
  | ready hphase | started hphase | prepared hphase =>
    rw [returned_busy (hphase ▸ nofun), returned_busy (by nofun)]
  | missed | notStarted | notPrepared | pushed => exact hend _ rfl rfl
  | refused | reported | frame | givenUp => exact le_rfl

/-- The inputs that were queued stay so. -/
theorem inputs_step {a : DecodeEvent} (hs : s.step a = some s') : s.inputs <+: s'.inputs := by
  cases decodeStep_of_step hs with
  | queued => exact List.prefix_append _ _
  | _ => exact List.prefix_rfl

/-- Only callbacks of calls that have returned are known. -/
def KnownReturned (s : JetsonCallbacks) : Prop := ∀ n, Known s n → n < s.returned

theorem KnownReturned.step {a : DecodeEvent} (h : KnownReturned s) (hsized : Sized s)
    (hs : s.step a = some s') : KnownReturned s' := by
  intro n hn
  rcases known_step hs hn with hold | ⟨rfl, rfl⟩
  · exact (h n hold).trans_le (returned_step hs)
  · cases decodeStep_of_step hs with
    | pushed hphase =>
      -- the call of the last input returns
      exact Nat.sub_one_lt_of_lt (List.length_pos_iff.mpr (hsized.busy (hphase ▸ nofun)))

theorem knownReturned_init : KnownReturned jetsonCallbacks.init := by
  rintro n (h | ⟨d, hd, -⟩)
  · exact absurd h List.not_mem_nil
  · exact absurd hd List.not_mem_nil

/-- The call for input `n`, which is decoded, has returned, and its callback is nowhere. -/
structure Missed (s : JetsonCallbacks) (n : ℕ) : Prop where
  returned : n < s.returned
  keyframe : true ∈ s.inputs
  decodes : s.firstKeyframe ≤ n
  unknown : ¬ Known s n

/-- It stays so. -/
theorem Missed.step {a : DecodeEvent} (h : Missed s n) (hs : s.step a = some s') : Missed s' n := by
  obtain ⟨more, hmore⟩ := inputs_step hs
  have hfirst : s'.firstKeyframe = s.firstKeyframe := by
    rw [JetsonCallbacks.firstKeyframe, ← hmore]
    exact firstKeyframe_append h.keyframe more
  refine ⟨h.returned.trans_le (returned_step hs), ?_, hfirst ▸ h.decodes, fun hn => ?_⟩
  · exact hmore ▸ List.mem_append_left _ h.keyframe
  · rcases known_step hs hn with hold | ⟨rfl, rfl⟩
    · exact h.unknown hold
    · cases decodeStep_of_step hs with
      | pushed hphase =>
        rw [← returned_busy (s := s) (hphase ▸ nofun)] at h
        exact lt_irrefl _ h.returned

/-- At the end of a run, its frame has come with another callback, or none. -/
theorem Missed.not_ownCallbacks (h : Missed s n) (hdrained : Drained s) : ¬ OwnCallbacks s := by
  intro hown
  obtain ⟨d, hd, rfl⟩ := List.mem_map.mp
    (hdrained.2.2 n h.decodes (h.returned.trans_le returned_le))
  exact h.unknown (.inr ⟨d, hd, hown d hd⟩)

/-- In a run to the end in which each frame meets its own callback, none is missed. -/
theorem not_missed {as : List DecodeEvent} (hrun : jetsonCallbacks.runFrom s as = some s')
    (hdrained : Drained s') (hown : OwnCallbacks s') : ¬ Missed s n := fun h =>
  (Machine.runFrom_invariant (M := jetsonCallbacks) (P := fun s => Missed s n)
    (fun _ _ _ h hs => h.step hs) h hrun).not_ownCallbacks hdrained hown

/-- The last call returns without its callback, although its input is decoded. -/
theorem missed_of_returns (h : KnownReturned s) (hphase : s.phase ≠ .idle)
    (hkey : true ∈ s.inputs) (hidle : s'.phase = .idle) (hinputs : s'.inputs = s.inputs)
    (hknown : ∀ n, Known s' n → Known s n) : Missed s' (s.inputs.length - 1) := by
  refine ⟨?_, hinputs ▸ hkey, ?_, fun hn => ?_⟩
  · rw [returned_idle hidle, hinputs]
    exact Nat.sub_one_lt_of_lt (List.length_pos_of_mem hkey)
  · rw [JetsonCallbacks.firstKeyframe, hinputs]
    exact Nat.le_sub_one_of_lt (List.idxOf_lt_length_of_mem hkey)
  · exact absurd (h _ (hknown _ hn)) (returned_busy hphase ▸ lt_irrefl _)

/-- A step that does not meet the condition: a callback is missed, or the frame has not met its
    own. -/
theorem missed_of_not_inStep {a : DecodeEvent} (h : KnownReturned s) (hsized : Sized s)
    (hs : s.step a = some s') (hg : ¬ InStep s a) : (∃ n, Missed s' n) ∨ ¬ OwnCallbacks s' := by
  cases decodeStep_of_step hs with
  | refused | queued | prepared | notPrepared | reported | givenUp => exact absurd trivial hg
  | ready hphase hready =>
    exact absurd (fun _ hnot => absurd (hready.symm.trans hnot) (by decide)) hg
  | started hphase hevent => exact absurd (fun _ _ hnot => absurd hevent hnot) hg
  | notStarted hevent => exact absurd (fun _ _ hnot => absurd hevent hnot) hg
  | missed hphase hready hevent =>
    refine .inl ⟨_, missed_of_returns h (hphase ▸ nofun) ?_ rfl rfl fun _ hn => hn⟩
    by_contra hkey
    exact hg fun _ _ _ => hkey
  | pushed hphase =>
    have hkey := hsized.key (.inr (.inr (hsized.ready hphase)))
    have hfull : s.capturingTasks.full = true := by
      by_contra hroom
      exact hg fun _ => Bool.eq_false_of_not_eq_true hroom
    refine .inl ⟨_, missed_of_returns h (hphase ▸ nofun) hkey rfl rfl fun n hn => ?_⟩
    rwa [Known, ThreadSafeQueue.push,
      dif_neg (not_lt_of_ge (of_decide_eq_true hfull))] at hn
  | @frame transforms requeues hnext =>
    refine .inr fun hown => hg fun habort => ?_
    have hd := hown ⟨s.nextFrame, if transforms then s.capturingTasks.pop.map Prod.fst else none⟩
      (by simp [JetsonCallbacks.dqCallback, habort])
    obtain ⟨htransforms, hd⟩ := Option.ite_none_right_eq_some.mp hd
    obtain ⟨⟨callback, rest⟩, hpop, hcallback⟩ := Option.map_eq_some_iff.mp hd
    obtain rfl : callback = s.nextFrame := hcallback
    refine ⟨h s.nextFrame (.inl ?_), htransforms⟩
    rw [ThreadSafeQueue.pop_eq_some.mp hpop]
    exact List.mem_cons_self

/-- In a run to the end the condition is needed. -/
theorem inStep_of_ownCallbacks {as : List DecodeEvent} (h : KnownReturned s) (hsized : Sized s)
    (hrun : jetsonCallbacks.runFrom s as = some s') (hdrained : Drained s')
    (hown : jetsonCallbacks.Always OwnCallbacks s as) : jetsonCallbacks.Guarded InStep s as := by
  induction as generalizing s with
  | nil => trivial
  | cons a as ih =>
    obtain ⟨t, ht, hrest⟩ := Machine.runFrom_cons_eq_some _ |>.mp hrun
    obtain ⟨-, hownt⟩ := (Machine.always_cons ht).mp hown
    refine ⟨?_, fun t' ht' => ?_⟩
    · by_contra hg
      rcases missed_of_not_inStep h hsized ht hg with ⟨n, hmissed⟩ | hnot
      · exact not_missed hrest hdrained (hownt as List.prefix_rfl s' hrest) hmissed
      · exact hnot (hownt [] List.nil_prefix t rfl)
    · obtain rfl : t = t' := Option.some.inj (ht.symm.trans ht')
      exact ih (h.step hsized ht) (hsized.step ht) hrest hownt

end Necessary

/-! ### All orders of steps -/

/-- **Decoded frames meet their own callbacks, exactly.** Each frame is passed to the callback of
    its own input, if every step meets the condition; and in a run to the end, only if. -/
theorem decoded_own_callback (as : List DecodeEvent) (s : JetsonCallbacks)
    (hrun : jetsonCallbacks.run as = some s) :
    (jetsonCallbacks.Guarded InStep jetsonCallbacks.init as →
      jetsonCallbacks.Always OwnCallbacks jetsonCallbacks.init as) ∧
    (Drained s →
      (jetsonCallbacks.Always OwnCallbacks jetsonCallbacks.init as ↔
        jetsonCallbacks.Guarded InStep jetsonCallbacks.init as)) :=
  ⟨ownCallbacks_of_inStep, fun hdrained =>
    ⟨inStep_of_ownCallbacks knownReturned_init sized_init hrun hdrained, ownCallbacks_of_inStep⟩⟩

/-- An input without a keyframe, a keyframe whose call finds the event, and both its frames. -/
def eventInTime : List DecodeEvent :=
  [.emplaceBuffer false true, .ensureCapturePlane true, .emplaceBuffer true true, .reportSize,
    .ensureCapturePlane true, .prepareCaptureBuffer true, .pushTask, .emplaceBuffer false true,
    .ensureCapturePlane true, .pushTask, .dqCallback true true, .dqCallback true true]

theorem decoded_own_callback_eventInTime :
    jetsonCallbacks.Always OwnCallbacks jetsonCallbacks.init eventInTime :=
  (decoded_own_callback eventInTime _ rfl).1 (by decide)

/-- The event comes after the call of the keyframe has looked for it. -/
def eventAfterCall : List DecodeEvent :=
  [.emplaceBuffer true true, .ensureCapturePlane true, .reportSize, .emplaceBuffer false true,
    .ensureCapturePlane true, .prepareCaptureBuffer true, .pushTask, .dqCallback true true]

/-- The frame of the keyframe is passed to the callback of the next input. -/
theorem not_ownCallbacks_eventAfterCall :
    ¬ ∀ (as : List DecodeEvent) (s : JetsonCallbacks),
      jetsonCallbacks.run as = some s → OwnCallbacks s := by
  intro h
  exact absurd (h eventAfterCall _ rfl ⟨0, some 1⟩ (List.mem_singleton_self _)) (by decide)

end PiWebrtc.Codecs
