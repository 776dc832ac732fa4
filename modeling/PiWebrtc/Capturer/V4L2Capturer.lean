import PiWebrtc.Lib.Machine
import Mathlib.Data.List.DropRight
import Mathlib.Data.List.TakeWhile

namespace PiWebrtc.Capturer

open Transition

/-!
# The V4L2 capturer

The worker calls `CaptureImage` again and again: it waits for the camera, takes a buffer from
the driver, passes the frame on and gives the buffer back.  An H264 camera's frames go to a
decoder, and only from the first keyframe on.  If the camera stops giving frames, the program
exits, so that it can be started anew.

`captured_eq` says over whole runs what is passed on, when the program exits, and where the
buffers are.  What is done with a frame is left out, and so is the latency tracer.
-/

/-- A frame that was dequeued, in the buffer of this index. -/
structure CameraFrame where
  index : ℕ
  keyframe : Bool
  deriving DecidableEq, Repr

/-- What a call of `CaptureImage` gets from the system. -/
inductive CaptureOutcome where
  /-- `select` is interrupted. -/
  | interrupted
  | selectFails
  | timeout
  /-- `DequeueBuffer` fails; `noDevice` tells whether with `ENODEV`. -/
  | dequeueFails (noDevice : Bool)
  | frame (f : CameraFrame) (requeues : Bool)
  deriving DecidableEq, Repr

/-- The capturer, the buffers that the driver has, and, as history, the frames passed on. -/
structure V4L2Capturer where
  queued : List ℕ
  hasFirstKeyframe : Bool := false
  dequeueFailures : ℕ := 0
  exited : Bool := false
  passed : List CameraFrame := []
  deriving DecidableEq, Repr

/-- `buffer_count_`. -/
abbrev bufferCount : ℕ := 4

/-- `kMaxDequeueFailures`. -/
abbrev maxDequeueFailures : ℕ := 30

namespace V4L2Capturer

/-- `QueueBuffer`. -/
def queueBuffer (s : V4L2Capturer) (index : ℕ) (requeues : Bool) : V4L2Capturer :=
  if requeues then { s with queued := s.queued ++ [index] } else s

/-- A frame was dequeued; `h264` tells whether the decoder has to start on a keyframe. -/
def passFrame (h264 : Bool) (s : V4L2Capturer) (f : CameraFrame) (requeues : Bool) :
    V4L2Capturer :=
  let s := { s with queued := s.queued.erase f.index, dequeueFailures := 0 }
  let s := if h264 && f.keyframe then { s with hasFirstKeyframe := true } else s
  if h264 && !s.hasFirstKeyframe then s.queueBuffer f.index requeues
  else { s with passed := s.passed ++ [f] }.queueBuffer f.index requeues

/-- `CaptureImage`; `none` if the driver does not have the buffer that it is said to give, or
    the program has exited. -/
def captureImage (h264 : Bool) (s : V4L2Capturer) : CaptureOutcome → Option V4L2Capturer
  | .interrupted | .timeout => if s.exited then none else some s
  | .selectFails => if s.exited then none else some { s with exited := true }
  | .dequeueFails noDevice =>
    if s.exited then none
    else if noDevice then some { s with exited := true }
    else
      some
        { s with
          dequeueFailures := s.dequeueFailures + 1
          exited := decide (maxDequeueFailures ≤ s.dequeueFailures + 1) }
  | .frame f requeues =>
    if s.exited then none
    else if f.index ∈ s.queued then some (s.passFrame h264 f requeues) else none

end V4L2Capturer

/-- The capturer after `StartCapture`, with all buffers queued. -/
def v4l2Capturer (h264 : Bool) : Machine V4L2Capturer CaptureOutcome where
  init := { queued := List.range bufferCount }
  step := V4L2Capturer.captureImage h264

/-! ### What a run has got -/

/-- The frame that was dequeued. -/
def CaptureOutcome.frame? : CaptureOutcome → Option CameraFrame
  | .frame f _ => some f
  | _ => none

/-- How `DequeueBuffer` ended, if it was called and the device is there. -/
def CaptureOutcome.dequeues : CaptureOutcome → Option Bool
  | .frame _ _ => some true
  | .dequeueFails false => some false
  | _ => none

/-- The camera is gone, or cannot be waited for. -/
def CaptureOutcome.fatal : CaptureOutcome → Bool
  | .selectFails | .dequeueFails true => true
  | _ => false

/-- The buffer that could not be given back. -/
def CaptureOutcome.loses : CaptureOutcome → Option ℕ
  | .frame f false => some f.index
  | _ => none

/-- What is passed on of the frames that were dequeued. -/
def passedOf (h264 : Bool) (frames : List CameraFrame) : List CameraFrame :=
  if h264 then frames.dropWhile fun f => !f.keyframe else frames

/-- As many failures in a row as are allowed. -/
def TooManyFailures (as : List CaptureOutcome) : Prop :=
  List.replicate maxDequeueFailures false <:+: as.filterMap CaptureOutcome.dequeues

/-- What holds after a run: what was passed on, whether the program has exited, and where the
    buffers are. -/
structure Captured (h264 : Bool) (as : List CaptureOutcome) (s : V4L2Capturer) : Prop where
  passed : s.passed = passedOf h264 (as.filterMap CaptureOutcome.frame?)
  exited : s.exited = true ↔ (∃ a ∈ as, a.fatal = true) ∨ TooManyFailures as
  buffers : (s.queued ++ as.filterMap CaptureOutcome.loses).Perm (List.range bufferCount)

/-! ### Failures in a row -/

section Failures

/-- The failures after the last success. -/
def failuresInARow (results : List Bool) : ℕ := (results.rtakeWhile fun ok => !ok).length

theorem failuresInARow_true (results : List Bool) : failuresInARow (results ++ [true]) = 0 := by
  rw [failuresInARow, List.rtakeWhile_concat_neg _ _ _ (by decide), List.length_nil]

theorem failuresInARow_false (results : List Bool) :
    failuresInARow (results ++ [false]) = failuresInARow results + 1 := by
  rw [failuresInARow, List.rtakeWhile_concat_pos _ _ _ (by decide), List.length_append,
    List.length_singleton, failuresInARow]

/-- A list ends with so many failures exactly if it has so many after the last success. -/
theorem replicate_suffix_iff (n : ℕ) (results : List Bool) :
    List.replicate n false <:+ results ↔ n ≤ failuresInARow results := by
  induction results using List.reverseRecOn generalizing n with
  | nil => simp [failuresInARow]
  | append_singleton results ok ih =>
    cases n with
    | zero => simp
    | succ n =>
      rw [List.replicate_succ', List.suffix_concat_iff]
      cases ok with
      | true => simp [failuresInARow_true]
      | false =>
        rw [failuresInARow_false, Nat.succ_le_succ_iff, ← ih]
        simp

end Failures

/-! ### What a call adds -/

section Calls

variable {h264 : Bool}

/-- One more frame is passed on if there was a keyframe before it, or it is one. -/
theorem passedOf_append (frames : List CameraFrame) (f : CameraFrame) :
    passedOf h264 (frames ++ [f]) =
      if h264 = true ∧ frames.all (fun f => !f.keyframe) = true ∧ f.keyframe = false then
        passedOf h264 frames
      else passedOf h264 frames ++ [f] := by
  cases h264 with
  | false => rfl
  | true =>
    have hdrop : ∀ l : List CameraFrame, passedOf true l = l.dropWhile fun f => !f.keyframe :=
      fun _ => rfl
    rw [hdrop, hdrop, List.dropWhile_append]
    by_cases hall : frames.all (fun f => !f.keyframe) = true
    · have hnil : frames.dropWhile (fun f => !f.keyframe) = [] :=
        List.dropWhile_eq_nil_iff.mpr (List.all_eq_true.mp hall)
      rw [hnil, List.isEmpty_nil, if_pos rfl]
      cases hkey : f.keyframe with
      | true => simp [List.dropWhile, hkey]
      | false => simp [List.dropWhile, hkey, hall]
    · have hne : (frames.dropWhile fun f => !f.keyframe).isEmpty = false := by
        rw [List.isEmpty_eq_false_iff]
        exact fun hnil => hall (List.all_eq_true.mpr (List.dropWhile_eq_nil_iff.mp hnil))
      rw [hne, if_neg (by decide), if_neg fun h => hall h.2.1]

/-- **The invariant.** Beside what is asked for, the flag says whether there was a keyframe, and
    the counter counts the failures after the last success. -/
structure Capturing (h264 : Bool) (as : List CaptureOutcome) (s : V4L2Capturer) : Prop
    extends Captured h264 as s where
  flag : h264 = true → s.hasFirstKeyframe =
    !(as.filterMap CaptureOutcome.frame?).all fun f => !f.keyframe
  failures : s.exited = false →
    s.dequeueFailures = failuresInARow (as.filterMap CaptureOutcome.dequeues)

/-- Whether the program exits with the next call. -/
theorem exited_append {as : List CaptureOutcome} {a : CaptureOutcome} {before after : Bool}
    (h : before = true ↔ (∃ a ∈ as, a.fatal = true) ∨ TooManyFailures as)
    (hbefore : before = false) (hafter : after = true ↔ a.fatal = true ∨
      maxDequeueFailures ≤ failuresInARow ((as ++ [a]).filterMap CaptureOutcome.dequeues)) :
    after = true ↔ (∃ b ∈ as ++ [a], b.fatal = true) ∨ TooManyFailures (as ++ [a]) := by
  obtain ⟨hfatal, hmany⟩ := not_or.mp fun hyes => absurd (h.mpr hyes) (by rw [hbefore]; decide)
  have hany : (∃ b ∈ as ++ [a], b.fatal = true) ↔ a.fatal = true := by
    constructor
    · rintro ⟨b, hb, hyes⟩
      rcases List.mem_append.mp hb with hb | hb
      · exact absurd ⟨b, hb, hyes⟩ hfatal
      · rwa [List.mem_singleton.mp hb] at hyes
    · exact fun hyes => ⟨a, List.mem_append_right _ (List.mem_singleton_self a), hyes⟩
  rw [hafter, hany, TooManyFailures, ← replicate_suffix_iff]
  refine or_congr_right ⟨fun hsuffix => hsuffix.isInfix, fun hinfix => ?_⟩
  rw [List.filterMap_append] at hinfix ⊢
  -- the failures are not all before this call
  cases hd : a.dequeues with
  | none =>
    rw [List.filterMap_cons_none hd, List.filterMap_nil, List.append_nil] at hinfix
    exact absurd hinfix hmany
  | some ok =>
    rw [List.filterMap_cons_some hd, List.filterMap_nil] at hinfix ⊢
    exact (List.infix_concat_iff.mp hinfix).resolve_right hmany

/-- A buffer that is taken and given back, or lost. -/
theorem buffers_append {queued lost : List ℕ} {index : ℕ} (requeues : Bool) {f : CameraFrame}
    (hindex : f.index = index) (hmem : index ∈ queued)
    (h : (queued ++ lost).Perm (List.range bufferCount)) :
    ((if requeues then queued.erase index ++ [index] else queued.erase index) ++
        (lost ++ [CaptureOutcome.frame f requeues].filterMap CaptureOutcome.loses)).Perm
      (List.range bufferCount) := by
  refine List.Perm.trans ?_ h
  subst hindex
  have herase := (List.perm_cons_erase hmem).symm
  cases requeues with
  | true =>
    have hnone : [CaptureOutcome.frame f true].filterMap CaptureOutcome.loses = [] := rfl
    rw [if_pos rfl, hnone, List.append_nil]
    exact ((List.perm_append_singleton _ _).trans herase).append_right lost
  | false =>
    have hlost : [CaptureOutcome.frame f false].filterMap CaptureOutcome.loses = [f.index] := rfl
    rw [if_neg (by decide), hlost, ← List.append_assoc]
    exact (List.perm_append_singleton _ _).trans (herase.append_right lost)

/-- What a frame that was dequeued comes to. -/
theorem passFrame_eq (s : V4L2Capturer) (f : CameraFrame) (requeues : Bool) :
    s.passFrame h264 f requeues =
      { s with
        queued := if requeues then s.queued.erase f.index ++ [f.index] else s.queued.erase f.index
        hasFirstKeyframe := s.hasFirstKeyframe || (h264 && f.keyframe)
        dequeueFailures := 0
        passed :=
          if h264 = true ∧ s.hasFirstKeyframe = false ∧ f.keyframe = false then s.passed
          else s.passed ++ [f] } := by
  cases h264 <;> cases hkey : f.keyframe <;> cases hfirst : s.hasFirstKeyframe <;>
    cases requeues <;>
    simp [V4L2Capturer.passFrame, V4L2Capturer.queueBuffer, hkey, hfirst]

/-- A call that gets no frame. -/
theorem Capturing.noFrame {as : List CaptureOutcome} {s : V4L2Capturer} {a : CaptureOutcome}
    (h : Capturing h264 as s) (hlive : s.exited = false) (hframe : a.frame? = none)
    (hloses : a.loses = none) {exited : Bool} {failures : ℕ}
    (hexited : exited = true ↔ a.fatal = true ∨
      maxDequeueFailures ≤ failuresInARow ((as ++ [a]).filterMap CaptureOutcome.dequeues))
    (hfailures : exited = false →
      failures = failuresInARow ((as ++ [a]).filterMap CaptureOutcome.dequeues)) :
    Capturing h264 (as ++ [a]) { s with exited := exited, dequeueFailures := failures } := by
  have hframes : (as ++ [a]).filterMap CaptureOutcome.frame? =
      as.filterMap CaptureOutcome.frame? := by
    rw [List.filterMap_append, List.filterMap_cons_none hframe, List.filterMap_nil,
      List.append_nil]
  have hlost : (as ++ [a]).filterMap CaptureOutcome.loses = as.filterMap CaptureOutcome.loses := by
    rw [List.filterMap_append, List.filterMap_cons_none hloses, List.filterMap_nil,
      List.append_nil]
  refine ⟨⟨?_, exited_append h.exited hlive hexited, ?_⟩, ?_, hfailures⟩
  · rw [hframes]
    exact h.passed
  · rw [hlost]
    exact h.buffers
  · rw [hframes]
    exact h.flag

/-- As long as the program has not exited, there were not too many failures. -/
theorem Capturing.failures_lt {as : List CaptureOutcome} {s : V4L2Capturer}
    (h : Capturing h264 as s) (hlive : s.exited = false) :
    failuresInARow (as.filterMap CaptureOutcome.dequeues) < maxDequeueFailures := by
  by_contra hmany
  have hsuffix := (replicate_suffix_iff _ _).mpr (Nat.le_of_not_lt hmany)
  exact absurd (h.exited.mpr (.inr hsuffix.isInfix)) (by rw [hlive]; decide)

/-- A call that does not try to dequeue. -/
theorem Capturing.wait {as : List CaptureOutcome} {s : V4L2Capturer} {a : CaptureOutcome}
    (h : Capturing h264 as s) (hlive : s.exited = false) (hframe : a.frame? = none)
    (hloses : a.loses = none) (hdequeues : a.dequeues = none) (hfatal : a.fatal = false) :
    Capturing h264 (as ++ [a]) s := by
  have hsame : (as ++ [a]).filterMap CaptureOutcome.dequeues =
      as.filterMap CaptureOutcome.dequeues := by
    rw [List.filterMap_append, List.filterMap_cons_none hdequeues, List.filterMap_nil,
      List.append_nil]
  show Capturing h264 (as ++ [a])
    { s with exited := s.exited, dequeueFailures := s.dequeueFailures }
  refine h.noFrame hlive hframe hloses ?_ ?_
  · rw [hlive, hfatal, hsame]
    exact iff_of_false (by decide) (by
      rintro (⟨⟨⟩⟩ | hmany)
      exact absurd (h.failures_lt hlive) (Nat.not_lt_of_ge hmany))
  · rw [hsame]
    exact h.failures

theorem Capturing.step {as : List CaptureOutcome} {s s' : V4L2Capturer} {a : CaptureOutcome}
    (h : Capturing h264 as s) (hs : s.captureImage h264 a = some s') :
    Capturing h264 (as ++ [a]) s' := by
  cases a with
  | interrupted | timeout =>
    rw [V4L2Capturer.captureImage, Option.ite_none_left_eq_some] at hs
    obtain ⟨hlive, hs⟩ := hs
    obtain rfl := Option.some.inj hs
    exact h.wait (Bool.eq_false_iff.mpr hlive) rfl rfl rfl rfl
  | selectFails =>
    rw [V4L2Capturer.captureImage, Option.ite_none_left_eq_some] at hs
    obtain ⟨hlive, hs⟩ := hs
    obtain rfl := Option.some.inj hs
    exact h.noFrame (Bool.eq_false_iff.mpr hlive) rfl rfl (iff_of_true rfl (.inl rfl))
      (by rintro ⟨⟩)
  | dequeueFails noDevice =>
    rw [V4L2Capturer.captureImage, Option.ite_none_left_eq_some] at hs
    obtain ⟨hlive, hs⟩ := hs
    have hlive := Bool.eq_false_iff.mpr hlive
    cases noDevice with
    | true =>
      obtain rfl := Option.some.inj hs
      exact h.noFrame hlive rfl rfl (iff_of_true rfl (.inl rfl)) (by rintro ⟨⟩)
    | false =>
      obtain rfl := Option.some.inj hs
      have hmore : failuresInARow ((as ++ [CaptureOutcome.dequeueFails false]).filterMap
          CaptureOutcome.dequeues) = s.dequeueFailures + 1 := by
        rw [List.filterMap_append, h.failures hlive]
        exact failuresInARow_false _
      refine h.noFrame hlive rfl rfl ?_ fun _ => hmore.symm
      rw [hmore, decide_eq_true_iff]
      exact ⟨.inr, fun hany => hany.resolve_left (by rintro ⟨⟩)⟩
  | frame f requeues =>
    rw [V4L2Capturer.captureImage, Option.ite_none_left_eq_some] at hs
    obtain ⟨hlive, hs⟩ := hs
    have hlive := Bool.eq_false_iff.mpr hlive
    rw [Option.ite_none_right_eq_some] at hs
    obtain ⟨hmem, hs⟩ := hs
    obtain rfl := Option.some.inj hs
    have hframes : (as ++ [CaptureOutcome.frame f requeues]).filterMap CaptureOutcome.frame? =
        as.filterMap CaptureOutcome.frame? ++ [f] := by
      rw [List.filterMap_append]
      rfl
    have hzero : failuresInARow ((as ++ [CaptureOutcome.frame f requeues]).filterMap
        CaptureOutcome.dequeues) = 0 := by
      rw [List.filterMap_append]
      exact failuresInARow_true _
    rw [passFrame_eq]
    refine ⟨⟨?_, ?_, ?_⟩, fun hyes => ?_, fun _ => hzero.symm⟩
    · rw [hframes, passedOf_append, h.passed]
      have hflag : (h264 = true ∧ s.hasFirstKeyframe = false ∧ f.keyframe = false) ↔
          (h264 = true ∧ (as.filterMap CaptureOutcome.frame?).all (fun f => !f.keyframe) = true ∧
            f.keyframe = false) := by
        refine and_congr_right fun hyes => and_congr_left fun _ => ?_
        rw [h.flag hyes, Bool.not_eq_false']
      exact if_congr hflag rfl rfl
    · refine exited_append h.exited hlive ?_
      rw [hzero, hlive]
      exact iff_of_false (by decide) (by rintro (⟨⟨⟩⟩ | ⟨⟨⟩⟩))
    · rw [List.filterMap_append]
      exact buffers_append requeues rfl hmem h.buffers
    · rw [hframes, List.all_append, List.all_cons, List.all_nil, Bool.and_true, Bool.not_and,
        Bool.not_not]
      show (s.hasFirstKeyframe || (h264 && f.keyframe)) = _
      rw [h.flag hyes, hyes, Bool.true_and]

end Calls

/-- **What a capturer does.** After every run, the frames of the camera, of an H264 one from its
    first keyframe on, were passed on in order; the program has exited exactly if the camera was
    gone or could not be waited for, or failed to give a frame thirty times without giving one in
    between; and each buffer is with the driver, unless it could not be given back. -/
theorem captured_eq (h264 : Bool) (as : List CaptureOutcome) (s : V4L2Capturer)
    (hrun : (v4l2Capturer h264).run as = some s) : Captured h264 as s := by
  refine (Machine.run_history (P := Capturing h264) ⟨⟨?_, ?_, ?_⟩, ?_, ?_⟩
    (fun _ _ _ _ h hs => h.step hs) hrun).toCaptured
  · cases h264 with
    | true | false => rfl
  · refine iff_of_false (by rintro ⟨⟩) (not_or.mpr ⟨by rintro ⟨_, ⟨⟩, _⟩, fun hmany => ?_⟩)
    have := hmany.length_le
    simp at this
  · rw [List.filterMap_nil, List.append_nil]
    exact List.Perm.refl _
  · exact fun _ => rfl
  · exact fun _ => rfl

/-- A timeout, a delta frame, a failure, a keyframe, and another delta frame. -/
def keyframeThird : List CaptureOutcome :=
  [.timeout, .frame ⟨0, false⟩ true, .dequeueFails false, .frame ⟨1, true⟩ true,
    .frame ⟨2, false⟩ false]

theorem captured_eq_keyframeThird :
    Captured true keyframeThird
      { queued := [3, 0, 1], hasFirstKeyframe := true, passed := [⟨1, true⟩, ⟨2, false⟩] } :=
  captured_eq true keyframeThird _ rfl

end PiWebrtc.Capturer
