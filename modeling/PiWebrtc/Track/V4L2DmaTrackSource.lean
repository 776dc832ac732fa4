import PiWebrtc.Lib.Machine

namespace PiWebrtc.Track

open Transition

/-!
# The track source with a hardware scaler

`OnFrameCaptured` runs on the capturer's thread.  It sends a frame of the full size on directly,
and passes the others to a scaler, whose worker sends them when they are done; a scaler is
replaced when WebRTC asks for another size, and destroyed when it asks for the full one.  So two
threads send frames, and a third one while a scaler that is on its way out finishes a callback.

`framesInOrder` shows that WebRTC notices nothing of that: frames come in the order in which
they were captured, each in the size that was asked for it, and one at a time.

A scaler is what `IFrameProcessor` tells of it: its tasks, of which one worker calls back the
oldest, again and again, and which are gone when its destructor has joined the worker.  A frame
that it does not take is dropped.
-/

/-- Width and height. -/
abbrev Resolution := ℕ × ℕ

/-- A frame: its number in the order of capture, and the size that it is to be sent in. -/
structure CapturedFrame where
  number : ℕ
  adapted : Resolution
  deriving DecidableEq, Repr

/-- A call of `OnFrame`: for which frame, and with a buffer of what size. -/
structure SentFrame where
  frame : CapturedFrame
  size : Resolution
  deriving DecidableEq, Repr

/-- An `IFrameProcessor`: the size that it scales to, the frames whose callbacks are due, and the
    one whose callback its worker is in. -/
structure FrameScaler where
  dst : Resolution
  capturingTasks : List CapturedFrame := []
  calling : Option CapturedFrame := none
  deriving DecidableEq, Repr

namespace FrameScaler

/-- `EmplaceBuffer`; `accepted` tells whether the frame became a task. -/
def emplaceBuffer (c : FrameScaler) (frame : CapturedFrame) (accepted : Bool) : FrameScaler :=
  if accepted then { c with capturingTasks := c.capturingTasks ++ [frame] } else c

/-- The worker takes the oldest task and calls it. -/
def call (c : FrameScaler) : Option (CapturedFrame × FrameScaler) :=
  match c.calling, c.capturingTasks with
  | none, frame :: tasks => some (frame, { c with capturingTasks := tasks, calling := some frame })
  | _, _ => none

/-- The worker comes back from a callback. -/
def callReturns (c : FrameScaler) : Option FrameScaler :=
  c.calling.map fun _ => { c with calling := none }

end FrameScaler

/-- Where the capturer's thread is in `OnFrameCaptured`. -/
inductive CapturerPhase where
  | idle
  /-- In the destructor of the scaler `old`, with the frame in hand, which is then sent or, if
      it is not `direct`, scaled. -/
  | resetting (old : FrameScaler) (frame : CapturedFrame) (direct : Bool)
  | emplacing (frame : CapturedFrame)
  /-- In `OnFrame`. -/
  | sending (frame : CapturedFrame)
  deriving DecidableEq, Repr

/-- The track source: `width` and `height`, `config_width_` and `config_height_`, and, as history,
    how many frames were captured and which were sent. -/
structure V4L2DmaTrackSource where
  source : Resolution
  noAdaptive : Bool
  config : Resolution
  scaler : Option FrameScaler := none
  phase : CapturerPhase := .idle
  captured : ℕ := 0
  sent : List SentFrame := []
  deriving DecidableEq, Repr

namespace V4L2DmaTrackSource

/-- `OnFrame` from the capturer's thread or, with `if (!scaler) return` before it,
    `EmplaceBuffer`. -/
def proceed (s : V4L2DmaTrackSource) (frame : CapturedFrame) (direct : Bool) :
    V4L2DmaTrackSource :=
  if direct then { s with phase := .sending frame, sent := s.sent ++ [⟨frame, s.source⟩] }
  else if s.scaler.isNone then { s with phase := .idle }
  else { s with phase := .emplacing frame }

/-- `scaler` is given a new value, and the one that it had is destroyed. -/
def setScaler (s : V4L2DmaTrackSource) (scaler : Option FrameScaler) (frame : CapturedFrame)
    (direct : Bool) : V4L2DmaTrackSource :=
  match s.scaler with
  | none => { s with scaler := scaler }.proceed frame direct
  | some old => { s with scaler := scaler, phase := .resetting old frame direct }

/-- `OnFrameCaptured`, up to where it waits or calls.  `adapt` is the outcome of `AdaptFrame`,
    `yuvDmabuf` tells whether the frame is a YUV one in a dmabuf, and `creates` whether a scaler
    could be created. -/
def onFrameCaptured (s : V4L2DmaTrackSource) (adapt : Option Resolution)
    (yuvDmabuf creates : Bool) : V4L2DmaTrackSource :=
  let number := s.captured
  let s := { s with captured := s.captured + 1 }
  if s.noAdaptive then s.proceed ⟨number, s.source⟩ true
  else
    match adapt with
    | none => s
    | some adapted =>
      if adapted = s.source ∧ yuvDmabuf then s.setScaler none ⟨number, adapted⟩ true
      else if s.scaler.isNone ∨ adapted ≠ s.config then
        { s with config := adapted }.setScaler
          (if creates then some { dst := adapted } else none) ⟨number, adapted⟩ false
      else s.proceed ⟨number, adapted⟩ false

/-- A scaler's worker calls `OnFrame` with a buffer of the scaler's size. -/
def workerSends (s : V4L2DmaTrackSource) (c : FrameScaler) (frame : CapturedFrame) :
    V4L2DmaTrackSource :=
  { s with sent := s.sent ++ [⟨frame, c.dst⟩] }

end V4L2DmaTrackSource

/-- What the threads do next.  The scalers are the one in use and the one that is destroyed. -/
inductive TrackEvent where
  | onFrameCaptured (adapt : Option Resolution) (yuvDmabuf creates : Bool)
  /-- The worker of the old scaler was joined. -/
  | joined
  | emplaceBuffer (accepted : Bool)
  | onFrameReturns
  | workerCalls
  | workerReturns
  | oldWorkerCalls
  | oldWorkerReturns
  deriving DecidableEq, Repr

/-- One step of a thread. -/
def trackStep (s : V4L2DmaTrackSource) : TrackEvent → Option V4L2DmaTrackSource
  | .onFrameCaptured adapt yuvDmabuf creates =>
    if s.phase = .idle then some (s.onFrameCaptured adapt yuvDmabuf creates) else none
  | .joined =>
    match s.phase with
    | .resetting old frame direct =>
      if old.calling = none then some (s.proceed frame direct) else none
    | _ => none
  | .emplaceBuffer accepted =>
    match s.phase, s.scaler with
    | .emplacing frame, some c =>
      some { s with phase := .idle, scaler := some (c.emplaceBuffer frame accepted) }
    | _, _ => none
  | .onFrameReturns =>
    match s.phase with
    | .sending _ => some { s with phase := .idle }
    | _ => none
  | .workerCalls =>
    s.scaler.bind fun c => c.call.map fun (frame, c') =>
      { s with scaler := some c' }.workerSends c frame
  | .workerReturns =>
    s.scaler.bind fun c => c.callReturns.map fun c' => { s with scaler := some c' }
  | .oldWorkerCalls =>
    match s.phase with
    | .resetting old frame direct => old.call.map fun (sent, old') =>
        { s with phase := .resetting old' frame direct }.workerSends old sent
    | _ => none
  | .oldWorkerReturns =>
    match s.phase with
    | .resetting old frame direct =>
      old.callReturns.map fun old' => { s with phase := .resetting old' frame direct }
    | _ => none

/-- A track source for frames of this size. -/
def trackSource (source : Resolution) (noAdaptive : Bool) :
    Machine V4L2DmaTrackSource TrackEvent where
  init := { source := source, noAdaptive := noAdaptive, config := source }
  step := trackStep

/-! ### What WebRTC is given -/

namespace V4L2DmaTrackSource

/-- The frames that a thread is in `OnFrame` with. -/
def inOnFrame (s : V4L2DmaTrackSource) : List CapturedFrame :=
  (match s.phase with
    | .resetting old _ _ => old.calling.toList
    | .sending frame => [frame]
    | _ => []) ++ (s.scaler.bind (·.calling)).toList

end V4L2DmaTrackSource

/-- Frames are sent in the order of capture, in the size asked for, and one at a time. -/
structure FramesInOrder (s : V4L2DmaTrackSource) : Prop where
  increasing : s.sent.Pairwise fun x y => x.frame.number < y.frame.number
  sized : ∀ x ∈ s.sent, x.size = x.frame.adapted
  alone : s.inOnFrame.length ≤ 1

/-! ### The frames on their way -/

/-- These frames are in the order of capture, and were captured before frame `n`. -/
structure InOrder (frames : List CapturedFrame) (n : ℕ) : Prop where
  increasing : frames.Pairwise fun x y => x.number < y.number
  lt : ∀ x ∈ frames, x.number < n

namespace InOrder

variable {frames : List CapturedFrame} {n : ℕ}

theorem append_next (h : InOrder frames n) (adapted : Resolution) :
    InOrder (frames ++ [⟨n, adapted⟩]) (n + 1) := by
  constructor
  · rw [List.pairwise_append]
    refine ⟨h.increasing, List.pairwise_singleton _ _, fun x hx y hy => ?_⟩
    rw [List.mem_singleton.mp hy]
    exact h.lt x hx
  · intro x hx
    rcases List.mem_append.mp hx with hx | hx
    · exact Nat.lt_succ_of_lt (h.lt x hx)
    · rw [List.mem_singleton.mp hx]
      exact Nat.lt_succ_self n

/-- Frames may be dropped. -/
theorem sublist {rest : List CapturedFrame} (h : InOrder frames n) (hrest : rest.Sublist frames) :
    InOrder rest n :=
  ⟨h.increasing.sublist hrest, fun x hx => h.lt x (hrest.subset hx)⟩

theorem succ (h : InOrder frames n) : InOrder frames (n + 1) :=
  ⟨h.increasing, fun x hx => Nat.lt_succ_of_lt (h.lt x hx)⟩

end InOrder

/-- The tasks of a scaler are to be sent in the size that it scales to. -/
def FrameScaler.Fits (c : FrameScaler) : Prop :=
  ∀ frame ∈ c.capturingTasks, frame.adapted = c.dst

namespace V4L2DmaTrackSource

/-- The tasks of the scaler in use. -/
def tasks (s : V4L2DmaTrackSource) : List CapturedFrame :=
  s.scaler.elim [] FrameScaler.capturingTasks

/-- The frames that are still to be sent, the oldest first. -/
def pending (s : V4L2DmaTrackSource) : List CapturedFrame :=
  match s.phase with
  | .resetting old frame _ => old.capturingTasks ++ [frame]
  | .emplacing frame => s.tasks ++ [frame]
  | .idle | .sending _ => s.tasks

/-- What holds of a phase: a scaler that replaces another one waits for its first frame, and
    frames are sent directly while there is none. -/
def PhaseFits (s : V4L2DmaTrackSource) : Prop :=
  match s.phase with
  | .idle => True
  | .resetting old frame direct => old.Fits ∧
      frame.adapted = (if direct then s.source else s.config) ∧
      (∀ c ∈ s.scaler, c.capturingTasks = [] ∧ c.calling = none) ∧ (direct → s.scaler = none)
  | .emplacing frame => frame.adapted = s.config
  | .sending _ => s.scaler = none

end V4L2DmaTrackSource

/-- The invariant: what was sent and what is pending, one after the other, is in order. -/
structure TrackOrdered (s : V4L2DmaTrackSource) : Prop where
  order : InOrder (s.sent.map SentFrame.frame ++ s.pending) s.captured
  sized : ∀ x ∈ s.sent, x.size = x.frame.adapted
  fits : ∀ c ∈ s.scaler, c.dst = s.config ∧ c.Fits
  unscaled : s.noAdaptive → s.scaler = none
  phase : s.PhaseFits

/-- The same with a frame in hand, which is sent or, if it is not `direct`, scaled. -/
structure FrameInHand (s : V4L2DmaTrackSource) (frame : CapturedFrame) (direct : Bool) : Prop where
  order : InOrder (s.sent.map SentFrame.frame ++ (s.tasks ++ [frame])) s.captured
  sized : ∀ x ∈ s.sent, x.size = x.frame.adapted
  fits : ∀ c ∈ s.scaler, c.dst = s.config ∧ c.Fits
  unscaled : s.noAdaptive ∨ direct → s.scaler = none
  adapted : frame.adapted = if direct then s.source else s.config

section Steps

variable {s : V4L2DmaTrackSource} {frame : CapturedFrame} {direct : Bool}

open V4L2DmaTrackSource

theorem FrameScaler.call_eq_some {c c' : FrameScaler} (h : c.call = some (frame, c')) :
    ∃ tasks, c.calling = none ∧ c.capturingTasks = frame :: tasks ∧
      c' = { c with capturingTasks := tasks, calling := some frame } := by
  unfold FrameScaler.call at h
  split at h
  case h_1 first tasks hcalling htasks =>
    obtain ⟨rfl, rfl⟩ := Prod.mk.inj (Option.some.inj h)
    exact ⟨tasks, hcalling, htasks, rfl⟩
  case h_2 => cases h

theorem FrameScaler.callReturns_eq_some {c c' : FrameScaler} (h : c.callReturns = some c') :
    c' = { c with calling := none } := by
  obtain ⟨_, -, rfl⟩ := Option.map_eq_some_iff.mp h
  rfl

theorem FrameInHand.proceed (h : FrameInHand s frame direct) :
    TrackOrdered (s.proceed frame direct) := by
  have horder := h.order
  cases direct with
  | true =>
    have hnone : s.scaler = none := h.unscaled (.inr rfl)
    have htasks : s.tasks = [] := by
      rw [tasks, hnone]
      rfl
    rw [htasks, List.nil_append] at horder
    refine ⟨?_, fun x hx => ?_, h.fits, fun _ => hnone, hnone⟩
    · show InOrder ((s.sent ++ [SentFrame.mk frame s.source]).map SentFrame.frame ++ s.tasks) _
      rw [htasks, List.append_nil, List.map_append]
      exact horder
    · rcases List.mem_append.mp hx with hx | hx
      · exact h.sized x hx
      · rw [List.mem_singleton.mp hx]
        exact h.adapted.symm
  | false =>
    by_cases hnone : s.scaler.isNone
    · rw [V4L2DmaTrackSource.proceed, if_neg Bool.false_ne_true, if_pos hnone]
      refine ⟨horder.sublist ?_, h.sized, h.fits, fun hno => h.unscaled (.inl hno), trivial⟩
      exact (List.sublist_append_left _ _).append_left _
    · rw [V4L2DmaTrackSource.proceed, if_neg Bool.false_ne_true, if_neg hnone]
      exact ⟨horder, h.sized, h.fits, fun hno => h.unscaled (.inl hno), h.adapted⟩

/-- A new scaler starts empty, so the frames of the old one stay ahead of the one in hand. -/
theorem trackOrdered_setScaler {scaler : Option FrameScaler}
    (horder : InOrder (s.sent.map SentFrame.frame ++ (s.tasks ++ [frame])) s.captured)
    (hsized : ∀ x ∈ s.sent, x.size = x.frame.adapted) (hold : ∀ c ∈ s.scaler, c.Fits)
    (hnew : ∀ c ∈ scaler, c.dst = s.config ∧ c.capturingTasks = [] ∧ c.calling = none)
    (hadapted : frame.adapted = if direct then s.source else s.config)
    (hnone : s.noAdaptive ∨ direct → scaler = none) :
    TrackOrdered (s.setScaler scaler frame direct) := by
  have hfits : ∀ c ∈ scaler, c.dst = s.config ∧ c.Fits := by
    intro c hc
    obtain ⟨hdst, hempty, -⟩ := hnew c hc
    refine ⟨hdst, fun x hx => ?_⟩
    rw [hempty] at hx
    exact absurd hx List.not_mem_nil
  unfold V4L2DmaTrackSource.setScaler
  split
  case h_1 hscaler =>
    refine FrameInHand.proceed ⟨?_, hsized, hfits, hnone, hadapted⟩
    have hempty : ({ s with scaler := scaler } : V4L2DmaTrackSource).tasks = s.tasks := by
      rw [tasks, tasks, hscaler]
      cases scaler with
      | none => rfl
      | some c => exact (hnew c rfl).2.1
    rw [hempty]
    exact horder
  case h_2 old hsome =>
    rw [tasks, hsome] at horder
    exact ⟨horder, hsized, hfits, fun hno => hnone (.inl hno), hold old hsome, hadapted,
      fun c hc => (hnew c hc).2, fun hdirect => hnone (.inr hdirect)⟩

theorem TrackOrdered.onFrameCaptured (h : TrackOrdered s) (hidle : s.phase = .idle)
    (adapt : Option Resolution) (yuvDmabuf creates : Bool) :
    TrackOrdered (s.onFrameCaptured adapt yuvDmabuf creates) := by
  have hpending : s.pending = s.tasks := by
    rw [pending, hidle]
  have horder := h.order
  rw [hpending] at horder
  have hnext : ∀ adapted, InOrder
      (s.sent.map SentFrame.frame ++ (s.tasks ++ [⟨s.captured, adapted⟩])) (s.captured + 1) :=
    fun adapted => List.append_assoc .. ▸ horder.append_next adapted
  show TrackOrdered (if s.noAdaptive then _ else _)
  split
  case isTrue hno =>
    exact FrameInHand.proceed ⟨hnext _, h.sized, h.fits, fun _ => h.unscaled hno, rfl⟩
  case isFalse hadaptive =>
    cases adapt with
    | none =>
      refine ⟨?_, h.sized, h.fits, h.unscaled, ?_⟩
      · rw [pending, hidle]
        exact horder.succ
      · rw [PhaseFits, hidle]
        trivial
    | some adapted =>
      have hold : ∀ c ∈ s.scaler, c.Fits := fun c hc => (h.fits c hc).2
      show TrackOrdered (if adapted = s.source ∧ yuvDmabuf then _ else _)
      split
      case isTrue hfull =>
        exact trackOrdered_setScaler (hnext _) h.sized hold (by rintro _ ⟨⟩) hfull.1 fun _ => rfl
      case isFalse =>
        split
        case isTrue =>
          refine trackOrdered_setScaler (hnext _) h.sized hold ?_ rfl ?_
          case refine_2 => exact fun hnone => absurd hnone (not_or.mpr ⟨hadaptive, by rintro ⟨⟩⟩)
          intro c hc
          cases creates with
          | true =>
            obtain rfl := Option.some.inj hc
            exact ⟨rfl, rfl, rfl⟩
          | false => cases hc
        case isFalse hsame =>
          have hconfig : adapted = s.config := not_not.mp fun hne => hsame (.inr hne)
          exact FrameInHand.proceed ⟨hnext _, h.sized, h.fits,
            fun hnone => absurd hnone (not_or.mpr ⟨hadaptive, by rintro ⟨⟩⟩), hconfig⟩

/-- A task that is called back moves from the pending frames to the sent ones. -/
theorem inOrder_call {sent : List SentFrame} {tasks rest : List CapturedFrame} {n : ℕ}
    {size : Resolution}
    (h : InOrder (sent.map SentFrame.frame ++ (frame :: tasks ++ rest)) n) :
    InOrder ((sent ++ [SentFrame.mk frame size]).map SentFrame.frame ++ (tasks ++ rest)) n := by
  rw [List.map_append, List.map_singleton, List.append_assoc]
  exact h

theorem sized_append {size : Resolution} (h : ∀ x ∈ s.sent, x.size = x.frame.adapted)
    (hsize : frame.adapted = size) :
    ∀ x ∈ s.sent ++ [SentFrame.mk frame size], x.size = x.frame.adapted := by
  intro x hx
  rcases List.mem_append.mp hx with hx | hx
  · exact h x hx
  · rw [List.mem_singleton.mp hx]
    exact hsize.symm

theorem FrameScaler.Fits.tail {c c' : FrameScaler} {tasks : List CapturedFrame} (h : c.Fits)
    (htasks : c.capturingTasks = frame :: tasks) (hdst : c'.dst = c.dst)
    (htail : c'.capturingTasks = tasks) : frame.adapted = c.dst ∧ c'.Fits := by
  unfold FrameScaler.Fits at h ⊢
  rw [htasks, List.forall_mem_cons] at h
  rw [hdst, htail]
  exact h

theorem TrackOrdered.emplaceBuffer (h : TrackOrdered s) {c : FrameScaler}
    (hphase : s.phase = .emplacing frame) (hscaler : s.scaler = some c) (accepted : Bool) :
    TrackOrdered
      { s with phase := .idle, scaler := some (c.emplaceBuffer frame accepted) } := by
  have horder := h.order
  rw [pending, hphase, tasks, hscaler] at horder
  have hadapted := h.phase
  rw [PhaseFits, hphase] at hadapted
  obtain ⟨hdst, hfits⟩ := h.fits c hscaler
  have hadaptive : ¬ s.noAdaptive := fun hno => nomatch hscaler.symm.trans (h.unscaled hno)
  cases accepted with
  | true =>
    refine ⟨horder, h.sized, ?_, fun hno => absurd hno hadaptive, trivial⟩
    rintro _ ⟨⟩
    refine ⟨hdst, fun x hx => ?_⟩
    rcases List.mem_append.mp hx with hx | hx
    · exact hfits x hx
    · rw [List.mem_singleton.mp hx]
      exact hadapted.trans hdst.symm
  | false =>
    refine ⟨horder.sublist ?_, h.sized, ?_, fun hno => absurd hno hadaptive, trivial⟩
    · exact (List.sublist_append_left _ _).append_left _
    · rintro _ ⟨⟩
      exact ⟨hdst, hfits⟩

/-- A scaler that has something to do was not just created, so its tasks are the oldest of the
    pending frames. -/
theorem TrackOrdered.pending_scaler (h : TrackOrdered s) {c : FrameScaler}
    (hscaler : s.scaler = some c) (hactive : c.capturingTasks ≠ [] ∨ c.calling ≠ none) :
    ∃ rest, ∀ (c' : FrameScaler) (sent : List SentFrame),
      { s with scaler := some c', sent := sent }.pending = c'.capturingTasks ++ rest ∧
        { s with scaler := some c', sent := sent }.PhaseFits := by
  have hfit := h.phase
  unfold PhaseFits at hfit
  unfold pending PhaseFits tasks
  dsimp only
  cases hphase : s.phase with
  | idle => exact ⟨[], fun _ _ => ⟨(List.append_nil _).symm, trivial⟩⟩
  | resetting old frame direct =>
    rw [hphase] at hfit
    obtain ⟨hempty, hstill⟩ := hfit.2.2.1 c hscaler
    exact absurd hactive (not_or.mpr ⟨not_not.mpr hempty, not_not.mpr hstill⟩)
  | emplacing frame =>
    rw [hphase] at hfit
    exact ⟨[frame], fun _ _ => ⟨rfl, hfit⟩⟩
  | sending frame =>
    rw [hphase] at hfit
    exact nomatch hscaler.symm.trans hfit

/-- The worker of the scaler in use calls back. -/
theorem TrackOrdered.workerCalls (h : TrackOrdered s) {c c' : FrameScaler}
    (hscaler : s.scaler = some c) (hcall : c.call = some (frame, c')) :
    TrackOrdered ({ s with scaler := some c' }.workerSends c frame) := by
  obtain ⟨tasks, -, htasks, rfl⟩ := FrameScaler.call_eq_some hcall
  obtain ⟨hdst, hfits⟩ := h.fits c hscaler
  obtain ⟨hadapted, hrest⟩ := @FrameScaler.Fits.tail frame c
    { c with capturingTasks := tasks, calling := some frame } tasks hfits htasks rfl rfl
  have hadaptive : ¬ s.noAdaptive := fun hno => nomatch hscaler.symm.trans (h.unscaled hno)
  have hactive : c.capturingTasks ≠ [] := htasks ▸ List.cons_ne_nil _ _
  obtain ⟨rest, hpending⟩ := h.pending_scaler hscaler (.inl hactive)
  obtain ⟨hnext, hphase⟩ := hpending { c with capturingTasks := tasks, calling := some frame }
    (s.sent ++ [⟨frame, c.dst⟩])
  refine ⟨?_, sized_append h.sized hadapted, ?_, fun hno => absurd hno hadaptive, hphase⟩
  · have horder := h.order
    have hbefore : s.pending = frame :: tasks ++ rest := by
      have heq := (hpending c s.sent).1
      rw [← hscaler, htasks] at heq
      exact heq
    rw [hbefore] at horder
    show InOrder (_ ++ pending { s with scaler := some _, sent := _ }) s.captured
    rw [hnext]
    exact inOrder_call horder
  · rintro _ ⟨⟩
    exact ⟨hdst, hrest⟩

theorem TrackOrdered.workerReturns (h : TrackOrdered s) {c c' : FrameScaler}
    (hscaler : s.scaler = some c) (hreturns : c.callReturns = some c') :
    TrackOrdered { s with scaler := some c' } := by
  obtain ⟨frame, hcalling, rfl⟩ := Option.map_eq_some_iff.mp hreturns
  have hactive : c.calling ≠ none := by
    rw [hcalling]
    exact Option.some_ne_none frame
  obtain ⟨rest, hpending⟩ := h.pending_scaler hscaler (.inr hactive)
  obtain ⟨hnext, hphase⟩ := hpending { c with calling := none } s.sent
  refine ⟨?_, h.sized, ?_, fun hno => ?_, hphase⟩
  · have horder := h.order
    have hbefore : s.pending = c.capturingTasks ++ rest := by
      have heq := (hpending c s.sent).1
      rw [← hscaler] at heq
      exact heq
    rw [hbefore] at horder
    rw [hnext]
    exact horder
  · rintro _ ⟨⟩
    exact h.fits c hscaler
  · exact nomatch hscaler.symm.trans (h.unscaled hno)

/-- While the old scaler is destroyed, its frames come before the one in hand. -/
theorem TrackOrdered.resetting (h : TrackOrdered s) {old : FrameScaler}
    (hphase : s.phase = .resetting old frame direct) :
    InOrder (s.sent.map SentFrame.frame ++ (old.capturingTasks ++ [frame])) s.captured ∧
      old.Fits ∧ frame.adapted = (if direct then s.source else s.config) ∧
      (∀ c ∈ s.scaler, c.capturingTasks = [] ∧ c.calling = none) ∧
      (direct → s.scaler = none) := by
  have horder := h.order
  have hfit := h.phase
  rw [pending, hphase] at horder
  rw [PhaseFits, hphase] at hfit
  exact ⟨horder, hfit⟩

theorem TrackOrdered.oldWorkerCalls (h : TrackOrdered s) {old old' : FrameScaler}
    {sent : CapturedFrame} (hphase : s.phase = .resetting old frame direct)
    (hcall : old.call = some (sent, old')) :
    TrackOrdered ({ s with phase := .resetting old' frame direct }.workerSends old sent) := by
  obtain ⟨tasks, -, htasks, rfl⟩ := FrameScaler.call_eq_some hcall
  obtain ⟨horder, hfits, hrest⟩ := h.resetting hphase
  obtain ⟨hadapted, htail⟩ := @FrameScaler.Fits.tail sent old
    { old with capturingTasks := tasks, calling := some sent } tasks hfits htasks rfl rfl
  refine ⟨?_, sized_append h.sized hadapted, h.fits, h.unscaled, htail, hrest⟩
  rw [htasks] at horder
  exact inOrder_call horder

theorem TrackOrdered.oldWorkerReturns (h : TrackOrdered s) {old old' : FrameScaler}
    (hphase : s.phase = .resetting old frame direct) (hreturns : old.callReturns = some old') :
    TrackOrdered { s with phase := .resetting old' frame direct } := by
  obtain rfl := FrameScaler.callReturns_eq_some hreturns
  obtain ⟨horder, hfit⟩ := h.resetting hphase
  exact ⟨horder, h.sized, h.fits, h.unscaled, hfit⟩

/-- When the old scaler is gone, the frame in hand comes next. -/
theorem TrackOrdered.joined (h : TrackOrdered s) {old : FrameScaler}
    (hphase : s.phase = .resetting old frame direct) : TrackOrdered (s.proceed frame direct) := by
  obtain ⟨horder, -, hadapted, hnew, hdirect⟩ := h.resetting hphase
  refine FrameInHand.proceed ⟨?_, h.sized, h.fits, fun hnone => ?_, hadapted⟩
  · have hempty : s.tasks = [] := by
      unfold V4L2DmaTrackSource.tasks
      cases hscaler : s.scaler with
      | none => rfl
      | some c => exact (hnew c hscaler).1
    rw [hempty]
    exact horder.sublist ((List.sublist_append_right _ _).append_left _)
  · exact hnone.elim h.unscaled hdirect

theorem TrackOrdered.step (h : TrackOrdered s) {a : TrackEvent} {s' : V4L2DmaTrackSource}
    (hs : trackStep s a = some s') : TrackOrdered s' := by
  cases a with
  | onFrameCaptured adapt yuvDmabuf creates =>
    obtain ⟨hidle, hs⟩ := Option.ite_none_right_eq_some.mp hs
    obtain rfl := Option.some.inj hs
    exact h.onFrameCaptured hidle adapt yuvDmabuf creates
  | joined =>
    rw [trackStep] at hs
    split at hs
    case h_1 old frame direct hphase =>
      obtain ⟨-, hs⟩ := Option.ite_none_right_eq_some.mp hs
      obtain rfl := Option.some.inj hs
      exact h.joined hphase
    case h_2 => cases hs
  | emplaceBuffer accepted =>
    rw [trackStep] at hs
    split at hs
    case h_1 frame c hphase hscaler =>
      obtain rfl := Option.some.inj hs
      exact h.emplaceBuffer hphase hscaler accepted
    case h_2 => cases hs
  | onFrameReturns =>
    rw [trackStep] at hs
    split at hs
    case h_1 frame hphase =>
      obtain rfl := Option.some.inj hs
      have horder := h.order
      rw [pending, hphase] at horder
      exact ⟨horder, h.sized, h.fits, h.unscaled, trivial⟩
    case h_2 => cases hs
  | workerCalls =>
    obtain ⟨c, hscaler, hs⟩ := Option.bind_eq_some_iff.mp hs
    obtain ⟨⟨frame, c'⟩, hcall, rfl⟩ := Option.map_eq_some_iff.mp hs
    exact h.workerCalls hscaler hcall
  | workerReturns =>
    obtain ⟨c, hscaler, hs⟩ := Option.bind_eq_some_iff.mp hs
    obtain ⟨c', hreturns, rfl⟩ := Option.map_eq_some_iff.mp hs
    exact h.workerReturns hscaler hreturns
  | oldWorkerCalls =>
    rw [trackStep] at hs
    split at hs
    case h_1 old frame direct hphase =>
      obtain ⟨⟨sent, old'⟩, hcall, rfl⟩ := Option.map_eq_some_iff.mp hs
      exact h.oldWorkerCalls hphase hcall
    case h_2 => cases hs
  | oldWorkerReturns =>
    rw [trackStep] at hs
    split at hs
    case h_1 old frame direct hphase =>
      obtain ⟨old', hreturns, rfl⟩ := Option.map_eq_some_iff.mp hs
      exact h.oldWorkerReturns hphase hreturns
    case h_2 => cases hs

/-- The invariant is all that is asked for. -/
theorem TrackOrdered.toFramesInOrder (h : TrackOrdered s) : FramesInOrder s := by
  refine ⟨?_, h.sized, ?_⟩
  · have hsent := (h.order.sublist (List.sublist_append_left _ _)).increasing
    rw [List.pairwise_map] at hsent
    exact hsent
  · have hfit := h.phase
    have hone : ∀ calling : Option CapturedFrame, calling.toList.length ≤ 1 := by
      intro calling
      cases calling with
      | none => exact Nat.zero_le 1
      | some frame => exact Nat.le_refl 1
    unfold PhaseFits at hfit
    unfold inOnFrame
    cases hphase : s.phase with
    | idle => exact hone _
    | emplacing frame => exact hone _
    | resetting old frame direct =>
      rw [hphase] at hfit
      have hnone : s.scaler.bind (·.calling) = none := by
        cases hscaler : s.scaler with
        | none => rfl
        | some c => exact (hfit.2.2.1 c hscaler).2
      rw [hnone, Option.toList_none, List.append_nil]
      exact hone _
    | sending frame =>
      rw [hphase] at hfit
      rw [show s.scaler = none from hfit]
      exact Nat.le_refl 1

end Steps

/-- A frame that is scaled, one of another size, and one of the full size that waits for both. -/
def threeSizes : List TrackEvent :=
  [.onFrameCaptured (some (640, 360)) true true, .emplaceBuffer true,
    .onFrameCaptured (some (320, 180)) true true, .oldWorkerCalls, .oldWorkerReturns, .joined,
    .emplaceBuffer true, .workerCalls, .onFrameCaptured (some (1280, 720)) true false,
    .oldWorkerReturns, .joined, .onFrameReturns]

end PiWebrtc.Track
