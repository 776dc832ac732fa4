import PiWebrtc.Lib.Machine
import Mathlib.Data.Finmap

namespace PiWebrtc.Capturer

open Transition

/-!
# The libcamera capturer

The camera has a few requests, each with one buffer; it completes the oldest one, and
`RequestComplete` passes its frame on, clears the request, and queues it again.  `SetControls`,
on any thread, writes into `controls_` and raises `is_controls_updated_`, which makes the next
`RequestComplete` put all of `controls_` into the request that it queues.

* `controlsInEffect` — what the camera captures with is always what some number of the calls of
  `SetControls` come to, in their order; and it comprises every call once one more frame than
  there are requests came after it.
* `requestsInTurn` — the requests come in turn, and the one whose frame is passed on is not with
  the camera.

`StartCapture` empties `controls_` once the camera has them.  What the frames are passed on to is
left out, and so are a request that is cancelled, which ends the program, and one that the camera
does not take back.
-/

/-- `libcamera::ControlList`. -/
abbrev ControlList := Finmap fun _ : ℤ => ℤ

/-- A request: the buffer that it has, the controls that it carries, and, as history, the number
    of calls of `SetControls` that these comprise. -/
structure CameraRequest where
  index : ℕ
  controls : ControlList := ∅
  comprises : Option ℕ := none
  deriving DecidableEq

/-- Where the camera's thread is. -/
inductive RequestPhase where
  | idle
  /-- In `RequestComplete`, before its critical section. -/
  | passing (index : ℕ)
  /-- Before `queueRequest`. -/
  | queueing (request : CameraRequest)
  deriving DecidableEq

/-- The capturer; the requests that the camera has, the oldest first; the controls that it
    captures with; and, as history, the calls of `SetControls`, how many of them are in effect,
    and the buffers of the completed requests. -/
structure LibcameraCapturer where
  controls : ControlList := ∅
  isControlsUpdated : Bool := false
  phase : RequestPhase := .idle
  queued : List CameraRequest
  inEffect : ControlList
  sets : List (ℤ × ℤ) := []
  setsInEffect : ℕ := 0
  completed : List ℕ := []
  deriving DecidableEq

/-- A caller of `SetControls`, or the camera's thread. -/
inductive CameraEvent where
  | setControls (key value : ℤ)
  /-- The camera completes its oldest request. -/
  | requestComplete
  /-- `reuse`, and the critical section. -/
  | mergeControls
  | queueRequest
  deriving DecidableEq, Repr

/-- One step. -/
def cameraStep (s : LibcameraCapturer) : CameraEvent → Option LibcameraCapturer
  | .setControls key value =>
    some { s with
      controls := s.controls.insert key value
      isControlsUpdated := true
      sets := s.sets ++ [(key, value)] }
  | .requestComplete =>
    match s.phase, s.queued with
    | .idle, request :: queued =>
      some { s with
        phase := .passing request.index
        queued := queued
        inEffect := request.controls ∪ s.inEffect
        setsInEffect := request.comprises.getD s.setsInEffect
        completed := s.completed ++ [request.index] }
    | _, _ => none
  | .mergeControls =>
    match s.phase with
    | .passing index =>
      if s.isControlsUpdated then
        some { s with
          phase := .queueing ⟨index, s.controls, some s.sets.length⟩
          isControlsUpdated := false }
      else some { s with phase := .queueing ⟨index, ∅, none⟩ }
    | _ => none
  | .queueRequest =>
    match s.phase with
    | .queueing request => some { s with phase := .idle, queued := s.queued ++ [request] }
    | _ => none

/-- A capturer after `StartCapture`, with the controls that the camera was started with. -/
def libcameraCapturer (bufferCount : ℕ) (initial : ControlList) :
    Machine LibcameraCapturer CameraEvent where
  init :=
    { queued := (List.range bufferCount).map fun index => { index := index }
      inEffect := initial }
  step := cameraStep

/-! ### What the calls of `SetControls` come to -/

/-- The controls after these calls. -/
def controlsOf (sets : List (ℤ × ℤ)) : ControlList :=
  sets.foldl (fun controls (key, value) => controls.insert key value) ∅

theorem controlsOf_append (sets : List (ℤ × ℤ)) (key value : ℤ) :
    controlsOf (sets ++ [(key, value)]) = (controlsOf sets).insert key value :=
  List.foldl_append

theorem mem_controlsOf_append {sets : List (ℤ × ℤ)} {key : ℤ} (h : key ∈ controlsOf sets)
    (more : List (ℤ × ℤ)) : key ∈ controlsOf (sets ++ more) := by
  induction more using List.reverseRecOn with
  | nil => rwa [List.append_nil]
  | append_singleton more x ih =>
    rw [← List.append_assoc, controlsOf_append, Finmap.mem_insert]
    exact .inr ih

/-- Later controls cover earlier ones. -/
theorem controlsOf_union {sets : List (ℤ × ℤ)} {m n : ℕ} (hle : m ≤ n) (initial : ControlList) :
    controlsOf (sets.take n) ∪ (controlsOf (sets.take m) ∪ initial) =
      controlsOf (sets.take n) ∪ initial := by
  refine Finmap.ext_lookup fun key => ?_
  by_cases hkey : key ∈ controlsOf (sets.take n)
  · rw [Finmap.lookup_union_left hkey, Finmap.lookup_union_left hkey]
  · have hearlier : key ∉ controlsOf (sets.take m) := by
      refine fun h => hkey ?_
      rw [← Nat.add_sub_cancel' hle, List.take_add]
      exact mem_controlsOf_append h _
    rw [Finmap.lookup_union_right hkey, Finmap.lookup_union_right hkey,
      Finmap.lookup_union_right hearlier]

/-! ### The controls on their way -/

namespace LibcameraCapturer

/-- The requests that the camera has or is about to get, the oldest first. -/
def inFlight (s : LibcameraCapturer) : List CameraRequest :=
  match s.phase with
  | .queueing request => s.queued ++ [request]
  | .idle | .passing _ => s.queued

/-- The number of requests whose frames are being passed on. -/
def passing (s : LibcameraCapturer) : ℕ :=
  match s.phase with
  | .passing _ => 1
  | .idle | .queueing _ => 0

/-- How many calls of `SetControls` are in effect, now and after each request that brings more. -/
def levels (s : LibcameraCapturer) : List ℕ :=
  s.setsInEffect :: s.inFlight.filterMap CameraRequest.comprises

end LibcameraCapturer

/-- The invariant: the requests carry what the first calls come to, ever more of them, and all of
    them if nothing is left to be merged. -/
structure ControlsTracked (bufferCount : ℕ) (initial : ControlList) (s : LibcameraCapturer) :
    Prop where
  controls : s.controls = controlsOf s.sets
  inEffect : s.inEffect = controlsOf (s.sets.take s.setsInEffect) ∪ initial
  carried : ∀ r ∈ s.inFlight, r.controls = r.comprises.elim ∅ fun n => controlsOf (s.sets.take n)
  ordered : s.levels.Pairwise (· ≤ ·)
  le : ∀ n ∈ s.levels, n ≤ s.sets.length
  current : s.isControlsUpdated = false → s.sets.length ∈ s.levels
  count : s.inFlight.length + s.passing = bufferCount

/-- The first `n` calls are in effect when `k` more requests were completed. -/
def DueWithin (n k : ℕ) (s : LibcameraCapturer) : Prop :=
  n ≤ s.sets.length ∧
    ((∃ m ∈ s.setsInEffect :: (s.inFlight.take k).filterMap CameraRequest.comprises, n ≤ m) ∨
      s.isControlsUpdated ∧ s.inFlight.length < k)

section Steps

variable {bufferCount : ℕ} {initial : ControlList} {s s' : LibcameraCapturer}

theorem controlsTracked_init (bufferCount : ℕ) (initial : ControlList) :
    ControlsTracked bufferCount initial (libcameraCapturer bufferCount initial).init := by
  have hnone : ∀ indices : List ℕ, (indices.map fun index => ({ index := index } : CameraRequest)
      ).filterMap CameraRequest.comprises = [] := by
    intro indices
    rw [List.filterMap_map]
    exact List.filterMap_eq_nil_iff.mpr fun _ _ => rfl
  have hlevels : (libcameraCapturer bufferCount initial).init.levels = [0] :=
    congrArg (0 :: ·) (hnone _)
  refine ⟨rfl, Finmap.empty_union.symm, fun r hr => ?_, ?_, ?_, fun _ => ?_, ?_⟩
  · obtain ⟨_, -, rfl⟩ := List.mem_map.mp hr
    rfl
  · rw [hlevels]
    exact List.pairwise_singleton _ _
  · rw [hlevels]
    intro n hn
    exact (List.mem_singleton.mp hn).le
  · rw [hlevels]
    exact List.mem_singleton.mpr rfl
  · show ((List.range bufferCount).map _).length + 0 = bufferCount
    rw [List.length_map, List.length_range, Nat.add_zero]

/-- What a step does to the requests on their way, and to what is in effect. -/
theorem cameraStep_cases {a : CameraEvent} (hs : cameraStep s a = some s') :
    (∃ key value, a = .setControls key value ∧ s' = { s with
      controls := s.controls.insert key value
      isControlsUpdated := true
      sets := s.sets ++ [(key, value)] }) ∨
    (∃ request queued, a = .requestComplete ∧ s.phase = .idle ∧ s.queued = request :: queued ∧
      s' = { s with
        phase := .passing request.index
        queued := queued
        inEffect := request.controls ∪ s.inEffect
        setsInEffect := request.comprises.getD s.setsInEffect
        completed := s.completed ++ [request.index] }) ∨
    (∃ index, a = .mergeControls ∧ s.phase = .passing index ∧ s.isControlsUpdated = true ∧
      s' = { s with
        phase := .queueing ⟨index, s.controls, some s.sets.length⟩
        isControlsUpdated := false }) ∨
    (∃ index, a = .mergeControls ∧ s.phase = .passing index ∧ s.isControlsUpdated = false ∧
      s' = { s with phase := .queueing ⟨index, ∅, none⟩ }) ∨
    (∃ request, a = .queueRequest ∧ s.phase = .queueing request ∧
      s' = { s with phase := .idle, queued := s.queued ++ [request] }) := by
  cases a with
  | setControls key value => exact .inl ⟨key, value, rfl, (Option.some.inj hs).symm⟩
  | requestComplete =>
    rw [cameraStep] at hs
    split at hs
    case h_1 request queued hphase hqueued =>
      exact .inr (.inl ⟨request, queued, rfl, hphase, hqueued, (Option.some.inj hs).symm⟩)
    case h_2 => cases hs
  | mergeControls =>
    rw [cameraStep] at hs
    split at hs
    case h_1 index hphase =>
      split at hs
      case isTrue hupdated =>
        exact .inr (.inr (.inl ⟨index, rfl, hphase, hupdated, (Option.some.inj hs).symm⟩))
      case isFalse hupdated =>
        exact .inr (.inr (.inr (.inl ⟨index, rfl, hphase, Bool.eq_false_iff.mpr hupdated,
          (Option.some.inj hs).symm⟩)))
    case h_2 => cases hs
  | queueRequest =>
    rw [cameraStep] at hs
    split at hs
    case h_1 request hphase =>
      exact .inr (.inr (.inr (.inr ⟨request, rfl, hphase, (Option.some.inj hs).symm⟩)))
    case h_2 => cases hs

theorem inFlight_idle (h : s.phase = .idle) : s.inFlight = s.queued := by
  rw [LibcameraCapturer.inFlight, h]

theorem inFlight_passing {index : ℕ} (h : s.phase = .passing index) : s.inFlight = s.queued := by
  rw [LibcameraCapturer.inFlight, h]

theorem inFlight_queueing {request : CameraRequest} (h : s.phase = .queueing request) :
    s.inFlight = s.queued ++ [request] := by
  rw [LibcameraCapturer.inFlight, h]

theorem controlsOf_take_append {sets : List (ℤ × ℤ)} {n : ℕ} (hle : n ≤ sets.length)
    (x : ℤ × ℤ) : controlsOf ((sets ++ [x]).take n) = controlsOf (sets.take n) := by
  rw [List.take_append_of_le_length hle]

theorem ControlsTracked.setControls (h : ControlsTracked bufferCount initial s) (key value : ℤ) :
    ControlsTracked bufferCount initial { s with
      controls := s.controls.insert key value
      isControlsUpdated := true
      sets := s.sets ++ [(key, value)] } := by
  refine ⟨?_, ?_, fun r hr => ?_, h.ordered, fun n hn => ?_, by rintro ⟨⟩, h.count⟩
  · rw [controlsOf_append, h.controls]
  · rw [controlsOf_take_append (h.le _ (List.mem_cons_self ..))]
    exact h.inEffect
  · rw [h.carried r hr]
    cases hcomprises : r.comprises with
    | none => rfl
    | some n =>
      have hn : n ∈ s.levels :=
        List.mem_cons_of_mem _ (List.mem_filterMap.mpr ⟨r, hr, hcomprises⟩)
      exact (controlsOf_take_append (h.le n hn) _).symm
  · rw [List.length_append]
    exact Nat.le_add_right_of_le (h.le n hn)

/-- The levels after the oldest request are the same, or the first one is left behind. -/
theorem levels_requestComplete {request : CameraRequest} {queued : List CameraRequest}
    (hphase : s.phase = .idle) (hqueued : s.queued = request :: queued) :
    s.levels = s.setsInEffect :: (request.comprises.toList ++
      queued.filterMap CameraRequest.comprises) := by
  rw [LibcameraCapturer.levels, inFlight_idle hphase, hqueued]
  cases hcomprises : request.comprises with
  | none => rw [List.filterMap_cons_none hcomprises, Option.toList_none, List.nil_append]
  | some n =>
    rw [List.filterMap_cons_some hcomprises, Option.toList_some, List.singleton_append]

theorem ControlsTracked.requestComplete (h : ControlsTracked bufferCount initial s)
    {request : CameraRequest} {queued : List CameraRequest} (hphase : s.phase = .idle)
    (hqueued : s.queued = request :: queued) :
    ControlsTracked bufferCount initial { s with
      phase := .passing request.index
      queued := queued
      inEffect := request.controls ∪ s.inEffect
      setsInEffect := request.comprises.getD s.setsInEffect
      completed := s.completed ++ [request.index] } := by
  have hlevels := levels_requestComplete hphase hqueued
  have hflight : s.inFlight = request :: queued := (inFlight_idle hphase).trans hqueued
  have hcarried := h.carried request (hflight ▸ List.mem_cons_self ..)
  have hordered := h.ordered
  have hle := h.le
  have hcurrent := h.current
  have hcount := h.count
  rw [hlevels] at hordered hle hcurrent
  rw [hflight, LibcameraCapturer.passing, hphase, List.length_cons] at hcount
  have hrest : ∀ r ∈ queued,
      r.controls = r.comprises.elim ∅ fun n => controlsOf (s.sets.take n) :=
    fun r hr => h.carried r (hflight ▸ List.mem_cons_of_mem _ hr)
  cases hcomprises : request.comprises with
  | none =>
    rw [hcomprises] at hordered hle hcurrent hcarried
    refine ⟨h.controls, ?_, hrest, hordered, hle, hcurrent, hcount⟩
    rw [hcarried]
    exact Finmap.empty_union.trans h.inEffect
  | some n =>
    rw [hcomprises] at hordered hle hcurrent hcarried
    obtain ⟨hfirst, hordered⟩ := List.pairwise_cons.mp hordered
    refine ⟨h.controls, ?_, hrest, hordered, fun m hm => hle m (List.mem_cons_of_mem _ hm),
      fun hmerged => ?_, hcount⟩
    · rw [hcarried, h.inEffect]
      exact controlsOf_union (hfirst n (List.mem_cons_self ..)) initial
    · rcases List.mem_cons.mp (hcurrent hmerged) with hall | hmem
      · have hn : n = s.sets.length :=
          Nat.le_antisymm (hle n (List.mem_cons_of_mem _ (List.mem_cons_self ..)))
            (hall ▸ hfirst n (List.mem_cons_self ..))
        exact hn ▸ List.mem_cons_self ..
      · exact hmem

/-- A request that is added to the end carries nothing, or everything. -/
theorem ControlsTracked.mergeControls (h : ControlsTracked bufferCount initial s) {index : ℕ}
    (hphase : s.phase = .passing index) :
    (s.isControlsUpdated = true → ControlsTracked bufferCount initial { s with
      phase := .queueing ⟨index, s.controls, some s.sets.length⟩
      isControlsUpdated := false }) ∧
    (s.isControlsUpdated = false → ControlsTracked bufferCount initial
      { s with phase := .queueing ⟨index, ∅, none⟩ }) := by
  have hflight := inFlight_passing hphase
  have hcount := h.count
  have hcarried := h.carried
  have hlevels : s.levels = s.setsInEffect :: s.queued.filterMap CameraRequest.comprises := by
    rw [LibcameraCapturer.levels, hflight]
  rw [hflight, LibcameraCapturer.passing, hphase] at hcount
  rw [hflight] at hcarried
  constructor
  · intro hupdated
    have hnew : { s with
        phase := .queueing ⟨index, s.controls, some s.sets.length⟩
        isControlsUpdated := false }.levels = s.levels ++ [s.sets.length] := by
      rw [hlevels]
      exact congrArg (s.setsInEffect :: ·) List.filterMap_append
    refine ⟨h.controls, h.inEffect, ?_, ?_, ?_, fun _ => ?_, ?_⟩
    · intro r hr
      rcases List.mem_append.mp hr with hr | hr
      · exact hcarried r hr
      · rw [List.mem_singleton.mp hr]
        show s.controls = controlsOf (s.sets.take s.sets.length)
        rw [List.take_length, h.controls]
    · rw [hnew, List.pairwise_append]
      refine ⟨h.ordered, List.pairwise_singleton _ _, fun m hm n hn => ?_⟩
      rw [List.mem_singleton.mp hn]
      exact h.le m hm
    · rw [hnew]
      intro n hn
      rcases List.mem_append.mp hn with hn | hn
      · exact h.le n hn
      · exact (List.mem_singleton.mp hn).le
    · rw [hnew]
      exact List.mem_append_right _ (List.mem_singleton.mpr rfl)
    · show (s.queued ++ [_]).length + 0 = bufferCount
      rw [List.length_append]
      exact hcount
  · intro hmerged
    have hnew : { s with phase := .queueing ⟨index, ∅, none⟩ }.levels = s.levels := by
      rw [hlevels]
      refine congrArg (s.setsInEffect :: ·) (List.filterMap_append.trans ?_)
      exact List.append_nil _
    refine ⟨h.controls, h.inEffect, ?_, ?_, ?_, ?_, ?_⟩
    · intro r hr
      rcases List.mem_append.mp hr with hr | hr
      · exact hcarried r hr
      · rw [List.mem_singleton.mp hr]
        rfl
    · rw [hnew]
      exact h.ordered
    · rw [hnew]
      exact h.le
    · rw [hnew]
      exact h.current
    · show (s.queued ++ [_]).length + 0 = bufferCount
      rw [List.length_append]
      exact hcount

theorem ControlsTracked.queueRequest (h : ControlsTracked bufferCount initial s)
    {request : CameraRequest} (hphase : s.phase = .queueing request) :
    ControlsTracked bufferCount initial
      { s with phase := .idle, queued := s.queued ++ [request] } := by
  have hflight := inFlight_queueing hphase
  have hcarried := h.carried
  have hcount := h.count
  have hlevels : s.levels =
      s.setsInEffect :: (s.queued ++ [request]).filterMap CameraRequest.comprises := by
    rw [LibcameraCapturer.levels, hflight]
  have hordered := h.ordered
  have hle := h.le
  have hcurrent := h.current
  rw [hlevels] at hordered hle hcurrent
  rw [hflight] at hcarried
  rw [hflight, LibcameraCapturer.passing, hphase] at hcount
  exact ⟨h.controls, h.inEffect, hcarried, hordered, hle, hcurrent, hcount⟩

theorem ControlsTracked.step (h : ControlsTracked bufferCount initial s) {a : CameraEvent}
    (hs : cameraStep s a = some s') : ControlsTracked bufferCount initial s' := by
  rcases cameraStep_cases hs with ⟨key, value, -, rfl⟩ |
    ⟨request, queued, -, hphase, hqueued, rfl⟩ | ⟨index, -, hphase, hupdated, rfl⟩ |
    ⟨index, -, hphase, hmerged, rfl⟩ | ⟨request, -, hphase, rfl⟩
  · exact h.setControls key value
  · exact h.requestComplete hphase hqueued
  · exact (h.mergeControls hphase).1 hupdated
  · exact (h.mergeControls hphase).2 hmerged
  · exact h.queueRequest hphase

/-! ### How long it takes -/

/-- Every call so far is due within one completion more than there are requests. -/
theorem ControlsTracked.dueWithin (h : ControlsTracked bufferCount initial s) :
    DueWithin s.sets.length (bufferCount + 1) s := by
  refine ⟨le_rfl, ?_⟩
  have hshort : s.inFlight.length < bufferCount + 1 :=
    Nat.lt_succ_of_le (h.count ▸ Nat.le_add_right _ _)
  cases hupdated : s.isControlsUpdated with
  | true => exact .inr ⟨rfl, hshort⟩
  | false =>
    refine .inl ⟨s.sets.length, ?_, le_rfl⟩
    rw [List.take_of_length_le hshort.le]
    exact h.current hupdated

theorem DueWithin.requestComplete {n k : ℕ} (hdue : DueWithin n k s)
    (h : ControlsTracked bufferCount initial s) {request : CameraRequest}
    {queued : List CameraRequest} (hphase : s.phase = .idle)
    (hqueued : s.queued = request :: queued) :
    DueWithin n (k - 1) { s with
      phase := .passing request.index
      queued := queued
      inEffect := request.controls ∪ s.inEffect
      setsInEffect := request.comprises.getD s.setsInEffect
      completed := s.completed ++ [request.index] } := by
  obtain ⟨hn, hdue⟩ := hdue
  have hflight : s.inFlight = request :: queued := (inFlight_idle hphase).trans hqueued
  have hnext : s.setsInEffect ≤ request.comprises.getD s.setsInEffect := by
    have hordered := h.ordered
    rw [levels_requestComplete hphase hqueued] at hordered
    cases hcomprises : request.comprises with
    | none => exact le_rfl
    | some m =>
      rw [hcomprises] at hordered
      exact (List.pairwise_cons.mp hordered).1 m (List.mem_cons_self ..)
  refine ⟨hn, ?_⟩
  rw [hflight] at hdue
  rcases hdue with ⟨m, hm, hle⟩ | ⟨hupdated, hlong⟩
  · rcases List.mem_cons.mp hm with rfl | hm
    · exact .inl ⟨_, List.mem_cons_self .., hle.trans hnext⟩
    · obtain ⟨r, hr, hcomprises⟩ := List.mem_filterMap.mp hm
      cases k with
      | zero => exact absurd hr List.not_mem_nil
      | succ k =>
        rcases List.mem_cons.mp hr with rfl | hr
        · refine .inl ⟨_, List.mem_cons_self .., ?_⟩
          show n ≤ r.comprises.getD s.setsInEffect
          rw [hcomprises]
          exact hle
        · exact .inl ⟨m, List.mem_cons_of_mem _ (List.mem_filterMap.mpr ⟨r, hr, hcomprises⟩), hle⟩
  · refine .inr ⟨hupdated, ?_⟩
    show queued.length < k - 1
    rw [List.length_cons] at hlong
    exact Nat.lt_sub_of_add_lt hlong

/-- What is to be merged goes into a request that comes behind those in flight. -/
theorem DueWithin.append {n k : ℕ} (hdue : DueWithin n k s) {request : CameraRequest}
    (hflight : s'.inFlight = s.inFlight ++ [request]) (hsets : s'.sets = s.sets)
    (heffect : s'.setsInEffect = s.setsInEffect)
    (hmerged : s.isControlsUpdated = true → request.comprises = some s.sets.length) :
    DueWithin n k s' := by
  obtain ⟨hn, hdue⟩ := hdue
  refine ⟨hsets ▸ hn, .inl ?_⟩
  rw [hflight, heffect, List.take_append, List.filterMap_append]
  rcases hdue with ⟨m, hm, hle⟩ | ⟨hupdated, hlong⟩
  · rcases List.mem_cons.mp hm with rfl | hm
    · exact ⟨_, List.mem_cons_self .., hle⟩
    · exact ⟨m, List.mem_cons_of_mem _ (List.mem_append_left _ hm), hle⟩
  · refine ⟨s.sets.length, List.mem_cons_of_mem _ (List.mem_append_right _ ?_), hn⟩
    have htake : [request].take (k - s.inFlight.length) = [request] :=
      List.take_of_length_le (Nat.succ_le_of_lt (Nat.sub_pos_of_lt hlong))
    rw [htake]
    exact List.mem_filterMap.mpr ⟨request, List.mem_singleton.mpr rfl, hmerged hupdated⟩

/-- Only a completion brings what is due nearer, and nothing puts it off. -/
theorem DueWithin.step {n k : ℕ} (hdue : DueWithin n k s)
    (h : ControlsTracked bufferCount initial s) {a : CameraEvent}
    (hs : cameraStep s a = some s') :
    DueWithin n (k - if a = .requestComplete then 1 else 0) s' := by
  rcases cameraStep_cases hs with ⟨key, value, rfl, rfl⟩ |
    ⟨request, queued, rfl, hphase, hqueued, rfl⟩ | ⟨index, rfl, hphase, hupdated, rfl⟩ |
    ⟨index, rfl, hphase, hmerged, rfl⟩ | ⟨request, rfl, hphase, rfl⟩
  · obtain ⟨hn, hdue⟩ := hdue
    refine ⟨?_, hdue.imp_right fun hlong => ⟨rfl, hlong.2⟩⟩
    rw [List.length_append]
    exact Nat.le_add_right_of_le hn
  · exact hdue.requestComplete h hphase hqueued
  · refine @DueWithin.append s _ n k hdue ⟨index, s.controls, some s.sets.length⟩ ?_ rfl rfl
      fun _ => rfl
    rw [inFlight_passing hphase]
    rfl
  · refine @DueWithin.append s _ n k hdue ⟨index, ∅, none⟩ ?_ rfl rfl fun hupdated => ?_
    · rw [inFlight_passing hphase]
      rfl
    · exact nomatch hmerged.symm.trans hupdated
  · obtain ⟨hn, hdue⟩ := hdue
    rw [inFlight_queueing hphase] at hdue
    exact ⟨hn, hdue⟩

theorem DueWithin.run {n k : ℕ} {as : List CameraEvent} (hdue : DueWithin n k s)
    (h : ControlsTracked bufferCount initial s)
    (hrun : (libcameraCapturer bufferCount initial).runFrom s as = some s') :
    DueWithin n (k - as.count .requestComplete) s' := by
  induction as generalizing s k with
  | nil =>
    obtain rfl := Option.some.inj hrun
    exact hdue
  | cons a as ih =>
    obtain ⟨t, ht, hrest⟩ := Machine.runFrom_cons_eq_some _ |>.mp hrun
    have hnext := ih (hdue.step h ht) (h.step ht) hrest
    have hcount : (a :: as).count .requestComplete =
        (if a = .requestComplete then 1 else 0) + as.count .requestComplete := by
      rw [List.count_cons, Nat.add_comm]
      simp only [beq_iff_eq]
    rw [hcount, ← Nat.sub_sub]
    exact hnext

end Steps

/-- **Controls take effect.** After every run of callers of `SetControls` and of the camera's
    thread, the camera captures with what the first calls come to, on top of what it was started
    with; and these are all calls that were made before more frames were completed than there are
    requests. -/
theorem controlsInEffect (bufferCount : ℕ) (initial : ControlList) (as bs : List CameraEvent)
    (s s' : LibcameraCapturer) (hbefore : (libcameraCapturer bufferCount initial).run as = some s)
    (hafter : (libcameraCapturer bufferCount initial).runFrom s bs = some s') :
    ∃ n ≤ s'.sets.length, s'.inEffect = controlsOf (s'.sets.take n) ∪ initial ∧
      (bufferCount < bs.count .requestComplete → s.sets.length ≤ n) := by
  have h : ControlsTracked bufferCount initial s :=
    Machine.run_invariant (controlsTracked_init bufferCount initial)
      (fun _ _ _ h hs => h.step hs) hbefore
  have h' : ControlsTracked bufferCount initial s' :=
    Machine.runFrom_invariant (fun _ _ _ h hs => h.step hs) h hafter
  refine ⟨s'.setsInEffect, h'.le _ (List.mem_cons_self ..), h'.inEffect, fun hmany => ?_⟩
  have hdue := h.dueWithin.run h hafter
  rw [Nat.sub_eq_zero_of_le hmany] at hdue
  rcases hdue.2 with ⟨m, hm, hle⟩ | ⟨-, hlong⟩
  · rw [List.take_zero, List.filterMap_nil, List.mem_singleton] at hm
    exact hm ▸ hle
  · exact absurd hlong (Nat.not_lt_zero _)

/-- Brightness is set while a request is in hand. -/
def settingMade : List CameraEvent := [.requestComplete, .setControls 1 5, .mergeControls]

/-- It is set again, and three frames come. -/
def threeFrames : List CameraEvent :=
  [.setControls 1 7, .queueRequest, .requestComplete, .mergeControls, .queueRequest,
    .requestComplete, .mergeControls, .queueRequest, .requestComplete]

theorem controlsInEffect_threeFrames : ∃ s s',
    (libcameraCapturer 2 ∅).run settingMade = some s ∧
    (libcameraCapturer 2 ∅).runFrom s threeFrames = some s' ∧
    ∃ n ≤ s'.sets.length, s'.inEffect = controlsOf (s'.sets.take n) ∪ ∅ ∧
      (2 < threeFrames.count .requestComplete → s.sets.length ≤ n) :=
  ⟨_, _, rfl, rfl, controlsInEffect 2 ∅ settingMade threeFrames _ _ rfl rfl⟩

/-! ### Which request comes next -/

/-- The requests come in turn, and the camera does not have the buffer whose frame is passed on. -/
structure RequestsInTurn (bufferCount : ℕ) (s : LibcameraCapturer) : Prop where
  completed : s.completed = (List.range s.completed.length).map (· % bufferCount)
  away : ∀ index, s.phase = .passing index → index ∉ s.queued.map CameraRequest.index

/-- The invariant: those in flight come next, in order, and then the one that is passed on. -/
structure InTurn (bufferCount : ℕ) (s : LibcameraCapturer) : Prop where
  completed : s.completed = (List.range s.completed.length).map (· % bufferCount)
  inFlight : s.inFlight.map CameraRequest.index =
    (List.range' s.completed.length s.inFlight.length).map (· % bufferCount)
  passing : ∀ index, s.phase = .passing index →
    ∃ n, s.completed.length = n + 1 ∧ index = n % bufferCount
  count : s.inFlight.length + s.passing = bufferCount

section Turns

variable {bufferCount : ℕ} {s s' : LibcameraCapturer}

theorem inTurn_init (bufferCount : ℕ) (initial : ControlList) :
    InTurn bufferCount (libcameraCapturer bufferCount initial).init := by
  have hlength : (libcameraCapturer bufferCount initial).init.inFlight.length = bufferCount :=
    (List.length_map _).trans List.length_range
  refine ⟨rfl, ?_, by rintro _ ⟨⟩, hlength⟩
  rw [hlength]
  show ((List.range bufferCount).map _).map _ = (List.range' 0 bufferCount).map _
  rw [List.map_map, ← List.range_eq_range']
  refine List.map_congr_left fun index hindex => ?_
  exact (Nat.mod_eq_of_lt (List.mem_range.mp hindex)).symm

theorem InTurn.requestComplete (h : InTurn bufferCount s) {request : CameraRequest}
    {queued : List CameraRequest} (hphase : s.phase = .idle)
    (hqueued : s.queued = request :: queued) (inEffect : ControlList) (setsInEffect : ℕ) :
    InTurn bufferCount { s with
      phase := .passing request.index
      queued := queued
      inEffect := inEffect
      setsInEffect := setsInEffect
      completed := s.completed ++ [request.index] } := by
  have hturn := h.inFlight
  have hcount := h.count
  rw [inFlight_idle hphase, hqueued, List.map_cons, List.length_cons, List.range'_succ,
    List.map_cons, List.cons.injEq] at hturn
  rw [inFlight_idle hphase, hqueued, LibcameraCapturer.passing, hphase, List.length_cons] at hcount
  obtain ⟨hindex, hrest⟩ := hturn
  have hlength : (s.completed ++ [request.index]).length = s.completed.length + 1 :=
    List.length_append
  refine ⟨?_, ?_, ?_, hcount⟩
  · show s.completed ++ [request.index] = _
    rw [hlength, List.range_succ, List.map_append, ← h.completed, List.map_singleton, hindex]
  · show queued.map _ = (List.range' (s.completed ++ [request.index]).length queued.length).map _
    rw [hlength, hrest]
  · rintro _ ⟨⟩
    exact ⟨s.completed.length, hlength, hindex⟩

theorem InTurn.length_queued (h : InTurn bufferCount s) {index : ℕ}
    (hphase : s.phase = .passing index) : s.queued.length + 1 = bufferCount := by
  have hcount := h.count
  rw [inFlight_passing hphase, LibcameraCapturer.passing, hphase] at hcount
  exact hcount

/-- The request that is queued again comes after all others. -/
theorem InTurn.queueing (h : InTurn bufferCount s) {index : ℕ} (hphase : s.phase = .passing index)
    {request : CameraRequest} (hindex : request.index = index) (isControlsUpdated : Bool) :
    InTurn bufferCount
      { s with phase := .queueing request, isControlsUpdated := isControlsUpdated } := by
  have hturn := h.inFlight
  have hcount := h.length_queued hphase
  obtain ⟨n, hn, hmod⟩ := h.passing index hphase
  rw [inFlight_passing hphase] at hturn
  have hlength : (s.queued ++ [request]).length = s.queued.length + 1 := List.length_append
  refine ⟨h.completed, ?_, by rintro _ ⟨⟩, hlength.trans hcount⟩
  show (s.queued ++ [request]).map _ =
    (List.range' s.completed.length (s.queued ++ [request]).length).map _
  have hlast : (s.completed.length + s.queued.length) % bufferCount = index := by
    have hsum : s.completed.length + s.queued.length = n + bufferCount := by
      omega
    rw [hsum, Nat.add_mod_right, hmod]
  rw [hlength, List.range'_concat, List.map_append, List.map_append, hturn, List.map_singleton,
    List.map_singleton, hindex, Nat.one_mul, hlast]

theorem InTurn.step (h : InTurn bufferCount s) {a : CameraEvent}
    (hs : cameraStep s a = some s') : InTurn bufferCount s' := by
  rcases cameraStep_cases hs with ⟨key, value, -, rfl⟩ |
    ⟨request, queued, -, hphase, hqueued, rfl⟩ | ⟨index, -, hphase, -, rfl⟩ |
    ⟨index, -, hphase, -, rfl⟩ | ⟨request, -, hphase, rfl⟩
  · exact ⟨h.completed, h.inFlight, h.passing, h.count⟩
  · exact h.requestComplete hphase hqueued _ _
  · exact h.queueing hphase rfl false
  · exact h.queueing hphase rfl _
  · have hturn := h.inFlight
    have hcount := h.count
    rw [inFlight_queueing hphase] at hturn
    rw [inFlight_queueing hphase, LibcameraCapturer.passing, hphase] at hcount
    exact ⟨h.completed, hturn, by rintro _ ⟨⟩, hcount⟩

theorem InTurn.toRequestsInTurn (h : InTurn bufferCount s) : RequestsInTurn bufferCount s := by
  refine ⟨h.completed, fun index hphase hmem => ?_⟩
  obtain ⟨n, hn, hindex⟩ := h.passing index hphase
  have hturn := h.inFlight
  have hcount := h.length_queued hphase
  rw [inFlight_passing hphase] at hturn
  rw [hturn, List.mem_map] at hmem
  obtain ⟨m, hm, hsame⟩ := hmem
  rw [List.mem_range'_1, hn] at hm
  -- less than a whole turn lies between the two
  have hzero : (m - n) % bufferCount = 0 := Nat.sub_mod_eq_zero_of_mod_eq (hsame.trans hindex)
  rw [Nat.mod_eq_of_lt (by omega)] at hzero
  omega

end Turns

/-- **Requests come in turn.** After every run, the frames that were passed on lay in the buffers
    in turn, and the camera does not have the buffer whose frame is being passed on. -/
theorem requestsInTurn (bufferCount : ℕ) (initial : ControlList) (as : List CameraEvent)
    (s : LibcameraCapturer) (hrun : (libcameraCapturer bufferCount initial).run as = some s) :
    RequestsInTurn bufferCount s :=
  (Machine.run_invariant (inTurn_init bufferCount initial) (fun _ _ _ h hs => h.step hs)
    hrun).toRequestsInTurn

/-- Both buffers were passed on, and the first one is being passed on again. -/
def onceRound : List CameraEvent :=
  [.requestComplete, .mergeControls, .queueRequest, .requestComplete, .mergeControls,
    .queueRequest, .requestComplete]

theorem requestsInTurn_onceRound : ∃ s, (libcameraCapturer 2 ∅).run onceRound = some s ∧
    s.phase = .passing 0 ∧ s.completed = [0, 1, 0] ∧ RequestsInTurn 2 s :=
  ⟨_, rfl, rfl, rfl, requestsInTurn 2 ∅ onceRound _ rfl⟩

end PiWebrtc.Capturer
