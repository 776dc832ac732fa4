import PiWebrtc.Lib.Threads

namespace PiWebrtc.Codecs

open Transition

/-!
# A V4L2 memory-to-memory codec

`EmplaceBuffer` gives an input to the driver and then puts the callback for it into
`capturing_tasks_`; the capture thread takes a frame from the driver and then the first
callback out of there.  The queues are bounded: `push` refuses what does not fit, and its
result is not looked at.

`EmplaceBuffer` may be called from any number of threads.  The driver is taken at its word:
it returns at most one frame for each input that it took, in the order of the inputs.  So
both are named by their positions, a callback by that of the input it was given with.  What
the frames hold, the latency tracer, the driver's events and the destructor are left out.
-/

/-! ### The queue -/

/-- `ThreadSafeQueue`. -/
structure ThreadSafeQueue (α : Type*) (maxSize : ℕ) where
  items : List α
  bounded : items.length ≤ maxSize
  deriving DecidableEq, Repr

namespace ThreadSafeQueue

variable {α : Type*} {maxSize : ℕ}

/-- An empty queue. -/
def empty : ThreadSafeQueue α maxSize := ⟨[], Nat.zero_le _⟩

/-- `full`. -/
def full (q : ThreadSafeQueue α maxSize) : Bool := maxSize ≤ q.items.length

/-- `push`: `false` when the queue is full. -/
def push (q : ThreadSafeQueue α maxSize) (t : α) : ThreadSafeQueue α maxSize × Bool :=
  if h : q.items.length < maxSize then
    (⟨q.items ++ [t], by rw [List.length_append, List.length_singleton]; exact h⟩, true)
  else (q, false)

/-- `pop`, if the queue is not empty. -/
def pop : ThreadSafeQueue α maxSize → Option (α × ThreadSafeQueue α maxSize)
  | ⟨[], _⟩ => none
  | ⟨t :: rest, h⟩ => some (t, ⟨rest, Nat.le_of_succ_le h⟩)

theorem push_items {q : ThreadSafeQueue α maxSize} (h : q.full = false) (t : α) :
    (q.push t).1.items = q.items ++ [t] := by
  have hlt : q.items.length < maxSize := by
    rw [full, decide_eq_false_iff_not] at h
    omega
  rw [push, dif_pos hlt]

theorem pop_eq_some {q q' : ThreadSafeQueue α maxSize} {t : α} :
    q.pop = some (t, q') ↔ q.items = t :: q'.items := by
  obtain ⟨items, hitems⟩ := q
  obtain ⟨items', hitems'⟩ := q'
  cases items with
  | nil => simp [pop]
  | cons t' rest => simp [pop]

theorem pop_eq_none {q : ThreadSafeQueue α maxSize} : q.pop = none ↔ q.items = [] := by
  obtain ⟨items, hitems⟩ := q
  cases items with
  | nil => simp [pop]
  | cons t' rest => simp [pop]

end ThreadSafeQueue

/-! ### The codec -/

/-- The driver's input queue (`output_`): whether its buffers are imported, its layout, and the
    length of each buffer. -/
structure OutputBuffers where
  dmabuf : Bool
  bytesperline : ℕ
  height : ℕ
  lengths : List ℕ
  deriving DecidableEq, Repr

/-- An input; `planar` tells whether it is YUV 4:2:0 or NV12. -/
structure InputFrame where
  size : ℕ
  planar : Bool
  stride : ℕ
  planeHeight : ℕ
  deriving DecidableEq, Repr

/-- `NeedsRepack`. -/
def OutputBuffers.needsRepack (output : OutputBuffers) (buffer : InputFrame) : Bool :=
  buffer.planar && (buffer.stride ≠ output.bytesperline || buffer.planeHeight ≠ output.height)

/-- The frame is copied as it is, and exceeds buffer `index`. -/
def OutputBuffers.exceeded (output : OutputBuffers) (buffer : InputFrame) (index : ℕ) : Bool :=
  !output.dmabuf && !output.needsRepack buffer && output.lengths.getD index 0 < buffer.size

/-- A callback that was called, with the frame it got. -/
structure Delivery where
  frame : ℕ
  callback : ℕ
  deriving DecidableEq, Repr

/-- The codec and the driver: the inputs that the driver took and the frames that were taken
    from it, by their numbers, the buffers that it has, and, as history, what the callbacks
    got. -/
structure V4L2Codec where
  outputBufferIndex : ThreadSafeQueue ℕ 8 := .empty
  capturingTasks : ThreadSafeQueue ℕ 8 := .empty
  queued : ℕ := 0
  captured : ℕ := 0
  driverOutput : List ℕ := []
  driverCapture : List ℕ := []
  delivered : List Delivery := []
  deriving DecidableEq, Repr

/-- The operations of `EmplaceBuffer`, and those of `CaptureBuffer`, which the capture thread
    calls again and again. -/
inductive CodecOp where
  | takeIndex (buffer : InputFrame)
  | fill (buffer : InputFrame) (index : ℕ)
  | queueInput (index : ℕ)
  /-- `capturing_tasks_.push` with the callback of input `n`. -/
  | pushTask (n : ℕ)
  | select
  /-- The driver may be done with an input; `readable` tells whether there is also a frame. -/
  | dequeueOutput (readable : Bool)
  | dequeueCapture
  /-- A callback is taken and called with frame `n`. -/
  | runTask (n : ℕ) (index : ℕ)
  | requeue (index : ℕ)
  deriving DecidableEq, Repr

/-- How a system call ends. -/
inductive CodecOutcome where
  | ok
  | failed
  | ready (writable readable : Bool)
  | dequeued (index : ℕ)
  deriving DecidableEq, Repr

/-- What `CaptureBuffer` does after the output side. -/
def afterOutput (readable : Bool) : CodecOp := if readable then .dequeueCapture else .select

/-- Executing an operation. -/
def codecExec (output : OutputBuffers) (op : CodecOp) (x : CodecOutcome)
    (s : Threads V4L2Codec CodecOp) : Option (Effect V4L2Codec CodecOp) :=
  let c := s.shared
  match op, x with
  | .takeIndex buffer, .ok =>
    match c.outputBufferIndex.pop with
    -- no free buffer: the input is dropped, and its callback with it
    | none => some { shared := c }
    | some (index, rest) =>
      some { shared := { c with outputBufferIndex := rest }, next := [.fill buffer index] }
  | .fill buffer index, .ok =>
    -- too large for the buffer: the index goes back, and no callback is stored
    if output.exceeded buffer index then
      some { shared := { c with outputBufferIndex := (c.outputBufferIndex.push index).1 } }
    else some { shared := c, next := [.queueInput index] }
  | .queueInput index, .ok =>
    some { shared := { c with queued := c.queued + 1, driverOutput := index :: c.driverOutput }
           next := [.pushTask c.queued] }
  | .queueInput index, .failed =>
    some { shared := { c with outputBufferIndex := (c.outputBufferIndex.push index).1 } }
  | .pushTask n, .ok =>
    some { shared := { c with capturingTasks := (c.capturingTasks.push n).1 } }
  | .select, .ready writable readable =>
    some { shared := c,
           next := [if writable then .dequeueOutput readable else afterOutput readable] }
  | .select, .failed => some { shared := c, next := [.select] }
  | .dequeueOutput readable, .dequeued index =>
    if index ∈ c.driverOutput then
      some { shared := { c with
               driverOutput := c.driverOutput.erase index
               outputBufferIndex := (c.outputBufferIndex.push index).1 }
             next := [afterOutput readable] }
    else none
  | .dequeueOutput readable, .failed => some { shared := c, next := [afterOutput readable] }
  | .dequeueCapture, .dequeued index =>
    if c.captured < c.queued ∧ index ∈ c.driverCapture then
      some { shared := { c with
               captured := c.captured + 1, driverCapture := c.driverCapture.erase index }
             next := [.runTask c.captured index] }
    else none
  | .dequeueCapture, .failed => some { shared := c, next := [.select] }
  | .runTask n index, .ok =>
    match c.capturingTasks.pop with
    -- the queue is empty: the frame is given to nobody
    | none => some { shared := c, next := [.requeue index] }
    | some (task, rest) =>
      some { shared := { c with capturingTasks := rest, delivered := c.delivered ++ [⟨n, task⟩] }
             next := [.requeue index] }
  | .requeue index, .ok =>
    some { shared := { c with driverCapture := index :: c.driverCapture }, next := [.select] }
  | .requeue _, .failed => some { shared := c, next := [.select] }
  | _, _ => none

/-- A codec that was started, with `captureNum` capture buffers. -/
def V4L2Codec.start (output : OutputBuffers) (captureNum : ℕ) : V4L2Codec where
  outputBufferIndex := (List.range output.lengths.length).foldl (fun q i => (q.push i).1) .empty
  driverCapture := List.range captureNum

/-- The codec: its capture thread runs from the start, and every call of `EmplaceBuffer` comes
    in on a thread of its own. -/
def codecCode (output : OutputBuffers) (captureNum : ℕ) :
    Code V4L2Codec CodecOp CodecOutcome InputFrame where
  init := { shared := .start output captureNum, todo := [[.select]] }
  entry buffer _ := some [.takeIndex buffer]
  exec := codecExec output

end PiWebrtc.Codecs
