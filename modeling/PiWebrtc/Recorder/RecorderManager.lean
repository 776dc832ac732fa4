import PiWebrtc.Lib.Threads
import Mathlib.Data.List.Nodup

namespace PiWebrtc.Recorder

open Transition

/-!
# The recorder and its output container

`RecorderManager` writes one container at a time through `fmt_ctx`.  `Start` opens it,
`CloseCurrentFile` closes it, `WriteIntoFile` writes its header at the first keyframe and
gives it up if the header cannot be written; these three sections run under `ctx_mux`.
Between them anything may happen: clients start and stop the recording, video frames start
and rotate it, encoders deliver packets, and the destructor stops it.

The operations below are the sections and the accesses to the atomics, in the order in
which the source makes them; a run of `recorderCode` is any interleaving of any number of
calls.  The encoders and the preview image do not touch `fmt_ctx` and are left out.
-/

/-- `RecordType`; `both` is the `-1` of the option table. -/
inductive RecordType where
  | video
  | snapshot
  | both
  deriving DecidableEq, Repr

/-- The codec of a stream, as far as `WriteIntoFile` asks for it. -/
inductive CodecId where
  | av1
  | other
  deriving DecidableEq, Repr

/-- A stream of a container, with the extradata of its codec parameters. -/
structure AVStream where
  codec : CodecId
  extradata : List UInt8 := []
  deriving DecidableEq, Repr

/-- An `AVFormatContext`, told apart from the others by `id`. -/
structure AVFormatContext where
  id : ℕ
  streams : List AVStream
  deriving DecidableEq, Repr

/-- An encoded packet; `key` is `AV_PKT_FLAG_KEY`. -/
structure AVPacket where
  streamIndex : ℕ
  key : Bool
  data : List UInt8
  deriving DecidableEq, Repr

/-- What a recorder is created with: the record type, whether a frame may start the
    recording, the length of a file in seconds, and the streams that its encoders add. -/
structure RecorderArgs where
  recordType : RecordType
  autoStart : Bool
  fileDuration : ℕ
  streams : List AVStream

/-- What happened to the contexts, oldest first.  `late` says that the destructor had
    returned, `trailer` that `av_write_trailer` was called. -/
inductive ContextEvent where
  | opened (id : ℕ) (late : Bool)
  | header (id : ℕ)
  | frame (id : ℕ) (pkt : AVPacket)
  | closed (id : ℕ) (trailer : Bool)
  deriving DecidableEq, Repr

/-- The fields of `RecorderManager`.  The last five are history: the next context's id,
    whether the destructor's `CloseCurrentFile` is through its section, whether the
    destructor has returned, what happened to the contexts, and the streams that a header was last
    written with. -/
structure RecorderManager where
  fmtCtx : Option AVFormatContext := none
  headerWritten : Bool := false
  isRecording : Bool := false
  fileNumber : ℕ := 0
  baseStartTime : ℤ := 0
  rotationRequested : Bool := false
  nextCtx : ℕ := 0
  stopped : Bool := false
  destroyed : Bool := false
  log : List ContextEvent := []
  headerStreams : List AVStream := []

/-- Who calls `CloseCurrentFile`, and so what follows it. -/
inductive Closer where
  | stop
  | rotation
  | destructor
  deriving DecidableEq, Repr

/-- The atomic operations.  Times are microseconds. -/
inductive RecorderOp where
  /-- `Start`: look at the free space. -/
  | checkSpace
  /-- `Start`: open the container, under `ctx_mux`. -/
  | openContext
  /-- `Start`: set `is_recording_`. -/
  | markRecording
  /-- `CloseCurrentFile`: clear `is_recording_`. -/
  | clearRecording (caller : Closer)
  /-- `CloseCurrentFile`: close the container, under `ctx_mux`. -/
  | closeContext (caller : Closer)
  /-- `Stop`: reset `file_number_`. -/
  | resetFileNumber (caller : Closer)
  /-- The end of the destructor: the rotation thread is joined, the recorders and the
      subscriptions are gone. -/
  | returnDestructor
  /-- The frame callback up to its first `Start`. -/
  | autoStart (timestamp : ℤ)
  /-- The frame callback: return unless recording. -/
  | gate (timestamp : ℤ)
  /-- The frame callback: the first frame of a recording sets the base time. -/
  | setBase (timestamp : ℤ)
  /-- The frame callback: rotate if the file is long enough. -/
  | rotate (timestamp : ℤ)
  /-- The frame callback: `++file_number_` after a rotation. -/
  | bumpFileNumber
  /-- `WriteIntoFile`, under `ctx_mux`. -/
  | writePacket (pkt : AVPacket)
  deriving DecidableEq, Repr

/-- What the operating system and libavformat answer. -/
inductive RecorderOutcome where
  | done
  | lowSpace
  | allocFailed
  | openFailed
  | headerFailed
  deriving DecidableEq, Repr

/-- The calls that come in from other threads. -/
inductive RecorderCall where
  | start
  | stop
  | frame (timestamp : ℤ)
  | packet (pkt : AVPacket)
  | destructor
  deriving DecidableEq, Repr

namespace RecorderManager

/-- The section of `Start`.  `avformat_alloc_output_context2` clears `fmt_ctx` when it
    fails; a context whose file cannot be opened is freed at once.  What is returned is
    whether `Start` goes on. -/
def openContext (args : RecorderArgs) (r : RecorderManager) (x : RecorderOutcome) :
    RecorderManager × Bool :=
  if args.recordType = .snapshot then (r, true)
  else match x with
    | .allocFailed => ({ r with fmtCtx := none }, false)
    -- the context is allocated, its file cannot be opened, and it is freed
    | .openFailed =>
      ({ r with
          fmtCtx := none
          nextCtx := r.nextCtx + 1
          log := r.log ++ [.opened r.nextCtx r.destroyed, .closed r.nextCtx false] }, false)
    | _ =>
      ({ r with
          fmtCtx := some ⟨r.nextCtx, args.streams⟩
          headerWritten := false
          nextCtx := r.nextCtx + 1
          log := r.log ++ [.opened r.nextCtx r.destroyed] }, true)

/-- The section of `CloseCurrentFile`. -/
def closeContext (r : RecorderManager) : RecorderManager :=
  match r.fmtCtx with
  | some ctx =>
    { r with
      fmtCtx := none
      headerWritten := false
      log := r.log ++ [.closed ctx.id r.headerWritten] }
  | none => { r with headerWritten := false }

/-- For AV1 the packet becomes the extradata of its stream. -/
def setExtradata (ctx : AVFormatContext) (pkt : AVPacket) : AVFormatContext :=
  { ctx with streams := ctx.streams.modify pkt.streamIndex fun st =>
      if st.codec = .av1 then { st with extradata := pkt.data } else st }

/-- Write a packet into the context if it has the packet's stream. -/
def writeFrame (r : RecorderManager) (ctx : AVFormatContext) (pkt : AVPacket) :
    RecorderManager :=
  if pkt.streamIndex < ctx.streams.length then { r with log := r.log ++ [.frame ctx.id pkt] }
  else r

/-- `WriteIntoFile`.  A header that cannot be written costs the context. -/
def writeIntoFile (r : RecorderManager) (pkt : AVPacket) (x : RecorderOutcome) :
    RecorderManager :=
  match r.fmtCtx with
  | none => r
  | some ctx =>
    if !r.isRecording then r
    else if r.headerWritten then r.writeFrame ctx pkt
    -- the header waits for a keyframe
    else if !pkt.key then r
    else if x = .headerFailed then
      { r with fmtCtx := none, log := r.log ++ [.closed ctx.id false] }
    else
      let ctx := setExtradata ctx pkt
      writeFrame { r with
        fmtCtx := some ctx
        headerWritten := true
        log := r.log ++ [.header ctx.id]
        headerStreams := ctx.streams } ctx pkt

/-! ### What the sections leave alone -/

/-- Nothing but the container has changed, and what is known about contexts. -/
structure SameRecording (r r' : RecorderManager) : Prop where
  isRecording : r'.isRecording = r.isRecording
  fileNumber : r'.fileNumber = r.fileNumber
  stopped : r'.stopped = r.stopped

section Sections

variable (r : RecorderManager)

theorem openContext_same (args : RecorderArgs) (x : RecorderOutcome) :
    SameRecording r (r.openContext args x).1 := by
  unfold openContext
  split
  · exact ⟨rfl, rfl, rfl⟩
  · split <;> exact ⟨rfl, rfl, rfl⟩

theorem closeContext_same : SameRecording r r.closeContext := by
  unfold closeContext
  split <;> exact ⟨rfl, rfl, rfl⟩

theorem closeContext_closes : r.closeContext.fmtCtx = none := by
  unfold closeContext
  split
  · rfl
  · assumption

theorem writeFrame_same (ctx : AVFormatContext) (pkt : AVPacket) :
    SameRecording r (r.writeFrame ctx pkt) := by
  unfold writeFrame
  split <;> exact ⟨rfl, rfl, rfl⟩

theorem writeIntoFile_same (pkt : AVPacket) (x : RecorderOutcome) :
    SameRecording r (r.writeIntoFile pkt x) := by
  unfold writeIntoFile
  split
  · exact ⟨rfl, rfl, rfl⟩
  · split_ifs
    · exact ⟨rfl, rfl, rfl⟩
    · exact r.writeFrame_same _ pkt
    · exact ⟨rfl, rfl, rfl⟩
    · exact ⟨rfl, rfl, rfl⟩
    · -- the header is written, then the frame
      obtain ⟨hrec, hnum, hstop⟩ := writeFrame_same { r with
        fmtCtx := some (setExtradata _ pkt)
        headerWritten := true
        log := r.log ++ [.header (setExtradata _ pkt).id]
        headerStreams := (setExtradata _ pkt).streams } (setExtradata _ pkt) pkt
      exact ⟨hrec, hnum, hstop⟩

end Sections

/-- The file is as long as it may get.  The source divides the microseconds by `1e6` and
    compares with the whole seconds. -/
def fileIsFull (args : RecorderArgs) (r : RecorderManager) (timestamp : ℤ) : Bool :=
  timestamp - r.baseStartTime ≥ (r.fileNumber * args.fileDuration : ℕ) * 1000000

end RecorderManager

open RecorderManager

/-- Execute one operation. -/
def recorderExec (args : RecorderArgs) (op : RecorderOp) (x : RecorderOutcome)
    (s : Threads RecorderManager RecorderOp) : Option (Effect RecorderManager RecorderOp) :=
  let r := s.shared
  match op with
  | .checkSpace =>
    some ⟨{ r with rotationRequested := r.rotationRequested || x = .lowSpace },
      [.openContext], []⟩
  | .openContext =>
    let (r, goesOn) := r.openContext args x
    some ⟨r, if goesOn then [.markRecording] else [], []⟩
  | .markRecording => some ⟨{ r with isRecording := true }, [], []⟩
  | .clearRecording caller =>
    some ⟨{ r with isRecording := false }, [.closeContext caller], []⟩
  | .closeContext caller =>
    let r := r.closeContext
    -- a rotation goes on with the next `Start`, a `Stop` ends here
    match caller with
    | .rotation => some ⟨r, [.checkSpace, .bumpFileNumber], []⟩
    | .stop => some ⟨r, [.resetFileNumber .stop], []⟩
    | .destructor => some ⟨{ r with stopped := true }, [.resetFileNumber .destructor], []⟩
  | .resetFileNumber caller =>
    some ⟨{ r with fileNumber := 0 },
      if caller = .destructor then [.returnDestructor] else [], []⟩
  | .returnDestructor => some ⟨{ r with destroyed := true }, [], []⟩
  -- `is_recording_` is looked at twice, before and after the automatic start
  | .autoStart ts =>
    some ⟨r, if args.autoStart && !r.isRecording then [.checkSpace, .gate ts] else [.gate ts], []⟩
  | .gate ts => some ⟨r, if r.isRecording then [.setBase ts] else [], []⟩
  | .setBase ts =>
    some ⟨if r.fileNumber = 0 then { r with baseStartTime := ts, fileNumber := 1 } else r,
      [.rotate ts], []⟩
  | .rotate ts =>
    some ⟨r, if r.fileIsFull args ts then [.clearRecording .rotation] else [], []⟩
  | .bumpFileNumber => some ⟨{ r with fileNumber := r.fileNumber + 1 }, [], []⟩
  | .writePacket pkt => some ⟨r.writeIntoFile pkt x, [], []⟩

/-- The operations of a call. -/
def recorderEntry : RecorderCall → List RecorderOp
  | .start => [.checkSpace]
  | .stop => [.clearRecording .stop]
  | .frame ts => [.autoStart ts]
  | .packet pkt => [.writePacket pkt]
  | .destructor => [.clearRecording .destructor]

/-- The recorder from its creation on, under any calls in any order. -/
def recorderCode (args : RecorderArgs) :
    Code RecorderManager RecorderOp RecorderOutcome RecorderCall where
  init := { shared := {}, todo := [] }
  entry k _ := some (recorderEntry k)
  exec := recorderExec args

/-! ### The life of a context -/

/-- The contexts opened so far. -/
def openedIds (log : List ContextEvent) : List ℕ :=
  log.filterMap fun e => match e with | .opened id _ => some id | _ => none

/-- The contexts closed so far, once for each time. -/
def closedIds (log : List ContextEvent) : List ℕ :=
  log.filterMap fun e => match e with | .closed id _ => some id | _ => none

/-- Every context is closed at most once, with a trailer exactly when its header was
    written; at most one is open; when the destructor has returned none is open and none
    was opened since. -/
structure ContextsWellKept (r : RecorderManager) : Prop where
  closed_once : (closedIds r.log).Nodup
  closed_opened : ∀ id ∈ closedIds r.log, id ∈ openedIds r.log
  trailer_iff : ∀ id trailer, .closed id trailer ∈ r.log → (trailer = true ↔ .header id ∈ r.log)
  one_open : ∀ i ∈ openedIds r.log, ∀ j ∈ openedIds r.log,
    i ∉ closedIds r.log → j ∉ closedIds r.log → i = j
  none_left : r.destroyed = true → ∀ id ∈ openedIds r.log, id ∈ closedIds r.log
  none_late : ∀ id, .opened id true ∉ r.log

end PiWebrtc.Recorder
