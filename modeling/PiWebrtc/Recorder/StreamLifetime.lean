import PiWebrtc.Lib.Machine

namespace PiWebrtc.Recorder

open Transition

/-!
# The stream that a recorder writes to

`AddStream` leaves `st` pointing into the container that `Start` has opened.  The container and
its streams are freed by `CloseCurrentFile`, after the recorder's worker was joined, and by
`WriteIntoFile`, if the header cannot be written; nothing resets `st`.  `OnEncoded` reads it
for each encoded frame.

`streamsAlive_iff` shows when that is a stream of an open container.  With OpenH264 (and the
audio encoder), which call back on the worker, it is exactly until the header of the file cannot
be written; a hardware encoder, which is not released before the next `OnStart`, must also not
call back while no file is open.

One thread starts and closes the files, one after the other.
-/

/-- What `RecorderManager` does next. -/
inductive FilePhase where
  /-- No file is open: `CloseCurrentFile` has returned, or nothing was started yet. -/
  | closed
  /-- `Start`, with the container opened. -/
  | starting
  | recording
  /-- `CloseCurrentFile`, with the recorder stopped. -/
  | closing
  deriving DecidableEq, Repr

/-- The open container and the one that `st` points into, by their numbers; the recorder's
    worker; the frames that a hardware encoder has not called back for; and, as history, whether
    the file's header could not be written, and for each read of `st` whether its container was
    open. -/
structure StreamUse where
  fmtCtx : Option ℕ := none
  nextCtx : ℕ := 0
  headerWritten : Bool := false
  isRecording : Bool := false
  st : Option ℕ := none
  phase : FilePhase := .closed
  worker : Bool := false
  inFlight : ℕ := 0
  givenUp : Bool := false
  reads : List Bool := []
  deriving DecidableEq, Repr

/-- An encoded frame: whether it is a keyframe, and whether a header can be written for it. -/
structure EncodedPacket where
  keyframe : Bool
  writesHeader : Bool
  deriving DecidableEq, Repr

/-- The steps of `Start`, of `CloseCurrentFile`, of the worker and of the encoder's thread. -/
inductive StreamEvent where
  /-- `Start`, up to `AddStream`; `opens` tells whether the container can be opened. -/
  | openContext (opens : Bool)
  /-- The recorder's `Start`, which releases the encoder in `OnStart`. -/
  | startRecorder
  /-- `CloseCurrentFile`, up to the recorder's `Stop`, which joins the worker. -/
  | stopRecorder
  | closeContext
  /-- The worker takes a frame to the encoder. -/
  | encode (packet : EncodedPacket)
  /-- A hardware encoder calls back. -/
  | callBack (packet : EncodedPacket)
  deriving DecidableEq, Repr

namespace StreamUse

/-- `WriteIntoFile`. -/
def writeIntoFile (s : StreamUse) (packet : EncodedPacket) : StreamUse :=
  if s.fmtCtx = none ∨ s.isRecording = false then s
  else if s.headerWritten then s
  else if packet.keyframe = false then s
  else if packet.writesHeader then { s with headerWritten := true }
  else { s with fmtCtx := none, givenUp := true }

/-- `OnEncoded`: nothing is done without a stream. -/
def onEncoded (s : StreamUse) (packet : EncodedPacket) : StreamUse :=
  match s.st with
  | none => s
  | some ctx =>
    { s with reads := s.reads ++ [decide (s.fmtCtx = some ctx)] }.writeIntoFile packet

/-- One step, with a hardware encoder or not. -/
def step (hardware : Bool) (s : StreamUse) : StreamEvent → Option StreamUse
  | .openContext opens =>
    if s.phase = .closed then
      if opens then
        some
          { s with
            fmtCtx := some s.nextCtx, nextCtx := s.nextCtx + 1, st := some s.nextCtx
            headerWritten := false, phase := .starting, givenUp := false }
      else some { s with fmtCtx := none }
    else none
  | .startRecorder =>
    if s.phase = .starting then
      some { s with inFlight := 0, worker := true, isRecording := true, phase := .recording }
    else none
  | .stopRecorder =>
    if s.phase = .recording then
      some { s with isRecording := false, worker := false, phase := .closing }
    else none
  | .closeContext =>
    if s.phase = .closing then
      some { s with fmtCtx := none, headerWritten := false, phase := .closed }
    else none
  | .encode packet =>
    if s.worker = true then
      if hardware then some { s with inFlight := s.inFlight + 1 } else some (s.onEncoded packet)
    else none
  | .callBack packet =>
    if 0 < s.inFlight then some ({ s with inFlight := s.inFlight - 1 }.onEncoded packet) else none

end StreamUse

/-- A recorder that was created, and all orders of steps. -/
def streamUse (hardware : Bool) : Machine StreamUse StreamEvent where
  init := {}
  step := StreamUse.step hardware

/-- What is asked for: each stream that was read was one of an open container. -/
def StreamsAlive (s : StreamUse) : Prop := ∀ alive ∈ s.reads, alive = true

/-- The condition: no frame comes out of the encoder after its file's header could not be written
    and, from a hardware encoder, none while no file is open. -/
def FileAtHand (hardware : Bool) (s : StreamUse) : StreamEvent → Prop
  | .encode _ => s.worker = true → hardware = false → s.givenUp = false
  | .callBack _ => 0 < s.inFlight → s.givenUp = false ∧ s.phase ≠ .closed
  | _ => True

instance (hardware : Bool) (s : StreamUse) : ∀ a, Decidable (FileAtHand hardware s a)
  | .encode _ => inferInstanceAs (Decidable (_ → _ → _))
  | .callBack _ => inferInstanceAs (Decidable (_ → _ ∧ _))
  | .openContext _ | .startRecorder | .stopRecorder | .closeContext => isTrue trivial

/-! ### What holds in every run -/

/-- A file is open from `Start` to `CloseCurrentFile`, and `st` points into it, unless it was
    given up; the worker and a hardware encoder come after the first file. -/
structure StreamBound (hardware : Bool) (s : StreamUse) : Prop where
  opened : s.phase ≠ .closed → s.givenUp = false → s.fmtCtx = s.st
  givenUp : s.givenUp = true → s.fmtCtx = none
  closed : s.phase = .closed → s.fmtCtx = none
  started : s.phase ≠ .closed ∨ s.givenUp = true → s.st ≠ none
  worker : s.worker = true → s.phase = .recording
  flight : s.inFlight ≠ 0 → hardware = true ∧ s.st ≠ none

section Steps

variable {hardware : Bool} {s s' : StreamUse} {packet : EncodedPacket}

/-- What `WriteIntoFile` does, apart from the header: nothing, or it gives the file up. -/
theorem writeIntoFile_cases (s : StreamUse) (packet : EncodedPacket) :
    (∃ headerWritten, s.writeIntoFile packet = { s with headerWritten := headerWritten }) ∨
      s.writeIntoFile packet = { s with fmtCtx := none, givenUp := true } := by
  unfold StreamUse.writeIntoFile
  split
  · exact .inl ⟨s.headerWritten, rfl⟩
  split
  · exact .inl ⟨s.headerWritten, rfl⟩
  split
  · exact .inl ⟨s.headerWritten, rfl⟩
  split
  · exact .inl ⟨true, rfl⟩
  · exact .inr rfl

/-- What `OnEncoded` reads: the stream, if there is one. -/
theorem onEncoded_reads (hst : s.st ≠ none) :
    (s.onEncoded packet).reads = s.reads ++ [decide (s.fmtCtx = s.st)] := by
  unfold StreamUse.onEncoded
  split
  case h_1 hnone => exact absurd hnone hst
  case h_2 ctx hctx =>
    rcases writeIntoFile_cases { s with reads := s.reads ++ [decide (s.fmtCtx = some ctx)] } packet
      with ⟨headerWritten, heq⟩ | heq
    · rw [heq, hctx]
    · rw [heq, hctx]

/-- A frame that comes out of the encoder may give the file up. -/
theorem StreamBound.onEncoded (h : StreamBound hardware s) :
    StreamBound hardware (s.onEncoded packet) := by
  unfold StreamUse.onEncoded
  split
  · exact h
  case h_2 ctx hst =>
    rcases writeIntoFile_cases { s with reads := s.reads ++ [decide (s.fmtCtx = some ctx)] } packet
      with ⟨headerWritten, heq⟩ | heq
    · rw [heq]
      exact ⟨h.opened, h.givenUp, h.closed, h.started, h.worker, h.flight⟩
    · rw [heq]
      have hsome : s.st ≠ none := hst ▸ Option.some_ne_none ctx
      refine ⟨fun _ hno => ?_, fun _ => rfl, fun _ => rfl, fun _ => hsome, h.worker, h.flight⟩
      cases hno

theorem StreamBound.step {a : StreamEvent} (h : StreamBound hardware s)
    (hs : s.step hardware a = some s') : StreamBound hardware s' := by
  cases a with
  | openContext opens =>
    rw [StreamUse.step, Option.ite_none_right_eq_some] at hs
    obtain ⟨hclosed, hs⟩ := hs
    split at hs
    · obtain rfl := Option.some.inj hs
      refine ⟨fun _ _ => rfl, ?_, ?_, fun _ => Option.some_ne_none _, fun hworker => ?_,
        fun hflight => ⟨(h.flight hflight).1, Option.some_ne_none _⟩⟩
      · rintro ⟨⟩
      · rintro ⟨⟩
      · exact absurd ((h.worker hworker).symm.trans hclosed) (by decide)
    · obtain rfl := Option.some.inj hs
      exact ⟨fun hopen => absurd hclosed hopen, fun _ => rfl, fun _ => rfl, h.started, h.worker,
        h.flight⟩
  | startRecorder =>
    rw [StreamUse.step, Option.ite_none_right_eq_some] at hs
    obtain ⟨hstarting, hs⟩ := hs
    obtain rfl := Option.some.inj hs
    have hopen : s.phase ≠ .closed := by rw [hstarting]; decide
    refine ⟨fun _ => h.opened hopen, h.givenUp, ?_, fun _ => h.started (.inl hopen),
      fun _ => rfl, fun hflight => absurd rfl hflight⟩
    rintro ⟨⟩
  | stopRecorder =>
    rw [StreamUse.step, Option.ite_none_right_eq_some] at hs
    obtain ⟨hrecording, hs⟩ := hs
    obtain rfl := Option.some.inj hs
    have hopen : s.phase ≠ .closed := by rw [hrecording]; decide
    refine ⟨fun _ => h.opened hopen, h.givenUp, ?_, fun _ => h.started (.inl hopen), ?_, h.flight⟩
    · rintro ⟨⟩
    · rintro ⟨⟩
  | closeContext =>
    rw [StreamUse.step, Option.ite_none_right_eq_some] at hs
    obtain ⟨hclosing, hs⟩ := hs
    obtain rfl := Option.some.inj hs
    have hopen : s.phase ≠ .closed := by rw [hclosing]; decide
    refine ⟨fun hno => absurd rfl hno, fun _ => rfl, fun _ => rfl,
      fun _ => h.started (.inl hopen), fun hworker => ?_, h.flight⟩
    exact absurd ((h.worker hworker).symm.trans hclosing) (by decide)
  | encode packet =>
    rw [StreamUse.step, Option.ite_none_right_eq_some] at hs
    obtain ⟨hworker, hs⟩ := hs
    split at hs
    case isTrue hhardware =>
      obtain rfl := Option.some.inj hs
      have hopen : s.phase ≠ .closed := by rw [h.worker hworker]; decide
      exact ⟨h.opened, h.givenUp, h.closed, h.started, h.worker,
        fun _ => ⟨hhardware, h.started (.inl hopen)⟩⟩
    · obtain rfl := Option.some.inj hs
      exact h.onEncoded
  | callBack packet =>
    rw [StreamUse.step, Option.ite_none_right_eq_some] at hs
    obtain ⟨hflight, hs⟩ := hs
    obtain rfl := Option.some.inj hs
    refine StreamBound.onEncoded ⟨h.opened, h.givenUp, h.closed, h.started, h.worker, ?_⟩
    exact fun _ => h.flight hflight.ne'

theorem streamBound_init (hardware : Bool) : StreamBound hardware (streamUse hardware).init where
  opened hopen := absurd rfl hopen
  givenUp := by rintro ⟨⟩
  closed _ := rfl
  started := by
    rintro (hopen | hgiven)
    · exact absurd rfl hopen
    · cases hgiven
  worker := by rintro ⟨⟩
  flight hflight := absurd rfl hflight

/-- A frame that comes out of the encoder reads a stream of the open container exactly if there
    is one that was not given up. -/
theorem streamsAlive_onEncoded (h : StreamBound hardware s) (halive : StreamsAlive s)
    (hst : s.st ≠ none) :
    StreamsAlive (s.onEncoded packet) ↔ s.givenUp = false ∧ s.phase ≠ .closed := by
  rw [StreamsAlive, onEncoded_reads hst]
  constructor
  · intro hall
    have hread := hall _ (List.mem_append_right _ (List.mem_singleton_self _))
    have hopen : s.fmtCtx ≠ none := by
      rw [of_decide_eq_true hread]
      exact hst
    exact ⟨Bool.eq_false_iff.mpr fun hgiven => hopen (h.givenUp hgiven),
      fun hclosed => hopen (h.closed hclosed)⟩
  · rintro ⟨hgiven, hopen⟩ alive hmem
    rcases List.mem_append.mp hmem with hmem | hmem
    · exact halive alive hmem
    · rw [List.mem_singleton.mp hmem]
      exact decide_eq_true (h.opened hopen hgiven)

/-- **A step** while all streams that were read were alive. -/
theorem streamsAlive_step {a : StreamEvent} (h : StreamBound hardware s) (halive : StreamsAlive s)
    (hs : s.step hardware a = some s') : StreamsAlive s' ↔ FileAtHand hardware s a := by
  cases a with
  | openContext opens =>
    rw [StreamUse.step, Option.ite_none_right_eq_some] at hs
    obtain ⟨-, hs⟩ := hs
    split at hs
    · obtain rfl := Option.some.inj hs
      exact iff_of_true halive trivial
    · obtain rfl := Option.some.inj hs
      exact iff_of_true halive trivial
  | startRecorder | stopRecorder | closeContext =>
    rw [StreamUse.step, Option.ite_none_right_eq_some] at hs
    obtain rfl := Option.some.inj hs.2
    exact iff_of_true halive trivial
  | encode packet =>
    rw [StreamUse.step, Option.ite_none_right_eq_some] at hs
    obtain ⟨hworker, hs⟩ := hs
    split at hs
    case isTrue hhardware =>
      obtain rfl := Option.some.inj hs
      exact iff_of_true halive fun _ hno => absurd (hhardware.symm.trans hno) (by decide)
    case isFalse hsoftware =>
      obtain rfl := Option.some.inj hs
      have hopen : s.phase ≠ .closed := by rw [h.worker hworker]; decide
      rw [streamsAlive_onEncoded h halive (h.started (.inl hopen)), and_iff_left hopen]
      exact ⟨fun hgiven _ _ => hgiven, fun hmet => hmet hworker (Bool.eq_false_iff.mpr hsoftware)⟩
  | callBack packet =>
    rw [StreamUse.step, Option.ite_none_right_eq_some] at hs
    obtain ⟨hflight, hs⟩ := hs
    obtain rfl := Option.some.inj hs
    have h' : StreamBound hardware { s with inFlight := s.inFlight - 1 } :=
      ⟨h.opened, h.givenUp, h.closed, h.started, h.worker, fun _ => h.flight hflight.ne'⟩
    have hiff := @streamsAlive_onEncoded hardware { s with inFlight := s.inFlight - 1 } packet h'
      halive (h.flight hflight.ne').2
    exact hiff.trans ⟨fun hmet _ => hmet, fun hmet => hmet hflight⟩

end Steps

/-! ### All orders of steps -/

/-- **Streams outlive their use, exactly.** In every run, `OnEncoded` only reads streams of open
    containers, exactly if no frame comes out of the encoder after the header of its file could
    not be written and, from a hardware encoder, none while no file is open. -/
theorem streamsAlive_iff (hardware : Bool) (as : List StreamEvent) (s : StreamUse)
    (hrun : (streamUse hardware).run as = some s) :
    (streamUse hardware).Always StreamsAlive (streamUse hardware).init as ↔
      (streamUse hardware).Guarded (FileAtHand hardware) (streamUse hardware).init as := by
  refine Machine.always_iff_guarded (I := StreamBound hardware) ?_ ?_ (streamBound_init hardware)
    nofun hrun
  · exact fun _ _ _ h _ hs _ => h.step hs
  · exact fun _ _ _ h halive hs => streamsAlive_step h halive hs

/-- Two files, with a frame of the first one that is called back for when the second is open. -/
def lateFrame : List StreamEvent :=
  [.openContext true, .startRecorder, .encode ⟨true, true⟩, .callBack ⟨true, true⟩,
    .encode ⟨false, true⟩, .stopRecorder, .closeContext, .openContext true,
    .callBack ⟨false, true⟩, .startRecorder]

theorem streamsAlive_lateFrame :
    (streamUse true).Always StreamsAlive (streamUse true).init lateFrame :=
  (streamsAlive_iff true lateFrame _ rfl).mpr (by decide)

end PiWebrtc.Recorder
