import PiWebrtc.Recorder.RecorderManager
import Mathlib.Data.Multiset.Defs

namespace PiWebrtc.Recorder

open Transition RecorderManager

/-!
# A stop of the on-demand recorder

The on-demand recorder is started and stopped by its clients.  A frame callback that finds
the file long enough closes it and starts the next one, and nothing tells it that a `Stop`
came in between: the `Start` of a rotation sets `is_recording_` again.

`stop_wins` says when a `Stop` holds: nobody is on the way to set `is_recording_` when it is
cleared, a frame does not begin a rotation after that, and none counts the segments up again
from the zero that the `Stop` leaves.
-/

/-- Where a `Stop` comes from: a stop request, or the command channel of a peer that is gone. -/
inductive StopSource where
  | request
  | disconnect
  deriving DecidableEq, Repr

/-- `Conductor::StopRecording` and `OnClosed` of the command channel; the second one asks first
    whether there is a recording. -/
def StopSource.call (r : RecorderManager) : StopSource → Option RecorderCall
  | .request => some .stop
  | .disconnect => if r.isRecording then some .stop else none

/-- Not recording, no container open, and no segment counted. -/
structure Idle (r : RecorderManager) : Prop where
  not_recording : r.isRecording = false
  no_container : r.fmtCtx = none
  no_segment : r.fileNumber = 0

namespace RecorderOp

/-- A step of a rotation or of a `Start` on the way to `is_recording_`. -/
def starts : RecorderOp → Bool
  | .clearRecording .rotation | .closeContext .rotation => true
  | .checkSpace | .openContext | .markRecording => true
  | _ => false

/-- The last step of a `Stop`. -/
def resets : RecorderOp → Bool
  | .resetFileNumber _ => true
  | _ => false

/-- A step of a `Stop`. -/
def ofStop : RecorderOp → Bool
  | .clearRecording caller | .closeContext caller => caller ≠ .rotation
  | .resetFileNumber _ => true
  | _ => false

/-- A step of a frame callback that is not one of `Start` as well. -/
def ofFrame : RecorderOp → Bool
  | .autoStart _ | .gate _ | .setBase _ | .rotate _ | .bumpFileNumber => true
  | .clearRecording caller | .closeContext caller => caller = .rotation
  | _ => false

end RecorderOp

/-- Every `Stop` has returned and every frame callback has finished. -/
def Settled (s : Threads RecorderManager RecorderOp) : Prop :=
  ∀ op ∈ s.inFlight, op.ofStop = false ∧ op.ofFrame = false

instance (s : Threads RecorderManager RecorderOp) : Decidable (Settled s) :=
  inferInstanceAs (Decidable (∀ op ∈ s.inFlight, op.ofStop = false ∧ op.ofFrame = false))

/-- A `Stop` clears `is_recording_` while nobody is on the way to set it; a frame rotates only
    while it is set; and from zero the segments are counted up only while it is set or before
    a `Stop` resets their number. -/
def StopsAlone (args : RecorderArgs) (op : RecorderOp)
    (s : Threads RecorderManager RecorderOp) : Prop :=
  match op with
  | .clearRecording .stop => ∀ o ∈ s.inFlight, o.starts = false
  | .rotate ts => s.shared.fileIsFull args ts = true → s.shared.isRecording = true
  | .setBase _ | .bumpFileNumber =>
    s.shared.fileNumber = 0 → s.shared.isRecording = true ∨ ∃ o ∈ s.inFlight, o.resets = true
  | _ => True

instance decidableStopsAlone (args : RecorderArgs) (s : Threads RecorderManager RecorderOp) :
    ∀ op, Decidable (StopsAlone args op s)
  | .clearRecording .stop => inferInstanceAs (Decidable (∀ o ∈ s.inFlight, o.starts = false))
  | .rotate ts => inferInstanceAs (Decidable
      (s.shared.fileIsFull args ts = true → s.shared.isRecording = true))
  | .setBase _ | .bumpFileNumber =>
    have := Multiset.decidableExistsMultiset (m := s.inFlight) (p := fun o => o.resets = true)
    inferInstanceAs (Decidable
      (s.shared.fileNumber = 0 → s.shared.isRecording = true ∨ ∃ o ∈ s.inFlight, o.resets = true))
  | .clearRecording .rotation | .clearRecording .destructor | .checkSpace | .openContext
  | .markRecording | .closeContext _ | .resetFileNumber _ | .returnDestructor | .autoStart _
  | .gate _ | .writePacket _ => isTrue trivial

variable {args : RecorderArgs}

/-! ### A recording that is over -/

/-- Not recording, and nobody on the way to it. -/
structure Stopped (r : RecorderManager) (flight : Multiset RecorderOp) : Prop where
  not_recording : r.isRecording = false
  no_start : ∀ op ∈ flight, op.starts = false

/-- How far the last `Stop` is: `is_recording_` is not cleared yet; or it is, and the container
    is not closed yet; or it is, and the number of segments is zero or will be. -/
def StopPhase (r : RecorderManager) (flight : Multiset RecorderOp) : Prop :=
  .clearRecording .stop ∈ flight ∨
    Stopped r flight ∧ (.closeContext .stop ∈ flight ∨
      r.fmtCtx = none ∧ (r.fileNumber = 0 ∨ ∃ op ∈ flight, op.resets = true))

section Exec

variable {s : Threads RecorderManager RecorderOp} {op : RecorderOp}
  {others : Multiset RecorderOp} {x : RecorderOutcome} {e : Effect RecorderManager RecorderOp}

/-- The recorder spawns no threads. -/
theorem recorderExec_spawn (he : recorderExec args op x s = some e) : e.spawn = [] := by
  cases op
  case closeContext caller => cases caller <;> cases he <;> rfl
  all_goals cases he; rfl

/-- Once recording is over and nobody is on the way to it, it takes a `Start`. -/
theorem Stopped.exec (hdemand : args.autoStart = false) (h : Stopped s.shared s.inFlight)
    (hfl : s.inFlight = op ::ₘ others) (hg : StopsAlone args op s)
    (he : recorderExec args op x s = some e) :
    Stopped e.shared (↑e.next + others) := by
  have hothers : ∀ o ∈ others, o.starts = false := fun o ho =>
    h.no_start o (hfl ▸ Multiset.mem_cons_of_mem ho)
  have hop : op.starts = false := h.no_start op (hfl ▸ Multiset.mem_cons_self op others)
  have hkeep : e.shared.isRecording = false → (∀ o ∈ e.next, o.starts = false) →
      Stopped e.shared (↑e.next + others) := by
    refine fun hrec hnext => ⟨hrec, fun o ho => ?_⟩
    rcases Multiset.mem_add.mp ho with ho | ho
    · exact hnext o (Multiset.mem_coe.mp ho)
    · exact hothers o ho
  have hrec := h.not_recording
  cases op with
  -- these are on the way to record, and there are none
  | checkSpace | openContext | markRecording => cases hop
  | clearRecording caller =>
    cases he
    cases caller with
    | rotation => cases hop
    | stop | destructor => exact hkeep rfl (by simp [RecorderOp.starts])
  | closeContext caller =>
    have hclose := (closeContext_same s.shared).isRecording.trans hrec
    cases caller with
    | rotation => cases hop
    | stop | destructor =>
      cases he
      exact hkeep hclose (by simp [RecorderOp.starts])
  | resetFileNumber caller =>
    cases he
    refine hkeep hrec fun o ho => ?_
    split at ho <;> simp at ho
    rw [ho]
    rfl
  | returnDestructor | bumpFileNumber =>
    cases he
    exact hkeep hrec (by simp)
  -- the recorder was not told to start by itself
  | autoStart ts =>
    cases he
    exact hkeep hrec (by simp [hdemand, RecorderOp.starts])
  | gate ts =>
    cases he
    exact hkeep hrec (by simp [hrec])
  | setBase ts =>
    cases he
    refine hkeep ?_ (by simp [RecorderOp.starts])
    split <;> exact hrec
  | rotate ts =>
    cases he
    refine hkeep hrec ?_
    -- the file is not full, or the guard would have the recorder record
    have hfull : s.shared.fileIsFull args ts = false := by
      by_contra hfull
      rw [hg (Bool.not_eq_false _ ▸ hfull)] at hrec
      cases hrec
    simp [hfull]
  | writePacket pkt =>
    cases he
    exact hkeep ((writeIntoFile_same s.shared pkt x).isRecording.trans hrec) (by simp)

/-- Only a `Start` opens a container. -/
theorem fmtCtx_none (hop : op.starts = false) (hnone : s.shared.fmtCtx = none)
    (he : recorderExec args op x s = some e) : e.shared.fmtCtx = none := by
  cases op with
  | checkSpace | openContext | markRecording => cases hop
  | closeContext caller =>
    cases caller <;> cases he <;> exact closeContext_closes s.shared
  | setBase ts =>
    cases he
    split <;> exact hnone
  | writePacket pkt =>
    cases he
    simp only [RecorderManager.writeIntoFile, hnone]
  | _ => cases he; exact hnone

/-- Only the frame callback counts segments. -/
theorem fileNumber_zero (hop : op ≠ .bumpFileNumber) (hbase : ∀ ts, op ≠ .setBase ts)
    (hzero : s.shared.fileNumber = 0) (he : recorderExec args op x s = some e) :
    e.shared.fileNumber = 0 := by
  cases op with
  | bumpFileNumber => exact absurd rfl hop
  | setBase ts => exact absurd rfl (hbase ts)
  | openContext =>
    cases he
    exact (openContext_same s.shared args x).fileNumber.trans hzero
  | closeContext caller =>
    cases caller <;> cases he <;> exact (closeContext_same s.shared).fileNumber.trans hzero
  | writePacket pkt =>
    cases he
    exact (writeIntoFile_same s.shared pkt x).fileNumber.trans hzero
  | resetFileNumber caller => cases he; rfl
  | _ => cases he; exact hzero

/-- **One operation.** No operation under the guard takes a `Stop` back. -/
theorem StopPhase.exec (hdemand : args.autoStart = false) (h : StopPhase s.shared s.inFlight)
    (hfl : s.inFlight = op ::ₘ others) (hg : StopsAlone args op s)
    (he : recorderExec args op x s = some e) :
    StopPhase e.shared (↑e.next + others) := by
  have hothers : ∀ {o}, o ∈ others → o ∈ (↑e.next + others : Multiset RecorderOp) := fun ho =>
    Multiset.mem_add.mpr (.inr ho)
  have hnext : ∀ {o}, o ∈ e.next → o ∈ (↑e.next + others : Multiset RecorderOp) := fun ho =>
    Multiset.mem_add.mpr (.inl (Multiset.mem_coe.mpr ho))
  rcases h with hclear | ⟨hstopped, hphase⟩
  · rw [hfl] at hclear
    rcases Multiset.mem_cons.mp hclear with rfl | hclear
    · -- the guard says that nobody is on the way to set the flag
      cases he
      have hnone : ∀ o ∈ others, o.starts = false := fun o ho =>
        hg o (hfl ▸ Multiset.mem_cons_of_mem ho)
      refine .inr ⟨⟨rfl, fun o ho => ?_⟩, .inl (hnext List.mem_cons_self)⟩
      rcases Multiset.mem_add.mp ho with ho | ho
      · rw [List.mem_singleton.mp (Multiset.mem_coe.mp ho)]
        rfl
      · exact hnone o ho
    · exact .inl (hothers hclear)
  · refine .inr ⟨hstopped.exec hdemand hfl hg he, ?_⟩
    have hop : op.starts = false := hstopped.no_start op (hfl ▸ Multiset.mem_cons_self op others)
    -- the section that closes the container, or what comes after it
    rcases hphase with hclose | ⟨hnone, hnumber⟩
    · rw [hfl] at hclose
      rcases Multiset.mem_cons.mp hclose with rfl | hclose
      · cases he
        exact .inr ⟨closeContext_closes s.shared,
          .inr ⟨.resetFileNumber .stop, hnext List.mem_cons_self, rfl⟩⟩
      · exact .inl (hothers hclose)
    · refine .inr ⟨fmtCtx_none hop hnone he, ?_⟩
      by_cases hlater : ∃ o ∈ others, o.resets = true
      · obtain ⟨o, ho, hr⟩ := hlater
        exact .inr ⟨o, hothers ho, hr⟩
      · cases hr : op.resets with
        | true =>
          cases op <;> cases hr
          cases he
          exact .inl rfl
        | false =>
          -- no reset is to come, so the number is zero and stays so
          have hnever : ¬ ∃ o ∈ s.inFlight, o.resets = true := by
            rintro ⟨o, ho, hr'⟩
            rw [hfl] at ho
            rcases Multiset.mem_cons.mp ho with rfl | ho
            · rw [hr] at hr'
              cases hr'
            · exact hlater ⟨o, ho, hr'⟩
          have hzero := hnumber.resolve_right hnever
          have hcount : ¬ (s.shared.isRecording = true ∨ ∃ o ∈ s.inFlight, o.resets = true) := by
            rw [hstopped.not_recording]
            simpa using hnever
          refine .inl (fileNumber_zero ?_ ?_ hzero he)
          · rintro rfl
            exact hcount (hg hzero)
          · rintro ts rfl
            exact hcount (hg hzero)

end Exec

/-! ### After the stop -/

/-- Stopped for good, with no frame callback left from before. -/
structure AtRest (r : RecorderManager) (flight : Multiset RecorderOp) : Prop where
  idle : Idle r
  no_start : ∀ op ∈ flight, op.starts = false
  no_frame : ∀ op ∈ flight, op ≠ .bumpFileNumber ∧ ∀ ts, op ≠ .setBase ts ∧ op ≠ .rotate ts

namespace AtRest

/-- When the last `Stop` has gone through and nobody is in the middle of a frame. -/
theorem of_settled {s : Threads RecorderManager RecorderOp}
    (hphase : StopPhase s.shared s.inFlight) (hsettled : Settled s) :
    AtRest s.shared s.inFlight := by
  have hstop : ∀ {op}, op ∈ s.inFlight → op.ofStop ≠ true := fun hop hof => by
    rw [(hsettled _ hop).1] at hof
    cases hof
  rcases hphase with hclear | ⟨hstopped, hclose | ⟨hnone, hnumber⟩⟩
  · exact absurd rfl (hstop hclear)
  · exact absurd rfl (hstop hclose)
  · refine ⟨⟨hstopped.not_recording, hnone, hnumber.resolve_right ?_⟩, hstopped.no_start,
      fun op hop => ?_⟩
    · rintro ⟨op, hop, hresets⟩
      cases op <;> cases hresets
      exact hstop hop rfl
    · have hframe := (hsettled op hop).2
      refine ⟨?_, fun ts => ⟨?_, ?_⟩⟩ <;> rintro rfl <;> cases hframe

/-- Nothing but a `Start` ends the rest. -/
theorem exec (hdemand : args.autoStart = false) {s : Threads RecorderManager RecorderOp}
    {op : RecorderOp} {others : Multiset RecorderOp} {x : RecorderOutcome}
    {e : Effect RecorderManager RecorderOp} (h : AtRest s.shared s.inFlight)
    (hfl : s.inFlight = op ::ₘ others) (he : recorderExec args op x s = some e) :
    AtRest e.shared (↑e.next + others) := by
  have hmem : op ∈ s.inFlight := hfl ▸ Multiset.mem_cons_self op others
  obtain ⟨hbump, hts⟩ := h.no_frame op hmem
  have hg : StopsAlone args op s := by
    cases op with
    | clearRecording caller =>
      cases caller with
      | stop => exact h.no_start
      | rotation | destructor => trivial
    | setBase ts => exact absurd rfl (hts ts).1
    | rotate ts => exact absurd rfl (hts ts).2
    | bumpFileNumber => exact absurd rfl hbump
    | _ => trivial
  have hstopped : Stopped s.shared s.inFlight := ⟨h.idle.not_recording, h.no_start⟩
  have hstopped' := hstopped.exec hdemand hfl hg he
  have hidle : Idle e.shared :=
    ⟨hstopped'.not_recording, fmtCtx_none (h.no_start op hmem) h.idle.no_container he,
      fileNumber_zero hbump (fun ts => (hts ts).1) h.idle.no_segment he⟩
  refine ⟨hidle, hstopped'.no_start, fun o ho => ?_⟩
  rcases Multiset.mem_add.mp ho with ho | ho
  · -- what comes next is the rest of a call that was looked at while nothing was recorded
    rw [Multiset.mem_coe] at ho
    have hrec := h.idle.not_recording
    cases op with
    | clearRecording caller | openContext =>
      cases he
      grind
    | closeContext caller =>
      cases caller with
      | rotation => cases h.no_start _ hmem
      | stop | destructor =>
        cases he
        grind
    | autoStart ts =>
      cases he
      grind
    | gate ts =>
      cases he
      rw [hrec] at ho
      cases ho
    | setBase ts => exact absurd rfl (hts ts).1
    | rotate ts => exact absurd rfl (hts ts).2
    | bumpFileNumber => exact absurd rfl hbump
    | _ => cases he; grind
  · exact h.no_frame o (hfl ▸ Multiset.mem_cons_of_mem ho)

end AtRest

/-! ### All interleavings -/

/-- A call other than a client's `Start` brings no `Start`. -/
theorem recorderEntry_no_start {k : RecorderCall} (hk : k ≠ .start) :
    ∀ op ∈ recorderEntry k, op.starts = false ∧ op ≠ .bumpFileNumber ∧
      ∀ ts, op ≠ .setBase ts ∧ op ≠ .rotate ts := by
  cases k with
  | start => exact absurd rfl hk
  | _ => simp [recorderEntry, RecorderOp.starts]

theorem StopPhase.entry {r : RecorderManager} {flight : Multiset RecorderOp} {k : RecorderCall}
    (h : StopPhase r flight) (hk : k ≠ .start) : StopPhase r (flight + ↑(recorderEntry k)) := by
  have hadd : ∀ {o}, o ∈ flight → o ∈ flight + ↑(recorderEntry k) := fun ho =>
    Multiset.mem_add.mpr (.inl ho)
  rcases h with hclear | ⟨hstopped, hphase⟩
  · exact .inl (hadd hclear)
  · refine .inr ⟨⟨hstopped.not_recording, fun o ho => ?_⟩, ?_⟩
    · rcases Multiset.mem_add.mp ho with ho | ho
      · exact hstopped.no_start o ho
      · exact (recorderEntry_no_start hk o (Multiset.mem_coe.mp ho)).1
    · rcases hphase with hclose | ⟨hnone, hzero | ⟨o, ho, hr⟩⟩
      · exact .inl (hadd hclose)
      · exact .inr ⟨hnone, .inl hzero⟩
      · exact .inr ⟨hnone, .inr ⟨o, hadd ho, hr⟩⟩

theorem AtRest.entry {r : RecorderManager} {flight : Multiset RecorderOp} {k : RecorderCall}
    (h : AtRest r flight) (hk : k ≠ .start) : AtRest r (flight + ↑(recorderEntry k)) := by
  refine ⟨h.idle, fun o ho => ?_, fun o ho => ?_⟩ <;> rcases Multiset.mem_add.mp ho with ho | ho
  · exact h.no_start o ho
  · exact (recorderEntry_no_start hk o (Multiset.mem_coe.mp ho)).1
  · exact h.no_frame o ho
  · exact (recorderEntry_no_start hk o (Multiset.mem_coe.mp ho)).2

/-- **A stop wins.** Let a `Stop` of an on-demand recorder come in at any point of a run whose
    operations are all executed under `StopsAlone`, from a stop request or because a peer is
    gone.  When every `Stop` has returned and every frame callback has finished, the recorder
    is idle, and so it stays for as long as no client calls `Start`. -/
theorem stop_wins (args : RecorderArgs) (hdemand : args.autoStart = false)
    (before after later : List (Label RecorderOutcome RecorderCall)) (source : StopSource)
    (r s s' : Threads RecorderManager RecorderOp) (k : RecorderCall)
    (hbefore : (recorderCode args).machine.run before = some r)
    (hstop : source.call r.shared = some k)
    (hrun : (recorderCode args).machine.runFrom r (.call k :: after) = some s)
    (hlater : (recorderCode args).machine.runFrom s later = some s')
    (halone : (recorderCode args).machine.Guarded (Code.When (StopsAlone args))
      (recorderCode args).init (before ++ .call k :: after))
    (hstart : .call .start ∉ after ++ later) (hsettled : Settled s) :
    Idle s.shared ∧ Idle s'.shared := by
  obtain rfl : k = .stop := by
    cases source with
    | request => exact (Option.some.inj hstop).symm
    | disconnect =>
      rw [StopSource.call] at hstop
      split at hstop <;> cases hstop
      rfl
  rw [List.mem_append, not_or] at hstart
  obtain ⟨t, ht, hafter⟩ := (recorderCode args).machine.runFrom_cons_eq_some.mp hrun
  have hcalls : ∀ {as : List (Label RecorderOutcome RecorderCall)}, .call .start ∉ as →
      ∀ k, .call k ∈ as → k ≠ .start := fun hno k hk => by
    rintro rfl
    exact hno hk
  have hphase : StopPhase t.shared t.inFlight := by
    obtain ⟨ops, hops, -, hfl⟩ := Code.step_call (C := recorderCode args) ht
    cases hops
    exact .inl (hfl ▸ Multiset.mem_add.mpr (.inr (by simp [recorderEntry])))
  have hphase' : StopPhase s.shared s.inFlight := by
    refine Code.guarded_interleavings_from (C := recorderCode args) (c := fun k => k ≠ .start)
      ?_ ?_ hphase (((Machine.guarded_append hbefore).mp halone).2.2 t ht) (hcalls hstart.1) hafter
    · rintro s k ops hk hP hops
      cases hops
      exact hP.entry hk
    · intro s op others x e hfl hP hg he
      rw [recorderExec_spawn he]
      simpa using hP.exec hdemand hfl hg he
  have hrest := AtRest.of_settled hphase' hsettled
  suffices hrest' : AtRest s'.shared s'.inFlight from ⟨hrest.idle, hrest'.idle⟩
  refine Code.guarded_interleavings_from (C := recorderCode args) (c := fun k => k ≠ .start)
    (g := fun _ _ => True) ?_ ?_ hrest (Machine.guarded_of_forall Code.when_true s later)
    (hcalls hstart.2) hlater
  · rintro s k ops hk hP hops
    cases hops
    exact hP.entry hk
  · intro s op others x e hfl hP _ he
    rw [recorderExec_spawn he]
    simpa using hP.exec hdemand hfl he

/-- An on-demand recorder of minute-long files. -/
def minuteFiles : RecorderArgs where
  recordType := .video
  autoStart := false
  fileDuration := 60
  streams := [⟨.other, []⟩]

/-- A client starts a recording, and its first frame comes. -/
def firstFrame : List (Label RecorderOutcome RecorderCall) :=
  [.call .start, .run 0 .done, .run 0 .done, .run 0 .done,
   .call (.frame 0), .run 1 .done, .run 1 .done, .run 1 .done, .run 1 .done]

/-- The `Stop` of that recording, and a frame that comes later. -/
theorem stop_wins_firstFrame :
    ∃ r s s', (recorderCode minuteFiles).machine.run firstFrame = some r ∧
      r.shared.isRecording = true ∧
      (recorderCode minuteFiles).machine.runFrom r
        [.call .stop, .run 2 .done, .run 2 .done, .run 2 .done] = some s ∧
      (recorderCode minuteFiles).machine.runFrom s
        [.call (.frame 1), .run 3 .done, .run 3 .done] = some s' ∧
      Idle s.shared ∧ Idle s'.shared :=
  ⟨_, _, _, rfl, rfl, rfl, rfl, stop_wins minuteFiles rfl firstFrame
    [.run 2 .done, .run 2 .done, .run 2 .done] [.call (.frame 1), .run 3 .done, .run 3 .done]
    .disconnect _ _ _ .stop rfl rfl rfl rfl (by decide) (by simp) (by decide)⟩

/-- A minute later a frame finds the file long enough. -/
def fileFull : List (Label RecorderOutcome RecorderCall) :=
  firstFrame ++ [.call (.frame 60000000), .run 2 .done, .run 2 .done, .run 2 .done, .run 2 .done]

/-- A `Stop` goes through before the frame's callback does what it decided to do. -/
def stopWhileRotating : List (Label RecorderOutcome RecorderCall) :=
  [.run 3 .done, .run 3 .done, .run 3 .done] ++ List.replicate 6 (.run 2 .done)

/-- When the `Stop` has returned, be it of a request or of a peer's disconnect, and the frame
    callback has finished, the recorder records, and its container is open. -/
theorem not_idle_stopWhileRotating :
    ∃ r s, (recorderCode minuteFiles).machine.run fileFull = some r ∧
      StopSource.call r.shared .request = some .stop ∧
      StopSource.call r.shared .disconnect = some .stop ∧
      (recorderCode minuteFiles).machine.runFrom r (.call .stop :: stopWhileRotating) = some s ∧
      Settled s ∧ s.todo = [[], [], [], []] ∧ s.shared.isRecording = true ∧
      s.shared.fmtCtx = some ⟨1, [⟨.other, []⟩]⟩ ∧ s.shared.fileNumber = 1 ∧ ¬ Idle s.shared := by
  refine ⟨_, _, rfl, rfl, rfl, rfl, by decide, rfl, rfl, rfl, rfl, fun h => ?_⟩
  cases h.not_recording

end PiWebrtc.Recorder
