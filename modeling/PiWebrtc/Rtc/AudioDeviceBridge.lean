import PiWebrtc.Lib.Machine
import Mathlib.Data.List.Nodup

namespace PiWebrtc.Rtc

open Transition

/-!
# The playout of the audio device bridge

WebRTC starts and stops the playout from a thread of its own.  In between a worker asks it for
10 ms of audio, again and again, and writes them to the player, `AlsaPlayer` or `PaPlayer`, which
holds a handle of the sound system and blocks until it has taken the audio.

* `playoutSafe` — in every interleaving, the handle is used only while it is open, and closed
  once; and nothing stays open when the playout was stopped.
* `played_eq` — what is played is what was asked for, in order and without repetition; only the end
  of a write that failed is missing.
* `playerOpen_iff` — the player of a playout that was started stays open, except for PulseAudio
  after a write that failed; and then (`pulseMuted`) nothing is played any more until the playout is
  stopped.

The delay that is reported to WebRTC is left out.  A frame is a sample for each channel.
-/

/-- The players. -/
inductive AudioPlayer where
  | alsa
  | pulse
  deriving DecidableEq, Repr

/-- How a player is opened. -/
inductive OpenOutcome where
  | opens
  | refused
  /-- ALSA: the device does not take the parameters, and is closed again. -/
  | badParams
  deriving DecidableEq, Repr

/-- How the sound system answers a write, and how many frames it has taken. -/
inductive WriteAnswer where
  | took (frames : ℕ)
  | failed (frames : ℕ) (recovers : Bool)
  deriving DecidableEq, Repr

namespace WriteAnswer

def frames : WriteAnswer → ℕ
  | took n | failed n _ => n

def fails : WriteAnswer → Bool
  | took _ => false
  | failed _ _ => true

/-- The answers to a write of `rest` frames: `snd_pcm_writei` takes some of them or fails,
    `pa_simple_write` takes all of them or fails. -/
def Possible (player : AudioPlayer) (rest : ℕ) : WriteAnswer → Prop
  | took n => n ≤ rest ∧ (player = .pulse → n = rest)
  | failed n _ => n ≤ rest ∧ (player = .alsa → n = 0)

instance (player : AudioPlayer) (rest : ℕ) (answer : WriteAnswer) :
    Decidable (answer.Possible player rest) := by
  unfold Possible
  split <;> infer_instance

end WriteAnswer

/-- Where the playout worker is: in its loop, in `PlayoutOnce`, or in a function of the player. -/
inductive PlayoutPhase (α : Type*) where
  | loopTop
  | providing
  /-- In `Write`. -/
  | entering (chunk : List α)
  | writing (chunk : List α) (written recoveries : ℕ)
  /-- In `DelayMs`. -/
  | asking
  | delaying
  | exited
  deriving DecidableEq, Repr

/-- A call of `Write` that has returned `ok`, and how much of the chunk was taken. -/
structure PlayerWrite (α : Type*) where
  chunk : List α
  taken : ℕ
  ok : Bool
  deriving DecidableEq, Repr

/-- The playout: `audio_transport_` is set, `playout_initialized_`, `playing_`, the worker and its
    `abort_`; `StopPlayout` waits for the worker, `some true` if `Terminate` has called it; and the
    player's handle.  As history: how many handles were opened and which were closed, whether one
    was used that is not open, what was asked for, what was played, and the writes. -/
structure AudioDeviceBridge (α : Type*) where
  transport : Bool := false
  playoutInitialized : Bool := false
  playing : Bool := false
  worker : Option (PlayoutPhase α) := none
  abort : Bool := false
  stopping : Option Bool := none
  handle : Option ℕ := none
  opened : ℕ := 0
  closed : List ℕ := []
  fault : Bool := false
  supplied : List (List α) := []
  played : List α := []
  writes : List (PlayerWrite α) := []
  deriving DecidableEq, Repr

def kMaxRecoveriesPerWrite : ℕ := 3

namespace AudioDeviceBridge

variable {α : Type*}

/-! ### The player -/

/-- `Open`. -/
def openPlayer (s : AudioDeviceBridge α) (player : AudioPlayer) (outcome : OpenOutcome) :
    AudioDeviceBridge α × Bool :=
  if s.handle.isSome then (s, true)
  else
    match outcome, player with
    | .opens, _ => ({ s with handle := some s.opened, opened := s.opened + 1 }, true)
    | .badParams, .alsa =>
      ({ s with opened := s.opened + 1, closed := s.closed ++ [s.opened] }, false)
    | .badParams, .pulse | .refused, _ => (s, false)

/-- `Close`. -/
def close (s : AudioDeviceBridge α) : AudioDeviceBridge α :=
  match s.handle with
  | none => s
  | some handle => { s with handle := none, closed := s.closed ++ [handle] }

/-- The handle is passed to the sound system. -/
def useHandle (s : AudioDeviceBridge α) : AudioDeviceBridge α :=
  { s with fault := s.fault || s.handle.isNone }

/-- `Write` returns, and `PlayoutOnce` goes on. -/
def returnWrite (s : AudioDeviceBridge α) (chunk : List α) (taken : ℕ) (ok : Bool) :
    AudioDeviceBridge α :=
  { s with
    writes := s.writes ++ [⟨chunk, taken, ok⟩]
    worker := some (if ok then .asking else .loopTop) }

/-- `while (written < frames)`. -/
def loopWrite (s : AudioDeviceBridge α) (chunk : List α) (written recoveries : ℕ) :
    AudioDeviceBridge α :=
  if written < chunk.length then { s with worker := some (.writing chunk written recoveries) }
  else s.returnWrite chunk written true

/-- `Write`, up to the first call. -/
def enterWrite (s : AudioDeviceBridge α) (player : AudioPlayer) (chunk : List α) :
    AudioDeviceBridge α :=
  if s.handle.isNone then s.returnWrite chunk 0 false
  else
    match player with
    | .alsa => s.loopWrite chunk 0 0
    | .pulse => { s with worker := some (.writing chunk 0 0) }

/-- A call of `snd_pcm_writei` or `pa_simple_write`, and what follows it. -/
def write (s : AudioDeviceBridge α) (player : AudioPlayer) (chunk : List α)
    (written recoveries : ℕ) (answer : WriteAnswer) : AudioDeviceBridge α :=
  let s := { s.useHandle with played := s.played ++ (chunk.drop written).take answer.frames }
  match answer with
  | .took n => s.loopWrite chunk (written + n) recoveries
  | .failed n recovers =>
    match player with
    | .alsa =>
      if kMaxRecoveriesPerWrite < recoveries + 1 ∨ recovers = false then
        s.returnWrite chunk (written + n) false
      else s.loopWrite chunk (written + n) (recoveries + 1)
    | .pulse => s.close.returnWrite chunk (written + n) false

/-! ### WebRTC's thread -/

/-- `InitPlayout`, and whether it returns 0. -/
def initPlayout (s : AudioDeviceBridge α) (player : Option AudioPlayer) (outcome : OpenOutcome) :
    AudioDeviceBridge α × Bool :=
  match player with
  | none => (s, true)
  | some player =>
    if s.playoutInitialized then (s, true)
    else if (s.openPlayer player outcome).2 then
      ({ (s.openPlayer player outcome).1 with playoutInitialized := true }, true)
    else ((s.openPlayer player outcome).1, false)

/-- `StartPlayout`. -/
def startPlayout (s : AudioDeviceBridge α) (player : Option AudioPlayer) (outcome : OpenOutcome) :
    AudioDeviceBridge α :=
  if player.isNone ∨ s.worker.isSome then s
  else if (s.initPlayout player outcome).2 then
    { (s.initPlayout player outcome).1 with
      worker := some .loopTop, abort := false, playing := true }
  else (s.initPlayout player outcome).1

/-- `StopPlayout`, up to where it waits for the worker. -/
def stopPlayout (s : AudioDeviceBridge α) (terminate : Bool) : AudioDeviceBridge α :=
  { s with playing := false, abort := true, stopping := some terminate }

/-- The rest of `StopPlayout`, and of `Terminate`. -/
def joined (s : AudioDeviceBridge α) (player : Option AudioPlayer) (terminate : Bool) :
    AudioDeviceBridge α :=
  { if player.isSome ∧ s.playoutInitialized then s.close else s with
    worker := none
    stopping := none
    playoutInitialized := false
    transport := s.transport && !terminate }

end AudioDeviceBridge

/-- What the two threads do next. -/
inductive PlayoutEvent (α : Type*) where
  | registerAudioCallback (transport : Bool)
  | initPlayout (outcome : OpenOutcome)
  | startPlayout (outcome : OpenOutcome)
  | stopPlayout (terminate : Bool)
  | joined
  | checkAbort
  /-- `NeedMorePlayData`, with what it supplies. -/
  | provide (data : Option (List α))
  | enterWrite
  | write (answer : WriteAnswer)
  | enterDelayMs
  | delayMs
  deriving DecidableEq, Repr

section Step

variable {α : Type*} (player : Option AudioPlayer) (frames : ℕ) (silence : α)

/-- What `PlayoutOnce` writes. -/
def playBuf (transport : Bool) (data : Option (List α)) : List α :=
  if transport then data.getD (List.replicate frames silence)
  else List.replicate frames silence

/-- The playout worker goes on from its phase. -/
def workerStep (s : AudioDeviceBridge α) (phase : PlayoutPhase α) (e : PlayoutEvent α) :
    Option (AudioDeviceBridge α) :=
  match phase, e, player with
  | .loopTop, .checkAbort, _ =>
    some { s with worker := some (if s.abort then .exited else .providing) }
  | .providing, .provide data, _ =>
    if ∀ chunk ∈ data, chunk.length = frames then
      some { s with
        supplied := s.supplied ++ [playBuf frames silence s.transport data]
        worker := some (.entering (playBuf frames silence s.transport data)) }
    else none
  | .entering chunk, .enterWrite, some player => some (s.enterWrite player chunk)
  | .writing chunk written recoveries, .write answer, some player =>
    if answer.Possible player (chunk.length - written) then
      some (s.write player chunk written recoveries answer)
    else none
  | .asking, .enterDelayMs, _ =>
    some { s with worker := some (if s.handle.isSome then .delaying else .loopTop) }
  | .delaying, .delayMs, _ => some { s.useHandle with worker := some .loopTop }
  | _, _, _ => none

/-- The worker can be joined. -/
def hasExited : Option (PlayoutPhase α) → Bool
  | none | some .exited => true
  | _ => false

/-- WebRTC's thread calls a function, unless it waits in one. -/
def playoutStep (s : AudioDeviceBridge α) (e : PlayoutEvent α) : Option (AudioDeviceBridge α) :=
  match s.stopping, e with
  | none, .registerAudioCallback transport => some { s with transport := transport }
  | none, .initPlayout outcome => some (s.initPlayout player outcome).1
  | none, .startPlayout outcome => some (s.startPlayout player outcome)
  | none, .stopPlayout terminate => some (s.stopPlayout terminate)
  | some terminate, .joined =>
    if hasExited s.worker then some (s.joined player terminate) else none
  | _, e => s.worker.bind fun phase => workerStep player frames silence s phase e

end Step

/-- The bridge with a player, or without one. -/
def audioDeviceBridge {α : Type*} (player : Option AudioPlayer) (frames : ℕ) (silence : α) :
    Machine (AudioDeviceBridge α) (PlayoutEvent α) where
  init := {}
  step := playoutStep player frames silence

/-! ### The handle -/

/-- The phases in which the worker relies on the handle. -/
def PlayoutPhase.UsesHandle {α : Type*} : PlayoutPhase α → Prop
  | .writing _ _ _ | .delaying => True
  | _ => False

/-- The open handle is the last one, and the others are closed, each once. -/
structure Handles (handle : Option ℕ) (opened : ℕ) (closed : List ℕ) : Prop where
  isOpen : ∀ h ∈ handle, h < opened ∧ h ∉ closed
  closed_lt : ∀ h ∈ closed, h < opened
  nodup : closed.Nodup
  opened_eq : opened = closed.length + handle.toList.length

/-- The handle is used only while it is open; it is open, and there is a worker, only between
    `InitPlayout` and the end of `StopPlayout`; and `Playing` tells whether the worker is at
    work. -/
structure PlayoutSafe {α : Type*} (player : Option AudioPlayer) (s : AudioDeviceBridge α) :
    Prop where
  hasPlayer : s.playoutInitialized = true → player.isSome = true
  handles : Handles s.handle s.opened s.closed
  fault : s.fault = false
  initialized : s.handle.isSome ∨ s.worker.isSome → s.playoutInitialized = true
  uses : ∀ phase ∈ s.worker, phase.UsesHandle → s.handle.isSome = true
  playing : s.playing = (s.worker.isSome && s.stopping.isNone)
  working : s.stopping = none → s.worker ≠ some .exited ∧ (s.worker.isSome → s.abort = false)

section Safe

variable {α : Type*} {player : Option AudioPlayer} {s s' : AudioDeviceBridge α}

theorem Handles.opens {opened : ℕ} {closed : List ℕ} (h : Handles none opened closed) :
    Handles (some opened) (opened + 1) closed where
  isOpen := by
    rintro _ ⟨⟩
    exact ⟨Nat.lt_succ_self _, fun hmem => absurd (h.closed_lt _ hmem) (Nat.lt_irrefl _)⟩
  closed_lt c hc := Nat.lt_succ_of_lt (h.closed_lt c hc)
  nodup := h.nodup
  opened_eq := congrArg (· + 1) h.opened_eq

theorem Handles.closes {handle opened : ℕ} {closed : List ℕ}
    (h : Handles (some handle) opened closed) : Handles none opened (closed ++ [handle]) where
  isOpen := by rintro _ ⟨⟩
  closed_lt c hc := by
    rcases List.mem_append.mp hc with hc | hc
    · exact h.closed_lt c hc
    · exact List.mem_singleton.mp hc ▸ (h.isOpen _ rfl).1
  nodup := by
    refine List.nodup_append.mpr ⟨h.nodup, List.nodup_singleton handle, ?_⟩
    rintro c hc _ hmem rfl
    exact (h.isOpen _ rfl).2 (List.mem_singleton.mp hmem ▸ hc)
  opened_eq := by
    rw [List.length_append]
    exact h.opened_eq

/-- `Open` gives a handle exactly if it succeeds. -/
theorem openPlayer_spec (h : Handles s.handle s.opened s.closed) (player : AudioPlayer)
    (outcome : OpenOutcome) :
    Handles (s.openPlayer player outcome).1.handle (s.openPlayer player outcome).1.opened
        (s.openPlayer player outcome).1.closed ∧
      ((s.openPlayer player outcome).1.handle.isSome = true ↔
        (s.openPlayer player outcome).2 = true) := by
  unfold AudioDeviceBridge.openPlayer
  split_ifs with hsome
  · exact ⟨h, iff_of_true hsome rfl⟩
  have hnone : s.handle = none := Option.not_isSome_iff_eq_none.mp hsome
  have hclosed : Handles none s.opened s.closed := hnone ▸ h
  cases outcome with
  | opens => exact ⟨hclosed.opens, iff_of_true rfl rfl⟩
  | refused => exact ⟨h, iff_of_false hsome Bool.false_ne_true⟩
  | badParams =>
    cases player with
    | alsa =>
      refine ⟨?_, iff_of_false hsome Bool.false_ne_true⟩
      rw [hnone]
      exact hclosed.opens.closes
    | pulse => exact ⟨h, iff_of_false hsome Bool.false_ne_true⟩

/-- What opening a player leaves as it is. -/
theorem openPlayer_frame (s : AudioDeviceBridge α) (player : AudioPlayer) (outcome : OpenOutcome) :
    ∃ handle opened closed, (s.openPlayer player outcome).1 =
      { s with handle := handle, opened := opened, closed := closed } := by
  unfold AudioDeviceBridge.openPlayer
  split_ifs
  · exact ⟨_, _, _, rfl⟩
  · cases outcome <;> cases player <;> exact ⟨_, _, _, rfl⟩

/-- A playout that is not initialized has neither a handle nor a worker. -/
theorem PlayoutSafe.idle (h : PlayoutSafe player s) (hinit : ¬ s.playoutInitialized = true) :
    s.handle = none ∧ s.worker = none :=
  ⟨Option.not_isSome_iff_eq_none.mp fun hsome => hinit (h.initialized (.inl hsome)),
    Option.not_isSome_iff_eq_none.mp fun hsome => hinit (h.initialized (.inr hsome))⟩

theorem PlayoutSafe.initPlayout (h : PlayoutSafe player s) (outcome : OpenOutcome) :
    PlayoutSafe player (s.initPlayout player outcome).1 ∧
      (player.isSome = true → (s.initPlayout player outcome).2 = true →
        (s.initPlayout player outcome).1.playoutInitialized = true) := by
  cases player with
  | none => exact ⟨h, fun hplayer => absurd hplayer Bool.false_ne_true⟩
  | some player =>
    unfold AudioDeviceBridge.initPlayout
    dsimp only
    split_ifs with hinit hopen
    · exact ⟨h, fun _ _ => hinit⟩
    all_goals
      obtain ⟨hnone, hworker⟩ := h.idle hinit
      obtain ⟨hhandles, hsome⟩ := openPlayer_spec h.handles player outcome
      obtain ⟨handle, opened, closed, heq⟩ := openPlayer_frame s player outcome
      have huses : ∀ phase ∈ s.worker, phase.UsesHandle → handle.isSome = true := by
        rw [hworker]
        rintro _ ⟨⟩
      rw [heq] at hhandles hsome ⊢
    · exact ⟨⟨fun _ => rfl, hhandles, h.fault, fun _ => rfl, huses, h.playing, h.working⟩,
        fun _ _ => rfl⟩
    · refine ⟨⟨h.hasPlayer, hhandles, h.fault, ?_, huses, h.playing, h.working⟩, by rintro - ⟨⟩⟩
      rintro (hopens | hruns)
      · exact absurd (hsome.mp hopens) hopen
      · exact h.initialized (.inr hruns)

/-- What `InitPlayout` leaves as it is. -/
theorem initPlayout_frame (s : AudioDeviceBridge α) (player : Option AudioPlayer)
    (outcome : OpenOutcome) :
    ∃ handle opened closed initialized, (s.initPlayout player outcome).1 =
      { s with handle := handle, opened := opened, closed := closed,
               playoutInitialized := initialized } := by
  cases player with
  | none => exact ⟨_, _, _, _, rfl⟩
  | some player =>
    obtain ⟨handle, opened, closed, heq⟩ := openPlayer_frame s player outcome
    unfold AudioDeviceBridge.initPlayout
    dsimp only
    split_ifs
    · exact ⟨_, _, _, _, rfl⟩
    all_goals
      rw [heq]
      exact ⟨_, _, _, _, rfl⟩

theorem PlayoutSafe.startPlayout (h : PlayoutSafe player s) (hstopping : s.stopping = none)
    (outcome : OpenOutcome) : PlayoutSafe player (s.startPlayout player outcome) := by
  obtain ⟨hsafe, hinit⟩ := h.initPlayout outcome
  unfold AudioDeviceBridge.startPlayout
  split_ifs with hskip hok
  · exact h
  · obtain ⟨hplayer, -⟩ := not_or.mp hskip
    have hsome : player.isSome = true := Option.isSome_iff_ne_none.mpr fun hnone =>
      hplayer (Option.isNone_iff_eq_none.mpr hnone)
    have hinit := hinit hsome hok
    obtain ⟨handle, opened, closed, initialized, heq⟩ := initPlayout_frame s player outcome
    have hstop : (s.initPlayout player outcome).1.stopping = none := by
      rw [heq]
      exact hstopping
    refine ⟨hsafe.hasPlayer, hsafe.handles, hsafe.fault, fun _ => hinit, ?_, ?_,
      fun _ => ⟨by rintro ⟨⟩, fun _ => rfl⟩⟩
    · rintro _ ⟨⟩ ⟨⟩
    · show true = (true && (s.initPlayout player outcome).1.stopping.isNone)
      rw [hstop]
      rfl
  · exact hsafe

theorem PlayoutSafe.stopPlayout (h : PlayoutSafe player s) (terminate : Bool) :
    PlayoutSafe player (s.stopPlayout terminate) where
  hasPlayer := h.hasPlayer
  handles := h.handles
  fault := h.fault
  initialized := h.initialized
  uses := h.uses
  playing := (Bool.and_false _).symm
  working := by rintro ⟨⟩

theorem Handles.close (h : Handles s.handle s.opened s.closed) :
    Handles s.close.handle s.close.opened s.close.closed := by
  unfold AudioDeviceBridge.close
  cases hhandle : s.handle with
  | none => exact h
  | some handle =>
    rw [hhandle] at h
    exact h.closes

/-- What `Close` leaves as it is. -/
theorem close_frame (s : AudioDeviceBridge α) :
    ∃ closed, s.close = { s with handle := none, closed := closed } := by
  obtain ⟨transport, initialized, playing, worker, abort, stopping, handle, opened, closed, fault,
    supplied, played, writes⟩ := s
  cases handle with
  | none => exact ⟨closed, rfl⟩
  | some handle => exact ⟨closed ++ [handle], rfl⟩

/-- When the worker was joined, nothing is left open. -/
theorem PlayoutSafe.joined {terminate : Bool} (h : PlayoutSafe player s)
    (hstopping : s.stopping = some terminate) : PlayoutSafe player (s.joined player terminate) := by
  have hplaying : s.playing = false := by
    rw [h.playing, hstopping, Option.isNone_some, Bool.and_false]
  have hclosed : ∀ t : AudioDeviceBridge α, Handles t.handle t.opened t.closed → t.handle = none →
      t.fault = false → t.playing = false → PlayoutSafe player
        { t with worker := none, stopping := none, playoutInitialized := false,
                 transport := s.transport && !terminate } := by
    intro t hhandles hnone hfault hplaying
    refine ⟨by rintro ⟨⟩, hhandles, hfault, ?_, by rintro _ ⟨⟩, hplaying,
      fun _ => ⟨by rintro ⟨⟩, by rintro ⟨⟩⟩⟩
    rintro (hopens | ⟨⟨⟩⟩)
    rw [hnone] at hopens
    exact absurd hopens Bool.false_ne_true
  unfold AudioDeviceBridge.joined
  split_ifs with hclose
  · obtain ⟨closed, heq⟩ := close_frame s
    have hhandles := h.handles.close
    rw [heq] at hhandles ⊢
    exact hclosed _ hhandles rfl h.fault hplaying
  · refine hclosed s h.handles (h.idle fun hinit => hclose ⟨h.hasPlayer hinit, hinit⟩).1 h.fault
      hplaying

/-- The worker goes from one phase to another. -/
theorem PlayoutSafe.setWorker (h : PlayoutSafe player s) (hsome : s.worker.isSome = true)
    {phase : PlayoutPhase α} {supplied : List (List α)} {writes : List (PlayerWrite α)}
    (huses : phase.UsesHandle → s.handle.isSome = true)
    (hexited : phase = .exited → s.stopping ≠ none) :
    PlayoutSafe player { s with worker := some phase, supplied := supplied, writes := writes } where
  hasPlayer := h.hasPlayer
  handles := h.handles
  fault := h.fault
  initialized := fun _ => h.initialized (.inr hsome)
  uses := by
    rintro _ ⟨⟩
    exact huses
  playing := by
    rw [h.playing, hsome]
    rfl
  working hstopping := by
    refine ⟨fun heq => hexited (Option.some.inj heq) hstopping, fun _ => ?_⟩
    exact (h.working hstopping).2 hsome

/-- An open handle can be used. -/
theorem PlayoutSafe.useHandle (h : PlayoutSafe player s) (hopen : s.handle.isSome = true)
    (played : List α) : PlayoutSafe player { s.useHandle with played := played } where
  hasPlayer := h.hasPlayer
  handles := h.handles
  fault := by
    show (s.fault || s.handle.isNone) = false
    rw [h.fault, Option.isNone_eq_false_iff.mpr hopen]
    rfl
  initialized := h.initialized
  uses := h.uses
  playing := h.playing
  working := h.working

theorem PlayoutSafe.returnWrite (h : PlayoutSafe player s) (hsome : s.worker.isSome = true)
    (chunk : List α) (taken : ℕ) (ok : Bool) :
    PlayoutSafe player (s.returnWrite chunk taken ok) := by
  cases ok with
  | false => exact h.setWorker hsome (by rintro ⟨⟩) (by rintro ⟨⟩)
  | true => exact h.setWorker hsome (by rintro ⟨⟩) (by rintro ⟨⟩)

theorem PlayoutSafe.loopWrite (h : PlayoutSafe player s) (hsome : s.worker.isSome = true)
    (hopen : s.handle.isSome = true) (chunk : List α) (written recoveries : ℕ) :
    PlayoutSafe player (s.loopWrite chunk written recoveries) := by
  unfold AudioDeviceBridge.loopWrite
  split_ifs
  · exact h.setWorker hsome (fun _ => hopen) (by rintro ⟨⟩)
  · exact h.returnWrite hsome chunk written true

/-- `PaPlayer::Write` closes the player after a failure; the worker does not use it any more. -/
theorem PlayoutSafe.closeWrite (h : PlayoutSafe player s) (hsome : s.worker.isSome = true)
    (chunk : List α) (taken : ℕ) : PlayoutSafe player (s.close.returnWrite chunk taken false) := by
  obtain ⟨closed, heq⟩ := close_frame s
  have hhandles := h.handles.close
  rw [heq] at hhandles ⊢
  refine ⟨h.hasPlayer, hhandles, h.fault, fun _ => h.initialized (.inr hsome), ?_, ?_, ?_⟩
  · rintro _ ⟨⟩ ⟨⟩
  · show s.playing = (true && s.stopping.isNone)
    rw [h.playing, hsome]
  · exact fun hstopping => ⟨by rintro ⟨⟩, fun _ => (h.working hstopping).2 hsome⟩

theorem PlayoutSafe.enterWrite (h : PlayoutSafe player s) (hsome : s.worker.isSome = true)
    (pl : AudioPlayer) (chunk : List α) : PlayoutSafe player (s.enterWrite pl chunk) := by
  unfold AudioDeviceBridge.enterWrite
  split_ifs with hnone
  · exact h.returnWrite hsome chunk 0 false
  have hopen : s.handle.isSome = true := Option.isSome_iff_ne_none.mpr fun heq =>
    hnone (Option.isNone_iff_eq_none.mpr heq)
  cases pl with
  | alsa => exact h.loopWrite hsome hopen chunk 0 0
  | pulse => exact h.setWorker hsome (fun _ => hopen) (by rintro ⟨⟩)

theorem PlayoutSafe.write {chunk : List α} {written recoveries : ℕ} (h : PlayoutSafe player s)
    (hworker : s.worker = some (.writing chunk written recoveries)) (pl : AudioPlayer)
    (answer : WriteAnswer) : PlayoutSafe player (s.write pl chunk written recoveries answer) := by
  have hsome : s.worker.isSome = true := by rw [hworker]; rfl
  have hopen : s.handle.isSome = true := h.uses _ hworker trivial
  have hused := h.useHandle hopen (s.played ++ (chunk.drop written).take answer.frames)
  unfold AudioDeviceBridge.write
  cases answer with
  | took n => exact hused.loopWrite hsome hopen chunk _ _
  | failed n recovers =>
    cases pl with
    | pulse => exact hused.closeWrite hsome chunk _
    | alsa =>
      dsimp only
      split_ifs
      · exact hused.returnWrite hsome chunk _ false
      · exact hused.loopWrite hsome hopen chunk _ _

/-! ### The threads -/

/-- Which function a step is. -/
theorem workerStep_cases {frames : ℕ} {silence : α} {phase : PlayoutPhase α} {e : PlayoutEvent α}
    (h : workerStep player frames silence s phase e = some s') :
    phase = .loopTop ∧ e = .checkAbort ∧
        s' = { s with worker := some (if s.abort then .exited else .providing) } ∨
      (∃ data, phase = .providing ∧ e = .provide data ∧
        (∀ chunk ∈ data, chunk.length = frames) ∧
        s' = { s with
          supplied := s.supplied ++ [playBuf frames silence s.transport data]
          worker := some (.entering (playBuf frames silence s.transport data)) }) ∨
      (∃ chunk pl, phase = .entering chunk ∧ e = .enterWrite ∧ player = some pl ∧
        s' = s.enterWrite pl chunk) ∨
      (∃ chunk written recoveries answer pl, phase = .writing chunk written recoveries ∧
        e = .write answer ∧ player = some pl ∧ answer.Possible pl (chunk.length - written) ∧
        s' = s.write pl chunk written recoveries answer) ∨
      phase = .asking ∧ e = .enterDelayMs ∧
        s' = { s with worker := some (if s.handle.isSome then .delaying else .loopTop) } ∨
      phase = .delaying ∧ e = .delayMs ∧ s' = { s.useHandle with worker := some .loopTop } := by
  unfold workerStep at h
  split at h
  case h_1 => exact .inl ⟨rfl, rfl, (Option.some.inj h).symm⟩
  case h_2 data =>
    split_ifs at h with hlength
    exact .inr (.inl ⟨data, rfl, rfl, hlength, (Option.some.inj h).symm⟩)
  case h_3 chunk pl =>
    exact .inr (.inr (.inl ⟨chunk, pl, rfl, rfl, rfl, (Option.some.inj h).symm⟩))
  case h_4 chunk written recoveries answer pl =>
    split_ifs at h with hpossible
    exact .inr (.inr (.inr (.inl
      ⟨chunk, written, recoveries, answer, pl, rfl, rfl, rfl, hpossible,
        (Option.some.inj h).symm⟩)))
  case h_5 => exact .inr (.inr (.inr (.inr (.inl ⟨rfl, rfl, (Option.some.inj h).symm⟩))))
  case h_6 => exact .inr (.inr (.inr (.inr (.inr ⟨rfl, rfl, (Option.some.inj h).symm⟩))))
  case h_7 => cases h

/-- Which thread takes a step, and what it does. -/
theorem playoutStep_cases {frames : ℕ} {silence : α} {e : PlayoutEvent α}
    (h : playoutStep player frames silence s e = some s') :
    s.stopping = none ∧
        ((∃ transport, e = .registerAudioCallback transport ∧
            s' = { s with transport := transport }) ∨
          (∃ outcome, e = .initPlayout outcome ∧ s' = (s.initPlayout player outcome).1) ∨
          (∃ outcome, e = .startPlayout outcome ∧ s' = s.startPlayout player outcome) ∨
          ∃ terminate, e = .stopPlayout terminate ∧ s' = s.stopPlayout terminate) ∨
      (∃ terminate, s.stopping = some terminate ∧ e = .joined ∧ hasExited s.worker = true ∧
        s' = s.joined player terminate) ∨
      ∃ phase, s.worker = some phase ∧ workerStep player frames silence s phase e = some s' := by
  unfold playoutStep at h
  split at h
  case h_1 hstop => exact .inl ⟨hstop, .inl ⟨_, rfl, (Option.some.inj h).symm⟩⟩
  case h_2 hstop => exact .inl ⟨hstop, .inr (.inl ⟨_, rfl, (Option.some.inj h).symm⟩)⟩
  case h_3 hstop => exact .inl ⟨hstop, .inr (.inr (.inl ⟨_, rfl, (Option.some.inj h).symm⟩))⟩
  case h_4 hstop => exact .inl ⟨hstop, .inr (.inr (.inr ⟨_, rfl, (Option.some.inj h).symm⟩))⟩
  case h_5 terminate hstop =>
    split_ifs at h with hexited
    exact .inr (.inl ⟨terminate, hstop, rfl, hexited, (Option.some.inj h).symm⟩)
  case h_6 =>
    obtain ⟨phase, hphase, hstep⟩ := Option.bind_eq_some_iff.mp h
    exact .inr (.inr ⟨phase, hphase, hstep⟩)

theorem PlayoutSafe.step {frames : ℕ} {silence : α} {e : PlayoutEvent α} (h : PlayoutSafe player s)
    (hstep : playoutStep player frames silence s e = some s') : PlayoutSafe player s' := by
  rcases playoutStep_cases hstep with
    ⟨hstop, hcall⟩ | ⟨terminate, hstop, -, -, rfl⟩ | ⟨phase, hphase, hwork⟩
  · rcases hcall with ⟨transport, -, rfl⟩ | ⟨outcome, -, rfl⟩ | ⟨outcome, -, rfl⟩ |
      ⟨terminate, -, rfl⟩
    · exact ⟨h.hasPlayer, h.handles, h.fault, h.initialized, h.uses, h.playing, h.working⟩
    · exact (h.initPlayout outcome).1
    · exact h.startPlayout hstop outcome
    · exact h.stopPlayout terminate
  · exact h.joined hstop
  · have hsome : s.worker.isSome = true := by rw [hphase]; rfl
    rcases workerStep_cases hwork with ⟨-, -, rfl⟩ | ⟨data, -, -, -, rfl⟩ |
      ⟨chunk, pl, -, -, -, rfl⟩ | ⟨chunk, written, recoveries, answer, pl, rfl, -, -, -, rfl⟩ |
      ⟨-, -, rfl⟩ | ⟨rfl, -, rfl⟩
    · -- the worker leaves its loop only when it was told to
      refine h.setWorker hsome ?_ ?_
      · split_ifs <;> exact fun huses => huses.elim
      · split_ifs with habort
        · intro _ hstop
          rw [(h.working hstop).2 hsome] at habort
          exact absurd habort Bool.false_ne_true
        · rintro ⟨⟩
    · exact h.setWorker hsome (by rintro ⟨⟩) (by rintro ⟨⟩)
    · exact h.enterWrite hsome pl chunk
    · exact h.write hphase pl answer
    · refine h.setWorker hsome ?_ ?_
      · split_ifs with hopen
        · exact fun _ => hopen
        · exact fun huses => huses.elim
      · split_ifs <;> rintro ⟨⟩
    · exact (h.useHandle (h.uses _ hphase trivial) s.played).setWorker hsome (by rintro ⟨⟩)
        (by rintro ⟨⟩)

end Safe

/-- **The handle of the player is safe.** In every interleaving of WebRTC's calls and the worker, a
    handle is used only while it is open, and each is closed once; what is open belongs to a
    playout that was initialized and not yet stopped. -/
theorem playoutSafe {α : Type*} (player : Option AudioPlayer) (frames : ℕ) (silence : α)
    {es : List (PlayoutEvent α)} {s : AudioDeviceBridge α}
    (hrun : (audioDeviceBridge player frames silence).run es = some s) : PlayoutSafe player s := by
  refine Machine.run_invariant ?_ (fun s e s' h hstep => h.step hstep) hrun
  refine ⟨by rintro ⟨⟩, ⟨by rintro _ ⟨⟩, ?_, List.nodup_nil, rfl⟩, rfl, ?_, by rintro _ ⟨⟩, rfl,
    fun _ => ⟨by rintro ⟨⟩, by rintro ⟨⟩⟩⟩
  · exact fun c hc => absurd hc List.not_mem_nil
  · rintro (⟨⟨⟩⟩ | ⟨⟨⟩⟩)

/-- The sound server goes away in the second chunk of two frames. -/
def restartRun : List (PlayoutEvent ℕ) :=
  [.registerAudioCallback true, .startPlayout .opens, .checkAbort, .provide (some [1, 2]),
    .enterWrite, .write (.took 2), .enterDelayMs, .delayMs, .checkAbort, .provide (some [3, 4]),
    .enterWrite, .write (.failed 1 false)]

theorem playoutSafe_restart :
    ∃ s, (audioDeviceBridge (some .pulse) 2 0).run restartRun = some s ∧
      PlayoutSafe (some .pulse) s :=
  ⟨_, rfl, @playoutSafe ℕ (some .pulse) 2 0 restartRun _ rfl⟩

/-! ### What is played -/

/-- The chunk that the worker has in hand. -/
def PlayoutPhase.inHand {α : Type*} : PlayoutPhase α → List (List α)
  | .entering chunk | .writing chunk _ _ => [chunk]
  | _ => []

/-- What was taken of it. -/
def PlayoutPhase.taken {α : Type*} : PlayoutPhase α → List α
  | .writing chunk written _ => chunk.take written
  | _ => []

/-- A write goes on within its chunk, after three failures at most. -/
def PlayoutPhase.Bounded {α : Type*} : PlayoutPhase α → Prop
  | .writing chunk written recoveries =>
    written ≤ chunk.length ∧ recoveries ≤ kMaxRecoveriesPerWrite
  | _ => True

/-- What the sound system has taken in a write. -/
def PlayerWrite.frames {α : Type*} (w : PlayerWrite α) : List α := w.chunk.take w.taken

/-- The chunks that were asked for are those of the writes, in order, and the one in hand; and
    what is played is what was taken of them: all of a chunk if the write succeeded. -/
structure PlayedInOrder {α : Type*} (frames : ℕ) (s : AudioDeviceBridge α) : Prop where
  supplied : s.supplied = s.writes.map (·.chunk) ++ s.worker.elim [] PlayoutPhase.inHand
  length : ∀ chunk ∈ s.supplied, chunk.length = frames
  played : s.played = s.writes.flatMap PlayerWrite.frames ++ s.worker.elim [] PlayoutPhase.taken
  whole : ∀ w ∈ s.writes, w.ok = true → w.taken = w.chunk.length
  bounded : ∀ phase ∈ s.worker, phase.Bounded

section Played

variable {α : Type*} {player : Option AudioPlayer} {frames : ℕ} {silence : α}
  {s s' : AudioDeviceBridge α} {chunk : List α}

/-- Between two chunks. -/
theorem PlayedInOrder.setWorker (h : PlayedInOrder frames s) (worker : Option (PlayoutPhase α))
    (hhand : s.worker.elim [] PlayoutPhase.inHand = [])
    (htaken : s.worker.elim [] PlayoutPhase.taken = [])
    (hhand' : worker.elim [] PlayoutPhase.inHand = [])
    (htaken' : worker.elim [] PlayoutPhase.taken = [])
    (hbounded : ∀ phase ∈ worker, phase.Bounded) :
    PlayedInOrder frames { s with worker := worker } where
  supplied := by
    rw [h.supplied, hhand]
    exact congrArg _ hhand'.symm
  length := h.length
  played := by
    rw [h.played, htaken]
    exact congrArg _ htaken'.symm
  whole := h.whole
  bounded := hbounded

/-- The chunk in hand, of which `written` frames were taken. -/
structure InHand (frames : ℕ) (chunk : List α) (written : ℕ) (s : AudioDeviceBridge α) :
    Prop where
  supplied : s.supplied = s.writes.map (·.chunk) ++ [chunk]
  length : ∀ chunk ∈ s.supplied, chunk.length = frames
  played : s.played = s.writes.flatMap PlayerWrite.frames ++ chunk.take written
  whole : ∀ w ∈ s.writes, w.ok = true → w.taken = w.chunk.length
  written_le : written ≤ chunk.length

theorem InHand.returnWrite {written : ℕ} {ok : Bool} (h : InHand frames chunk written s)
    (hok : ok = true → written = chunk.length) :
    PlayedInOrder frames (s.returnWrite chunk written ok) where
  supplied := by
    show s.supplied = (s.writes ++ [PlayerWrite.mk chunk written ok]).map (·.chunk) ++ _
    rw [List.map_append, h.supplied]
    cases ok <;> exact (List.append_nil _).symm
  length := h.length
  played := by
    show s.played = (s.writes ++ [PlayerWrite.mk chunk written ok]).flatMap PlayerWrite.frames ++ _
    rw [List.flatMap_append, List.flatMap_singleton, h.played]
    cases ok <;> exact (List.append_nil _).symm
  whole w hw := by
    rcases List.mem_append.mp hw with hw | hw
    · exact h.whole w hw
    · rw [List.mem_singleton.mp hw]
      exact hok
  bounded := by
    cases ok
    all_goals
      rintro _ ⟨⟩
      trivial

/-- The call of the sound system is next. -/
theorem InHand.writing {written recoveries : ℕ} (h : InHand frames chunk written s)
    (hrecoveries : recoveries ≤ kMaxRecoveriesPerWrite) :
    PlayedInOrder frames { s with worker := some (.writing chunk written recoveries) } where
  supplied := h.supplied
  length := h.length
  played := h.played
  whole := h.whole
  bounded := by
    rintro _ ⟨⟩
    exact ⟨h.written_le, hrecoveries⟩

theorem InHand.loopWrite {written recoveries : ℕ} (h : InHand frames chunk written s)
    (hrecoveries : recoveries ≤ kMaxRecoveriesPerWrite) :
    PlayedInOrder frames (s.loopWrite chunk written recoveries) := by
  unfold AudioDeviceBridge.loopWrite
  split_ifs with hlt
  · exact h.writing hrecoveries
  · exact h.returnWrite fun _ => Nat.le_antisymm h.written_le (Nat.le_of_not_lt hlt)

theorem InHand.close {written : ℕ} (h : InHand frames chunk written s) :
    InHand frames chunk written s.close := by
  obtain ⟨closed, heq⟩ := close_frame s
  rw [heq]
  exact ⟨h.supplied, h.length, h.played, h.whole, h.written_le⟩

/-- A call takes the frames that follow those that were taken before. -/
theorem InHand.call {written n : ℕ} (h : InHand frames chunk written s)
    (hn : n ≤ chunk.length - written) :
    InHand frames chunk (written + n)
      { s.useHandle with played := s.played ++ (chunk.drop written).take n } where
  supplied := h.supplied
  length := h.length
  played := by
    show s.played ++ _ = _
    rw [h.played, List.append_assoc, List.take_add]
    rfl
  whole := h.whole
  written_le := by
    have hle := h.written_le
    omega

theorem PlayedInOrder.inHand (h : PlayedInOrder frames s) {written recoveries : ℕ}
    (hworker : s.worker = some (.writing chunk written recoveries)) :
    InHand frames chunk written s ∧ recoveries ≤ kMaxRecoveriesPerWrite := by
  have hsupplied := h.supplied
  have hplayed := h.played
  rw [hworker] at hsupplied hplayed
  obtain ⟨hwritten, hrecoveries⟩ := h.bounded _ hworker
  exact ⟨⟨hsupplied, h.length, hplayed, h.whole, hwritten⟩, hrecoveries⟩

theorem PlayedInOrder.enterWrite (h : PlayedInOrder frames s)
    (hworker : s.worker = some (.entering chunk)) (pl : AudioPlayer) :
    PlayedInOrder frames (s.enterWrite pl chunk) := by
  have hsupplied := h.supplied
  have hplayed := h.played
  rw [hworker] at hsupplied hplayed
  have hhand : InHand frames chunk 0 s :=
    ⟨hsupplied, h.length, hplayed, h.whole, Nat.zero_le _⟩
  unfold AudioDeviceBridge.enterWrite
  split_ifs
  · exact hhand.returnWrite (by rintro ⟨⟩)
  · cases pl with
    | alsa => exact hhand.loopWrite (Nat.zero_le _)
    | pulse => exact hhand.writing (Nat.zero_le _)

theorem PlayedInOrder.write (h : PlayedInOrder frames s) {written recoveries : ℕ}
    (hworker : s.worker = some (.writing chunk written recoveries)) {pl : AudioPlayer}
    {answer : WriteAnswer} (hpossible : answer.Possible pl (chunk.length - written)) :
    PlayedInOrder frames (s.write pl chunk written recoveries answer) := by
  obtain ⟨hhand, hrecoveries⟩ := h.inHand hworker
  unfold AudioDeviceBridge.write
  cases answer with
  | took n => exact (hhand.call hpossible.1).loopWrite hrecoveries
  | failed n recovers =>
    have hcall := hhand.call hpossible.1
    cases pl with
    | pulse => exact hcall.close.returnWrite (by rintro ⟨⟩)
    | alsa =>
      dsimp only
      split_ifs with hstop
      · exact hcall.returnWrite (by rintro ⟨⟩)
      · exact hcall.loopWrite (Nat.le_of_not_lt (not_or.mp hstop).1)

theorem length_playBuf {transport : Bool} {data : Option (List α)}
    (hdata : ∀ chunk ∈ data, chunk.length = frames) :
    (playBuf frames silence transport data).length = frames := by
  unfold playBuf
  split_ifs
  · cases data with
    | none => exact List.length_replicate
    | some chunk => exact hdata chunk rfl
  · exact List.length_replicate

/-- A step changes none of the fields that are compared. -/
theorem PlayedInOrder.congr (h : PlayedInOrder frames s) (hsupplied : s'.supplied = s.supplied)
    (hplayed : s'.played = s.played) (hwrites : s'.writes = s.writes)
    (hworker : s'.worker = s.worker) : PlayedInOrder frames s' := by
  obtain ⟨h1, h2, h3, h4, h5⟩ := h
  rw [← hwrites, ← hworker] at h1 h3
  rw [← hwrites] at h4
  rw [← hworker] at h5
  exact ⟨hsupplied ▸ h1, hsupplied ▸ h2, hplayed ▸ h3, h4, h5⟩

theorem PlayedInOrder.startPlayout (h : PlayedInOrder frames s) (outcome : OpenOutcome) :
    PlayedInOrder frames (s.startPlayout player outcome) := by
  obtain ⟨handle, opened, closed, initialized, heq⟩ := initPlayout_frame s player outcome
  unfold AudioDeviceBridge.startPlayout
  split_ifs with hskip
  · exact h
  all_goals rw [heq]
  · have hnone : s.worker = none :=
      Option.not_isSome_iff_eq_none.mp fun hsome => hskip (.inr hsome)
    have hstart := h.setWorker (some .loopTop) (by rw [hnone]; rfl) (by rw [hnone]; rfl) rfl rfl
      (by rintro _ ⟨⟩; trivial)
    exact hstart.congr rfl rfl rfl rfl
  · exact h.congr rfl rfl rfl rfl

theorem PlayedInOrder.joined (h : PlayedInOrder frames s) (hexited : hasExited s.worker = true)
    (terminate : Bool) : PlayedInOrder frames (s.joined player terminate) := by
  obtain ⟨closed, heq⟩ := close_frame s
  have hidle : s.worker.elim [] PlayoutPhase.inHand = [] ∧
      s.worker.elim [] PlayoutPhase.taken = [] := by
    unfold hasExited at hexited
    split at hexited
    case h_1 hnone => rw [hnone]; exact ⟨rfl, rfl⟩
    case h_2 hsome => rw [hsome]; exact ⟨rfl, rfl⟩
    case h_3 => cases hexited
  have hjoined := h.setWorker none hidle.1 hidle.2 rfl rfl (by rintro _ ⟨⟩)
  unfold AudioDeviceBridge.joined
  split_ifs
  · rw [heq]
    exact hjoined.congr rfl rfl rfl rfl
  · exact hjoined.congr rfl rfl rfl rfl

theorem PlayedInOrder.step {e : PlayoutEvent α} (h : PlayedInOrder frames s)
    (hstep : playoutStep player frames silence s e = some s') : PlayedInOrder frames s' := by
  rcases playoutStep_cases hstep with
    ⟨-, hcall⟩ | ⟨terminate, -, -, hexited, rfl⟩ | ⟨phase, hphase, hwork⟩
  · rcases hcall with ⟨transport, -, rfl⟩ | ⟨outcome, -, rfl⟩ | ⟨outcome, -, rfl⟩ |
      ⟨terminate, -, rfl⟩
    · exact h.congr rfl rfl rfl rfl
    · obtain ⟨handle, opened, closed, initialized, heq⟩ := initPlayout_frame s player outcome
      rw [heq]
      exact h.congr rfl rfl rfl rfl
    · exact h.startPlayout outcome
    · exact h.congr rfl rfl rfl rfl
  · exact h.joined hexited terminate
  · rcases workerStep_cases hwork with ⟨rfl, -, rfl⟩ | ⟨data, rfl, -, hdata, rfl⟩ |
      ⟨chunk, pl, rfl, -, -, rfl⟩ |
      ⟨chunk, written, recoveries, answer, pl, rfl, -, -, hpossible, rfl⟩ | ⟨rfl, -, rfl⟩ |
      ⟨rfl, -, rfl⟩
    · refine h.setWorker _ (by rw [hphase]; rfl) (by rw [hphase]; rfl) ?_ ?_ ?_
      · split_ifs <;> rfl
      · split_ifs <;> rfl
      · split_ifs <;> (rintro _ ⟨⟩; trivial)
    · have hsupplied := h.supplied
      have hplayed := h.played
      rw [hphase] at hsupplied hplayed
      refine ⟨?_, ?_, hplayed, h.whole, by rintro _ ⟨⟩; trivial⟩
      · show s.supplied ++ [_] = _
        rw [hsupplied]
        exact congrArg (· ++ [_]) (List.append_nil _)
      · intro chunk hchunk
        rcases List.mem_append.mp hchunk with hchunk | hchunk
        · exact h.length chunk hchunk
        · rw [List.mem_singleton.mp hchunk]
          exact length_playBuf hdata
    · exact h.enterWrite hphase pl
    · exact h.write hphase hpossible
    · refine h.setWorker _ (by rw [hphase]; rfl) (by rw [hphase]; rfl) ?_ ?_ ?_
      · split_ifs <;> rfl
      · split_ifs <;> rfl
      · split_ifs <;> (rintro _ ⟨⟩; trivial)
    · have hnext := h.setWorker (some .loopTop) (by rw [hphase]; rfl) (by rw [hphase]; rfl) rfl
        rfl (by rintro _ ⟨⟩; trivial)
      exact hnext.congr rfl rfl rfl rfl

end Played

/-- **Nothing is repeated, moved or lost** on the way from WebRTC to the sound system, but for the
    end of a chunk whose write failed. -/
theorem played_eq {α : Type*} (player : Option AudioPlayer) (frames : ℕ) (silence : α)
    {es : List (PlayoutEvent α)} {s : AudioDeviceBridge α}
    (hrun : (audioDeviceBridge player frames silence).run es = some s) :
    PlayedInOrder frames s := by
  refine Machine.run_invariant ?_ (fun s e s' h hstep => h.step hstep) hrun
  exact ⟨rfl, fun chunk hchunk => absurd hchunk List.not_mem_nil, rfl,
    fun w hw => absurd hw List.not_mem_nil, by rintro _ ⟨⟩⟩

theorem played_eq_restart :
    ∃ s, (audioDeviceBridge (some .pulse) 2 0).run restartRun = some s ∧ s.played = [1, 2, 3] ∧
      PlayedInOrder 2 s :=
  ⟨_, rfl, rfl, @played_eq ℕ (some .pulse) 2 0 restartRun _ rfl⟩

/-! ### When a write has failed -/

/-- A write has failed since the playout was last stopped. -/
def muted {α : Type*} (es : List (PlayoutEvent α)) : Bool :=
  es.foldl (fun muted e =>
    match e with
    | .joined => false
    | .write answer => muted || answer.fails
    | _ => muted) false

/-- The player of a playout that was started is open, except for PulseAudio after a write that
    failed. -/
structure OpenUnless {α : Type*} (player : Option AudioPlayer) (muted : Bool)
    (s : AudioDeviceBridge α) : Prop where
  fresh : s.playoutInitialized = false → muted = false
  open_iff : s.playoutInitialized = true →
    (s.handle.isSome = true ↔ player = some .alsa ∨ muted = false)

section Muted

variable {α : Type*} {player : Option AudioPlayer} {frames : ℕ} {silence : α}
  {s s' : AudioDeviceBridge α} {es : List (PlayoutEvent α)} {m : Bool}

theorem muted_concat (es : List (PlayoutEvent α)) (e : PlayoutEvent α) :
    muted (es ++ [e]) = match e with
      | .joined => false
      | .write answer => muted es || answer.fails
      | _ => muted es := by
  rw [muted, List.foldl_append]
  rfl

/-- A step that neither opens nor closes the player. -/
theorem OpenUnless.same (h : OpenUnless player m s)
    (hinit : s'.playoutInitialized = s.playoutInitialized) (hhandle : s'.handle = s.handle) :
    OpenUnless player m s' where
  fresh := by
    rw [hinit]
    exact h.fresh
  open_iff := by
    rw [hinit, hhandle]
    exact h.open_iff

/-- `InitPlayout` opens the player of a playout that was stopped. -/
theorem OpenUnless.initPlayout (h : OpenUnless player m s) (hsafe : PlayoutSafe player s)
    (outcome : OpenOutcome) : OpenUnless player m (s.initPlayout player outcome).1 := by
  cases player with
  | none => exact h
  | some pl =>
    obtain ⟨-, hsome⟩ := openPlayer_spec hsafe.handles pl outcome
    obtain ⟨handle, opened, closed, heq⟩ := openPlayer_frame s pl outcome
    unfold AudioDeviceBridge.initPlayout
    dsimp only
    split_ifs with hinit hopen
    · exact h
    all_goals have hfresh := h.fresh (Bool.eq_false_iff.mpr hinit)
    · exact ⟨fun _ => hfresh, fun _ => iff_of_true (hsome.mpr hopen) (.inr hfresh)⟩
    · rw [heq]
      exact ⟨h.fresh, fun hinit' => absurd hinit' hinit⟩

theorem OpenUnless.startPlayout (h : OpenUnless player m s) (hsafe : PlayoutSafe player s)
    (outcome : OpenOutcome) : OpenUnless player m (s.startPlayout player outcome) := by
  have hinit := h.initPlayout hsafe outcome
  unfold AudioDeviceBridge.startPlayout
  split_ifs
  · exact h
  · exact hinit.same rfl rfl
  · exact hinit

/-- The loop of `AlsaPlayer::Write` leaves the player as it is. -/
theorem loopWrite_frame (s : AudioDeviceBridge α) (chunk : List α) (written recoveries : ℕ) :
    (s.loopWrite chunk written recoveries).playoutInitialized = s.playoutInitialized ∧
      (s.loopWrite chunk written recoveries).handle = s.handle := by
  unfold AudioDeviceBridge.loopWrite
  split_ifs <;> exact ⟨rfl, rfl⟩

theorem enterWrite_frame (s : AudioDeviceBridge α) (pl : AudioPlayer) (chunk : List α) :
    (s.enterWrite pl chunk).playoutInitialized = s.playoutInitialized ∧
      (s.enterWrite pl chunk).handle = s.handle := by
  unfold AudioDeviceBridge.enterWrite
  split_ifs
  · exact ⟨rfl, rfl⟩
  · cases pl with
    | alsa => exact loopWrite_frame s chunk 0 0
    | pulse => exact ⟨rfl, rfl⟩

/-- A call of the sound system leaves the player open, except for PulseAudio if it fails. -/
theorem write_frame (s : AudioDeviceBridge α) (pl : AudioPlayer) (chunk : List α)
    (written recoveries : ℕ) (answer : WriteAnswer) :
    (s.write pl chunk written recoveries answer).playoutInitialized = s.playoutInitialized ∧
      (s.write pl chunk written recoveries answer).handle =
        if pl = .pulse ∧ answer.fails = true then none else s.handle := by
  unfold AudioDeviceBridge.write
  cases answer with
  | took n =>
    rw [if_neg fun h => Bool.false_ne_true h.2]
    exact loopWrite_frame _ chunk _ _
  | failed n recovers =>
    cases pl with
    | alsa =>
      rw [if_neg (by rintro ⟨⟨⟩, -⟩)]
      dsimp only
      split_ifs
      · exact ⟨rfl, rfl⟩
      · exact loopWrite_frame _ chunk _ _
    | pulse =>
      rw [if_pos ⟨rfl, rfl⟩]
      dsimp only
      obtain ⟨closed, heq⟩ := close_frame
        { s.useHandle with
          played := s.played ++ (chunk.drop written).take (WriteAnswer.failed n recovers).frames }
      rw [heq]
      exact ⟨rfl, rfl⟩

/-- A failure closes the player of PulseAudio, and leaves ALSA's open. -/
theorem OpenUnless.write {chunk : List α} {written recoveries : ℕ} {pl : AudioPlayer}
    (h : OpenUnless (some pl) m s) (hsafe : PlayoutSafe (some pl) s)
    (hworker : s.worker = some (.writing chunk written recoveries)) (answer : WriteAnswer) :
    OpenUnless (some pl) (m || answer.fails) (s.write pl chunk written recoveries answer) := by
  have hopen : s.handle.isSome = true := hsafe.uses _ hworker trivial
  have hinit : s.playoutInitialized = true := hsafe.initialized (.inl hopen)
  obtain ⟨hinit', hhandle⟩ := write_frame s pl chunk written recoveries answer
  refine ⟨fun hfalse => ?_, fun _ => ?_⟩
  · rw [hinit', hinit] at hfalse
    cases hfalse
  rw [hhandle]
  cases pl with
  | alsa =>
    rw [if_neg (by rintro ⟨⟨⟩, -⟩)]
    exact iff_of_true hopen (.inl rfl)
  | pulse =>
    have hm : m = false := ((h.open_iff hinit).mp hopen).resolve_left (by rintro ⟨⟩)
    rw [hm, Bool.false_or]
    cases hfails : answer.fails with
    | false =>
      rw [if_neg fun h => Bool.false_ne_true h.2]
      exact iff_of_true hopen (.inr rfl)
    | true =>
      rw [if_pos ⟨rfl, rfl⟩]
      exact iff_of_false Bool.false_ne_true (by rintro (⟨⟨⟩⟩ | ⟨⟨⟩⟩))

theorem OpenUnless.step {e : PlayoutEvent α} (h : OpenUnless player (muted es) s)
    (hsafe : PlayoutSafe player s) (hstep : playoutStep player frames silence s e = some s') :
    OpenUnless player (muted (es ++ [e])) s' := by
  rw [muted_concat]
  rcases playoutStep_cases hstep with
    ⟨-, hcall⟩ | ⟨terminate, -, rfl, -, rfl⟩ | ⟨phase, hphase, hwork⟩
  · rcases hcall with ⟨transport, rfl, rfl⟩ | ⟨outcome, rfl, rfl⟩ | ⟨outcome, rfl, rfl⟩ |
      ⟨terminate, rfl, rfl⟩
    · exact h.same rfl rfl
    · exact h.initPlayout hsafe outcome
    · exact h.startPlayout hsafe outcome
    · exact h.same rfl rfl
  · exact ⟨fun _ => rfl, by rintro ⟨⟩⟩
  · rcases workerStep_cases hwork with ⟨rfl, rfl, rfl⟩ | ⟨data, rfl, rfl, hdata, rfl⟩ |
      ⟨chunk, pl, rfl, rfl, -, rfl⟩ |
      ⟨chunk, written, recoveries, answer, pl, rfl, rfl, rfl, -, rfl⟩ | ⟨rfl, rfl, rfl⟩ |
      ⟨rfl, rfl, rfl⟩
    · exact h.same rfl rfl
    · exact h.same rfl rfl
    · obtain ⟨hinit, hhandle⟩ := enterWrite_frame s pl chunk
      exact h.same hinit hhandle
    · exact h.write hsafe hphase answer
    · exact h.same rfl rfl
    · exact h.same rfl rfl

/-- The run before, and how it ended. -/
theorem openUnless_of_run (hrun : (audioDeviceBridge player frames silence).run es = some s) :
    PlayoutSafe player s ∧ OpenUnless player (muted es) s := by
  refine Machine.run_history (M := audioDeviceBridge player frames silence)
    (P := fun es s => PlayoutSafe player s ∧ OpenUnless player (muted es) s) ?_ ?_ hrun
  · exact ⟨@playoutSafe α player frames silence [] _ rfl, fun _ => rfl, by rintro ⟨⟩⟩
  · exact fun es s e s' h hstep => ⟨h.1.step hstep, h.2.step h.1 hstep⟩

end Muted

/-- **When the player is open.** As long as a playout was initialized and not stopped, its player is
    open, exactly unless it is that of PulseAudio and a write has failed. -/
theorem playerOpen_iff {α : Type*} (player : Option AudioPlayer) (frames : ℕ) (silence : α)
    {es : List (PlayoutEvent α)} {s : AudioDeviceBridge α}
    (hrun : (audioDeviceBridge player frames silence).run es = some s)
    (hinit : s.playoutInitialized = true) :
    s.handle.isSome = true ↔ player = some .alsa ∨ muted es = false :=
  (openUnless_of_run hrun).2.open_iff hinit

theorem playerOpen_iff_restart :
    ∃ s, (audioDeviceBridge (some .pulse) 2 0).run restartRun = some s ∧
      (s.handle.isSome = true ↔ some AudioPlayer.pulse = some .alsa ∨ muted restartRun = false) :=
  ⟨_, rfl, @playerOpen_iff ℕ (some .pulse) 2 0 restartRun _ rfl rfl⟩

/-- The call is neither `StopPlayout` nor its end. -/
def PlayoutEvent.NoStop {α : Type*} : PlayoutEvent α → Prop
  | .stopPlayout _ | .joined => False
  | _ => True

section Silent

variable {α : Type*} {player : Option AudioPlayer} {frames : ℕ} {silence : α}
  {s s' : AudioDeviceBridge α}

/-- The playout goes on without a player. -/
structure Silent (player : Option AudioPlayer) (s : AudioDeviceBridge α) : Prop where
  safe : PlayoutSafe player s
  initialized : s.playoutInitialized = true
  handle : s.handle = none

/-- The worker does not get past the start of `Write`. -/
theorem Silent.phase (h : Silent player s) {phase : PlayoutPhase α}
    (hphase : s.worker = some phase) : ¬ phase.UsesHandle := by
  intro huses
  have hopen := h.safe.uses phase hphase huses
  rw [h.handle] at hopen
  cases hopen

/-- `InitPlayout` does not open the player again. -/
theorem Silent.initPlayout (h : Silent player s) (outcome : OpenOutcome) :
    s.initPlayout player outcome = (s, true) := by
  cases player with
  | none => rfl
  | some pl =>
    unfold AudioDeviceBridge.initPlayout
    dsimp only
    rw [if_pos h.initialized]

theorem Silent.step (h : Silent player s) {e : PlayoutEvent α} (hjoined : e ≠ .joined)
    (hstep : playoutStep player frames silence s e = some s') :
    Silent player s' ∧ s'.played = s.played ∧
      (e.NoStop → s.playing = true → s'.playing = true) := by
  have hsafe := h.safe.step hstep
  rcases playoutStep_cases hstep with
    ⟨-, hcall⟩ | ⟨terminate, -, heq, -, -⟩ | ⟨phase, hphase, hwork⟩
  · rcases hcall with ⟨transport, rfl, rfl⟩ | ⟨outcome, rfl, rfl⟩ | ⟨outcome, rfl, rfl⟩ |
      ⟨terminate, rfl, rfl⟩
    · exact ⟨⟨hsafe, h.initialized, h.handle⟩, rfl, fun _ => id⟩
    · rw [h.initPlayout]
      exact ⟨h, rfl, fun _ => id⟩
    · unfold AudioDeviceBridge.startPlayout at hsafe ⊢
      rw [h.initPlayout] at hsafe ⊢
      split_ifs at hsafe ⊢
      · exact ⟨h, rfl, fun _ => id⟩
      · exact ⟨⟨hsafe, h.initialized, h.handle⟩, rfl, fun _ _ => rfl⟩
      · exact ⟨h, rfl, fun _ => id⟩
    · exact ⟨⟨hsafe, h.initialized, h.handle⟩, rfl, False.elim⟩
  · exact absurd heq hjoined
  · rcases workerStep_cases hwork with ⟨rfl, rfl, rfl⟩ | ⟨data, rfl, rfl, hdata, rfl⟩ |
      ⟨chunk, pl, rfl, rfl, -, rfl⟩ |
      ⟨chunk, written, recoveries, answer, pl, rfl, rfl, rfl, -, rfl⟩ | ⟨rfl, rfl, rfl⟩ |
      ⟨rfl, rfl, rfl⟩
    · exact ⟨⟨hsafe, h.initialized, h.handle⟩, rfl, fun _ => id⟩
    · exact ⟨⟨hsafe, h.initialized, h.handle⟩, rfl, fun _ => id⟩
    · have hnone : s.handle.isNone = true := Option.isNone_iff_eq_none.mpr h.handle
      unfold AudioDeviceBridge.enterWrite at hsafe ⊢
      rw [if_pos hnone] at hsafe ⊢
      exact ⟨⟨hsafe, h.initialized, h.handle⟩, rfl, fun _ => id⟩
    · exact absurd trivial (h.phase hphase)
    · exact ⟨⟨hsafe, h.initialized, h.handle⟩, rfl, fun _ => id⟩
    · exact absurd trivial (h.phase hphase)

end Silent

/-- **PulseAudio is not opened again.** After a write that failed nothing is played any more, until
    the playout was stopped; `Playing` does not tell. -/
theorem pulseMuted {α : Type*} (frames : ℕ) (silence : α) {es fs : List (PlayoutEvent α)}
    {s s' : AudioDeviceBridge α}
    (hrun : (audioDeviceBridge (some .pulse) frames silence).run es = some s)
    (hmuted : muted es = true) (hjoined : .joined ∉ fs)
    (hrest : (audioDeviceBridge (some .pulse) frames silence).runFrom s fs = some s') :
    s'.played = s.played ∧
      ((∀ e ∈ fs, e.NoStop) → s.playing = true → s'.playing = true) := by
  obtain ⟨hsafe, hopen⟩ := openUnless_of_run hrun
  have hinit : s.playoutInitialized = true := by
    by_contra hinit
    exact Bool.false_ne_true ((hopen.fresh (Bool.eq_false_iff.mpr hinit)).symm.trans hmuted)
  have hnone : s.handle = none := by
    by_contra hsome
    rcases (hopen.open_iff hinit).mp (Option.isSome_iff_ne_none.mpr hsome) with ⟨⟨⟩⟩ | hfalse
    exact Bool.false_ne_true (hfalse.symm.trans hmuted)
  have hsilent : Silent (some .pulse) s := ⟨hsafe, hinit, hnone⟩
  have hne : ∀ e ∈ fs, e ≠ .joined := fun e he heq => hjoined (heq ▸ he)
  constructor
  · refine (Machine.guarded_invariant
      (P := fun t => Silent (some .pulse) t ∧ t.played = s.played) ?_ ⟨hsilent, rfl⟩
      (Machine.guarded_of_labels hne s) hrest).2
    intro t e t' ht he hstep
    obtain ⟨hsilent', hplayed, -⟩ := ht.1.step he hstep
    exact ⟨hsilent', hplayed.trans ht.2⟩
  · intro hnoStop hplaying
    have hlabels : ∀ e ∈ fs, e ≠ .joined ∧ e.NoStop := fun e he => ⟨hne e he, hnoStop e he⟩
    refine (Machine.guarded_invariant
      (P := fun t => Silent (some .pulse) t ∧ t.playing = true) ?_ ⟨hsilent, hplaying⟩
      (Machine.guarded_of_labels hlabels s) hrest).2
    intro t e t' ht he hstep
    obtain ⟨hsilent', -, hplaying'⟩ := ht.1.step he.1 hstep
    exact ⟨hsilent', hplaying' he.2 ht.2⟩

/-- A third chunk, which is not played. -/
def afterRestart : List (PlayoutEvent ℕ) :=
  [.checkAbort, .provide (some [5, 6]), .enterWrite, .checkAbort]

theorem pulseMuted_restart :
    ∃ s s', (audioDeviceBridge (some .pulse) 2 0).run restartRun = some s ∧
      (audioDeviceBridge (some .pulse) 2 0).runFrom s afterRestart = some s' ∧
      s'.played = s.played ∧ s'.playing = true := by
  have h := @pulseMuted ℕ 2 0 restartRun afterRestart _ _ rfl rfl (by decide) rfl
  refine ⟨_, _, rfl, rfl, h.1, h.2 ?_ rfl⟩
  rintro e (_ | ⟨_, _ | ⟨_, _ | ⟨_, _ | ⟨_, ⟨⟩⟩⟩⟩⟩) <;> trivial

end PiWebrtc.Rtc
