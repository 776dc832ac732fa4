import PiWebrtc.Rtc.Renegotiation
import Mathlib.Data.List.Nodup

namespace PiWebrtc.Rtc

open Transition

/-!
# The local description is emitted once

`EmitLocalSdp` arms an emission: it renews `sdp_emit_safety_` and posts a task that runs
`SendLocalSdp` after a second, or runs it at once.  Whichever comes first, the task or the end
of the gathering, kills the flag, as do a later `EmitLocalSdp` and `Terminate`.

`SdpWatch` runs the peer and writes down every `EmitLocalSdp`, named by the flag that it takes,
and every `SendLocalSdp`; `run_peer` says that it is the peer that runs.  `sdp_emitted_once_iff`
says that everything is as it should be but for one thing: `OnSuccess` does not kill the flag
when the new description cannot be parsed, so that an emission still armed finds none.
-/

/-- A run of `SendLocalSdp`: the `EmitLocalSdp` that it is for and the latest one by then, the
    description, whether `on_local_sdp_fn_` is called, and whether the peer is terminating. -/
structure SdpSend where
  flag : ℕ
  latest : Option ℕ
  desc : Option SdpType
  called : Bool
  terminating : Bool
  deriving DecidableEq, Repr

/-- The peer, and history: the calls of `EmitLocalSdp` that armed an emission, the runs of
    `SendLocalSdp`, and of every description created whether it could be parsed. -/
structure SdpWatch where
  peer : RtcPeer
  emits : List ℕ := []
  sends : List SdpSend := []
  created : List Bool := []

namespace SdpWatch

/-- `SendLocalSdp`, for the `EmitLocalSdp` that took `flag`. -/
def sendLocalSdp (w : SdpWatch) (flag : ℕ) : SdpWatch :=
  { w with
    peer := w.peer.sendLocalSdp
    sends := w.sends ++ [⟨flag, w.emits.getLast?, w.peer.modifiedDesc,
      !w.peer.isTerminating && w.peer.onLocalSdp, w.peer.isTerminating⟩] }

/-- `EmitLocalSdp`, its first lines: the flag is renewed. -/
def renewSdpEmit (w : SdpWatch) : SdpWatch :=
  { w with
    peer := { w.peer with
      sdpEmitSafety := some ⟨w.peer.nextFlag, true⟩, nextFlag := w.peer.nextFlag + 1 }
    emits := w.emits ++ [w.peer.nextFlag] }

/-- `EmitLocalSdp`. -/
def emitLocalSdp (w : SdpWatch) (delayed : Bool) : SdpWatch :=
  if w.peer.onLocalSdp = false then w
  else if delayed = true then
    let renewed := w.renewSdpEmit
    { renewed with
      peer := { renewed.peer with tasks := w.peer.tasks ++ [.sendLocalSdp w.peer.nextFlag] } }
  else w.renewSdpEmit.sendLocalSdp w.peer.nextFlag

/-- `OnSuccess`. -/
def onSuccess (w : SdpWatch) (type : SdpType) (parsed : Bool) : SdpWatch :=
  if parsed = false then
    { w with peer := { w.peer with modifiedDesc := none }, created := w.created ++ [false] }
  else
    { w with
      peer := { w.peer with modifiedDesc := some type }.request (.setLocalDescription type)
      created := w.created ++ [true] }.emitLocalSdp w.peer.hasCandidatesInSdp

/-- `OnIceGatheringChange`, when the gathering is complete. -/
def onIceGatheringComplete (w : SdpWatch) : SdpWatch :=
  match w.peer.sdpEmitSafety with
  | some ⟨flag, true⟩ => w.sendLocalSdp flag
  | _ => w

/-- A delayed task runs, if its flag is alive. -/
def runTask (w : SdpWatch) : DelayedTask → SdpWatch
  | .sendLocalSdp flag =>
    if w.peer.sdpEmitSafety = some ⟨flag, true⟩ then w.sendLocalSdp flag else w
  | .connectDeadline flag => { w with peer := w.peer.runTask (.connectDeadline flag) }

/-- The peer connection has finished an operation. -/
def finish (lib : SdpParser) (w : SdpWatch) (op : PcOp) (ok parsed : Bool) : SdpWatch :=
  match op, ok with
  | .createOffer, true => w.onSuccess .offer parsed
  | .createAnswer, true => w.onSuccess .answer parsed
  | op, ok => { w with peer := w.peer.finish lib op ok parsed }

/-- One event.  Only the events that may end in `SendLocalSdp` are written out. -/
def step (lib : SdpParser) (w : SdpWatch) (ev : PeerEvent) : Option SdpWatch :=
  match ev with
  | .task i => (w.peer.tasks[i]?).map fun task =>
      { w with peer := { w.peer with tasks := w.peer.tasks.eraseIdx i } }.runTask task
  | .iceGatheringComplete =>
    if w.peer.peerConnection = true then some w.onIceGatheringComplete else none
  | .finish i ok parsed =>
    if w.peer.peerConnection = true then
      (w.peer.pending[i]?).map fun op =>
        { w with peer := { w.peer with pending := w.peer.pending.eraseIdx i } }.finish lib op ok
          parsed
    else none
  | ev => (w.peer.step lib ev).map fun p => { w with peer := p }

/-! ### It is the peer that runs -/

theorem emitLocalSdp_peer (w : SdpWatch) (delayed : Bool) :
    (w.emitLocalSdp delayed).peer = w.peer.emitLocalSdp delayed := by
  rw [emitLocalSdp, RtcPeer.emitLocalSdp]
  split
  · rfl
  · dsimp only
    split
    · rfl
    · rfl

theorem onSuccess_peer (w : SdpWatch) (type : SdpType) (parsed : Bool) :
    (w.onSuccess type parsed).peer = w.peer.onSuccess type parsed := by
  rw [onSuccess, RtcPeer.onSuccess]
  split
  · rfl
  · exact emitLocalSdp_peer _ _

theorem onIceGatheringComplete_peer (w : SdpWatch) :
    w.onIceGatheringComplete.peer = w.peer.onIceGatheringComplete := by
  rw [onIceGatheringComplete, RtcPeer.onIceGatheringComplete]
  rcases hsafety : w.peer.sdpEmitSafety with _ | ⟨flag, _ | _⟩
  · rfl
  · rfl
  · rfl

theorem runTask_peer (w : SdpWatch) (task : DelayedTask) :
    (w.runTask task).peer = w.peer.runTask task := by
  cases task with
  | connectDeadline flag => rfl
  | sendLocalSdp flag => exact apply_ite SdpWatch.peer ..

theorem finish_peer (lib : SdpParser) (w : SdpWatch) (op : PcOp) (ok parsed : Bool) :
    (w.finish lib op ok parsed).peer = w.peer.finish lib op ok parsed := by
  cases op with
  | createOffer =>
    cases ok with
    | true => exact onSuccess_peer w .offer parsed
    | false => rfl
  | createAnswer =>
    cases ok with
    | true => exact onSuccess_peer w .answer parsed
    | false => rfl
  | _ => rfl

/-- **The history does not interfere.** -/
theorem step_peer (lib : SdpParser) (w : SdpWatch) (ev : PeerEvent) :
    (w.step lib ev).map SdpWatch.peer = w.peer.step lib ev := by
  cases ev with
  | task i =>
    rw [step, RtcPeer.step, Option.map_map]
    exact congrArg (Option.map · _) (funext fun task => runTask_peer _ task)
  | iceGatheringComplete =>
    rw [step, RtcPeer.step, apply_ite (Option.map SdpWatch.peer), Option.map_some,
      onIceGatheringComplete_peer]
    rfl
  | finish i ok parsed =>
    rw [step, RtcPeer.step, apply_ite (Option.map SdpWatch.peer), Option.map_map]
    exact congrArg (ite _ · none)
      (congrArg (Option.map · _) (funext fun op => finish_peer lib _ op ok parsed))
  | _ => simp [step, Option.map_map, Function.comp_def]

end SdpWatch

/-- A new peer, and all orders of events. -/
def sdpWatch (lib : SdpParser) (backend : SignalingBackend) (hasCandidatesInSdp : Bool) :
    Machine SdpWatch PeerEvent where
  init := { peer := (peerMachine lib backend hasCandidatesInSdp).init }
  step := SdpWatch.step lib

/-- Watching a run of the peer is a run of the watch, and the other way round. -/
theorem run_peer (lib : SdpParser) (backend : SignalingBackend) (hasCandidatesInSdp : Bool)
    (as : List PeerEvent) :
    ((sdpWatch lib backend hasCandidatesInSdp).run as).map SdpWatch.peer =
      (peerMachine lib backend hasCandidatesInSdp).run as := by
  suffices hgen : ∀ (as : List PeerEvent) (w : SdpWatch),
      ((sdpWatch lib backend hasCandidatesInSdp).runFrom w as).map SdpWatch.peer =
        (peerMachine lib backend hasCandidatesInSdp).runFrom w.peer as from hgen as _
  intro as
  induction as with
  | nil => exact fun w => rfl
  | cons ev as ih =>
    intro w
    rw [Machine.runFrom_cons, Machine.runFrom_cons, Option.map_bind]
    have hstep : (peerMachine lib backend hasCandidatesInSdp).step w.peer ev =
        ((sdpWatch lib backend hasCandidatesInSdp).step w ev).map SdpWatch.peer :=
      (SdpWatch.step_peer lib w ev).symm
    rw [hstep, Option.bind_map]
    exact congrArg _ (funext fun w' => ih w')

/-! ### What is asked for, and the condition -/

/-- Every `EmitLocalSdp` has one run of `SendLocalSdp` at most, so one call; a run is for the
    latest `EmitLocalSdp`, not while the peer is terminating, and there is a description. The
    calls are those that the peer makes. -/
structure EmittedOnce (w : SdpWatch) : Prop where
  emits : w.emits.Nodup
  once : (w.sends.map SdpSend.flag).Nodup
  latest : ∀ s ∈ w.sends, s.latest = some s.flag
  terminating : ∀ s ∈ w.sends, s.terminating = false
  described : ∀ s ∈ w.sends, s.desc ≠ none
  calls : w.peer.emitted = (w.sends.filter SdpSend.called).map SdpSend.desc

/-- The condition: when an armed emission comes to its task or to the end of the gathering, the
    description created last could be parsed. -/
def FiresParsed (w : SdpWatch) : PeerEvent → Prop
  | .task i =>
    ∀ flag, w.peer.tasks[i]? = some (.sendLocalSdp flag) →
      w.peer.sdpEmitSafety = some ⟨flag, true⟩ → w.created.getLast? = some true
  | .iceGatheringComplete =>
    ∀ flag, w.peer.sdpEmitSafety = some ⟨flag, true⟩ → w.created.getLast? = some true
  | _ => True

instance (w : SdpWatch) : ∀ ev, Decidable (FiresParsed w ev)
  | .task i =>
    match h : w.peer.tasks[i]? with
    | some (.sendLocalSdp flag) => decidable_of_iff
        (w.peer.sdpEmitSafety = some ⟨flag, true⟩ → w.created.getLast? = some true)
        (by simp [FiresParsed, h])
    | some (.connectDeadline _) => isTrue (by simp [FiresParsed, h])
    | none => isTrue (by simp [FiresParsed, h])
  | .iceGatheringComplete =>
    match h : w.peer.sdpEmitSafety with
    | some ⟨flag, true⟩ => decidable_of_iff (w.created.getLast? = some true)
        (by simp [FiresParsed, h])
    | some ⟨_, false⟩ => isTrue (by simp [FiresParsed, h])
    | none => isTrue (by simp [FiresParsed, h])
  | .createOffer | .signalingChange _ | .connectionChange _ | .renegotiationNeeded
  | .setRemoteSdp _ _ | .finish _ _ _ | .terminate => isTrue trivial

/-! ### The invariant -/

/-- **The invariant.** An armed emission is the latest one, has not been sent, and ends with
    `Terminate`; and there is a description exactly if the last one could be parsed. -/
structure EmissionInv (w : SdpWatch) : Prop where
  emits : ∀ f ∈ w.emits, f < w.peer.nextFlag
  sent : ∀ s ∈ w.sends, s.flag ∈ w.emits
  armed : ∀ f, w.peer.sdpEmitSafety = some ⟨f, true⟩ →
    w.emits.getLast? = some f ∧ f ∉ w.sends.map SdpSend.flag ∧ w.peer.isTerminating = false
  desc : w.peer.isTerminating = false →
    (w.peer.modifiedDesc ≠ none ↔ w.created.getLast? = some true)
  gone : w.peer.isTerminating = true → w.peer.peerConnection = false

/-- `p'` has the description, the flag and the calls of `p`. -/
structure SameEmission (p p' : RtcPeer) : Prop where
  safety : p'.sdpEmitSafety = p.sdpEmitSafety
  desc : p'.modifiedDesc = p.modifiedDesc
  terminating : p'.isTerminating = p.isTerminating
  peerConnection : p'.peerConnection = p.peerConnection
  nextFlag : p.nextFlag ≤ p'.nextFlag
  emitted : p'.emitted = p.emitted

namespace SameEmission

variable {p p' p'' : RtcPeer}

theorem refl (p : RtcPeer) : SameEmission p p := ⟨rfl, rfl, rfl, rfl, le_rfl, rfl⟩

theorem trans (h : SameEmission p p') (h' : SameEmission p' p'') : SameEmission p p'' where
  safety := h'.safety.trans h.safety
  desc := h'.desc.trans h.desc
  terminating := h'.terminating.trans h.terminating
  peerConnection := h'.peerConnection.trans h.peerConnection
  nextFlag := h.nextFlag.trans h'.nextFlag
  emitted := h'.emitted.trans h.emitted

theorem createOffer (p : RtcPeer) : SameEmission p p.createOffer := by
  rw [RtcPeer.createOffer]
  split
  · exact refl p
  · exact ⟨rfl, rfl, rfl, rfl, le_rfl, rfl⟩

theorem resume (p : RtcPeer) : SameEmission p p.resume := by
  have hflag : SameEmission p { p with needsRenegotiation := false } :=
    ⟨rfl, rfl, rfl, rfl, le_rfl, rfl⟩
  exact hflag.trans (createOffer _)

theorem armConnectDeadline (p : RtcPeer) : SameEmission p p.armConnectDeadline :=
  ⟨rfl, rfl, rfl, rfl, Nat.le_succ _, rfl⟩

theorem onSignalingChange (p : RtcPeer) (newState : SignalingState) :
    SameEmission p (p.onSignalingChange newState) := by
  have hnoted : SameEmission p (p.noteSignalingState newState) :=
    ⟨rfl, rfl, rfl, rfl, le_rfl, rfl⟩
  rw [RtcPeer.onSignalingChange]
  split
  · exact hnoted.trans (armConnectDeadline _)
  split
  · exact hnoted.trans (resume _)
  split
  · exact ⟨rfl, rfl, rfl, rfl, le_rfl, rfl⟩
  · exact hnoted

theorem connectionChange (p : RtcPeer) (newState : PeerConnectionState) :
    SameEmission p (p.connectionChange newState) := by
  cases newState with
  | connected =>
    have hrenewed : SameEmission p { p with isConnected := true }.renewConnectDeadline :=
      ⟨rfl, rfl, rfl, rfl, Nat.le_succ _, rfl⟩
    rw [RtcPeer.connectionChange]
    split
    · exact hrenewed.trans (resume _)
    · exact hrenewed
  | failed => exact ⟨rfl, rfl, rfl, rfl, Nat.le_succ _, rfl⟩
  | closed => exact ⟨rfl, rfl, rfl, rfl, le_rfl, rfl⟩
  | _ => exact refl p

theorem onConnectionChange (p : RtcPeer) (newState : PeerConnectionState) :
    SameEmission p (p.onConnectionChange newState) := by
  have hchange := connectionChange p newState
  rw [RtcPeer.onConnectionChange]
  split
  · exact hchange.trans ⟨rfl, rfl, rfl, rfl, le_rfl, rfl⟩
  · exact hchange

theorem onRenegotiationNeeded (p : RtcPeer) : SameEmission p p.onRenegotiationNeeded := by
  have hdefer : SameEmission p p.defer := ⟨rfl, rfl, rfl, rfl, le_rfl, rfl⟩
  rw [RtcPeer.onRenegotiationNeeded]
  split
  · exact refl p
  split
  · exact hdefer.trans (resume _)
  · exact hdefer

theorem setRemoteSdp (lib : SdpParser) (p : RtcPeer) (sdp sdpType : String) (glare : Bool) :
    SameEmission p (p.setRemoteSdp lib sdp sdpType glare) := by
  rw [RtcPeer.setRemoteSdp]
  split
  · exact refl p
  split
  · exact refl p
  split
  · exact refl p
  · split
    · split <;> exact ⟨rfl, rfl, rfl, rfl, le_rfl, rfl⟩
    split
    · exact refl p
    · dsimp only
      split <;> exact ⟨rfl, rfl, rfl, rfl, le_rfl, rfl⟩

theorem connectDeadline (p : RtcPeer) (flag : ℕ) :
    SameEmission p (p.runTask (.connectDeadline flag)) := by
  rw [RtcPeer.runTask]
  split
  · exact ⟨rfl, rfl, rfl, rfl, le_rfl, rfl⟩
  · exact refl p

end SameEmission

/-! ### One event -/

section Events

variable {w : SdpWatch}

/-- An event that does not come to the description or the flag. -/
theorem keeps_of_same (h : EmissionInv w) (hP : EmittedOnce w) {p : RtcPeer}
    (hsame : SameEmission w.peer p) :
    EmissionInv { w with peer := p } ∧ EmittedOnce { w with peer := p } := by
  refine ⟨⟨?_, h.sent, ?_, ?_, ?_⟩, ?_⟩
  · exact fun f hf => (h.emits f hf).trans_le hsame.nextFlag
  · intro f hf
    obtain ⟨hlast, hunsent, hterm⟩ := h.armed f (hsame.safety ▸ hf)
    exact ⟨hlast, hunsent, hsame.terminating.trans hterm⟩
  · intro hterm
    rw [show p.modifiedDesc = _ from hsame.desc]
    exact h.desc (hsame.terminating ▸ hterm)
  · exact fun hterm => hsame.peerConnection.trans (h.gone (hsame.terminating ▸ hterm))
  · exact { hP with calls := hsame.emitted.trans hP.calls }

/-- **`SendLocalSdp`** for the armed emission `flag`: all is well exactly if there is a
    description. -/
theorem send_iff {flag : ℕ} (hflag : ∀ f ∈ w.emits, f < w.peer.nextFlag)
    (hsent : ∀ s ∈ w.sends, s.flag ∈ w.emits) (hlast : w.emits.getLast? = some flag)
    (hunsent : flag ∉ w.sends.map SdpSend.flag) (hterm : w.peer.isTerminating = false)
    (hdesc : w.peer.modifiedDesc ≠ none ↔ w.created.getLast? = some true) (hP : EmittedOnce w) :
    EmissionInv (w.sendLocalSdp flag) ∧
      (EmittedOnce (w.sendLocalSdp flag) ↔ w.peer.modifiedDesc ≠ none) := by
  have hsame : w.peer.sendLocalSdp.modifiedDesc = w.peer.modifiedDesc ∧
      w.peer.sendLocalSdp.isTerminating = w.peer.isTerminating ∧
      w.peer.sendLocalSdp.nextFlag = w.peer.nextFlag ∧
      (∀ f, w.peer.sendLocalSdp.sdpEmitSafety ≠ some ⟨f, true⟩) ∧
      w.peer.sendLocalSdp.emitted = w.peer.emitted ++
        if w.peer.onLocalSdp = true then [w.peer.modifiedDesc] else [] := by
    have hdead : ∀ f, w.peer.killSdpEmit.sdpEmitSafety ≠ some ⟨f, true⟩ := by
      intro f hf
      obtain ⟨flag', _, heq⟩ := Option.map_eq_some_iff.mp hf
      cases heq
    cases hon : w.peer.onLocalSdp with
    | false =>
      rw [RtcPeer.sendLocalSdp, if_pos (.inr hon)]
      exact ⟨rfl, rfl, rfl, hdead, (List.append_nil _).symm⟩
    | true =>
      rw [RtcPeer.sendLocalSdp, if_neg (by simp [hterm, hon])]
      exact ⟨rfl, rfl, rfl, hdead, rfl⟩
  obtain ⟨hdesc', hterm', hnext', hdead, hemitted⟩ := hsame
  refine ⟨⟨?_, ?_, ?_, ?_, ?_⟩, ?_⟩
  · exact fun f hf => hnext' ▸ hflag f hf
  · intro s hs
    rcases List.mem_append.mp hs with hs | hs
    · exact hsent s hs
    · rw [List.mem_singleton.mp hs]
      exact List.mem_of_getLast? hlast
  · exact fun f hf => absurd hf (hdead f)
  · intro _
    show w.peer.sendLocalSdp.modifiedDesc ≠ none ↔ _
    rw [hdesc']
    exact hdesc
  · intro h
    exact absurd (hterm'.symm.trans h) (by simp [hterm])
  · constructor
    · intro hafter
      exact hafter.described _ (List.mem_append_right _ (List.mem_singleton_self _))
    · intro hsome
      refine ⟨hP.emits, ?_, ?_, ?_, ?_, ?_⟩
      · show ((w.sends ++ [_]).map SdpSend.flag).Nodup
        rw [List.map_append]
        exact hP.once.append (List.nodup_singleton _) (List.disjoint_singleton.mpr hunsent)
      · intro s hs
        rcases List.mem_append.mp hs with hs | hs
        · exact hP.latest s hs
        · rw [List.mem_singleton.mp hs]
          exact hlast
      · intro s hs
        rcases List.mem_append.mp hs with hs | hs
        · exact hP.terminating s hs
        · rw [List.mem_singleton.mp hs]
          exact hterm
      · intro s hs
        rcases List.mem_append.mp hs with hs | hs
        · exact hP.described s hs
        · rw [List.mem_singleton.mp hs]
          exact hsome
      · show w.peer.sendLocalSdp.emitted = ((w.sends ++ [_]).filter _).map _
        rw [hemitted, hP.calls, List.filter_append, List.map_append, hterm]
        cases w.peer.onLocalSdp <;> rfl

/-- `SendLocalSdp` for an emission that is armed. -/
theorem send_armed_iff (h : EmissionInv w) (hP : EmittedOnce w) (flag : ℕ)
    (harmed : w.peer.sdpEmitSafety = some ⟨flag, true⟩) :
    EmissionInv (w.sendLocalSdp flag) ∧
      (EmittedOnce (w.sendLocalSdp flag) ↔ w.created.getLast? = some true) := by
  obtain ⟨hlast, hunsent, hterm⟩ := h.armed flag harmed
  have hsend := send_iff h.emits h.sent hlast hunsent hterm (h.desc hterm) hP
  exact ⟨hsend.1, hsend.2.trans (h.desc hterm)⟩

/-- A new emission is armed. -/
theorem renewSdpEmit_keeps (h : EmissionInv w) (hP : EmittedOnce w)
    (hterm : w.peer.isTerminating = false) :
    EmissionInv w.renewSdpEmit ∧ EmittedOnce w.renewSdpEmit := by
  have hfresh : w.peer.nextFlag ∉ w.emits := fun hmem => (h.emits _ hmem).false
  refine ⟨⟨?_, ?_, ?_, h.desc, h.gone⟩, ?_⟩
  · intro f hf
    rcases List.mem_append.mp hf with hf | hf
    · exact Nat.lt_succ_of_lt (h.emits f hf)
    · rw [List.mem_singleton.mp hf]
      exact Nat.lt_succ_self _
  · exact fun s hs => List.mem_append_left _ (h.sent s hs)
  · intro f hf
    obtain ⟨rfl⟩ := Option.some.inj hf
    refine ⟨List.getLast?_concat .., fun hmem => ?_, hterm⟩
    obtain ⟨s, hs, heq⟩ := List.mem_map.mp hmem
    exact hfresh (heq ▸ h.sent s hs)
  · refine { hP with emits := ?_ }
    exact hP.emits.append (List.nodup_singleton _) (List.disjoint_singleton.mpr hfresh)

/-- **`EmitLocalSdp`**, when there is a description. -/
theorem emitLocalSdp_keeps (h : EmissionInv w) (hP : EmittedOnce w)
    (hterm : w.peer.isTerminating = false) (hsome : w.peer.modifiedDesc ≠ none)
    (delayed : Bool) :
    EmissionInv (w.emitLocalSdp delayed) ∧ EmittedOnce (w.emitLocalSdp delayed) := by
  obtain ⟨hrenewed, hPrenewed⟩ := renewSdpEmit_keeps h hP hterm
  rw [SdpWatch.emitLocalSdp]
  split
  · exact ⟨h, hP⟩
  split
  · exact keeps_of_same hrenewed hPrenewed ⟨rfl, rfl, rfl, rfl, le_rfl, rfl⟩
  · obtain ⟨hsent, hiff⟩ := send_armed_iff hrenewed hPrenewed w.peer.nextFlag rfl
    exact ⟨hsent, hiff.mpr ((hrenewed.desc hterm).mp hsome)⟩

/-- **`OnSuccess`.** -/
theorem onSuccess_keeps (h : EmissionInv w) (hP : EmittedOnce w)
    (hterm : w.peer.isTerminating = false) (type : SdpType) (parsed : Bool) :
    EmissionInv (w.onSuccess type parsed) ∧ EmittedOnce (w.onSuccess type parsed) := by
  rw [SdpWatch.onSuccess]
  split
  · refine ⟨⟨h.emits, h.sent, h.armed, fun _ => ?_, h.gone⟩, { hP with }⟩
    simp
  · refine emitLocalSdp_keeps (w := { w with
      peer := { w.peer with modifiedDesc := some type }.request (.setLocalDescription type)
      created := w.created ++ [true] }) ⟨h.emits, h.sent, h.armed, fun _ => ?_, h.gone⟩
      { hP with } hterm (Option.some_ne_none type) _
    simp [RtcPeer.request]

/-- `Terminate` disarms the emission. -/
theorem terminate_keeps (h : EmissionInv w) (hP : EmittedOnce w) :
    EmissionInv { w with peer := w.peer.terminate } ∧
      EmittedOnce { w with peer := w.peer.terminate } := by
  refine ⟨⟨h.emits, h.sent, fun f hf => ?_, fun hterm => (nomatch hterm), fun _ => rfl⟩,
    { hP with }⟩
  obtain ⟨flag, _, heq⟩ := Option.map_eq_some_iff.mp hf
  cases heq

/-- The end of the gathering. -/
theorem onIceGatheringComplete_iff (h : EmissionInv w) (hP : EmittedOnce w) :
    EmissionInv w.onIceGatheringComplete ∧
      (EmittedOnce w.onIceGatheringComplete ↔ FiresParsed w .iceGatheringComplete) := by
  rw [SdpWatch.onIceGatheringComplete, FiresParsed]
  split
  case h_1 flag harmed =>
    obtain ⟨hsent, hiff⟩ := send_armed_iff h hP flag harmed
    refine ⟨hsent, hiff.trans ⟨fun hlast _ _ => hlast, fun hlast => hlast flag harmed⟩⟩
  case h_2 hidle => exact ⟨h, iff_of_true hP fun flag harmed => absurd harmed (hidle flag)⟩

/-- A delayed task. -/
theorem task_iff (h : EmissionInv w) (hP : EmittedOnce w) {i : ℕ} {task : DelayedTask}
    (htask : w.peer.tasks[i]? = some task) :
    let w' := { w with peer := { w.peer with tasks := w.peer.tasks.eraseIdx i } }.runTask task
    EmissionInv w' ∧ (EmittedOnce w' ↔ FiresParsed w (.task i)) := by
  intro w'
  obtain ⟨h', hP'⟩ := keeps_of_same h hP
    (p := { w.peer with tasks := w.peer.tasks.eraseIdx i }) ⟨rfl, rfl, rfl, rfl, le_rfl, rfl⟩
  rw [FiresParsed, htask]
  cases task with
  | connectDeadline flag =>
    obtain ⟨h'', hP''⟩ := keeps_of_same h' hP' (SameEmission.connectDeadline _ flag)
    exact ⟨h'', iff_of_true hP'' fun f hf => by cases hf⟩
  | sendLocalSdp flag =>
    by_cases harmed : w.peer.sdpEmitSafety = some ⟨flag, true⟩
    · obtain ⟨hsent, hiff⟩ := send_armed_iff h' hP' flag harmed
      have heq : w' = { w with
          peer := { w.peer with tasks := w.peer.tasks.eraseIdx i } }.sendLocalSdp flag :=
        if_pos harmed
      rw [heq]
      refine ⟨hsent, hiff.trans ⟨fun hlast _ _ _ => hlast, fun hlast => hlast flag rfl harmed⟩⟩
    · have heq : w' = { w with peer := { w.peer with tasks := w.peer.tasks.eraseIdx i } } :=
        if_neg harmed
      rw [heq]
      refine ⟨h', iff_of_true hP' fun f hf hf' => ?_⟩
      obtain rfl : flag = f := by simpa using hf
      exact absurd hf' harmed

/-- The end of an operation of the peer connection. -/
theorem finish_keeps (lib : SdpParser) (h : EmissionInv w) (hP : EmittedOnce w)
    (hpc : w.peer.peerConnection = true) (op : PcOp) (ok parsed : Bool) :
    EmissionInv (w.finish lib op ok parsed) ∧ EmittedOnce (w.finish lib op ok parsed) := by
  have hterm : w.peer.isTerminating = false := by
    by_contra hne
    rw [h.gone (by simpa using hne)] at hpc
    cases hpc
  cases ok with
  | false =>
    cases op with
    | _ => exact ⟨h, hP⟩
  | true =>
    cases op with
    | createOffer => exact onSuccess_keeps h hP hterm .offer parsed
    | createAnswer => exact onSuccess_keeps h hP hterm .answer parsed
    | rollback sdp sdpType =>
      exact keeps_of_same h hP (SameEmission.setRemoteSdp lib w.peer sdp sdpType true)
    | _ => exact ⟨h, hP⟩

/-- **One event.** -/
theorem step_iff (lib : SdpParser) (h : EmissionInv w) (hP : EmittedOnce w) {ev : PeerEvent}
    {w' : SdpWatch} (hs : w.step lib ev = some w') :
    EmissionInv w' ∧ (EmittedOnce w' ↔ FiresParsed w ev) := by
  have hkept : EmissionInv w' ∧ EmittedOnce w' → FiresParsed w ev →
      EmissionInv w' ∧ (EmittedOnce w' ↔ FiresParsed w ev) :=
    fun hk hg => ⟨hk.1, iff_of_true hk.2 hg⟩
  cases ev with
  | task i =>
    rw [SdpWatch.step, Option.map_eq_some_iff] at hs
    obtain ⟨task, htask, rfl⟩ := hs
    exact task_iff h hP htask
  | iceGatheringComplete =>
    rw [SdpWatch.step, Option.ite_none_right_eq_some] at hs
    obtain rfl := Option.some.inj hs.2
    exact onIceGatheringComplete_iff h hP
  | finish i ok parsed =>
    rw [SdpWatch.step, Option.ite_none_right_eq_some, Option.map_eq_some_iff] at hs
    obtain ⟨hpc, op, _, rfl⟩ := hs
    obtain ⟨h', hP'⟩ := keeps_of_same h hP
      (p := { w.peer with pending := w.peer.pending.eraseIdx i }) ⟨rfl, rfl, rfl, rfl, le_rfl, rfl⟩
    exact hkept (finish_keeps lib h' hP' hpc op ok parsed) trivial
  | setRemoteSdp sdp sdpType =>
    obtain rfl := Option.some.inj hs
    have hsame := SameEmission.setRemoteSdp lib w.peer sdp sdpType false
    exact hkept (keeps_of_same h hP hsame) trivial
  | terminate =>
    obtain rfl := Option.some.inj hs
    exact hkept (terminate_keeps h hP) trivial
  | createOffer =>
    simp only [SdpWatch.step, RtcPeer.step, Option.map_eq_some_iff,
      Option.ite_none_right_eq_some] at hs
    obtain ⟨p, ⟨_, hp⟩, rfl⟩ := hs
    exact hkept (keeps_of_same h hP (Option.some.inj hp ▸ SameEmission.createOffer w.peer)) trivial
  | signalingChange newState =>
    simp only [SdpWatch.step, RtcPeer.step, Option.map_eq_some_iff,
      Option.ite_none_right_eq_some] at hs
    obtain ⟨p, ⟨_, hp⟩, rfl⟩ := hs
    exact hkept (keeps_of_same h hP
      (Option.some.inj hp ▸ SameEmission.onSignalingChange w.peer newState)) trivial
  | connectionChange newState =>
    simp only [SdpWatch.step, RtcPeer.step, Option.map_eq_some_iff,
      Option.ite_none_right_eq_some] at hs
    obtain ⟨p, ⟨_, hp⟩, rfl⟩ := hs
    exact hkept (keeps_of_same h hP
      (Option.some.inj hp ▸ SameEmission.onConnectionChange w.peer newState)) trivial
  | renegotiationNeeded =>
    simp only [SdpWatch.step, RtcPeer.step, Option.map_eq_some_iff,
      Option.ite_none_right_eq_some] at hs
    obtain ⟨p, ⟨_, hp⟩, rfl⟩ := hs
    exact hkept (keeps_of_same h hP
      (Option.some.inj hp ▸ SameEmission.onRenegotiationNeeded w.peer)) trivial

end Events

/-! ### All orders of events -/

/-- **The local description is emitted once, exactly.** Throughout a run everything is as it
    should be exactly if an armed emission comes to its end only while the description created
    last is one that could be parsed. -/
theorem sdp_emitted_once_iff (lib : SdpParser) (backend : SignalingBackend)
    (hasCandidatesInSdp : Bool) (as : List PeerEvent) (w : SdpWatch)
    (hrun : (sdpWatch lib backend hasCandidatesInSdp).run as = some w) :
    (sdpWatch lib backend hasCandidatesInSdp).Always EmittedOnce
        (sdpWatch lib backend hasCandidatesInSdp).init as ↔
      (sdpWatch lib backend hasCandidatesInSdp).Guarded FiresParsed
        (sdpWatch lib backend hasCandidatesInSdp).init as := by
  refine Machine.always_iff_guarded (I := EmissionInv) ?_ ?_ ?_ ?_ hrun
  · exact fun s a s' hI hP hs _ => (step_iff lib hI hP hs).1
  · exact fun s a s' hI hP hs => (step_iff lib hI hP hs).2
  · refine ⟨fun f hf => absurd hf List.not_mem_nil, fun s hs => absurd hs List.not_mem_nil,
      fun f hf => (nomatch hf), fun _ => ?_, fun hterm => (nomatch hterm)⟩
    exact iff_of_false (fun hsome => hsome rfl) (fun hlast => nomatch hlast)
  · exact ⟨List.nodup_nil, List.nodup_nil, fun s hs => absurd hs List.not_mem_nil,
      fun s hs => absurd hs List.not_mem_nil, fun s hs => absurd hs List.not_mem_nil, rfl⟩

/-- An offer is answered, and before a second has passed the remote offers again. -/
def offeredTwice (parsed : Bool) : List PeerEvent :=
  [.setRemoteSdp "v=0" "offer", .signalingChange .haveRemoteOffer, .finish 0 true true,
    .finish 0 true true, .signalingChange .stable, .finish 0 true true,
    .setRemoteSdp "v=0" "offer", .signalingChange .haveRemoteOffer, .finish 0 true true,
    .finish 0 true parsed]

/-- The first answer's task finds its flag dead, and the end of the gathering sends the second
    one. -/
theorem sdp_emitted_once_iff_twice :
    (sdpWatch plainParser .direct true).Always EmittedOnce (sdpWatch plainParser .direct true).init
      (offeredTwice true ++ [.task 1, .iceGatheringComplete]) :=
  (sdp_emitted_once_iff plainParser .direct true _ _ rfl).mpr (by decide)

/-- The second answer cannot be parsed; the task of the first one runs. -/
theorem not_emittedOnce_unparsed :
    ¬ ∀ (as : List PeerEvent) (w : SdpWatch),
      (sdpWatch plainParser .direct true).run as = some w → EmittedOnce w := by
  intro h
  exact (h (offeredTwice false ++ [.task 1]) _ rfl).described _ List.mem_cons_self rfl

end PiWebrtc.Rtc
