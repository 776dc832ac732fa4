import PiWebrtc.Rtc.RtcPeer

namespace PiWebrtc.Rtc

open Transition

/-!
# The connect deadline

A peer that does not connect is closed by its connect deadline, which is armed when the
peer connection applies a remote offer and when it has failed.  A peer is `Attended` if it
will not stay behind: it is connected, it has expired, or its deadline is armed.

* `Attended.step` — an attended peer stays attended, whatever happens to it;
* `deadlineArmed_expires` — an armed deadline, when it runs, expires a peer that is not
  connected;
* `applyRemoteSdp_attended_iff` — the description that attends to a new peer is an offer
  that can be parsed and is applied.
-/

namespace RtcPeer

/-- A task of the connect deadline is posted, its flag is alive, and there is a connection
    that it can close. -/
def DeadlineArmed (p : RtcPeer) : Prop :=
  p.peerConnection = true ∧
    ∃ flag, p.connectDeadlineSafety = some ⟨flag, true⟩ ∧ .connectDeadline flag ∈ p.tasks

/-- Connected, expired, or to be expired by the deadline. -/
def Attended (p : RtcPeer) : Prop :=
  p.isConnected = true ∨ p.isExpired = true ∨ p.DeadlineArmed

/-- `Close` of the peer connection reports the closed states before it returns. -/
def reportClosed (p : RtcPeer) : RtcPeer :=
  if .close ∈ p.pending then
    ({ p with pending := p.pending.erase .close }.onSignalingChange .closed).onConnectionChange
      .closed
  else p

/-- `SetRemoteSdp`, where the peer connection applies a remote offer before it returns, or
    rejects it. -/
def applyRemoteSdp (lib : SdpParser) (p : RtcPeer) (sdp sdpType : String) (applied : Bool) :
    RtcPeer :=
  let next := p.setRemoteSdp lib sdp sdpType false
  if applied = true ∧ .setRemoteDescription .offer false ∈ next.pending.drop p.pending.length then
    next.onSignalingChange .haveRemoteOffer
  else next

end RtcPeer

/-! ### Handlers that leave the deadline alone -/

/-- `p'` has the connection and the flags of `p`, its deadline and its tasks. -/
structure SameDeadline (p p' : RtcPeer) : Prop where
  peerConnection : p'.peerConnection = p.peerConnection
  isConnected : p'.isConnected = p.isConnected
  isExpired : p'.isExpired = p.isExpired
  safety : p'.connectDeadlineSafety = p.connectDeadlineSafety
  tasks : p.tasks ⊆ p'.tasks

namespace SameDeadline

variable {p p' p'' : RtcPeer}

/-- Handlers that do not even post a task. -/
theorem of_eq (hpc : p'.peerConnection = p.peerConnection)
    (hconn : p'.isConnected = p.isConnected) (hexp : p'.isExpired = p.isExpired)
    (hsafety : p'.connectDeadlineSafety = p.connectDeadlineSafety) (htasks : p'.tasks = p.tasks) :
    SameDeadline p p' :=
  ⟨hpc, hconn, hexp, hsafety, htasks ▸ List.Subset.refl _⟩

/-- Nothing is done. -/
theorem refl (p : RtcPeer) : SameDeadline p p := of_eq rfl rfl rfl rfl rfl

/-- One thing is done after the other. -/
theorem trans (h : SameDeadline p p') (h' : SameDeadline p' p'') : SameDeadline p p'' where
  peerConnection := h'.peerConnection.trans h.peerConnection
  isConnected := h'.isConnected.trans h.isConnected
  isExpired := h'.isExpired.trans h.isExpired
  safety := h'.safety.trans h.safety
  tasks := List.Subset.trans h.tasks h'.tasks

/-- A request to the peer connection is only noted. -/
theorem request (p : RtcPeer) (op : PcOp) : SameDeadline p (p.request op) :=
  of_eq rfl rfl rfl rfl rfl

/-- An offer is a request. -/
theorem createOffer (p : RtcPeer) : SameDeadline p p.createOffer := by
  rw [RtcPeer.createOffer]
  split <;> exact of_eq rfl rfl rfl rfl rfl

/-- The offer that was put off is made. -/
theorem resume (p : RtcPeer) : SameDeadline p p.resume := by
  have hflag : SameDeadline p { p with needsRenegotiation := false } := of_eq rfl rfl rfl rfl rfl
  exact hflag.trans (createOffer _)

/-- A description is handed on once. -/
theorem sendLocalSdp (p : RtcPeer) : SameDeadline p p.sendLocalSdp := by
  rw [RtcPeer.sendLocalSdp]
  split <;> exact of_eq rfl rfl rfl rfl rfl

/-- It is, or is waited for. -/
theorem emitLocalSdp (p : RtcPeer) (delayed : Bool) : SameDeadline p (p.emitLocalSdp delayed) := by
  simp only [RtcPeer.emitLocalSdp]
  split
  · exact of_eq rfl rfl rfl rfl rfl
  split
  · exact ⟨rfl, rfl, rfl, rfl, List.subset_append_left _ _⟩
  · have hflag : SameDeadline p
        { p with sdpEmitSafety := some ⟨p.nextFlag, true⟩, nextFlag := p.nextFlag + 1 } :=
      of_eq rfl rfl rfl rfl rfl
    exact hflag.trans (sendLocalSdp _)

/-- What was created is set and handed on. -/
theorem onSuccess (p : RtcPeer) (type : SdpType) (parsed : Bool) :
    SameDeadline p (p.onSuccess type parsed) := by
  rw [RtcPeer.onSuccess]
  split
  · exact of_eq rfl rfl rfl rfl rfl
  · have hdesc : SameDeadline p
        ({ p with modifiedDesc := some type }.request (.setLocalDescription type)) :=
      of_eq rfl rfl rfl rfl rfl
    exact hdesc.trans (emitLocalSdp _ _)

/-- The end of gathering hands it on. -/
theorem onIceGatheringComplete (p : RtcPeer) : SameDeadline p p.onIceGatheringComplete := by
  rw [RtcPeer.onIceGatheringComplete]
  split
  · exact sendLocalSdp p
  · exact refl p

theorem onRenegotiationNeeded (p : RtcPeer) : SameDeadline p p.onRenegotiationNeeded := by
  rw [RtcPeer.onRenegotiationNeeded]
  split
  · exact of_eq rfl rfl rfl rfl rfl
  split
  · have hdefer : SameDeadline p p.defer := of_eq rfl rfl rfl rfl rfl
    exact hdefer.trans (resume _)
  · exact of_eq rfl rfl rfl rfl rfl

/-- A remote description is a request, if it can be parsed. -/
theorem setRemoteSdp (lib : SdpParser) (p : RtcPeer) (sdp sdpType : String) (glare : Bool) :
    SameDeadline p (p.setRemoteSdp lib sdp sdpType glare) := by
  simp only [RtcPeer.setRemoteSdp]
  split
  · exact of_eq rfl rfl rfl rfl rfl
  split
  · exact of_eq rfl rfl rfl rfl rfl
  split
  · exact of_eq rfl rfl rfl rfl rfl
  split
  · split <;> exact of_eq rfl rfl rfl rfl rfl
  split
  · exact of_eq rfl rfl rfl rfl rfl
  split <;> exact of_eq rfl rfl rfl rfl rfl

/-- **A request that is answered** leaves the deadline alone. -/
theorem finish (lib : SdpParser) (p : RtcPeer) (op : PcOp) (ok parsed : Bool) :
    SameDeadline p (p.finish lib op ok parsed) := by
  unfold RtcPeer.finish
  split
  · exact onSuccess p .offer parsed
  · exact onSuccess p .answer parsed
  · exact setRemoteSdp lib p _ _ true
  · exact of_eq rfl rfl rfl rfl rfl

/-- A signaling state other than have-remote-offer. -/
theorem onSignalingChange (p : RtcPeer) {newState : SignalingState}
    (hstate : newState ≠ .haveRemoteOffer) : SameDeadline p (p.onSignalingChange newState) := by
  have hnote : SameDeadline p (p.noteSignalingState newState) := of_eq rfl rfl rfl rfl rfl
  simp only [RtcPeer.onSignalingChange]
  split
  case isTrue h => exact absurd h hstate
  case isFalse =>
    split
    -- the deferred offer that is resumed here touches no deadline
    · exact hnote.trans (resume _)
    split <;> exact of_eq rfl rfl rfl rfl rfl

/-- What `Attended` says does not change. -/
theorem attended (h : SameDeadline p p') (hp : p.Attended) : p'.Attended := by
  rcases hp with hconn | hexp | ⟨hpc, flag, hflag, htask⟩
  · exact .inl (h.isConnected.trans hconn)
  · exact .inr (.inl (h.isExpired.trans hexp))
  · exact .inr (.inr ⟨h.peerConnection.trans hpc, flag, h.safety.trans hflag, h.tasks htask⟩)

end SameDeadline

namespace RtcPeer

variable {lib : SdpParser} {p p' : RtcPeer}

/-- A deadline that is set is set. -/
theorem armConnectDeadline_armed (hpc : p.peerConnection = true) :
    p.armConnectDeadline.DeadlineArmed :=
  ⟨hpc, p.nextFlag, rfl, List.mem_append.mpr (.inr List.mem_cons_self)⟩

/-- A remote offer that is applied arms the deadline. -/
theorem onSignalingChange_haveRemoteOffer (hpc : p.peerConnection = true) :
    (p.onSignalingChange .haveRemoteOffer).DeadlineArmed := by
  rw [onSignalingChange, if_pos rfl]
  exact armConnectDeadline_armed hpc

/-- The report to the listener comes after everything else. -/
theorem onConnectionChange_sameDeadline (p : RtcPeer) (newState : PeerConnectionState) :
    SameDeadline (p.connectionChange newState) (p.onConnectionChange newState) := by
  simp only [onConnectionChange]
  split <;> exact .of_eq rfl rfl rfl rfl rfl

theorem onConnectionChange_closed (p : RtcPeer) : (p.onConnectionChange .closed).isExpired = true :=
  (onConnectionChange_sameDeadline p .closed).isExpired

/-- A peer whose connection was closed has expired. -/
theorem reportClosed_request (p : RtcPeer) : (p.request .close).reportClosed.isExpired = true := by
  have hmem : .close ∈ (p.request .close).pending := List.mem_append.mpr (.inr List.mem_cons_self)
  rw [reportClosed, if_pos hmem]
  exact onConnectionChange_closed _

/-- **The deadline does its work.** When it runs for a peer that is not connected, the peer
    has expired. -/
theorem deadlineArmed_expires {i flag : ℕ} (harmed : p.DeadlineArmed)
    (hflag : p.connectDeadlineSafety = some ⟨flag, true⟩)
    (hi : p.tasks[i]? = some (.connectDeadline flag)) (hconn : p.isConnected = false) :
    ∃ p', RtcPeer.step lib p (.task i) = some p' ∧ p'.reportClosed.isExpired = true := by
  refine ⟨_, by rw [RtcPeer.step, hi, Option.map_some], ?_⟩
  rw [runTask, if_pos ⟨hflag, harmed.1, hconn⟩]
  exact reportClosed_request _

namespace Attended

/-- A remote offer sets the deadline. -/
theorem onSignalingChange (h : p.Attended) (hpc : p.peerConnection = true)
    (newState : SignalingState) : (p.onSignalingChange newState).Attended := by
  by_cases hoffer : newState = .haveRemoteOffer
  · rw [hoffer]
    exact .inr (.inr (onSignalingChange_haveRemoteOffer hpc))
  · exact (SameDeadline.onSignalingChange p hoffer).attended h

/-- A connection that is there needs none. -/
theorem onConnectionChange (h : p.Attended) (hpc : p.peerConnection = true)
    (newState : PeerConnectionState) : (p.onConnectionChange newState).Attended := by
  refine (onConnectionChange_sameDeadline p newState).attended ?_
  cases newState with
  | connected =>
    simp only [connectionChange]
    split
    · exact (SameDeadline.resume _).attended (.inl rfl)
    · exact .inl rfl
  -- a failed peer gets a deadline to recover
  | failed => exact .inr (.inr (armConnectDeadline_armed hpc))
  | closed => exact .inr (.inl rfl)
  | new | connecting | disconnected => exact h

theorem reportClosed (h : p.Attended) : p.reportClosed.Attended := by
  rw [RtcPeer.reportClosed]
  split
  · exact .inr (.inl (onConnectionChange_closed _))
  · exact h

/-- Of the tasks only the deadline itself is missed when it is taken out. -/
theorem eraseTask {i : ℕ} {task : DelayedTask} (h : p.Attended) (hi : p.tasks[i]? = some task)
    (htask : ∀ flag, p.connectDeadlineSafety = some ⟨flag, true⟩ → task ≠ .connectDeadline flag) :
    Attended { p with tasks := p.tasks.eraseIdx i } := by
  rcases h with hconn | hexp | ⟨hpc, flag, hflag, hmem⟩
  · exact .inl hconn
  · exact .inr (.inl hexp)
  · refine .inr (.inr ⟨hpc, flag, hflag, ?_⟩)
    obtain ⟨j, hj⟩ := List.mem_iff_getElem?.mp hmem
    refine List.mem_eraseIdx_iff_getElem?.mpr ⟨j, ?_, hj⟩
    -- the task that is taken out is another one
    rintro rfl
    rw [hi] at hj
    exact htask flag hflag (Option.some.inj hj)

/-- A task has run, and if it has closed the connection, that was reported. -/
theorem runTask {i : ℕ} {task : DelayedTask} (h : p.Attended) (hi : p.tasks[i]? = some task) :
    ({ p with tasks := p.tasks.eraseIdx i }.runTask task).reportClosed.Attended := by
  cases task with
  | sendLocalSdp flag =>
    have herase : Attended { p with tasks := p.tasks.eraseIdx i } := h.eraseTask hi (by simp)
    simp only [RtcPeer.runTask]
    split
    · exact ((SameDeadline.sendLocalSdp _).attended herase).reportClosed
    · exact herase.reportClosed
  | connectDeadline flag =>
    simp only [RtcPeer.runTask]
    split
    -- the deadline closes the connection, and that is reported
    case isTrue => exact .inr (.inl (reportClosed_request _))
    case isFalse hrun =>
      refine reportClosed ?_
      by_cases hflag : p.connectDeadlineSafety = some ⟨flag, true⟩
      · -- the deadline has passed, for a peer that is connected
        rcases h with hconn | hexp | ⟨hpc, -⟩
        · exact .inl hconn
        · exact .inr (.inl hexp)
        · refine .inl (eq_true_of_ne_false fun hconn => hrun ⟨hflag, hpc, hconn⟩)
      · refine h.eraseTask hi fun flag' hflag' heq => ?_
        cases heq
        exact hflag hflag'

/-- **An attended peer stays attended.** -/
theorem step {a : PeerEvent} (h : p.Attended) (hstep : RtcPeer.step lib p a = some p') :
    p'.reportClosed.Attended := by
  cases a with
  | setRemoteSdp sdp sdpType =>
    cases hstep
    exact ((SameDeadline.setRemoteSdp lib p sdp sdpType false).attended h).reportClosed
  | terminate =>
    cases hstep
    exact reportClosed (.inr (.inl rfl))
  | task i =>
    rw [RtcPeer.step, Option.map_eq_some_iff] at hstep
    obtain ⟨task, hi, rfl⟩ := hstep
    exact h.runTask hi
  | createOffer =>
    rw [RtcPeer.step, Option.ite_none_right_eq_some, Option.some.injEq] at hstep
    obtain ⟨-, rfl⟩ := hstep
    exact ((SameDeadline.createOffer p).attended h).reportClosed
  | signalingChange newState =>
    rw [RtcPeer.step, Option.ite_none_right_eq_some, Option.some.injEq] at hstep
    obtain ⟨hpc, rfl⟩ := hstep
    exact (h.onSignalingChange hpc newState).reportClosed
  | connectionChange newState =>
    rw [RtcPeer.step, Option.ite_none_right_eq_some, Option.some.injEq] at hstep
    obtain ⟨hpc, rfl⟩ := hstep
    exact (h.onConnectionChange hpc newState).reportClosed
  | renegotiationNeeded =>
    rw [RtcPeer.step, Option.ite_none_right_eq_some, Option.some.injEq] at hstep
    obtain ⟨-, rfl⟩ := hstep
    exact ((SameDeadline.onRenegotiationNeeded p).attended h).reportClosed
  | iceGatheringComplete =>
    rw [RtcPeer.step, Option.ite_none_right_eq_some, Option.some.injEq] at hstep
    obtain ⟨-, rfl⟩ := hstep
    exact ((SameDeadline.onIceGatheringComplete p).attended h).reportClosed
  | finish i ok parsed =>
    rw [RtcPeer.step, Option.ite_none_right_eq_some, Option.map_eq_some_iff] at hstep
    obtain ⟨-, op, -, rfl⟩ := hstep
    have herase : SameDeadline p { p with pending := p.pending.eraseIdx i } :=
      .of_eq rfl rfl rfl rfl rfl
    exact ((herase.trans (SameDeadline.finish lib _ op ok parsed)).attended h).reportClosed

/-- Applying a description keeps the peer attended. -/
theorem applyRemoteSdp (h : p.Attended) (sdp sdpType : String) (applied : Bool) :
    (p.applyRemoteSdp lib sdp sdpType applied).Attended := by
  have hset := SameDeadline.setRemoteSdp lib p sdp sdpType false
  simp only [RtcPeer.applyRemoteSdp]
  split
  case isTrue happ =>
    refine (hset.attended h).onSignalingChange ?_ _
    -- without a connection nothing is requested of it
    refine eq_true_of_ne_false fun hpc => ?_
    rw [hset.peerConnection] at hpc
    have hreq := happ.2
    rw [RtcPeer.setRemoteSdp, if_pos hpc, List.drop_length] at hreq
    cases hreq
  case isFalse => exact hset.attended h

end Attended

/-- The description that attends to a new peer is an offer that is applied. -/
theorem applyRemoteSdp_attended_iff (lib : SdpParser) {hasCandidatesInSdp : Bool}
    (sdp sdpType : String) (applied : Bool) :
    (RtcPeer.applyRemoteSdp lib { backend := .direct, hasCandidatesInSdp := hasCandidatesInSdp }
        sdp sdpType applied).Attended ↔
      sdpType = "offer" ∧ lib.parses .offer sdp = true ∧ applied = true := by
  set p : RtcPeer := { backend := .direct, hasCandidatesInSdp := hasCandidatesInSdp } with hp
  have hset := SameDeadline.setRemoteSdp lib p sdp sdpType false
  have hnew : ¬ (p.setRemoteSdp lib sdp sdpType false).Attended := by
    rintro (h | h | ⟨-, flag, h, -⟩)
    · rw [hset.isConnected] at h
      cases h
    · rw [hset.isExpired] at h
      cases h
    · rw [hset.safety] at h
      cases h
  have hreq : .setRemoteDescription .offer false ∈
      (p.setRemoteSdp lib sdp sdpType false).pending.drop p.pending.length ↔
      sdpType = "offer" ∧ lib.parses .offer sdp = true := by
    rw [RtcPeer.setRemoteSdp, if_neg (by simp [hp])]
    by_cases hoffer : sdpType = "offer"
    · -- a new peer is stable, so the offer is no glare
      rw [if_neg (by simp [hoffer]), (lib.offer_iff sdpType).mpr hoffer]
      by_cases hparse : lib.parses .offer sdp = true
      · simp [hp, hparse, hoffer, RtcPeer.request]
      · rw [Bool.not_eq_true] at hparse
        simp [hp, hparse]
    · rw [if_pos ⟨rfl, hoffer⟩, List.drop_length]
      simp [hoffer]
  simp only [RtcPeer.applyRemoteSdp]
  split
  case isTrue happ =>
    refine iff_of_true (.inr (.inr (onSignalingChange_haveRemoteOffer hset.peerConnection))) ?_
    obtain ⟨h1, h2⟩ := hreq.mp happ.2
    exact ⟨h1, h2, happ.1⟩
  case isFalse happ =>
    refine iff_of_false hnew ?_
    rintro ⟨h1, h2, h3⟩
    exact happ ⟨h3, hreq.mpr ⟨h1, h2⟩⟩

end RtcPeer

end PiWebrtc.Rtc
