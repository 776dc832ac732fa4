import PiWebrtc.Rtc.RtcPeer

namespace PiWebrtc.Rtc

open Transition

/-!
# Deferred renegotiations

A request for a renegotiation that comes at the wrong moment is noted in
`needs_renegotiation_` and resumed when the peer connects and when its signaling state comes
back to stable from have-remote-offer.  Nothing resumes it when the state comes back from
have-local-offer, after the peer's own offer was answered, or when a remote offer for which
the peer rolled its own one back cannot be applied.  `deferred_resumed_iff` shows that these
are the only ways in which a request is lost.
-/

/-- A remote offer that caused a rollback is still being applied. -/
def RtcPeer.applyingGlare (p : RtcPeer) : Bool := p.pending.any PcOp.ofGlare

/-- What is asked for: a peer that is connected, stable and applies no remote offer that
    caused a rollback has nothing deferred, and has asked for an offer since it deferred a
    request. -/
def DeferredResumed (p : RtcPeer) : Prop :=
  p.isConnected = true → p.signalingState = .stable → p.applyingGlare = false →
    p.needsRenegotiation = false ∧ p.negotiations.head? ≠ some .deferred

/-- After a rollback the remote offer is applied, if it can be parsed. -/
def goesOn (lib : SdpParser) : Option PcOp → Bool → Bool
  | some (.rollback sdp _), true => lib.parses .offer sdp
  | _, _ => false

/-- The condition, of a connected peer that has a request deferred: the signaling state
    comes back to stable only from have-remote-offer or while a remote offer that caused a
    rollback is being applied; and none of these offers comes to its end in the stable
    state. -/
def ResumesDeferred (lib : SdpParser) (p : RtcPeer) : PeerEvent → Prop
  | .signalingChange newState =>
    p.isConnected = true ∧ p.needsRenegotiation = true → newState = .stable →
      p.signalingState = .haveRemoteOffer ∨ p.applyingGlare = true
  | .finish i ok _ =>
    p.isConnected = true ∧ p.needsRenegotiation = true → p.signalingState = .stable →
      (p.pending.eraseIdx i).any PcOp.ofGlare = true ∨ goesOn lib p.pending[i]? ok = true
  | _ => True

instance (lib : SdpParser) (p : RtcPeer) : ∀ a, Decidable (ResumesDeferred lib p a)
  | .signalingChange _ => inferInstanceAs (Decidable (_ → _ → _))
  | .finish _ _ _ => inferInstanceAs (Decidable (_ → _ → _))
  | .createOffer | .connectionChange _ | .renegotiationNeeded | .setRemoteSdp _ _
  | .iceGatheringComplete | .task _ | .terminate => isTrue trivial

/-! ### Handlers that leave the requests alone -/

/-- `p'` differs from `p` in nothing that a deferred request depends on. -/
structure Calm (p p' : RtcPeer) : Prop where
  backend : p'.backend = p.backend
  isConnected : p'.isConnected = p.isConnected
  signalingState : p'.signalingState = p.signalingState
  needs : p'.needsRenegotiation = p.needsRenegotiation
  negotiations : p'.negotiations = p.negotiations
  glare : ∀ op, op.ofGlare = true → (op ∈ p'.pending ↔ op ∈ p.pending)

namespace Calm

variable {p p' p'' : RtcPeer}

theorem refl (p : RtcPeer) : Calm p p := ⟨rfl, rfl, rfl, rfl, rfl, fun _ _ => Iff.rfl⟩

theorem trans (h : Calm p p') (h' : Calm p' p'') : Calm p p'' where
  backend := h'.backend.trans h.backend
  isConnected := h'.isConnected.trans h.isConnected
  signalingState := h'.signalingState.trans h.signalingState
  needs := h'.needs.trans h.needs
  negotiations := h'.negotiations.trans h.negotiations
  glare op hop := (h'.glare op hop).trans (h.glare op hop)

theorem applyingGlare (h : Calm p p') : p'.applyingGlare = p.applyingGlare := by
  rw [Bool.eq_iff_iff]
  simp only [RtcPeer.applyingGlare, List.any_eq_true]
  constructor
  · rintro ⟨op, hmem, hop⟩
    exact ⟨op, (h.glare op hop).mp hmem, hop⟩
  · rintro ⟨op, hmem, hop⟩
    exact ⟨op, (h.glare op hop).mpr hmem, hop⟩

theorem request (p : RtcPeer) {op : PcOp} (hop : op.ofGlare = false) : Calm p (p.request op) := by
  refine ⟨rfl, rfl, rfl, rfl, rfl, fun o ho => ?_⟩
  have hne : o ≠ op := by
    rintro rfl
    rw [hop] at ho
    cases ho
  show o ∈ p.pending ++ [op] ↔ o ∈ p.pending
  simp [hne]

theorem sendLocalSdp (p : RtcPeer) : Calm p p.sendLocalSdp := by
  simp only [RtcPeer.sendLocalSdp]
  split <;> exact ⟨rfl, rfl, rfl, rfl, rfl, fun _ _ => Iff.rfl⟩

theorem emitLocalSdp (p : RtcPeer) (delayed : Bool) : Calm p (p.emitLocalSdp delayed) := by
  have hflag : ∀ flag n, Calm p { p with sdpEmitSafety := flag, nextFlag := n } :=
    fun _ _ => ⟨rfl, rfl, rfl, rfl, rfl, fun _ _ => Iff.rfl⟩
  simp only [RtcPeer.emitLocalSdp]
  by_cases hfn : p.onLocalSdp = false
  · rw [if_pos hfn]
    exact refl p
  · rw [if_neg hfn]
    by_cases hdelay : delayed = true
    · rw [if_pos hdelay]
      exact ⟨rfl, rfl, rfl, rfl, rfl, fun _ _ => Iff.rfl⟩
    · rw [if_neg hdelay]
      exact (hflag _ _).trans (sendLocalSdp _)

theorem onSuccess (p : RtcPeer) (type : SdpType) (parsed : Bool) :
    Calm p (p.onSuccess type parsed) := by
  have hdesc : ∀ d, Calm p { p with modifiedDesc := d } :=
    fun _ => ⟨rfl, rfl, rfl, rfl, rfl, fun _ _ => Iff.rfl⟩
  simp only [RtcPeer.onSuccess]
  by_cases hparsed : parsed = false
  · rw [if_pos hparsed]
    exact hdesc none
  · rw [if_neg hparsed]
    exact ((hdesc (some type)).trans (request _ rfl)).trans (emitLocalSdp _ _)

theorem onIceGatheringComplete (p : RtcPeer) : Calm p p.onIceGatheringComplete := by
  simp only [RtcPeer.onIceGatheringComplete]
  split
  · exact sendLocalSdp p
  · exact refl p

theorem runTask (p : RtcPeer) (task : DelayedTask) : Calm p (p.runTask task) := by
  cases task with
  | connectDeadline flag =>
    simp only [RtcPeer.runTask]
    split
    · exact request p rfl
    · exact refl p
  | sendLocalSdp flag =>
    simp only [RtcPeer.runTask]
    split
    · exact sendLocalSdp p
    · exact refl p

end Calm

/-- What a deferred request does not depend on does not matter. -/
theorem DeferredResumed.calm {p p' : RtcPeer} (h : DeferredResumed p) (hcalm : Calm p p') :
    DeferredResumed p' := by
  intro hconn hstable hglare
  rw [hcalm.isConnected] at hconn
  rw [hcalm.signalingState] at hstable
  rw [hcalm.applyingGlare] at hglare
  rw [hcalm.needs, hcalm.negotiations]
  exact h hconn hstable hglare

/-! ### The invariant -/

/-- **The invariant.** A request is noted in the flag until the peer asks for an offer, and
    what waits for a rollback is an offer. -/
structure DeferralInv (p : RtcPeer) : Prop where
  direct : p.backend = .direct
  noted : p.needsRenegotiation = false → p.negotiations.head? ≠ some .deferred
  offers : ∀ sdp sdpType, .rollback sdp sdpType ∈ p.pending → sdpType = "offer"

/-- Under the invariant the flag says it all. -/
theorem deferredResumed_iff {p : RtcPeer} (h : DeferralInv p) :
    DeferredResumed p ↔ (p.isConnected = true ∧ p.needsRenegotiation = true →
      p.signalingState = .stable → p.applyingGlare = true) := by
  constructor
  · rintro hres ⟨hconn, hneeds⟩ hstable
    by_contra hglare
    rw [Bool.not_eq_true] at hglare
    rw [(hres hconn hstable hglare).1] at hneeds
    cases hneeds
  · intro himp hconn hstable hglare
    have hneeds : p.needsRenegotiation = false := by
      refine Bool.eq_false_iff.mpr fun hneeds => ?_
      rw [himp ⟨hconn, hneeds⟩ hstable] at hglare
      cases hglare
    exact ⟨hneeds, h.noted hneeds⟩

namespace DeferralInv

variable {p p' : RtcPeer}

theorem calm (h : DeferralInv p) (hcalm : Calm p p') : DeferralInv p' where
  direct := hcalm.backend.trans h.direct
  noted hneeds := by
    rw [hcalm.needs] at hneeds
    rw [hcalm.negotiations]
    exact h.noted hneeds
  offers sdp sdpType hmem := h.offers sdp sdpType ((hcalm.glare _ rfl).mp hmem)

theorem canRenegotiate (h : DeferralInv p) : p.canRenegotiate = true := by
  rw [RtcPeer.canRenegotiate, h.direct]
  rfl

theorem createOffer (h : DeferralInv p) : DeferralInv p.createOffer := by
  simp only [RtcPeer.createOffer]
  split
  · exact h
  · refine ⟨h.direct, fun _ => by simp, fun sdp sdpType hmem => h.offers sdp sdpType ?_⟩
    have hmem' : PcOp.rollback sdp sdpType ∈ p.pending ++ [.createOffer] := hmem
    simpa using hmem'

theorem defer (h : DeferralInv p) : DeferralInv p.defer :=
  ⟨h.direct, nofun, h.offers⟩

/-- The flag is cleared where an offer is asked for. -/
theorem resume (hdirect : p.backend = .direct)
    (hoffers : ∀ sdp sdpType, .rollback sdp sdpType ∈ p.pending → sdpType = "offer")
    (hstable : p.signalingState = .stable) : DeferralInv p.resume := by
  -- in the stable state `CreateOffer` does not turn back
  simp only [RtcPeer.resume, RtcPeer.createOffer, hstable]
  refine ⟨hdirect, fun _ => by simp, fun sdp sdpType hmem => hoffers sdp sdpType ?_⟩
  have hmem' : PcOp.rollback sdp sdpType ∈ p.pending ++ [.createOffer] := hmem
  simpa using hmem'

end DeferralInv

/-- A peer that has just asked for an offer has nothing deferred. -/
theorem deferredResumed_resume {p : RtcPeer} (hstable : p.signalingState = .stable) :
    DeferredResumed p.resume := by
  simp only [RtcPeer.resume, RtcPeer.createOffer, hstable]
  exact fun _ _ _ => ⟨rfl, by simp⟩

/-! ### The handlers -/

section Handlers

variable {lib : SdpParser} {p p' : RtcPeer}

/-- What `SetRemoteSdp` does: nothing, a rollback of the peer's own offer, or the application
    of the description. -/
theorem setRemoteSdp_cases (lib : SdpParser) (p : RtcPeer) (sdp sdpType : String)
    (glare : Bool) :
    p.setRemoteSdp lib sdp sdpType glare = p ∨
      (sdpType = "offer" ∧ p.signalingState = .haveLocalOffer ∧
        p.setRemoteSdp lib sdp sdpType glare =
          (if p.canRenegotiate = true then p.defer else p).request (.rollback sdp sdpType)) ∨
      ∃ q, Calm (p.request (.setRemoteDescription q glare))
        (p.setRemoteSdp lib sdp sdpType glare) := by
  simp only [RtcPeer.setRemoteSdp]
  split
  · exact .inl rfl
  split
  · exact .inl rfl
  split
  · exact .inl rfl
  case h_2 type htype =>
    by_cases hglare : type = .offer ∧ p.signalingState = .haveLocalOffer
    · rw [if_pos hglare]
      obtain ⟨rfl, hlocal⟩ := hglare
      exact .inr (.inl ⟨(lib.offer_iff sdpType).mp htype, hlocal, rfl⟩)
    · rw [if_neg hglare]
      split
      · exact .inl rfl
      refine .inr (.inr ⟨type, ?_⟩)
      split
      · exact Calm.request _ rfl
      · exact Calm.refl _

theorem setRemoteSdp_signalingState (lib : SdpParser) (p : RtcPeer) (sdp sdpType : String)
    (glare : Bool) : (p.setRemoteSdp lib sdp sdpType glare).signalingState = p.signalingState := by
  rcases setRemoteSdp_cases lib p sdp sdpType glare with heq | ⟨-, -, heq⟩ | ⟨type, hcalm⟩
  · rw [heq]
  · rw [heq]
    show (if p.canRenegotiate = true then p.defer else p).signalingState = p.signalingState
    split <;> rfl
  · exact hcalm.signalingState

/-- The offer that waited for a rollback, in the stable state. -/
theorem setRemoteSdp_afterRollback (lib : SdpParser) (hpc : p.peerConnection = true)
    (hstable : p.signalingState = .stable) (sdp : String) :
    p.setRemoteSdp lib sdp "offer" true =
      if lib.parses .offer sdp = false then p
      else (p.request (.setRemoteDescription .offer true)).request .createAnswer := by
  simp [RtcPeer.setRemoteSdp, hpc, hstable, (lib.offer_iff "offer").mpr rfl]

namespace DeferralInv

theorem setRemoteSdp (h : DeferralInv p) (sdp sdpType : String) (glare : Bool) :
    DeferralInv (p.setRemoteSdp lib sdp sdpType glare) := by
  rcases setRemoteSdp_cases lib p sdp sdpType glare with heq | ⟨hoffer, -, heq⟩ | ⟨type, hcalm⟩
  · rw [heq]
    exact h
  · rw [heq, if_pos h.canRenegotiate]
    refine ⟨h.direct, nofun, fun sdp' sdpType' hmem => ?_⟩
    rcases List.mem_append.mp hmem with hmem | hmem
    · exact h.offers sdp' sdpType' hmem
    · cases List.mem_singleton.mp hmem
      exact hoffer
  · have hrequest : DeferralInv (p.request (.setRemoteDescription type glare)) := by
      refine ⟨h.direct, h.noted, fun sdp' sdpType' hmem => ?_⟩
      rcases List.mem_append.mp hmem with hmem | hmem
      · exact h.offers sdp' sdpType' hmem
      · cases List.mem_singleton.mp hmem
    exact hrequest.calm hcalm

theorem onSignalingChange (h : DeferralInv p) (newState : SignalingState) :
    DeferralInv (p.onSignalingChange newState) := by
  simp only [RtcPeer.onSignalingChange]
  split
  · exact ⟨h.direct, h.noted, h.offers⟩
  split
  case isTrue hres => exact resume h.direct h.offers hres.1
  split <;> exact ⟨h.direct, h.noted, h.offers⟩

theorem onConnectionChange (h : DeferralInv p) (newState : PeerConnectionState) :
    DeferralInv (p.onConnectionChange newState) := by
  have hreport : DeferralInv (p.connectionChange newState) := by
    cases newState with
    | connected =>
      simp only [RtcPeer.connectionChange]
      split
      case isTrue hres => exact resume h.direct h.offers hres.2
      case isFalse => exact ⟨h.direct, h.noted, h.offers⟩
    | failed | closed | new | connecting | disconnected => exact ⟨h.direct, h.noted, h.offers⟩
  simp only [RtcPeer.onConnectionChange]
  split
  · exact ⟨hreport.direct, hreport.noted, hreport.offers⟩
  · exact hreport

theorem onRenegotiationNeeded (h : DeferralInv p) : DeferralInv p.onRenegotiationNeeded := by
  simp only [RtcPeer.onRenegotiationNeeded]
  split
  · exact h
  split
  case isTrue hres => exact resume h.direct h.offers hres.2
  case isFalse => exact h.defer

theorem finish (lib : SdpParser) (h : DeferralInv p) {i : ℕ} {op : PcOp}
    (hop : p.pending[i]? = some op) (ok parsed : Bool) :
    DeferralInv ({ p with pending := p.pending.eraseIdx i }.finish lib op ok parsed) := by
  have herase : DeferralInv { p with pending := p.pending.eraseIdx i } :=
    ⟨h.direct, h.noted, fun sdp sdpType hmem =>
      h.offers sdp sdpType (List.mem_of_mem_eraseIdx hmem)⟩
  simp only [RtcPeer.finish]
  split
  · exact herase.calm (Calm.onSuccess _ _ _)
  · exact herase.calm (Calm.onSuccess _ _ _)
  · exact herase.setRemoteSdp _ _ _
  · exact herase

/-- Every event keeps the invariant. -/
theorem step (h : DeferralInv p) {a : PeerEvent} (hstep : RtcPeer.step lib p a = some p') :
    DeferralInv p' := by
  cases a with
  | setRemoteSdp sdp sdpType =>
    cases hstep
    exact h.setRemoteSdp sdp sdpType false
  | terminate =>
    cases hstep
    exact ⟨h.direct, h.noted, h.offers⟩
  | task i =>
    obtain ⟨task, -, rfl⟩ := Option.map_eq_some_iff.mp hstep
    have hrest : DeferralInv { p with tasks := p.tasks.eraseIdx i } :=
      ⟨h.direct, h.noted, h.offers⟩
    exact hrest.calm (Calm.runTask _ task)
  | createOffer =>
    obtain ⟨-, ⟨⟩⟩ := Option.ite_none_right_eq_some.mp hstep
    exact h.createOffer
  | signalingChange newState =>
    obtain ⟨-, ⟨⟩⟩ := Option.ite_none_right_eq_some.mp hstep
    exact h.onSignalingChange newState
  | connectionChange newState =>
    obtain ⟨-, ⟨⟩⟩ := Option.ite_none_right_eq_some.mp hstep
    exact h.onConnectionChange newState
  | renegotiationNeeded =>
    obtain ⟨-, ⟨⟩⟩ := Option.ite_none_right_eq_some.mp hstep
    exact h.onRenegotiationNeeded
  | iceGatheringComplete =>
    obtain ⟨-, ⟨⟩⟩ := Option.ite_none_right_eq_some.mp hstep
    exact h.calm (Calm.onIceGatheringComplete p)
  | finish i ok parsed =>
    obtain ⟨-, hmap⟩ := Option.ite_none_right_eq_some.mp hstep
    obtain ⟨op, hop, rfl⟩ := Option.map_eq_some_iff.mp hmap
    exact h.finish lib hop ok parsed

end DeferralInv

/-- A peer that is not stable is not asked for anything. -/
theorem deferredResumed_of_not_stable (h : p.signalingState ≠ .stable) : DeferredResumed p :=
  fun _ hstable => absurd hstable h

/-- A change to stable resumes what is deferred, except when it comes from another state than
    have-remote-offer and no offer that caused a rollback is being applied. -/
theorem deferredResumed_stable_iff (h : DeferralInv p) :
    DeferredResumed (p.onSignalingChange .stable) ↔
      (p.isConnected = true ∧ p.needsRenegotiation = true →
        p.signalingState = .haveRemoteOffer ∨ p.applyingGlare = true) := by
  -- what is deferred is resumed here or by the offer that is being applied
  have hinv := h.onSignalingChange .stable
  by_cases hres : p.signalingState = .haveRemoteOffer ∧ p.isConnected = true ∧
      p.needsRenegotiation = true
  · -- this change resumes the request
    refine ⟨fun _ _ => .inl hres.1, fun _ => ?_⟩
    have heq : p.onSignalingChange .stable = (p.noteSignalingState .stable).resume := by
      simp only [RtcPeer.onSignalingChange]
      rw [if_neg (by simp), if_pos ⟨trivial, hres.1, hres.2.1, hres.2.2, h.canRenegotiate⟩]
    rw [heq]
    exact deferredResumed_resume rfl
  · -- nothing is resumed, so the request has to wait for an offer that is being applied
    have hsame : (p.onSignalingChange .stable).isConnected = p.isConnected ∧
        (p.onSignalingChange .stable).needsRenegotiation = p.needsRenegotiation ∧
        (p.onSignalingChange .stable).signalingState = .stable ∧
        (p.onSignalingChange .stable).applyingGlare = p.applyingGlare := by
      simp only [RtcPeer.onSignalingChange]
      rw [if_neg (by simp), if_neg fun hall => hres ⟨hall.2.1, hall.2.2.1, hall.2.2.2.1⟩]
      split <;> exact ⟨rfl, rfl, rfl, rfl⟩
    obtain ⟨hconn, hneeds, hstable, hglare⟩ := hsame
    rw [deferredResumed_iff hinv, hconn, hneeds, hstable, hglare]
    constructor
    · intro himp hboth
      exact .inr (himp hboth rfl)
    · intro himp hboth _
      exact (himp hboth).resolve_left fun hremote => hres ⟨hremote, hboth⟩

/-- A change of the connection state resumes what is deferred. -/
theorem DeferredResumed.onConnectionChange (h : DeferralInv p) (hP : DeferredResumed p)
    (newState : PeerConnectionState) : DeferredResumed (p.onConnectionChange newState) := by
  have hreport : DeferredResumed (p.connectionChange newState) := by
    cases newState with
    | connected =>
      simp only [RtcPeer.connectionChange]
      split
      case isTrue hres => exact deferredResumed_resume hres.2
      case isFalse hres =>
        intro _ hstable _
        -- it is stable, so nothing was deferred
        have hneeds : p.needsRenegotiation = false :=
          Bool.eq_false_iff.mpr fun hneeds => hres ⟨hneeds, hstable⟩
        exact ⟨hneeds, h.noted hneeds⟩
    | failed | closed => exact nofun
    | new | connecting | disconnected => exact hP
  simp only [RtcPeer.onConnectionChange]
  split
  · exact hreport
  · exact hreport

/-- A request that comes in is resumed at once, or the peer is not connected and stable. -/
theorem DeferredResumed.onRenegotiationNeeded (hP : DeferredResumed p) :
    DeferredResumed p.onRenegotiationNeeded := by
  simp only [RtcPeer.onRenegotiationNeeded]
  split
  · exact hP
  split
  case isTrue hres => exact deferredResumed_resume hres.2
  case isFalse hres =>
    intro hconn hstable _
    exact absurd ⟨hconn, hstable⟩ hres

/-- An offer that somebody else asks for changes nothing. -/
theorem DeferredResumed.createOffer (h : DeferralInv p) (hP : DeferredResumed p) :
    DeferredResumed p.createOffer := by
  rw [deferredResumed_iff h] at hP
  rw [deferredResumed_iff h.createOffer]
  simp only [RtcPeer.createOffer]
  split
  · exact hP
  · intro hboth hstable
    have hglare := (Calm.request p (rfl : PcOp.createOffer.ofGlare = false)).applyingGlare
    exact hglare.trans (hP hboth hstable)

/-- A remote description that comes in does no harm. -/
theorem DeferredResumed.setRemoteSdp (hP : DeferredResumed p) (sdp sdpType : String) :
    DeferredResumed (p.setRemoteSdp lib sdp sdpType false) := by
  rcases setRemoteSdp_cases lib p sdp sdpType false with heq | ⟨-, hlocal, -⟩ | ⟨type, hcalm⟩
  · rw [heq]
    exact hP
  · -- glare: the peer has its own offer outstanding
    apply deferredResumed_of_not_stable
    rw [setRemoteSdp_signalingState, hlocal]
    exact nofun
  · exact hP.calm ((Calm.request p rfl).trans hcalm)

/-- **The end of an operation** is harmless in the stable state exactly if a remote offer
    that caused a rollback is being applied afterwards, or nothing is deferred. -/
theorem deferredResumed_finish_iff (h : DeferralInv p) (hpc : p.peerConnection = true)
    {i : ℕ} {op : PcOp} (hop : p.pending[i]? = some op) (ok parsed : Bool) :
    DeferredResumed ({ p with pending := p.pending.eraseIdx i }.finish lib op ok parsed) ↔
      (p.isConnected = true ∧ p.needsRenegotiation = true → p.signalingState = .stable →
        (p.pending.eraseIdx i).any PcOp.ofGlare = true ∨
          goesOn lib p.pending[i]? ok = true) := by
  have hinv := h.finish lib hop ok parsed
  rw [hop]
  generalize hq : ({ p with pending := p.pending.eraseIdx i } : RtcPeer) = q at hinv ⊢
  have hconn : q.isConnected = p.isConnected := by rw [← hq]
  have hneeds : q.needsRenegotiation = p.needsRenegotiation := by rw [← hq]
  have hstate : q.signalingState = p.signalingState := by rw [← hq]
  have hglare : q.applyingGlare = (p.pending.eraseIdx i).any PcOp.ofGlare := by rw [← hq]; rfl
  rw [← hconn, ← hneeds, ← hstate, ← hglare]
  -- all but the end of a rollback leave the requests alone
  have hcalm : Calm q (q.finish lib op ok parsed) → goesOn lib (some op) ok = false →
      (DeferredResumed (q.finish lib op ok parsed) ↔
        (q.isConnected = true ∧ q.needsRenegotiation = true → q.signalingState = .stable →
          q.applyingGlare = true ∨ goesOn lib (some op) ok = true)) := by
    intro hcalm hno
    rw [deferredResumed_iff hinv, hcalm.isConnected, hcalm.needs, hcalm.signalingState,
      hcalm.applyingGlare, hno]
    simp
  cases ok with
  | false => cases op <;> exact hcalm (Calm.refl q) rfl
  | true =>
    cases op with
    | createOffer => exact hcalm (Calm.onSuccess q .offer parsed) rfl
    | createAnswer => exact hcalm (Calm.onSuccess q .answer parsed) rfl
    | setLocalDescription type => exact hcalm (Calm.refl q) rfl
    | setRemoteDescription type glare => exact hcalm (Calm.refl q) rfl
    | close => exact hcalm (Calm.refl q) rfl
    | rollback sdp sdpType =>
      -- only a remote offer makes the peer roll back its own
      obtain rfl : sdpType = "offer" := h.offers sdp sdpType (List.mem_of_getElem? hop)
      show DeferredResumed (q.setRemoteSdp lib sdp "offer" true) ↔ _
      by_cases hstable : q.signalingState = .stable
      · have hset := setRemoteSdp_afterRollback lib (hq ▸ hpc) hstable sdp
        -- an offer that cannot be parsed gets no further
        by_cases hparse : lib.parses .offer sdp = false
        · rw [hset, if_pos hparse]
          have hq' : Calm q (q.finish lib (.rollback sdp "offer") true parsed) := by
            show Calm q (q.setRemoteSdp lib sdp "offer" true)
            rw [hset, if_pos hparse]
            exact Calm.refl q
          have hiff := hcalm hq' hparse
          rw [show q.finish lib (.rollback sdp "offer") true parsed =
            q.setRemoteSdp lib sdp "offer" true from rfl, hset, if_pos hparse] at hiff
          exact hiff
        · -- the offer is being applied from here on
          rw [Bool.not_eq_false] at hparse
          refine ⟨fun _ _ _ => .inr hparse, fun _ _ _ hnone => ?_⟩
          rw [hset, if_neg (by rw [hparse]; simp)] at hnone
          have hmem : PcOp.setRemoteDescription .offer true ∈
              (q.pending ++ [.setRemoteDescription .offer true]) ++ [.createAnswer] := by simp
          rw [RtcPeer.applyingGlare, List.any_eq_false] at hnone
          exact absurd rfl (hnone _ hmem)
      · -- the peer is not stable, before and after
        refine ⟨fun _ _ h => absurd h hstable, fun _ => deferredResumed_of_not_stable ?_⟩
        rw [setRemoteSdp_signalingState]
        exact hstable

/-- **One step.** From a peer that has resumed what it deferred, an event leads to another
    one exactly if it meets the condition. -/
theorem deferredResumed_step_iff {a : PeerEvent} (h : DeferralInv p) (hP : DeferredResumed p)
    (hstep : RtcPeer.step lib p a = some p') : DeferredResumed p' ↔ ResumesDeferred lib p a := by
  cases a with
  | signalingChange newState =>
    obtain ⟨-, ⟨⟩⟩ := Option.ite_none_right_eq_some.mp hstep
    by_cases hstable : newState = .stable
    · subst hstable
      rw [deferredResumed_stable_iff h]
      exact ⟨fun himp hboth _ => himp hboth, fun himp hboth => himp hboth rfl⟩
    · refine ⟨fun _ _ heq => absurd heq hstable, fun _ => deferredResumed_of_not_stable ?_⟩
      have hstate : (p.onSignalingChange newState).signalingState = newState := by
        simp only [RtcPeer.onSignalingChange]
        split
        · rfl
        · rw [if_neg fun hall => hstable hall.1, if_neg fun hall => hstable hall.1]
          rfl
      rw [hstate]
      exact hstable
  | finish i ok parsed =>
    obtain ⟨hpc, hmap⟩ := Option.ite_none_right_eq_some.mp hstep
    obtain ⟨op, hop, rfl⟩ := Option.map_eq_some_iff.mp hmap
    exact deferredResumed_finish_iff h hpc hop ok parsed
  | setRemoteSdp sdp sdpType =>
    cases hstep
    exact iff_of_true (hP.setRemoteSdp sdp sdpType) trivial
  | terminate =>
    cases hstep
    exact iff_of_true nofun trivial
  | task i =>
    obtain ⟨task, -, rfl⟩ := Option.map_eq_some_iff.mp hstep
    have hrest : DeferredResumed { p with tasks := p.tasks.eraseIdx i } := hP
    exact iff_of_true (hrest.calm (Calm.runTask _ task)) trivial
  | createOffer =>
    obtain ⟨-, ⟨⟩⟩ := Option.ite_none_right_eq_some.mp hstep
    exact iff_of_true (hP.createOffer h) trivial
  | connectionChange newState =>
    obtain ⟨-, ⟨⟩⟩ := Option.ite_none_right_eq_some.mp hstep
    exact iff_of_true (hP.onConnectionChange h newState) trivial
  | renegotiationNeeded =>
    obtain ⟨-, ⟨⟩⟩ := Option.ite_none_right_eq_some.mp hstep
    exact iff_of_true hP.onRenegotiationNeeded trivial
  | iceGatheringComplete =>
    obtain ⟨-, ⟨⟩⟩ := Option.ite_none_right_eq_some.mp hstep
    exact iff_of_true (hP.calm (Calm.onIceGatheringComplete p)) trivial

end Handlers

/-- A new peer has deferred nothing. -/
theorem deferralInv_init (lib : SdpParser) (hasCandidatesInSdp : Bool) :
    DeferralInv (peerMachine lib .direct hasCandidatesInSdp).init :=
  ⟨rfl, nofun, nofun⟩

/-- **Deferred renegotiations.** In every run of a peer that negotiates directly, every
    state has resumed what was deferred exactly if all steps meet the condition. -/
theorem deferred_resumed_iff (lib : SdpParser) (hasCandidatesInSdp : Bool)
    (as : List PeerEvent) (p : RtcPeer)
    (hrun : (peerMachine lib .direct hasCandidatesInSdp).run as = some p) :
    (peerMachine lib .direct hasCandidatesInSdp).Always DeferredResumed
        (peerMachine lib .direct hasCandidatesInSdp).init as ↔
      (peerMachine lib .direct hasCandidatesInSdp).Guarded (ResumesDeferred lib)
        (peerMachine lib .direct hasCandidatesInSdp).init as := by
  refine Machine.always_iff_guarded (I := DeferralInv) ?_ ?_
    (deferralInv_init lib hasCandidatesInSdp) nofun hrun
  · intro p a p' h _ hstep _
    exact h.step hstep
  · intro p a p' h hP hstep
    exact deferredResumed_step_iff h hP hstep

/-- A library that parses every text but the empty one. -/
def plainParser : SdpParser where
  sdpTypeFromString s :=
    if s = "offer" then some .offer
    else if s = "pranswer" then some .prAnswer
    else if s = "answer" then some .answer
    else if s = "rollback" then some .rollback
    else none
  parses _ sdp := sdp ≠ ""
  offer_iff s := by
    by_cases h : s = "offer"
    · simp [h]
    · rw [if_neg h]
      refine iff_of_false ?_ h
      split
      · simp
      split
      · simp
      split <;> simp

/-- A remote offer is answered, and the peer connects. -/
def firstNegotiation : List PeerEvent :=
  [.setRemoteSdp "v=0" "offer", .signalingChange .haveRemoteOffer, .finish 0 true true,
   .finish 0 true true, .signalingChange .stable, .finish 0 true true,
   .connectionChange .connected]

/-- The peer offers, because of a request. -/
def ownOffer : List PeerEvent :=
  [.renegotiationNeeded, .finish 0 true true, .signalingChange .haveLocalOffer,
   .finish 0 true true]

/-- The peer rolls its own offer back, answers the remote one, and offers again. -/
def glareResumed : List PeerEvent :=
  firstNegotiation ++ ownOffer ++
    [.setRemoteSdp "v=0" "offer", .signalingChange .stable, .finish 0 true true,
     .signalingChange .haveRemoteOffer, .finish 0 true true, .finish 0 true true,
     .signalingChange .stable]

theorem deferred_resumed_iff_glareResumed :
    ∃ p, (peerMachine plainParser .direct false).run glareResumed = some p ∧
      p.negotiations = [.offered, .deferred, .offered, .deferred] ∧
      (peerMachine plainParser .direct false).Always DeferredResumed
        (peerMachine plainParser .direct false).init glareResumed := by
  exact ⟨_, rfl, rfl, (deferred_resumed_iff plainParser false glareResumed _ rfl).mpr (by decide)⟩

/-- A second request comes in while the peer's offer is outstanding, and the offer is
    answered. -/
def answeredOffer : List PeerEvent :=
  firstNegotiation ++ ownOffer ++
    [.renegotiationNeeded, .setRemoteSdp "v=0" "answer", .signalingChange .stable,
     .finish 0 true true]

/-- The second request is still deferred. -/
theorem not_deferredResumed_answeredOffer :
    ∃ p, (peerMachine plainParser .direct false).run answeredOffer = some p ∧
      p.pending = [] ∧ ¬ DeferredResumed p := by
  refine ⟨_, rfl, rfl, fun h => ?_⟩
  exact absurd (h rfl rfl rfl).1 nofun

end PiWebrtc.Rtc
