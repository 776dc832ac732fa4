import PiWebrtc.Lib.Machine

namespace PiWebrtc.Rtc

open Transition

/-!
# The peer

`RtcPeer` drives one peer connection: it creates offers and answers, applies the remote
descriptions, and reacts to what the connection reports.  The model runs its handlers one
after another.

The peer connection itself is not part of the source.  It may report any signaling or
connection state at any time, and it may finish the operations that the peer requested in
any order, with success or failure; it reports nothing once the peer has let it go.
-/

/-- `SignalingBackend`. -/
inductive SignalingBackend where
  | direct
  | whep
  | liveKit
  | cloudflare
  deriving DecidableEq, Repr

/-- `PeerConnectionInterface::SignalingState`. -/
inductive SignalingState where
  | stable
  | haveLocalOffer
  | haveLocalPrAnswer
  | haveRemoteOffer
  | haveRemotePrAnswer
  | closed
  deriving DecidableEq, Repr

/-- `PeerConnectionInterface::PeerConnectionState`. -/
inductive PeerConnectionState where
  | new
  | connecting
  | connected
  | disconnected
  | failed
  | closed
  deriving DecidableEq, Repr

/-- `webrtc::SdpType`. -/
inductive SdpType where
  | offer
  | prAnswer
  | answer
  | rollback
  deriving DecidableEq, Repr

/-- What the library does with descriptions: `SdpTypeFromString`, for which only `"offer"` is
    an offer, and whether `CreateSessionDescription` can parse a text. -/
structure SdpParser where
  sdpTypeFromString : String → Option SdpType
  parses : SdpType → String → Bool
  offer_iff : ∀ s, sdpTypeFromString s = some .offer ↔ s = "offer"

/-- An operation of the peer connection that the peer has requested.  `glare` tells of a
    remote description whether it is an offer that caused a rollback. -/
inductive PcOp where
  | createOffer
  | createAnswer
  | setLocalDescription (type : SdpType)
  /-- `SetLocalDescription` of a rollback; when it is done the offer `sdp` is applied. -/
  | rollback (sdp sdpType : String)
  | setRemoteDescription (type : SdpType) (glare : Bool)
  | close
  deriving DecidableEq, Repr

/-- An operation that belongs to a remote offer that caused a rollback. -/
def PcOp.ofGlare : PcOp → Bool
  | .rollback _ _ => true
  | .setRemoteDescription _ glare => glare
  | _ => false

/-- A `PendingTaskSafetyFlag`. -/
structure SafetyFlag where
  id : ℕ
  alive : Bool
  deriving DecidableEq, Repr

/-- A delayed task, with the number of its safety flag. -/
inductive DelayedTask where
  | connectDeadline (flag : ℕ)
  | sendLocalSdp (flag : ℕ)
  deriving DecidableEq, Repr

/-- What becomes of requests for a renegotiation. -/
inductive Negotiation where
  /-- A request was noted in `needs_renegotiation_`. -/
  | deferred
  /-- The peer connection was asked for an offer. -/
  | offered
  deriving DecidableEq, Repr

/-- The members of `RtcPeer`, the operations the peer connection has not finished yet, the
    tasks posted, and history: the descriptions emitted, the connection states reported, and
    what became of the requests for a renegotiation, the last one first. -/
structure RtcPeer where
  backend : SignalingBackend
  hasCandidatesInSdp : Bool
  peerConnection : Bool := true
  needsRenegotiation : Bool := false
  isConnected : Bool := false
  isExpired : Bool := false
  isTerminating : Bool := false
  isNegotiating : Bool := false
  signalingState : SignalingState := .stable
  onLocalSdp : Bool := true
  onLocalIce : Bool := true
  onConnectionState : Bool := true
  connectDeadlineSafety : Option SafetyFlag := none
  sdpEmitSafety : Option SafetyFlag := none
  nextFlag : ℕ := 0
  modifiedDesc : Option SdpType := none
  pending : List PcOp := []
  tasks : List DelayedTask := []
  emitted : List (Option SdpType) := []
  reported : List PeerConnectionState := []
  negotiations : List Negotiation := []

namespace RtcPeer

/-- `can_renegotiate`. -/
def canRenegotiate (p : RtcPeer) : Bool := p.backend = .direct

/-- Ask the peer connection for an operation. -/
def request (p : RtcPeer) (op : PcOp) : RtcPeer := { p with pending := p.pending ++ [op] }

/-- `CreateOffer`. -/
def createOffer (p : RtcPeer) : RtcPeer :=
  -- a local offer is already pending
  if p.signalingState = .haveLocalOffer then p
  else { p.request .createOffer with negotiations := .offered :: p.negotiations }

/-- `needs_renegotiation_ = true`. -/
def defer (p : RtcPeer) : RtcPeer :=
  { p with needsRenegotiation := true, negotiations := .deferred :: p.negotiations }

/-- `needs_renegotiation_ = false`, and `CreateOffer`. -/
def resume (p : RtcPeer) : RtcPeer := { p with needsRenegotiation := false }.createOffer

/-- `RenewSafetyFlag(connect_deadline_safety_)`: the old flag is dead. -/
def renewConnectDeadline (p : RtcPeer) : RtcPeer :=
  { p with connectDeadlineSafety := some ⟨p.nextFlag, true⟩, nextFlag := p.nextFlag + 1 }

/-- `ArmConnectDeadline`. -/
def armConnectDeadline (p : RtcPeer) : RtcPeer :=
  { p.renewConnectDeadline with tasks := p.tasks ++ [.connectDeadline p.nextFlag] }

/-- `MarkExpired`; the listener's task is not modelled. -/
def markExpired (p : RtcPeer) : RtcPeer := { p with isExpired := true }

/-- `OnSignalingChange`, its first lines: the new state is noted. -/
def noteSignalingState (p : RtcPeer) (newState : SignalingState) : RtcPeer :=
  { p with
    signalingState := newState
    isNegotiating := newState = .haveLocalOffer || newState = .haveRemoteOffer }

/-- `OnSignalingChange`; the signaling state of `p` is the previous one. -/
def onSignalingChange (p : RtcPeer) (newState : SignalingState) : RtcPeer :=
  if newState = .haveRemoteOffer then (p.noteSignalingState newState).armConnectDeadline
  else if newState = .stable ∧ p.signalingState = .haveRemoteOffer ∧ p.isConnected = true ∧
      p.needsRenegotiation = true ∧ p.canRenegotiate = true then
    -- the remote offer is answered: what was deferred meanwhile is resumed
    (p.noteSignalingState newState).resume
  else if newState = .stable ∧ p.isConnected = true ∧ p.needsRenegotiation = false ∧
      p.canRenegotiate = true ∧ p.hasCandidatesInSdp = true then
    { p.noteSignalingState newState with onLocalIce := false, onLocalSdp := false }
  else p.noteSignalingState newState

/-- `OnConnectionChange`, up to the report to the listener. -/
def connectionChange (p : RtcPeer) : PeerConnectionState → RtcPeer
  | .connected =>
    -- the pending connect deadline is cancelled
    let p := { p with isConnected := true }.renewConnectDeadline
    if p.needsRenegotiation = true ∧ p.signalingState = .stable then p.resume else p
  | .failed => { p with isConnected := false }.armConnectDeadline
  | .closed => { p with isConnected := false }.markExpired
  | _ => p

/-- `OnConnectionChange`. -/
def onConnectionChange (p : RtcPeer) (newState : PeerConnectionState) : RtcPeer :=
  let p := p.connectionChange newState
  if p.isTerminating = false ∧ p.onConnectionState = true then
    { p with reported := p.reported ++ [newState] }
  else p

/-- `OnRenegotiationNeeded`. -/
def onRenegotiationNeeded (p : RtcPeer) : RtcPeer :=
  if p.canRenegotiate = false then p
  else if p.isConnected = true ∧ p.signalingState = .stable then p.defer.resume
  else p.defer

/-- `SetRemoteSdp`.  `glare` tells whether the offer caused a rollback before.  The
    directions of the transceivers of an SFU subscriber are not modelled. -/
def setRemoteSdp (lib : SdpParser) (p : RtcPeer) (sdp sdpType : String) (glare : Bool) :
    RtcPeer :=
  if p.peerConnection = false then p
  -- an answer that nobody waits for
  else if p.isNegotiating = false ∧ sdpType ≠ "offer" then p
  else
    match lib.sdpTypeFromString sdpType with
    | none => p
    | some type =>
      if type = .offer ∧ p.signalingState = .haveLocalOffer then
        -- glare: the own offer is rolled back, and the remote one applied after that
        (if p.canRenegotiate = true then p.defer else p).request (.rollback sdp sdpType)
      else if lib.parses type sdp = false then p
      else
        let p := p.request (.setRemoteDescription type glare)
        if type = .offer then p.request .createAnswer else p

/-- `sdp_emit_safety_->SetNotAlive()`. -/
def killSdpEmit (p : RtcPeer) : RtcPeer :=
  { p with sdpEmitSafety := p.sdpEmitSafety.map fun flag => { flag with alive := false } }

/-- `SendLocalSdp`. -/
def sendLocalSdp (p : RtcPeer) : RtcPeer :=
  if p.isTerminating = true ∨ p.onLocalSdp = false then p.killSdpEmit
  else { p.killSdpEmit with emitted := p.emitted ++ [p.modifiedDesc] }

/-- `EmitLocalSdp`. -/
def emitLocalSdp (p : RtcPeer) (delayed : Bool) : RtcPeer :=
  if p.onLocalSdp = false then p
  else
    let flag := p.nextFlag
    let p := { p with sdpEmitSafety := some ⟨flag, true⟩, nextFlag := flag + 1 }
    if delayed = true then { p with tasks := p.tasks ++ [.sendLocalSdp flag] } else p.sendLocalSdp

/-- `OnSuccess`: a local description was created; `parsed` tells whether it could be parsed
    again. -/
def onSuccess (p : RtcPeer) (type : SdpType) (parsed : Bool) : RtcPeer :=
  if parsed = false then { p with modifiedDesc := none }
  else
    ({ p with modifiedDesc := some type }.request (.setLocalDescription type)).emitLocalSdp
      p.hasCandidatesInSdp

/-- `OnIceGatheringChange`, when the gathering is complete. -/
def onIceGatheringComplete (p : RtcPeer) : RtcPeer :=
  if p.sdpEmitSafety.any SafetyFlag.alive then p.sendLocalSdp else p

/-- A delayed task runs, if its flag is alive. -/
def runTask (p : RtcPeer) : DelayedTask → RtcPeer
  | .connectDeadline flag =>
    if p.connectDeadlineSafety = some ⟨flag, true⟩ ∧ p.peerConnection = true ∧
        p.isConnected = false then p.request .close
    else p
  | .sendLocalSdp flag => if p.sdpEmitSafety = some ⟨flag, true⟩ then p.sendLocalSdp else p

/-- `Terminate`. -/
def terminate (p : RtcPeer) : RtcPeer :=
  { p with
    isConnected := false
    isExpired := true
    isTerminating := true
    connectDeadlineSafety := p.connectDeadlineSafety.map fun flag => { flag with alive := false }
    sdpEmitSafety := p.sdpEmitSafety.map fun flag => { flag with alive := false }
    peerConnection := false
    onLocalSdp := false
    onLocalIce := false
    onConnectionState := false
    modifiedDesc := none }

/-- The peer connection has finished an operation: the observer that came with the request
    is called.  Where the source passes none, or one that only logs or flushes the pending
    candidates, nothing happens here. -/
def finish (lib : SdpParser) (p : RtcPeer) (op : PcOp) (ok parsed : Bool) : RtcPeer :=
  match op, ok with
  | .createOffer, true => p.onSuccess .offer parsed
  | .createAnswer, true => p.onSuccess .answer parsed
  | .rollback sdp sdpType, true => p.setRemoteSdp lib sdp sdpType true
  -- no observer, or one that does not touch what is modelled
  | _, _ => p

end RtcPeer

/-- The handlers, and their arguments.  `finish i ok parsed` is the end of the operation at
    position `i`. -/
inductive PeerEvent where
  | createOffer
  | signalingChange (newState : SignalingState)
  | connectionChange (newState : PeerConnectionState)
  | renegotiationNeeded
  | setRemoteSdp (sdp sdpType : String)
  | iceGatheringComplete
  | finish (i : ℕ) (ok parsed : Bool)
  | task (i : ℕ)
  | terminate
  deriving DecidableEq, Repr

/-- One event. -/
def RtcPeer.step (lib : SdpParser) (p : RtcPeer) : PeerEvent → Option RtcPeer
  | .setRemoteSdp sdp sdpType => some (p.setRemoteSdp lib sdp sdpType false)
  | .terminate => some p.terminate
  | .task i => (p.tasks[i]?).map fun task => { p with tasks := p.tasks.eraseIdx i }.runTask task
  | .createOffer => if p.peerConnection = true then some p.createOffer else none
  | .signalingChange newState =>
    if p.peerConnection = true then some (p.onSignalingChange newState) else none
  | .connectionChange newState =>
    if p.peerConnection = true then some (p.onConnectionChange newState) else none
  | .renegotiationNeeded => if p.peerConnection = true then some p.onRenegotiationNeeded else none
  | .iceGatheringComplete =>
    if p.peerConnection = true then some p.onIceGatheringComplete else none
  | .finish i ok parsed =>
    if p.peerConnection = true then
      (p.pending[i]?).map fun op =>
        { p with pending := p.pending.eraseIdx i }.finish lib op ok parsed
    else none

/-- A new peer, and all orders of events. -/
def peerMachine (lib : SdpParser) (backend : SignalingBackend) (hasCandidatesInSdp : Bool) :
    Machine RtcPeer PeerEvent where
  init := { backend := backend, hasCandidatesInSdp := hasCandidatesInSdp }
  step := RtcPeer.step lib

end PiWebrtc.Rtc
