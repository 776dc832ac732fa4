import PiWebrtc.Lib.Json
import PiWebrtc.Rtc.PendingIce
import PiWebrtc.Signaling.PeerLifetime

namespace PiWebrtc.Signaling

open PiWebrtc.Rtc Document

/-!
# A message of the MQTT broker

`MqttService::OnMessage` with all that it does to a peer: it may add the tracks, hand over a
description and hand over a candidate.  What it has done when an exception is thrown stays
done, so a callback ends in a state in either case.

The JSON parser is not part of the source; it is the parameter `parse`, and `none` is its
exception.  `takes` tells which candidates a connection can parse and takes.
`onMessage_refines` shows that the service in the long run is made of these callbacks.
-/

/-- How a callback ends. -/
inductive Ending where
  | returned
  /-- An exception escapes. -/
  | threw
  /-- A null pointer is dereferenced. -/
  | nullDereference
  deriving DecidableEq, Repr

/-! ### The peer of a session -/

/-- A peer, the candidates it keeps or has handed to its connection, whether there is a remote
    description, and whether it has its tracks. -/
structure MediaPeer extends RtcPeer where
  remoteDescription : Bool := false
  pendingIceCandidates : List IceCandidate := []
  iceCandidates : List IceCandidate := []
  senders : Bool := false

namespace MediaPeer

/-- `AddTracks`. -/
def addTracks (p : MediaPeer) : MediaPeer := { p with senders := true }

/-- `SetRemoteSdp`. -/
def setRemoteSdp (lib : SdpParser) (p : MediaPeer) (sdp sdpType : String) (applied : Bool) :
    MediaPeer :=
  { p with toRtcPeer := p.toRtcPeer.applyRemoteSdp lib sdp sdpType applied }

/-- `SetRemoteIce`. -/
def setRemoteIce (takes : IceCandidate → Bool) (p : MediaPeer) (ice : IceCandidate) : MediaPeer :=
  if p.peerConnection = false then p
  -- an early candidate waits for the description
  else if p.remoteDescription = false then
    { p with pendingIceCandidates := p.pendingIceCandidates ++ [ice] }
  else if takes ice = false then p
  else { p with iceCandidates := p.iceCandidates ++ [ice] }

/-- The candidate leaves no trace. -/
def IgnoresIce (takes : IceCandidate → Bool) (p : MediaPeer) (ice : IceCandidate) : Prop :=
  p.peerConnection = false ∨ p.remoteDescription = true ∧ takes ice = false

theorem setRemoteIce_eq_self {takes : IceCandidate → Bool} {p : MediaPeer} {ice : IceCandidate} :
    p.setRemoteIce takes ice = p ↔ p.IgnoresIce takes ice := by
  have hpend : { p with pendingIceCandidates := p.pendingIceCandidates ++ [ice] } ≠ p := fun h => by
    simpa using congrArg (fun q : MediaPeer => q.pendingIceCandidates.length) h
  have hice : { p with iceCandidates := p.iceCandidates ++ [ice] } ≠ p := fun h => by
    simpa using congrArg (fun q : MediaPeer => q.iceCandidates.length) h
  rw [setRemoteIce, IgnoresIce]
  split
  case isTrue hpc => exact iff_of_true rfl (.inl hpc)
  case isFalse hpc =>
    split
    case isTrue hremote => exact iff_of_false hpend (by simp [hpc, hremote])
    case isFalse hremote =>
      split
      case isTrue htakes => exact iff_of_true rfl (.inr ⟨by simpa using hremote, htakes⟩)
      case isFalse htakes => exact iff_of_false hice (by simp [hpc, htakes])

end MediaPeer

/-! ### What the texts hold -/

section Read

variable (parse : String → Option Json)

/-- The members that `OnRemoteSdp` reads: the description and its type. -/
def readSdp (message : String) : Option (String × String) :=
  (parse message).bind fun j =>
  (j.stringMember "sdp").bind fun sdp =>
  (j.stringMember "type").map fun type => (sdp, type)

/-- The members that make up a candidate. -/
def readIce (message : String) : Option IceCandidate :=
  (parse message).bind fun j =>
  (j.stringMember "sdpMid").bind fun sdpMid =>
  (j.intMember "sdpMLineIndex").bind fun sdpMlineIndex =>
  (j.stringMember "candidate").map fun candidate => ⟨sdpMid, sdpMlineIndex, candidate⟩

/-- What an offer and an answer should be. -/
def SdpShape (message : String) : Prop :=
  ∃ j, parse message = some j ∧ j.HasString "sdp" ∧ j.HasString "type"

/-- What a candidate should be. -/
def IceShape (message : String) : Prop :=
  ∃ j, parse message = some j ∧ j.HasString "sdpMid" ∧ j.HasNumber "sdpMLineIndex" ∧
    j.HasString "candidate"

/-- A candidate with a truth value in place of its index. -/
def BoolIceShape (message : String) : Prop :=
  ∃ j, parse message = some j ∧ j.HasString "sdpMid" ∧ j.HasBool "sdpMLineIndex" ∧
    j.HasString "candidate"

variable {parse}

theorem readSdp_isSome {message : String} :
    (readSdp parse message).isSome = true ↔ SdpShape parse message := by
  rw [readSdp, SdpShape]
  cases parse message with
  | none => simp
  | some j => simp [← Json.stringMember_isSome, Option.isSome_iff_exists, Option.bind_eq_some_iff]

/-- Nothing but the index is read loosely. -/
theorem readIce_isSome {message : String} :
    (readIce parse message).isSome = true ↔
      IceShape parse message ∨ BoolIceShape parse message := by
  rw [readIce, IceShape, BoolIceShape]
  cases parse message with
  | none => simp
  | some j =>
    have hindex : (j.intMember "sdpMLineIndex").isSome = true ↔
        j.HasNumber "sdpMLineIndex" ∨ j.HasBool "sdpMLineIndex" := j.intMember_isSome
    simp only [Option.bind_some, Option.some.injEq, exists_eq_left', ← Json.stringMember_isSome]
    rw [← and_or_left, ← or_and_right, ← hindex]
    simp [Option.isSome_iff_exists, Option.bind_eq_some_iff]

end Read

/-! ### The callback -/

/-- The peers that were created, each at the position that is its id, the registry, and the
    maps. -/
structure MqttService where
  peers : List MediaPeer := []
  registry : PeerRegistry := {}
  maps : ClientMaps := {}

namespace MqttService

variable (lib : SdpParser) (parse : String → Option Json) (takes : IceCandidate → Bool)
  (uid : String)

/-- `is_expired`. -/
def isExpired (s : MqttService) (p : ℕ) : Bool := s.peers[p]?.any (·.isExpired)

/-- The peer of a client, if the registry has it. -/
def peerOf (s : MqttService) (c : String) : Option ℕ :=
  (s.maps.clientToPeer c).bind fun p => s.registry.get s.isExpired p

/-- `CreatePeer`, and the section that enters the new peer in the maps. -/
def createPeer (s : MqttService) (c : String) : MqttService where
  peers := s.peers ++ [{ backend := .direct, hasCandidatesInSdp := false }]
  registry := s.registry.add s.peers.length
  maps := s.maps.link c s.peers.length

/-- `EnsureTracksAdded`. -/
def ensureTracksAdded (s : MqttService) (p : ℕ) : MqttService :=
  { s with peers := s.peers.modify p MediaPeer.addTracks }

/-- `OnRemoteSdp`. -/
def onRemoteSdp (s : MqttService) (p : ℕ) (message : String) (applied : Bool) :
    Ending × MqttService :=
  match readSdp parse message with
  | none => (.threw, s)
  | some (sdp, type) =>
    match s.registry.get s.isExpired p with
    | some q => (.returned,
        { s with peers := s.peers.modify q fun peer => peer.setRemoteSdp lib sdp type applied })
    | none => (.returned, s)

/-- `OnRemoteIce`. -/
def onRemoteIce (s : MqttService) (p : ℕ) (message : String) : Ending × MqttService :=
  match readIce parse message with
  | none => (.threw, s)
  | some ice =>
    match s.registry.get s.isExpired p with
    | some q => (.returned,
        { s with peers := s.peers.modify q fun peer => peer.setRemoteIce takes ice })
    | none => (.returned, s)

/-- The text asks for media. -/
def hasMedia (payload : String) : Bool :=
  decide ("m=video".toList <:+: payload.toList) || decide ("m=audio".toList <:+: payload.toList)

/-- The last part of `OnMessage`: the tracks are added before the text is parsed. -/
def deliver (s : MqttService) (type : TopicType) (p : ℕ) (payload : String) (applied : Bool) :
    Ending × MqttService :=
  match type with
  | .offer =>
    (if hasMedia payload then s.ensureTracksAdded p else s).onRemoteSdp lib parse p payload applied
  | .answer => s.onRemoteSdp lib parse p payload applied
  | .ice => s.onRemoteIce parse takes p payload
  | .unknown => (.returned, s)

/-- `OnMessage`.  `created` tells whether the conductor could create a peer, `applied` whether
    the connection applies an offer. -/
def onMessage (s : MqttService) (topic : String) (payload : Option String)
    (created applied : Bool) : Ending × MqttService :=
  match payload with
  | none => (.returned, s)
  | some payload =>
    if findTopicType uid topic = .unknown ∨ findClientId uid topic = "" then (.returned, s)
    else
      match s.peerOf (findClientId uid topic) with
      | some p => s.deliver lib parse takes (findTopicType uid topic) p payload applied
      | none =>
        if created = false then (.returned, s)
        else (s.createPeer (findClientId uid topic)).deliver lib parse takes
          (findTopicType uid topic) s.peers.length payload applied

/-! ### The callback in the long run -/

/-- The service without the media and the candidates. -/
def toMqttPeers (s : MqttService) : MqttPeers where
  peers := s.peers.map (·.toRtcPeer)
  registry := s.registry
  maps := s.maps

/-- What the texts hold, to the service in the long run. -/
def payloads : Payloads where
  sdp := readSdp parse
  ice := fun message => (readIce parse message).map fun ice =>
    (ice.sdpMid, ice.sdpMlineIndex, ice.candidate)

variable {lib parse takes uid} {s : MqttService}

theorem isExpired_toMqttPeers : s.toMqttPeers.isExpired = s.isExpired := by
  funext p
  simp only [MqttPeers.isExpired, isExpired, toMqttPeers, List.getElem?_map, Option.any_map]

/-- What leaves the peer itself alone is not seen in the long run. -/
theorem map_modify_media {f : MediaPeer → MediaPeer} (hf : ∀ p, (f p).toRtcPeer = p.toRtcPeer)
    (peers : List MediaPeer) (p : ℕ) :
    (peers.modify p f).map (·.toRtcPeer) = peers.map (·.toRtcPeer) := by
  refine List.ext_getElem? fun i => ?_
  rw [List.getElem?_map, List.getElem?_map, List.getElem?_modify]
  cases peers[i]? with
  | none => rfl
  | some peer => split <;> simp [hf]

theorem map_modify_setRemoteSdp (peers : List MediaPeer) (p : ℕ) (sdp type : String)
    (applied : Bool) :
    (peers.modify p fun peer => peer.setRemoteSdp lib sdp type applied).map (·.toRtcPeer) =
      (peers.map (·.toRtcPeer)).modify p fun peer => peer.applyRemoteSdp lib sdp type applied := by
  refine List.ext_getElem? fun i => ?_
  rw [List.getElem?_map, List.getElem?_modify, List.getElem?_modify, List.getElem?_map]
  cases peers[i]? with
  | none => rfl
  | some peer => split <;> rfl

theorem setRemoteIce_toRtcPeer (p : MediaPeer) (ice : IceCandidate) :
    (p.setRemoteIce takes ice).toRtcPeer = p.toRtcPeer := by
  rw [MediaPeer.setRemoteIce]
  repeat' split
  all_goals rfl

/-- What a callback leaves for the long run: nothing, if an exception escaped. -/
def settle (r : Ending × MqttService) : Option MqttPeers :=
  if r.1 = .returned then some r.2.toMqttPeers else none

theorem onRemoteSdp_refines (p : ℕ) (message : String) (applied : Bool) :
    ((payloads parse).sdp message).map
        (fun text => s.toMqttPeers.onRemoteSdp lib p text.1 text.2 applied) =
      settle (s.onRemoteSdp lib parse p message applied) := by
  have hget : s.toMqttPeers.registry.get s.toMqttPeers.isExpired p =
      s.registry.get s.isExpired p := by
    rw [isExpired_toMqttPeers]
    rfl
  rw [onRemoteSdp]
  show (readSdp parse message).map _ = _
  cases readSdp parse message with
  | none => rfl
  | some text =>
    simp only [Option.map_some, MqttPeers.onRemoteSdp, hget]
    cases s.registry.get s.isExpired p with
    | none => rfl
    | some q =>
      simp only [settle, if_true, toMqttPeers, map_modify_setRemoteSdp]

theorem deliver_refines (type : TopicType) (p : ℕ) (payload : String) (applied : Bool) :
    s.toMqttPeers.deliver lib (payloads parse) type p payload applied =
      settle (s.deliver lib parse takes type p payload applied) := by
  cases type with
  | offer =>
    have htracks : (if hasMedia payload then s.ensureTracksAdded p else s).toMqttPeers =
        s.toMqttPeers := by
      split
      · simp only [toMqttPeers, ensureTracksAdded]
        rw [map_modify_media (f := MediaPeer.addTracks) fun _ => rfl]
      · rfl
    rw [deliver, ← onRemoteSdp_refines, htracks]
    rfl
  | answer =>
    rw [deliver, ← onRemoteSdp_refines]
    rfl
  | ice =>
    rw [deliver, onRemoteIce]
    show ((readIce parse payload).map _).map _ = _
    cases readIce parse payload with
    | none => rfl
    | some ice =>
      cases s.registry.get s.isExpired p with
      | none => rfl
      | some q =>
        simp only [settle, if_true, toMqttPeers,
          map_modify_media fun p => setRemoteIce_toRtcPeer p ice]
        rfl
  | unknown => rfl

/-- **The callbacks are those of the long run.** Without the media and the candidates, a
    callback is the event of the service in the long run. -/
theorem onMessage_refines (topic payload : String) (created applied : Bool) :
    s.toMqttPeers.onMessage lib (payloads parse) uid topic payload created applied =
      settle (s.onMessage lib parse takes uid topic (some payload) created applied) := by
  have hpeer : ∀ c, s.toMqttPeers.peerOf c = s.peerOf c := fun c => by
    rw [MqttPeers.peerOf, isExpired_toMqttPeers]
    rfl
  have hcreate : ∀ c, s.toMqttPeers.createPeer c = (s.createPeer c).toMqttPeers := fun c => by
    simp [MqttPeers.createPeer, createPeer, toMqttPeers]
  rw [MqttPeers.onMessage, onMessage, hpeer]
  split
  case isTrue => rfl
  case isFalse =>
    cases s.peerOf (findClientId uid topic) with
    | some p => exact deliver_refines _ p payload applied
    | none =>
      dsimp only
      split
      case isTrue => rfl
      case isFalse =>
        rw [hcreate, ← deliver_refines]
        simp [toMqttPeers]

end MqttService

end PiWebrtc.Signaling
