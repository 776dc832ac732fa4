import PiWebrtc.Rtc.ConnectDeadline
import PiWebrtc.Rtc.Renegotiation
import PiWebrtc.Signaling.MqttService
import PiWebrtc.Signaling.PeerRegistry

namespace PiWebrtc.Signaling

open Transition PiWebrtc.Rtc

/-!
# The lifetime of the peers

`OnMessage` creates a peer for the first message of a client, of whatever kind it is, and
the peer's connect deadline is armed when its connection applies a remote offer.  The model
runs the service's callback, the events of the peers and the sweeps one after another, as
the connect deadline is about what happens in the long run.

`peers_attended_iff` shows which messages leave a peer in the registry that nothing will
ever expire: those that create a peer and do not carry an offer that the connection applies.
-/

/-- What the JSON texts of the messages hold; `none` where an exception is thrown, which
    nobody catches. -/
structure Payloads where
  sdp : String → Option (String × String)
  ice : String → Option (String × ℤ × String)

/-- The peers that were created, each at the position that is its id, the registry, and the
    maps. -/
structure MqttPeers where
  peers : List RtcPeer := []
  registry : PeerRegistry := {}
  maps : ClientMaps := {}

namespace MqttPeers

variable (lib : SdpParser) (json : Payloads) (uid : String)

/-- `is_expired`. -/
def isExpired (s : MqttPeers) (p : ℕ) : Bool := s.peers[p]?.any RtcPeer.isExpired

/-- The peer of a client, if the registry has it. -/
def peerOf (s : MqttPeers) (c : String) : Option ℕ :=
  (s.maps.clientToPeer c).bind fun p => s.registry.get s.isExpired p

/-- `CreatePeer`, and the section that enters the new peer in the maps. -/
def createPeer (s : MqttPeers) (c : String) : MqttPeers where
  peers := s.peers ++ [{ backend := .direct, hasCandidatesInSdp := false }]
  registry := s.registry.add s.peers.length
  maps := s.maps.link c s.peers.length

/-- `OnRemoteSdp`, when the text was read. -/
def onRemoteSdp (s : MqttPeers) (p : ℕ) (sdp sdpType : String) (applied : Bool) : MqttPeers :=
  match s.registry.get s.isExpired p with
  | some q =>
    { s with peers := s.peers.modify q fun peer => peer.applyRemoteSdp lib sdp sdpType applied }
  | none => s

/-- The last part of `OnMessage`.  `EnsureTracksAdded` is left out, and so are the
    candidates: they do not touch what is modelled here. -/
def deliver (s : MqttPeers) (type : TopicType) (p : ℕ) (payload : String) (applied : Bool) :
    Option MqttPeers :=
  match type with
  | .offer | .answer =>
    (json.sdp payload).map fun text => s.onRemoteSdp lib p text.1 text.2 applied
  | .ice => (json.ice payload).map fun _ => s
  | .unknown => some s

/-- `OnMessage`.  `created` tells whether the conductor could create a peer, `applied`
    whether the connection applies an offer. -/
def onMessage (s : MqttPeers) (topic payload : String) (created applied : Bool) :
    Option MqttPeers :=
  if findTopicType uid topic = .unknown ∨ findClientId uid topic = "" then some s
  else
    match s.peerOf (findClientId uid topic) with
    | some p => s.deliver lib json (findTopicType uid topic) p payload applied
    | none =>
      if created = false then some s
      else (s.createPeer (findClientId uid topic)).deliver lib json (findTopicType uid topic)
        s.peers.length payload applied

/-- `Sweep`: the expired peers leave the registry, are terminated, and leave the maps. -/
def sweep (s : MqttPeers) : MqttPeers where
  peers := (s.registry.expiredPeers s.isExpired).foldl
    (fun peers p => peers.modify p RtcPeer.terminate) s.peers
  registry := s.registry.sweep s.isExpired
  maps := (s.registry.expiredPeers s.isExpired).foldl ClientMaps.onPeerExpired s.maps

end MqttPeers

/-- What happens: a message comes in, something happens to a peer, or the cleaner sweeps. -/
inductive MqttEvent where
  | message (topic payload : String) (created applied : Bool)
  | peer (p : ℕ) (event : PeerEvent)
  | sweep
  deriving DecidableEq, Repr

/-- The events that come from the peer's connection and from its timers, and not from the
    service. -/
def fromConnection : PeerEvent → Bool
  | .setRemoteSdp _ _ => false
  | .terminate => false
  | _ => true

/-- One event. -/
def MqttPeers.step (lib : SdpParser) (json : Payloads) (uid : String) (s : MqttPeers) :
    MqttEvent → Option MqttPeers
  | .message topic payload created applied => s.onMessage lib json uid topic payload created applied
  | .peer p event =>
    if fromConnection event = false then none
    else (s.peers[p]?).bind fun peer => (peer.step lib event).map fun next =>
      { s with peers := s.peers.set p next.reportClosed }
  | .sweep => some s.sweep

/-- The service without any peer, and all orders of events. -/
def mqttPeers (lib : SdpParser) (json : Payloads) (uid : String) : Machine MqttPeers MqttEvent where
  init := {}
  step := MqttPeers.step lib json uid

/-- What is asked for: every peer in the registry is connected, has expired and awaits the
    sweep, or has a deadline that will expire it. -/
def PeersAttended (s : MqttPeers) : Prop :=
  ∀ p ∈ s.registry.peers, ∃ peer, s.peers[p]? = some peer ∧ peer.Attended

/-- The message makes the service create a peer. -/
def CreatesPeer (uid : String) (s : MqttPeers) (topic : String) (created : Bool) : Prop :=
  ¬ (findTopicType uid topic = .unknown ∨ findClientId uid topic = "") ∧
    s.peerOf (findClientId uid topic) = none ∧ created = true

/-- The text holds an offer that can be parsed. -/
def carriesOffer (lib : SdpParser) (json : Payloads) (payload : String) : Bool :=
  (json.sdp payload).any fun text => text.2 = "offer" && lib.parses .offer text.1

/-- The condition: a message that creates a peer carries, under a topic for descriptions, an
    offer that the connection applies. -/
def StartsDeadline (lib : SdpParser) (json : Payloads) (uid : String) (s : MqttPeers) :
    MqttEvent → Prop
  | .message topic payload created applied => CreatesPeer uid s topic created →
    findTopicType uid topic ≠ .ice ∧ carriesOffer lib json payload = true ∧ applied = true
  | _ => True

instance (lib : SdpParser) (json : Payloads) (uid : String) (s : MqttPeers) :
    ∀ a, Decidable (StartsDeadline lib json uid s a)
  | .message _ _ _ _ => inferInstanceAs (Decidable (_ ∧ _ ∧ _ → _ ∧ _ ∧ _))
  | .peer _ _ | .sweep => isTrue trivial

/-! ### Messages for peers that exist -/

section Steps

variable {lib : SdpParser} {json : Payloads} {uid : String} {s s' : MqttPeers}

/-- What a message does to the peers does not change which of them are attended. -/
theorem PeersAttended.modify (h : PeersAttended s) (q : ℕ) {f : RtcPeer → RtcPeer}
    (hf : ∀ peer, peer.Attended → (f peer).Attended) :
    PeersAttended { s with peers := s.peers.modify q f } := by
  intro p hp
  obtain ⟨peer, hpeer, hatt⟩ := h p hp
  refine ⟨if q = p then f peer else peer, ?_, ?_⟩
  · rw [List.getElem?_modify, hpeer]
    rfl
  · split
    · exact hf peer hatt
    · exact hatt

theorem PeersAttended.onRemoteSdp (h : PeersAttended s) (p : ℕ) (sdp sdpType : String)
    (applied : Bool) : PeersAttended (s.onRemoteSdp lib p sdp sdpType applied) := by
  rw [MqttPeers.onRemoteSdp]
  split
  case h_1 q _ => exact h.modify q fun peer hatt => hatt.applyRemoteSdp sdp sdpType applied
  case h_2 => exact h

theorem PeersAttended.deliver (h : PeersAttended s) {type : TopicType} {p : ℕ} {payload : String}
    {applied : Bool} (hs : s.deliver lib json type p payload applied = some s') :
    PeersAttended s' := by
  cases type with
  | offer | answer =>
    obtain ⟨text, -, rfl⟩ := Option.map_eq_some_iff.mp hs
    exact h.onRemoteSdp p text.1 text.2 applied
  | ice =>
    obtain ⟨-, -, rfl⟩ := Option.map_eq_some_iff.mp hs
    exact h
  | unknown =>
    cases hs
    exact h

/-- A peer after some were terminated. -/
theorem attended_foldl_terminate (ps : List ℕ) {peers : List RtcPeer} {p : ℕ} {peer : RtcPeer}
    (hpeer : peers[p]? = some peer) (hatt : peer.Attended) :
    ∃ peer', (ps.foldl (fun peers p => peers.modify p RtcPeer.terminate) peers)[p]? = some peer' ∧
      peer'.Attended := by
  induction ps generalizing peers peer with
  | nil => exact ⟨peer, hpeer, hatt⟩
  | cons q ps ih =>
    have hpeer' : (peers.modify q RtcPeer.terminate)[p]? =
        some (if q = p then peer.terminate else peer) := by
      rw [List.getElem?_modify, hpeer]
      rfl
    refine ih hpeer' ?_
    split
    · exact .inr (.inl rfl)
    · exact hatt

theorem PeersAttended.sweep (h : PeersAttended s) : PeersAttended s.sweep := by
  intro p hp
  obtain ⟨peer, hpeer, hatt⟩ := h p (PeerRegistry.mem_sweep.mp hp).1
  exact attended_foldl_terminate _ hpeer hatt

theorem PeersAttended.peer (h : PeersAttended s) {p : ℕ} {event : PeerEvent}
    (hs : s.step lib json uid (.peer p event) = some s') : PeersAttended s' := by
  simp only [MqttPeers.step] at hs
  split at hs
  case isTrue => cases hs
  case isFalse =>
    rw [Option.bind_eq_some_iff] at hs
    obtain ⟨peer, hpeer, hs⟩ := hs
    obtain ⟨next, hnext, rfl⟩ := Option.map_eq_some_iff.mp hs
    intro q hq
    obtain ⟨peer', hpeer', hatt⟩ := h q hq
    by_cases hqp : p = q
    · rw [← hqp, hpeer, Option.some.injEq] at hpeer'
      rw [← hpeer'] at hatt
      refine ⟨next.reportClosed, ?_, hatt.step hnext⟩
      rw [← hqp, List.getElem?_set_self (List.getElem?_eq_some_iff.mp hpeer).1]
    · exact ⟨peer', by rw [List.getElem?_set_ne hqp, hpeer'], hatt⟩

/-! ### Messages that create a peer -/

/-- A registry with one more peer. -/
theorem peersAttended_append_iff (h : PeersAttended s) {peer : RtcPeer} {maps : ClientMaps} :
    PeersAttended ⟨s.peers ++ [peer], s.registry.add s.peers.length, maps⟩ ↔ peer.Attended := by
  constructor
  · intro hall
    obtain ⟨peer', hpeer', hatt⟩ := hall s.peers.length (PeerRegistry.mem_add.mpr (.inr rfl))
    rw [List.getElem?_concat_length, Option.some.injEq] at hpeer'
    exact hpeer' ▸ hatt
  · intro hatt p hp
    rcases PeerRegistry.mem_add.mp hp with hp | rfl
    · obtain ⟨peer', hpeer', hatt'⟩ := h p hp
      refine ⟨peer', ?_, hatt'⟩
      rw [List.getElem?_append_left (List.getElem?_eq_some_iff.mp hpeer').1, hpeer']
    · exact ⟨peer, List.getElem?_concat_length, hatt⟩

/-- The first description goes to the new peer. -/
theorem onRemoteSdp_createPeer (s : MqttPeers) (c sdp sdpType : String) (applied : Bool) :
    (s.createPeer c).onRemoteSdp lib s.peers.length sdp sdpType applied =
      ⟨s.peers ++ [RtcPeer.applyRemoteSdp lib { backend := .direct, hasCandidatesInSdp := false }
          sdp sdpType applied],
        s.registry.add s.peers.length, s.maps.link c s.peers.length⟩ := by
  have hget : (s.createPeer c).registry.get (s.createPeer c).isExpired s.peers.length =
      some s.peers.length := by
    refine PeerRegistry.get_eq_some.mpr ⟨rfl, PeerRegistry.mem_add.mpr (.inr rfl), ?_⟩
    rw [MqttPeers.isExpired, MqttPeers.createPeer, List.getElem?_concat_length]
    rfl
  simp only [MqttPeers.onRemoteSdp, hget]
  simp [MqttPeers.createPeer, List.modify_eq_set_getElem?]

/-- The new peer has its first message handled at once, and it is attended exactly if that
    is an offer that is applied; the others are as they were. -/
theorem peersAttended_created_iff (h : PeersAttended s) {c payload : String} {type : TopicType}
    {applied : Bool} (htype : type ≠ .unknown)
    (hs : (s.createPeer c).deliver lib json type s.peers.length payload applied = some s') :
    PeersAttended s' ↔
      type ≠ .ice ∧ carriesOffer lib json payload = true ∧ applied = true := by
  cases type with
  | offer | answer =>
    obtain ⟨text, htext, rfl⟩ := Option.map_eq_some_iff.mp hs
    rw [onRemoteSdp_createPeer, peersAttended_append_iff h, RtcPeer.applyRemoteSdp_attended_iff,
      carriesOffer, htext]
    simp [and_assoc]
  | ice =>
    obtain ⟨-, -, rfl⟩ := Option.map_eq_some_iff.mp hs
    refine ((peersAttended_append_iff h).trans ?_)
    refine iff_of_false ?_ (by simp)
    -- nothing has happened to the new peer
    rintro (hnew | hnew | ⟨-, flag, hnew, -⟩) <;> cases hnew
  | unknown => exact absurd rfl htype

/-- **One event.** Of the good states, the condition tells which events lead to a good
    state. -/
theorem peersAttended_step_iff {a : MqttEvent} (h : PeersAttended s)
    (hs : s.step lib json uid a = some s') :
    PeersAttended s' ↔ StartsDeadline lib json uid s a := by
  cases a with
  | message topic payload created applied =>
    simp only [MqttPeers.step, MqttPeers.onMessage] at hs
    rw [StartsDeadline, CreatesPeer]
    split at hs
    case isTrue htopic =>
      cases hs
      exact iff_of_true h fun hc => absurd htopic hc.1
    case isFalse htopic =>
      split at hs
      case h_1 p hp =>
        refine iff_of_true (h.deliver hs) fun hc => ?_
        rw [hp] at hc
        cases hc.2.1
      case h_2 hp =>
        split at hs
        case isTrue hfalse =>
          cases hs
          refine iff_of_true h fun hc => ?_
          rw [hfalse] at hc
          cases hc.2.2
        case isFalse hcreated =>
          rw [peersAttended_created_iff h (fun hu => htopic (.inl hu)) hs]
          exact ⟨fun hall _ => hall, fun himp => himp ⟨htopic, hp, eq_true_of_ne_false hcreated⟩⟩
  | peer p event => exact iff_of_true (h.peer hs) trivial
  | sweep =>
    cases hs
    exact iff_of_true h.sweep trivial

end Steps

/-- **No immortal peer, exactly.** In a run every peer in the registry is at all times
    connected, expired or under a deadline exactly if each message that creates a peer
    carries an offer that is applied. -/
theorem peers_attended_iff (lib : SdpParser) (json : Payloads) (uid : String)
    (as : List MqttEvent) (s : MqttPeers) (hrun : (mqttPeers lib json uid).run as = some s) :
    (mqttPeers lib json uid).Always PeersAttended (mqttPeers lib json uid).init as ↔
      (mqttPeers lib json uid).Guarded (StartsDeadline lib json uid)
        (mqttPeers lib json uid).init as := by
  refine Machine.always_iff_guarded (M := mqttPeers lib json uid) (I := fun _ => True)
    ?_ ?_ trivial (fun p hp => by cases hp) hrun
  · intro _ _ _ _ _ _ _
    trivial
  · intro s a s' _ h hstep
    exact peersAttended_step_iff h hstep

/-- A service whose texts are the descriptions themselves: an offer if they begin so. -/
def plainPayloads : Payloads where
  sdp payload := some (payload, if startsWith payload "o" then "offer" else "answer")
  ice payload := some ("0", 0, payload)

/-- A client's offer gets it a peer, which does not connect: its deadline passes, and it is
    swept out. -/
def neverConnected : List MqttEvent :=
  [.message "uid/offer/c1" "o=" true true, .message "uid/ice/c1" "" true true, .peer 0 (.task 0),
   .sweep]

theorem peers_attended_iff_neverConnected :
    ∃ s, (mqttPeers plainParser plainPayloads "uid").run neverConnected = some s ∧
      s.registry.peers = [] ∧ s.peers.map RtcPeer.isExpired = [true] ∧
      (mqttPeers plainParser plainPayloads "uid").Always PeersAttended
        (mqttPeers plainParser plainPayloads "uid").init neverConnected := by
  have hview : ((mqttPeers plainParser plainPayloads "uid").run neverConnected).map
      (fun s => (s.registry.peers, s.peers.map RtcPeer.isExpired)) = some ([], [true]) := by
    decide +kernel
  obtain ⟨s, hrun, hs⟩ := Option.map_eq_some_iff.mp hview
  obtain ⟨hregistry, hexpired⟩ := Prod.mk.inj hs
  refine ⟨s, hrun, hregistry, hexpired, ?_⟩
  exact (peers_attended_iff plainParser plainPayloads "uid" neverConnected s hrun).mpr
    (by decide +kernel)

/-- A client sends a candidate first. -/
def strayCandidate : List MqttEvent := [.message "uid/ice/c1" "" true true]

/-- A client sends an answer first. -/
def strayAnswer : List MqttEvent := [.message "uid/answer/c1" "a=" true true]

/-- A client sends an offer that the connection rejects. -/
def rejectedOffer : List MqttEvent := [.message "uid/offer/c1" "o=" true false]

/-- A registry with a peer for which no task will ever run. -/
theorem not_peersAttended {s : MqttPeers} {p : ℕ} {peer : RtcPeer} (hp : p ∈ s.registry.peers)
    (hpeer : s.peers[p]? = some peer) (hconn : peer.isConnected = false)
    (hexp : peer.isExpired = false) (htasks : peer.tasks = []) : ¬ PeersAttended s := by
  intro h
  obtain ⟨peer', hpeer', hatt⟩ := h p hp
  rw [hpeer, Option.some.injEq] at hpeer'
  rw [← hpeer'] at hatt
  rcases hatt with h | h | ⟨-, flag, -, h⟩
  · rw [hconn] at h
    cases h
  · rw [hexp] at h
    cases h
  · rw [htasks] at h
    cases h

/-- In each of these runs a peer was created that has no deadline. -/
theorem not_peersAttended_strayMessages :
    (∃ s peer, (mqttPeers plainParser plainPayloads "uid").run strayCandidate = some s ∧
      s.peers = [peer] ∧ peer.tasks = [] ∧ ¬ PeersAttended s) ∧
    (∃ s peer, (mqttPeers plainParser plainPayloads "uid").run strayAnswer = some s ∧
      s.peers = [peer] ∧ peer.tasks = [] ∧ ¬ PeersAttended s) ∧
    (∃ s peer, (mqttPeers plainParser plainPayloads "uid").run rejectedOffer = some s ∧
      s.peers = [peer] ∧ peer.tasks = [] ∧ ¬ PeersAttended s) := by
  refine ⟨⟨_, _, rfl, rfl, rfl, ?_⟩, ⟨_, _, rfl, rfl, rfl, ?_⟩, ⟨_, _, rfl, rfl, rfl, ?_⟩⟩
  · exact not_peersAttended (p := 0) (by decide) rfl rfl rfl rfl
  · exact not_peersAttended (p := 0) (by decide) rfl rfl rfl rfl
  · exact not_peersAttended (p := 0) (by decide) rfl rfl rfl rfl

end PiWebrtc.Signaling
