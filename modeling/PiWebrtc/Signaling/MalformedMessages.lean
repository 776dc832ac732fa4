import PiWebrtc.Signaling.LiveKitService

namespace PiWebrtc.Signaling

open PiWebrtc.Rtc Document

/-!
# Malformed messages

Neither `MqttService::OnMessage` nor, but for its outer parser, `LiveKitService::OnMessage`
catches what the JSON library throws, and the MQTT service creates the client's peer and adds
its tracks before it parses anything.

`malformed_harmless_iff` gives the exact messages that do no harm: those that are well formed,
those that are dropped before they are parsed, and those that slip through with a truth value
for an index and meet a peer that ignores the candidate.
-/

/-- What is asked for of a callback: no exception escapes, and a message that is not as it
    should be changes nothing. -/
structure Harmless {σ : Type*} (wellFormed : Prop) (s : σ) (r : Ending × σ) : Prop where
  no_exception : r.1 ≠ .threw
  unchanged : ¬ wellFormed → r = (.returned, s)

namespace Harmless

variable {σ : Type*} {wellFormed : Prop} {s : σ} {r : Ending × σ}

theorem of_unchanged (h : r = (.returned, s)) : Harmless wellFormed s r :=
  ⟨by simp [h], fun _ => h⟩

theorem of_wellFormed (h : wellFormed) (hr : r.1 ≠ .threw) : Harmless wellFormed s r :=
  ⟨hr, fun hno => absurd h hno⟩

end Harmless

/-! ### The MQTT service -/

section Mqtt

variable {lib : SdpParser} {parse : String → Option Json} {takes : IceCandidate → Bool}
  {uid topic : String} {s : MqttService} {created applied : Bool}

/-- What the payload should be, for the topic it comes under. -/
def PayloadShape (parse : String → Option Json) (type : TopicType) (payload : String) : Prop :=
  match type with
  | .offer | .answer => SdpShape parse payload
  | .ice => IceShape parse payload
  | .unknown => False

/-- The message is dropped before its payload is looked at. -/
def Dropped (uid : String) (s : MqttService) (topic : String) (payload : Option String)
    (created : Bool) : Prop :=
  payload = none ∨ findTopicType uid topic = .unknown ∨ findClientId uid topic = "" ∨
    s.peerOf (findClientId uid topic) = none ∧ created = false

/-- A candidate whose index is a truth value comes for a peer that ignores it. -/
def SlipsThrough (parse : String → Option Json) (takes : IceCandidate → Bool) (uid : String)
    (s : MqttService) (topic payload : String) : Prop :=
  findTopicType uid topic = .ice ∧ ∃ p ice, s.peerOf (findClientId uid topic) = some p ∧
    readIce parse payload = some ice ∧ ∀ peer ∈ s.peers[p]?, peer.IgnoresIce takes ice

/-- The messages of the broker that do no harm. -/
def MqttHarmless (parse : String → Option Json) (takes : IceCandidate → Bool) (uid : String)
    (s : MqttService) (topic : String) (payload : Option String) (created : Bool) : Prop :=
  Dropped uid s topic payload created ∨ ∃ text, payload = some text ∧
    (PayloadShape parse (findTopicType uid topic) text ∨ SlipsThrough parse takes uid s topic text)

/-- The peer of a client is one that the registry hands out. -/
theorem MqttService.get_peerOf {c : String} {p : ℕ} (h : s.peerOf c = some p) :
    s.registry.get s.isExpired p = some p := by
  obtain ⟨q, -, hq⟩ := Option.bind_eq_some_iff.mp h
  have hqp : q = p := by
    rw [PeerRegistry.get] at hq
    split at hq <;> cases hq
    rfl
  rw [hqp] at hq
  exact hq

/-- An exception escapes if the text is not accepted, whatever the peer. -/
theorem MqttService.deliver_ending {type : TopicType} (htype : type ≠ .unknown) (p : ℕ)
    (payload : String) :
    (s.deliver lib parse takes type p payload applied).1 ≠ .threw ↔
      PayloadShape parse type payload ∨ type = .ice ∧ BoolIceShape parse payload := by
  have hsdp : ∀ s : MqttService,
      (s.onRemoteSdp lib parse p payload applied).1 ≠ .threw ↔ SdpShape parse payload := fun s => by
    rw [← readSdp_isSome, MqttService.onRemoteSdp]
    cases readSdp parse payload with
    | none => simp
    | some text => cases s.registry.get s.isExpired p <;> simp
  have hice : (s.onRemoteIce parse takes p payload).1 ≠ .threw ↔
      IceShape parse payload ∨ BoolIceShape parse payload := by
    rw [← readIce_isSome, MqttService.onRemoteIce]
    cases readIce parse payload with
    | none => simp
    | some ice => cases s.registry.get s.isExpired p <;> simp
  cases type with
  | offer => exact (hsdp _).trans (by simp [PayloadShape])
  | answer => exact (hsdp s).trans (by simp [PayloadShape])
  | ice => exact hice.trans (by simp [PayloadShape])
  | unknown => exact absurd rfl htype

/-- The number of peers is only changed by `createPeer`. -/
theorem MqttService.deliver_length (type : TopicType) (p : ℕ) (payload : String) :
    (s.deliver lib parse takes type p payload applied).2.peers.length = s.peers.length := by
  have hsdp : ∀ s : MqttService, (s.onRemoteSdp lib parse p payload applied).2.peers.length =
      s.peers.length := fun s => by
    rw [MqttService.onRemoteSdp]
    repeat' split
    all_goals simp
  cases type with
  | offer =>
    rw [MqttService.deliver, hsdp]
    split <;> simp [MqttService.ensureTracksAdded]
  | answer => exact hsdp s
  | ice =>
    rw [MqttService.deliver, MqttService.onRemoteIce]
    repeat' split
    all_goals simp
  | unknown => rfl

theorem modify_eq_self {peers : List MediaPeer} {p : ℕ} {f : MediaPeer → MediaPeer} :
    peers.modify p f = peers ↔ ∀ peer ∈ peers[p]?, f peer = peer := by
  constructor
  · intro h peer hpeer
    have hp := congrArg (fun l : List MediaPeer => l[p]?) h
    rw [List.getElem?_modify_eq, hpeer] at hp
    exact Option.some.inj hp
  · intro h
    refine List.ext_getElem? fun i => ?_
    rw [List.getElem?_modify]
    split
    case isTrue hi =>
      subst hi
      cases hpeer : peers[p]? with
      | none => rfl
      | some peer => exact congrArg some (h peer hpeer)
    case isFalse => simp

/-- The callback for a peer that is there: a text that slips through must find it deaf. -/
theorem deliver_harmless_iff {type : TopicType} {p : ℕ} {payload : String}
    (hp : s.registry.get s.isExpired p = some p) (htype : type ≠ .unknown) :
    Harmless (PayloadShape parse type payload) s
        (s.deliver lib parse takes type p payload applied) ↔
      PayloadShape parse type payload ∨ type = .ice ∧ ∃ ice, readIce parse payload = some ice ∧
        ∀ peer ∈ s.peers[p]?, peer.IgnoresIce takes ice := by
  have hending : (s.deliver lib parse takes type p payload applied).1 ≠ .threw ↔
      PayloadShape parse type payload ∨ type = .ice ∧ BoolIceShape parse payload :=
    MqttService.deliver_ending htype p payload
  by_cases hshape : PayloadShape parse type payload
  · exact iff_of_true (.of_wellFormed hshape (hending.mpr (.inl hshape))) (.inl hshape)
  · -- what is left is the loose index
    have hdelivered : ∀ ice, type = .ice → readIce parse payload = some ice →
        (s.deliver lib parse takes type p payload applied = (.returned, s) ↔
          ∀ peer ∈ s.peers[p]?, peer.IgnoresIce takes ice) := by
      rintro ice rfl hread
      have hmodify : s.deliver lib parse takes .ice p payload applied = (.returned,
          { s with peers := s.peers.modify p fun peer => peer.setRemoteIce takes ice }) := by
        simp only [MqttService.deliver, MqttService.onRemoteIce, hread, hp]
      have hsame :
          { s with peers := s.peers.modify p fun peer => peer.setRemoteIce takes ice } = s ↔
          s.peers.modify p (fun peer => peer.setRemoteIce takes ice) = s.peers := by
        cases s
        simp
      rw [hmodify, Prod.mk.injEq, hsame, modify_eq_self]
      simp only [MediaPeer.setRemoteIce_eq_self, true_and]
    constructor
    · intro h
      obtain ⟨rfl, hbool⟩ := (hending.mp h.no_exception).resolve_left hshape
      obtain ⟨ice, hread⟩ := Option.isSome_iff_exists.mp (readIce_isSome.mpr (.inr hbool))
      exact .inr ⟨rfl, ice, hread, (hdelivered ice rfl hread).mp (h.unchanged hshape)⟩
    · rintro (h | ⟨rfl, ice, hread, hdeaf⟩)
      · exact absurd h hshape
      · exact .of_unchanged ((hdelivered ice rfl hread).mpr hdeaf)

/-- **The MQTT service.** -/
theorem MqttService.harmless_iff (payload : Option String) :
    Harmless (∃ text, payload = some text ∧ PayloadShape parse (findTopicType uid topic) text) s
        (s.onMessage lib parse takes uid topic payload created applied) ↔
      MqttHarmless parse takes uid s topic payload created := by
  cases payload with
  | none => exact iff_of_true (.of_unchanged rfl) (.inl (.inl rfl))
  | some text =>
    rw [MqttService.onMessage]
    simp only [Option.some.injEq, exists_eq_left']
    by_cases hno : findTopicType uid topic = .unknown ∨ findClientId uid topic = ""
    · rw [if_pos hno]
      exact iff_of_true (.of_unchanged rfl) (.inl (.inr (hno.imp_right .inl)))
    · rw [if_neg hno]
      obtain ⟨htype, hclient⟩ := not_or.mp hno
      cases hpeer : s.peerOf (findClientId uid topic) with
      | some p =>
        refine (deliver_harmless_iff (MqttService.get_peerOf hpeer) htype).trans ?_
        simp [MqttHarmless, Dropped, SlipsThrough, htype, hclient, hpeer]
      | none =>
        cases created with
        | false => exact iff_of_true (.of_unchanged rfl) (.inl (.inr (.inr (.inr ⟨hpeer, rfl⟩))))
        | true =>
          -- a new peer is there whatever the text is
          have hright : MqttHarmless parse takes uid s topic (some text) true ↔
              PayloadShape parse (findTopicType uid topic) text := by
            simp [MqttHarmless, Dropped, SlipsThrough, htype, hclient, hpeer]
          rw [hright]
          refine ⟨fun h => ?_, fun h => .of_wellFormed h ?_⟩
          · by_contra hshape
            have hlength := congrArg (fun r : Ending × MqttService => r.2.peers.length)
              (h.unchanged hshape)
            simp [MqttService.deliver_length, MqttService.createPeer] at hlength
          · exact (MqttService.deliver_ending htype _ text).mpr (.inl h)

end Mqtt

/-! ### The LiveKit service -/

section LiveKit

open LiveKitService

variable {lib : SdpParser} {parse : String → Option Json} {takes : IceCandidate → Bool}
  {s : LiveKitService} {pub sub applied : Bool}

/-- A `trickle` whose candidate slips through meets no peer, or one that ignores it. -/
def DeafTo (takes : IceCandidate → Bool) (s : LiveKitService) (target : String)
    (ice : IceCandidate) : Prop :=
  (target = "PUBLISHER" → ∃ p, s.pubPeer = some p ∧ p.IgnoresIce takes ice) ∧
    (target = "SUBSCRIBER" → ∃ p, s.subPeer = some p ∧ p.IgnoresIce takes ice)

/-- The messages of an action that do no harm. -/
def ActHarmless (parse : String → Option Json) (takes : IceCandidate → Bool) (s : LiveKitService)
    (action message : String) : Prop :=
  MessageShape parse action message ∨ action = "join" ∧ s.conductor = false ∨
    action = "trickle" ∧ ∃ target ice, readTrickle parse message = some (target, ice) ∧
      DeafTo takes s target ice

/-- The requests of the server that do no harm. -/
def LiveKitHarmless (parse : String → Option Json) (takes : IceCandidate → Bool)
    (s : LiveKitService) (req : String) : Prop :=
  parse req = none ∨ ∃ j action message, parse req = some j ∧ j.Has "action" (.str action) ∧
    j.Has "message" (.str message) ∧ ActHarmless parse takes s action message

theorem LiveKitService.join_ending (server : IceServer) : (s.join server pub sub).1 ≠ .threw := by
  cases pub <;> simp [LiveKitService.join]

/-- `OnRemoteIce`, when the text was read. -/
theorem LiveKitService.onRemoteIce_eq_self {message target : String} {ice : IceCandidate}
    (hread : readTrickle parse message = some (target, ice)) :
    s.onRemoteIce parse takes message = (.returned, s) ↔ DeafTo takes s target ice := by
  have htrickle : ∀ peer : Option SfuPeer, trickle takes peer ice = (.returned, peer) ↔
      ∃ p, peer = some p ∧ p.IgnoresIce takes ice := by
    rintro (_ | p)
    · simp [trickle]
    · have hsame : { p with toMediaPeer := p.toMediaPeer.setRemoteIce takes ice } = p ↔
          p.toMediaPeer.setRemoteIce takes ice = p.toMediaPeer := by
        cases p
        simp
      simp [trickle, hsame, MediaPeer.setRemoteIce_eq_self]
  rw [LiveKitService.onRemoteIce, hread]
  dsimp only
  split
  case isTrue hpub =>
    have hsame : ((trickle takes s.pubPeer ice).1,
        { s with pubPeer := (trickle takes s.pubPeer ice).2 }) = (.returned, s) ↔
        trickle takes s.pubPeer ice = (.returned, s.pubPeer) := by
      cases s
      simp [Prod.ext_iff]
    rw [hsame, htrickle, DeafTo]
    simp [hpub]
  case isFalse hpub =>
    split
    case isTrue hsub =>
      have hsame : ((trickle takes s.subPeer ice).1,
          { s with subPeer := (trickle takes s.subPeer ice).2 }) = (.returned, s) ↔
          trickle takes s.subPeer ice = (.returned, s.subPeer) := by
        cases s
        simp [Prod.ext_iff]
      rw [hsame, htrickle, DeafTo]
      simp [hsub]
    case isFalse hsub => exact iff_of_true rfl ⟨fun h => absurd h hpub, fun h => absurd h hsub⟩

theorem LiveKitService.onRemoteIce_ending {message : String} :
    (s.onRemoteIce parse takes message).1 ≠ .threw ↔ (readTrickle parse message).isSome = true := by
  have htrickle : ∀ peer ice, (trickle takes peer ice).1 ≠ .threw := by
    rintro (_ | p) ice <;> simp [trickle]
  rw [LiveKitService.onRemoteIce]
  cases readTrickle parse message with
  | none => simp
  | some r =>
    refine iff_of_true ?_ rfl
    dsimp only
    split
    · exact htrickle _ _
    · split
      · exact htrickle _ _
      · simp

/-- What the service does with an action and its message. -/
theorem LiveKitService.act_harmless_iff (action message : String) :
    Harmless (MessageShape parse action message) s
        (s.act lib parse takes action message pub sub applied) ↔
      ActHarmless parse takes s action message := by
  by_cases hjoin : action = "join"
  · subst hjoin
    have hshape : MessageShape parse "join" message ↔ JoinShape parse message := by
      simp [MessageShape]
    rw [LiveKitService.act, if_pos rfl, ActHarmless, hshape]
    split
    case isTrue hnone => exact iff_of_true (.of_unchanged rfl) (.inr (.inl ⟨rfl, hnone⟩))
    case isFalse hcond =>
      cases hread : readJoin parse message with
      | none =>
        have hno : ¬ JoinShape parse message := by simp [← readJoin_isSome, hread]
        exact iff_of_false (fun h => h.no_exception rfl) (by simp [hno, hcond])
      | some server =>
        have hyes : JoinShape parse message := by simp [← readJoin_isSome, hread]
        exact iff_of_true (.of_wellFormed hyes (join_ending server)) (.inl hyes)
  · by_cases htrickle : action = "trickle"
    · subst htrickle
      have hshape : MessageShape parse "trickle" message ↔
          TrickleShape parse (IceShape parse) message := by
        simp [MessageShape]
      have hact : s.act lib parse takes "trickle" message pub sub applied =
          s.onRemoteIce parse takes message := by
        simp [LiveKitService.act]
      rw [hact, ActHarmless, hshape]
      by_cases hwell : TrickleShape parse (IceShape parse) message
      · exact iff_of_true (.of_wellFormed hwell (onRemoteIce_ending.mpr
          (readTrickle_isSome.mpr (.inl hwell)))) (.inl hwell)
      · constructor
        · intro h
          obtain ⟨⟨target, ice⟩, hread⟩ :=
            Option.isSome_iff_exists.mp (onRemoteIce_ending.mp h.no_exception)
          exact .inr (.inr ⟨rfl, target, ice, hread,
            (onRemoteIce_eq_self hread).mp (h.unchanged hwell)⟩)
        · rintro (h | ⟨h, -⟩ | ⟨-, target, ice, hread, hdeaf⟩)
          · exact absurd h hwell
          · exact absurd h (by decide)
          · exact .of_unchanged ((onRemoteIce_eq_self hread).mpr hdeaf)
    · -- no other action reads more than its message
      have hwell : MessageShape parse action message :=
        ⟨fun h => absurd h hjoin, fun h => absurd h htrickle⟩
      refine iff_of_true (.of_wellFormed hwell ?_) (.inl hwell)
      rw [LiveKitService.act, if_neg hjoin]
      repeat' split
      all_goals simp_all

/-- **The LiveKit service.** -/
theorem LiveKitService.harmless_iff (req : String) :
    Harmless (RequestShape parse req) s (s.onMessage lib parse takes req pub sub applied) ↔
      LiveKitHarmless parse takes s req := by
  cases hparse : parse req with
  | none =>
    have hcaught : s.onMessage lib parse takes req pub sub applied = (.returned, s) := by
      simp [LiveKitService.onMessage, hparse]
    exact iff_of_true (.of_unchanged hcaught) (.inl hparse)
  | some j =>
    -- the two members are read once and for all
    have hread : ∀ P : String → String → Prop, (∃ j action message, parse req = some j ∧
        j.Has "action" (.str action) ∧ j.Has "message" (.str message) ∧ P action message) ↔
        ∃ action message, j.stringMember "action" = some action ∧
          j.stringMember "message" = some message ∧ P action message := by
      intro P
      simp [hparse, Json.stringMember_eq_some]
    rw [LiveKitHarmless, RequestShape, hread, hread, hparse]
    cases haction : j.stringMember "action" with
    | none =>
      refine iff_of_false (fun h => h.no_exception ?_) (by simp)
      simp [LiveKitService.onMessage, hparse, haction]
    | some action =>
      cases hmessage : j.stringMember "message" with
      | none =>
        refine iff_of_false (fun h => h.no_exception ?_) (by simp)
        simp [LiveKitService.onMessage, hparse, haction, hmessage]
      | some message =>
        have hact : s.onMessage lib parse takes req pub sub applied =
            s.act lib parse takes action message pub sub applied := by
          simp [LiveKitService.onMessage, hparse, haction, hmessage]
        rw [hact]
        simpa using act_harmless_iff (s := s) action message

end LiveKit

/-! ### Both services -/

/-- **Malformed messages do no harm, exactly.** In whatever state the services are, a message
    of the broker and a request of the LiveKit server is handled without an exception, and
    without a change unless it is well formed, exactly if it is well formed, or is dropped
    before its text is read, or slips through to a peer that ignores it. -/
theorem malformed_harmless_iff (lib : SdpParser) (parse : String → Option Json)
    (takes : IceCandidate → Bool) (uid : String) :
    (∀ (s : MqttService) (topic : String) (payload : Option String) (created applied : Bool),
      Harmless (∃ text, payload = some text ∧ PayloadShape parse (findTopicType uid topic) text) s
          (s.onMessage lib parse takes uid topic payload created applied) ↔
        MqttHarmless parse takes uid s topic payload created) ∧
    (∀ (s : LiveKitService) (req : String) (pub sub applied : Bool),
      Harmless (LiveKitService.RequestShape parse req) s
          (s.onMessage lib parse takes req pub sub applied) ↔
        LiveKitHarmless parse takes s req) :=
  ⟨fun _ _ payload _ _ => MqttService.harmless_iff payload,
    fun _ req _ _ _ => LiveKitService.harmless_iff req⟩

/-- A parser that knows an empty object and nothing else. -/
def emptyObject (text : String) : Option Json :=
  if text = "{}" then some (.obj []) else none

/-- A text that is not JSON comes from a client that the MQTT service does not know: a peer is
    created for it, and then the exception of the parser escapes. -/
theorem not_harmless_emptyObject :
    let mqtt := MqttService.onMessage plainParser emptyObject (fun _ => true) "uid" {}
      "uid/offer/c1" (some "x") true true
    let liveKit := LiveKitService.onMessage plainParser emptyObject (fun _ => true)
      { uid := "uid" } "{}" true true true
    (mqtt.1 = .threw ∧ mqtt.2.peers.length = 1 ∧ mqtt.2.registry.peers = [0] ∧
      mqtt.2.maps.clientToPeer "c1" = some 0 ∧
      ¬ Harmless (∃ text, some "x" = some text ∧ PayloadShape emptyObject .offer text) {} mqtt) ∧
    -- an empty object comes from the LiveKit server
    liveKit.1 = .threw ∧
      ¬ Harmless (LiveKitService.RequestShape emptyObject "{}") { uid := "uid" } liveKit := by
  refine ⟨⟨rfl, rfl, rfl, rfl, fun h => ?_⟩, rfl, fun h => ?_⟩
  · exact h.no_exception rfl
  · exact h.no_exception rfl

end PiWebrtc.Signaling
