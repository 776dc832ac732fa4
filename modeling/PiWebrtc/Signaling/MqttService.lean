import Mathlib.Data.List.Infix
import Mathlib.Data.List.TakeWhile
import Mathlib.Logic.Function.Basic
import Mathlib.Data.String.Basic

namespace PiWebrtc.Signaling

/-!
# Clients and topics of the MQTT service

A client is named by the last part of the topics it publishes to,
`{uid}/{type}/{client_id}`.  `MqttService` keeps two maps, from the clients to their peers
and back; both are changed under one mutex, but not together with the registry that holds
the peers.
-/

/-! ### Topics -/

/-- `MqttService::TopicType`. -/
inductive TopicType where
  | offer
  | answer
  | ice
  | unknown
  deriving DecidableEq, Repr

/-- `TopicTypeToString`. -/
def topicTypeToString : TopicType → String
  | .offer => "offer"
  | .answer => "answer"
  | .ice => "ice"
  | .unknown => "unknown"

/-- `GetTopic`; without a client it is the topic for everybody. -/
def getTopic (uid : String) (type : TopicType) (clientId : String) : String :=
  if clientId = "" then uid ++ "/" ++ topicTypeToString type
  else uid ++ "/" ++ topicTypeToString type ++ "/" ++ clientId

/-- `starts_with`. -/
def startsWith (s start : String) : Bool := start.toList.isPrefixOf s.toList

/-- `FindTopicType`. -/
def findTopicType (uid topic : String) : TopicType :=
  if startsWith topic (getTopic uid .offer "" ++ "/") then .offer
  else if startsWith topic (getTopic uid .answer "" ++ "/") then .answer
  else if startsWith topic (getTopic uid .ice "" ++ "/") then .ice
  else .unknown

/-- `FindClientId`: what stands between the base topic and the next slash. -/
def findClientId (uid topic : String) : String :=
  let topicType := findTopicType uid topic
  let baseTopic := getTopic uid topicType ""
  let startPos := baseTopic.toList.length + 1
  if topicType = .unknown then ""
  else if topic.toList.length ≤ baseTopic.toList.length ∨
      topic.toList[baseTopic.toList.length]? ≠ some '/' then ""
  else if topic.toList.length ≤ startPos then ""
  else .ofList ((topic.toList.drop startPos).takeWhile fun x => x ≠ '/')

theorem startsWith_iff {s start : String} :
    startsWith s start = true ↔ ∃ rest, s.toList = start.toList ++ rest := by
  rw [startsWith, List.isPrefixOf_iff_prefix]
  exact ⟨fun ⟨rest, h⟩ => ⟨rest, h.symm⟩, fun ⟨rest, h⟩ => ⟨rest, h.symm⟩⟩

theorem toList_getTopic {uid clientId : String} {type : TopicType} (hc : clientId ≠ "") :
    (getTopic uid type clientId).toList =
      (getTopic uid type "").toList ++ '/' :: clientId.toList := by
  simp [getTopic, hc]

/-- The topics of one kind do not look like those of another. -/
theorem startsWith_getTopic {uid clientId : String} {type type' : TopicType} (hc : clientId ≠ "")
    (hstart : startsWith (getTopic uid type clientId) (getTopic uid type' "" ++ "/") = true) :
    type = type' := by
  obtain ⟨rest, h⟩ := startsWith_iff.mp hstart
  rw [toList_getTopic hc] at h
  cases type <;> cases type' <;> simp [getTopic, topicTypeToString] at h ⊢

/-- A client's topic is recognised. -/
theorem findTopicType_getTopic {uid clientId : String} {type : TopicType} (hc : clientId ≠ "") :
    findTopicType uid (getTopic uid type clientId) = type := by
  have hself : startsWith (getTopic uid type clientId) (getTopic uid type "" ++ "/") = true :=
    startsWith_iff.mpr ⟨clientId.toList, by rw [toList_getTopic hc]; simp⟩
  rw [findTopicType]
  split
  case isTrue h => exact (startsWith_getTopic hc h).symm
  case isFalse hoffer =>
    split
    case isTrue h => exact (startsWith_getTopic hc h).symm
    case isFalse hanswer =>
      split
      case isTrue h => exact (startsWith_getTopic hc h).symm
      case isFalse hice =>
        cases type with
        | offer => exact absurd hself hoffer
        | answer => exact absurd hself hanswer
        | ice => exact absurd hself hice
        | unknown => rfl

/-- **Round trip.** The client is read back from its topic. -/
theorem findClientId_getTopic {uid clientId : String} {type : TopicType} (hc : clientId ≠ "")
    (hslash : '/' ∉ clientId.toList) (htype : type ≠ .unknown) :
    findClientId uid (getTopic uid type clientId) = clientId := by
  have hne : clientId.toList ≠ [] := fun h => hc (String.toList_eq_nil_iff.mp h)
  have hlen : 0 < clientId.toList.length := List.length_pos_iff.mpr hne
  have hclient : clientId.toList.takeWhile (fun x => x ≠ '/') = clientId.toList :=
    List.takeWhile_eq_self_iff.mpr fun x hx => by
      simpa using fun h : x = '/' => hslash (h ▸ hx)
  simp only [findClientId, findTopicType_getTopic hc, toList_getTopic hc]
  rw [if_neg htype, if_neg (by simp), if_neg (by simp; omega)]
  rw [List.drop_append, List.drop_eq_nil_of_le (Nat.le_succ _), List.nil_append,
    Nat.add_sub_cancel_left, List.drop_succ_cons, List.drop_zero, hclient, String.ofList_toList]

theorem startsWith_of_findTopicType {uid topic : String} {type : TopicType}
    (htype : findTopicType uid topic = type) (hknown : type ≠ .unknown) :
    startsWith topic (getTopic uid type "" ++ "/") = true := by
  unfold findTopicType at htype
  split_ifs at htype with hoffer hanswer hice
  · exact htype ▸ hoffer
  · exact htype ▸ hanswer
  · exact htype ▸ hice
  · exact absurd htype.symm hknown

/-- A client that is found is the next part of the topic behind the base topic. -/
theorem findClientId_eq {uid topic : String} {rest : List Char}
    (hclient : findClientId uid topic ≠ "")
    (hrest : topic.toList = (getTopic uid (findTopicType uid topic) "").toList ++ '/' :: rest) :
    (findClientId uid topic).toList = rest.takeWhile fun x => x ≠ '/' := by
  unfold findClientId at hclient ⊢
  dsimp only at hclient ⊢
  split_ifs at hclient ⊢
  · exact absurd rfl hclient
  · exact absurd rfl hclient
  · exact absurd rfl hclient
  · rw [String.toList_ofList, hrest, List.drop_append, List.drop_eq_nil_of_le (Nat.le_succ _),
      List.nil_append, Nat.add_sub_cancel_left, List.drop_succ_cons, List.drop_zero]

/-- A topic in which a client is found has the base topic of its kind in front. -/
theorem toList_of_findClientId {uid topic : String} (hclient : findClientId uid topic ≠ "") :
    ∃ rest, topic.toList = (getTopic uid (findTopicType uid topic) "").toList ++ '/' :: rest := by
  have hknown : findTopicType uid topic ≠ .unknown := by
    intro h
    unfold findClientId at hclient
    dsimp only at hclient
    rw [if_pos h] at hclient
    exact hclient rfl
  obtain ⟨rest, hrest⟩ := startsWith_iff.mp (startsWith_of_findTopicType rfl hknown)
  rw [String.toList_append, List.append_assoc] at hrest
  exact ⟨rest, hrest⟩

/-- What is left behind the next part is nothing or begins with the slash. -/
theorem dropWhile_slash (rest : List Char) :
    (rest.dropWhile fun x => x ≠ '/') = [] ∨
      ∃ tail, (rest.dropWhile fun x => x ≠ '/') = '/' :: tail := by
  induction rest with
  | nil => exact .inl rfl
  | cons x rest ih =>
    by_cases hx : x = '/'
    · right
      exact ⟨rest, by rw [List.dropWhile_cons_of_neg (by simpa using hx), hx]⟩
    · rw [List.dropWhile_cons_of_pos (by simpa using hx)]
      exact ih

/-- **Topics of clients.** The kind of a client's topic is recognised, and its client, unless the
    topic is of no known kind; and a topic in which a client is found is that client's, alone or
    followed by a slash. -/
theorem topics_roundTrip (uid : String) :
    (∀ type clientId, clientId ≠ "" → '/' ∉ clientId.toList →
      findTopicType uid (getTopic uid type clientId) = type ∧
        (type ≠ .unknown → findClientId uid (getTopic uid type clientId) = clientId)) ∧
    ∀ topic, findClientId uid topic ≠ "" →
      let clientTopic := getTopic uid (findTopicType uid topic) (findClientId uid topic)
      topic = clientTopic ∨ ∃ rest, topic = clientTopic ++ "/" ++ rest := by
  constructor
  · intro type clientId hc hslash
    exact ⟨findTopicType_getTopic hc, findClientId_getTopic hc hslash⟩
  · intro topic hclient
    obtain ⟨rest, hrest⟩ := toList_of_findClientId hclient
    have htopic : topic.toList =
        (getTopic uid (findTopicType uid topic) (findClientId uid topic)).toList ++
          rest.dropWhile fun x => x ≠ '/' := by
      rw [toList_getTopic hclient, findClientId_eq hclient hrest, List.append_assoc,
        List.cons_append, List.takeWhile_append_dropWhile]
      exact hrest
    dsimp only
    rcases dropWhile_slash rest with hdrop | ⟨tail, hdrop⟩
    · left
      rw [hdrop, List.append_nil] at htopic
      exact String.toList_inj.mp htopic
    · right
      refine ⟨.ofList tail, String.toList_inj.mp ?_⟩
      rw [htopic, hdrop, String.toList_append, String.toList_append, String.toList_ofList,
        List.append_assoc, List.singleton_append, String.toList_ofList]

/-- A uid with slashes and the words of the kinds in it. -/
theorem topics_roundTrip_porch :
    findTopicType "porch/offer" (getTopic "porch/offer" .ice "answer") = .ice ∧
      findClientId "porch/offer" (getTopic "porch/offer" .ice "answer") = "answer" := by
  have h := (topics_roundTrip "porch/offer").1 .ice "answer" (by decide) (by decide)
  exact ⟨h.1, h.2 (by decide)⟩

/-- No client is found in a topic of the kind `Unknown`. -/
theorem not_roundTrip_unknown :
    ¬ ∀ type clientId, clientId ≠ "" → '/' ∉ clientId.toList →
      findTopicType "porch" (getTopic "porch" type clientId) = type ∧
        findClientId "porch" (getTopic "porch" type clientId) = clientId := by
  intro h
  have hclient := (h .unknown "app" (by decide) (by decide)).2
  unfold findClientId at hclient
  rw [findTopicType_getTopic (by decide)] at hclient
  exact absurd hclient (by decide)

/-! ### The two maps -/

/-- `client_id_to_peer_id_` and `peer_id_to_client_id_`. -/
structure ClientMaps where
  clientToPeer : String → Option ℕ := fun _ => none
  peerToClient : ℕ → Option String := fun _ => none

namespace ClientMaps

/-- The section of `OnMessage` that enters a new peer. -/
def link (m : ClientMaps) (c : String) (p : ℕ) : ClientMaps where
  clientToPeer := Function.update m.clientToPeer c (some p)
  peerToClient := Function.update m.peerToClient p (some c)

/-- `OnPeerExpired`: the client's entry goes only if it still names this peer. -/
def onPeerExpired (m : ClientMaps) (p : ℕ) : ClientMaps :=
  match m.peerToClient p with
  | none => m
  | some c =>
    { clientToPeer :=
        if m.clientToPeer c = some p then Function.update m.clientToPeer c none
        else m.clientToPeer
      peerToClient := Function.update m.peerToClient p none }

variable {m : ClientMaps} {c c' : String} {p p' : ℕ}

theorem clientToPeer_link :
    (m.link c p).clientToPeer c' = if c' = c then some p else m.clientToPeer c' :=
  Function.update_apply m.clientToPeer c (some p) c'

theorem peerToClient_link :
    (m.link c p).peerToClient p' = if p' = p then some c else m.peerToClient p' :=
  Function.update_apply m.peerToClient p (some c) p'

/-- No entry is left that names the expired peer. -/
theorem peerToClient_onPeerExpired :
    (m.onPeerExpired p).peerToClient p' = if p' = p then none else m.peerToClient p' := by
  rw [onPeerExpired]
  split
  case h_1 hnone =>
    split
    case isTrue h => rw [h, hnone]
    case isFalse => rfl
  case h_2 c _ => exact Function.update_apply m.peerToClient p none p'

/-- What `OnPeerExpired` leaves of the clients' entries, if it knows the peer. -/
theorem clientToPeer_onPeerExpired_eq {c₀ : String} (hp : m.peerToClient p = some c₀) :
    (m.onPeerExpired p).clientToPeer =
      if m.clientToPeer c₀ = some p then Function.update m.clientToPeer c₀ none
      else m.clientToPeer := by
  simp only [onPeerExpired, hp]

/-- A client's entry for another peer stays. -/
theorem clientToPeer_onPeerExpired_of_ne (hc : m.clientToPeer c = some p') (hne : p' ≠ p) :
    (m.onPeerExpired p).clientToPeer c = some p' := by
  cases hp : m.peerToClient p with
  | none =>
    rw [onPeerExpired, hp]
    exact hc
  | some c₀ =>
    rw [clientToPeer_onPeerExpired_eq hp]
    split
    case isTrue h =>
      have hne' : c ≠ c₀ := by
        rintro rfl
        exact hne (Option.some.inj (hc.symm.trans h))
      rw [Function.update_of_ne hne', hc]
    case isFalse => exact hc

/-- What is left was there before, and it does not name the expired peer, if the maps agree
    about that peer. -/
theorem clientToPeer_onPeerExpired (hmatch : m.clientToPeer c = some p → m.peerToClient p = some c)
    (h : (m.onPeerExpired p).clientToPeer c = some p') : m.clientToPeer c = some p' ∧ p' ≠ p := by
  cases hp : m.peerToClient p with
  | none =>
    rw [onPeerExpired, hp] at h
    refine ⟨h, ?_⟩
    rintro rfl
    rw [hmatch h] at hp
    cases hp
  | some c₀ =>
    rw [clientToPeer_onPeerExpired_eq hp] at h
    split at h
    case isTrue =>
      rw [Function.update_apply] at h
      split at h
      case isTrue => cases h
      case isFalse hc =>
        refine ⟨h, ?_⟩
        rintro rfl
        exact hc (Option.some.inj ((hmatch h).symm.trans hp))
    case isFalse hother =>
      refine ⟨h, ?_⟩
      rintro rfl
      obtain rfl : c = c₀ := Option.some.inj ((hmatch h).symm.trans hp)
      exact hother h

end ClientMaps

end PiWebrtc.Signaling
