import PiWebrtc.Signaling.MqttService
import PiWebrtc.Signaling.PeerRegistry

namespace PiWebrtc.Signaling

open Transition

/-!
# The maps and the registry

`OnMessage` looks the client's peer up, takes it from the registry or creates a new one,
adds that to the registry and enters it in the maps, in sections of its own; the cleaner
takes the expired peers out of the registry and then calls `OnPeerExpired` for each.  All of
these may run at once, also for one client.

When a peer connection closes is not part of the source: `closes` tells for which peers it
may.  What the code relies on is that a connection does not close before a message was
handed to it.  The connect deadline is armed by a remote offer or by a connection that
failed, and a DISCONNECT command comes over a channel of a connected peer.

* `maps_consistent` — the maps agree with each other and with the registry, in every
  interleaving, and no expiry takes the entry of another peer away.
-/

/-- The registry, the peers that have expired, the two maps, how many peers were created
    (their ids are the numbers below), and the peers a message was handed to. -/
structure MqttState where
  registry : PeerRegistry := {}
  expired : List ℕ := []
  maps : ClientMaps := {}
  created : ℕ := 0
  handed : List ℕ := []

/-- The atomic operations. -/
inductive MqttOp where
  /-- `OnMessage`: look for the client's peer, under `client_mutex_`. -/
  | lookup (c : String)
  /-- `PeerRegistry::Get`, under the registry's mutex. -/
  | get (c : String) (p : ℕ)
  /-- `CreatePeer`: ask the conductor for a peer. -/
  | create (c : String)
  /-- `CreatePeer`: `PeerRegistry::Add`. -/
  | add (c : String) (p : ℕ)
  /-- `OnMessage`: enter the new peer in both maps, under `client_mutex_`. -/
  | map (c : String) (p : ℕ)
  /-- `OnRemoteSdp` and `OnRemoteIce`. -/
  | handle (p : ℕ)
  /-- `MarkExpired`. -/
  | markExpired (p : ℕ)
  /-- `PeerRegistry::Sweep`, under the registry's mutex. -/
  | sweep
  /-- `OnPeerExpired`, under `client_mutex_`. -/
  | onPeerExpired (p : ℕ)
  deriving DecidableEq, Repr

/-- What comes in: a message with its topic, a peer connection that closes, and the cleaner
    that was woken. -/
inductive MqttCall where
  | message (topic : String)
  | closed (p : ℕ)
  | sweep
  deriving DecidableEq, Repr

/-- Execute one operation; the outcome tells whether the conductor could create a peer. -/
def mqttExec (op : MqttOp) (created : Bool) (s : Threads MqttState MqttOp) :
    Option (Effect MqttState MqttOp) :=
  let st := s.shared
  match op with
  | .lookup c =>
    match st.maps.clientToPeer c with
    | some p => some ⟨st, [.get c p], []⟩
    | none => some ⟨st, [.create c], []⟩
  | .get c p =>
    match st.registry.get (· ∈ st.expired) p with
    | some q => some ⟨st, [.handle q], []⟩
    | none => some ⟨st, [.create c], []⟩
  | .create c =>
    if created then some ⟨{ st with created := st.created + 1 }, [.add c st.created], []⟩
    else some ⟨st, [], []⟩
  | .add c p => some ⟨{ st with registry := st.registry.add p }, [.map c p], []⟩
  | .map c p => some ⟨{ st with maps := st.maps.link c p }, [.handle p], []⟩
  | .handle p =>
    match st.registry.get (· ∈ st.expired) p with
    | some q => some ⟨{ st with handed := q :: st.handed }, [], []⟩
    | none => some ⟨st, [], []⟩
  | .markExpired p => some ⟨{ st with expired := p :: st.expired }, [], []⟩
  | .sweep =>
    some ⟨{ st with registry := st.registry.sweep (· ∈ st.expired) },
      (st.registry.expiredPeers (· ∈ st.expired)).map .onPeerExpired, []⟩
  | .onPeerExpired p => some ⟨{ st with maps := st.maps.onPeerExpired p }, [], []⟩

/-- The operations of a call; a message whose topic names no client is dropped. -/
def mqttEntry (closes : MqttState → ℕ → Bool) (uid : String) (call : MqttCall)
    (s : Threads MqttState MqttOp) : Option (List MqttOp) :=
  match call with
  | .message topic =>
    if findTopicType uid topic = .unknown ∨ findClientId uid topic = "" then some []
    else some [.lookup (findClientId uid topic)]
  | .closed p => if closes s.shared p then some [.markExpired p] else none
  | .sweep => some [.sweep]

/-- The service, with its registry and maps empty. -/
def mqttCode (closes : MqttState → ℕ → Bool) (uid : String) :
    Code MqttState MqttOp Bool MqttCall where
  init := { shared := {}, todo := [] }
  entry := mqttEntry closes uid
  exec := mqttExec

/-- What is asked for, at every moment. -/
structure MapsConsistent (s : Threads MqttState MqttOp) : Prop where
  /-- Every client's entry has the matching entry of its peer. -/
  matching : ∀ c p, s.shared.maps.clientToPeer c = some p →
    s.shared.maps.peerToClient p = some c
  /-- The peers' entries are those of peers in the registry or on their way out. -/
  held : ∀ p c, s.shared.maps.peerToClient p = some c →
    p ∈ s.shared.registry.peers ∨ .onPeerExpired p ∈ s.inFlight

/-- What is asked for, of a step: if it is the expiry of a peer, the clients that have
    another peer keep it. -/
def KeepsOthers (s s' : Threads MqttState MqttOp) (i : ℕ) : Prop :=
  ∀ p rest, s.todo[i]? = some (.onPeerExpired p :: rest) →
    ∀ c p', s.shared.maps.clientToPeer c = some p' → p' ≠ p →
      s'.shared.maps.clientToPeer c = some p' ∧ s'.shared.maps.peerToClient p' = some c

/-! ### Peers on their way into the maps -/

/-- The peer that an operation is about to add or to enter in the maps. -/
def MqttOp.brings : MqttOp → Option ℕ
  | .add _ p => some p
  | .map _ p => some p
  | _ => none

/-- The peer that an operation got from the maps. -/
def MqttOp.uses : MqttOp → Option ℕ
  | .get _ p => some p
  | .handle p => some p
  | .markExpired p => some p
  | _ => none

/-- The peers that are not yet in the maps. -/
def coming (flight : Multiset MqttOp) : Multiset ℕ := flight.filterMap MqttOp.brings

@[simp] theorem coming_add (f g : Multiset MqttOp) : coming (f + g) = coming f + coming g :=
  Multiset.filterMap_add MqttOp.brings f g

@[simp] theorem coming_coe (ops : List MqttOp) :
    coming ↑ops = ↑(ops.filterMap MqttOp.brings) := rfl

theorem coming_cons_some {op : MqttOp} {p : ℕ} (h : op.brings = some p)
    (others : Multiset MqttOp) : coming (op ::ₘ others) = p ::ₘ coming others :=
  Multiset.filterMap_cons_some MqttOp.brings op others h

theorem coming_cons_none {op : MqttOp} (h : op.brings = none) (others : Multiset MqttOp) :
    coming (op ::ₘ others) = coming others :=
  Multiset.filterMap_cons_none op others h

theorem mem_coming {flight : Multiset MqttOp} {op : MqttOp} {p : ℕ} (hop : op ∈ flight)
    (h : op.brings = some p) : p ∈ coming flight :=
  (Multiset.mem_filterMap MqttOp.brings flight).mpr ⟨op, hop, h⟩

/-- A peer that was created and has come into the maps. -/
def Known (st : MqttState) (flight : Multiset MqttOp) (p : ℕ) : Prop :=
  p < st.created ∧ p ∉ coming flight

/-- A peer that the maps or one of its flags name. -/
def Marked (st : MqttState) (p : ℕ) : Prop :=
  (∃ c, st.maps.peerToClient p = some c) ∨ p ∈ st.handed ∨ p ∈ st.expired

/-- A peer that is marked or that an operation names. -/
def Named (st : MqttState) (flight : Multiset MqttOp) (p : ℕ) : Prop :=
  Marked st p ∨ ∃ op ∈ flight, op.uses = some p

/-- The operation that is executed names its peer. -/
theorem named_self {st : MqttState} {op : MqttOp} {others : Multiset MqttOp} {p : ℕ}
    (hop : op.uses = some p) : Named st (op ::ₘ others) p :=
  .inr ⟨op, Multiset.mem_cons_self op others, hop⟩

/-- What is named after an operation was named before, if what it marks and what it
    continues with were. -/
theorem Named.before {st st' : MqttState} {op : MqttOp} {others : Multiset MqttOp}
    {next : List MqttOp} {p : ℕ} (h : Named st' (↑next + others) p)
    (hmarked : Marked st' p → Named st (op ::ₘ others) p)
    (hnext : ∀ o ∈ next, o.uses = some p → Named st (op ::ₘ others) p) :
    Named st (op ::ₘ others) p := by
  rcases h with h | ⟨o, ho, hu⟩
  · exact hmarked h
  · rcases Multiset.mem_add.mp ho with ho | ho
    · exact hnext o ho hu
    · exact .inr ⟨o, Multiset.mem_cons_of_mem ho, hu⟩

/-- What is in flight after an operation, but does not come from it, was there before. -/
theorem mem_before {op o : MqttOp} {others : Multiset MqttOp} {next : List MqttOp}
    (h : o ∈ (↑next + others : Multiset MqttOp)) (hnext : o ∉ next) : o ∈ op ::ₘ others :=
  Multiset.mem_cons_of_mem ((Multiset.mem_add.mp h).resolve_left fun ho => hnext ho)

/-- What is in flight and is not executed stays there. -/
theorem mem_after {op o : MqttOp} {others : Multiset MqttOp} (h : o ∈ op ::ₘ others)
    (hne : o ≠ op) (next : List MqttOp) : o ∈ (↑next + others : Multiset MqttOp) :=
  Multiset.mem_add.mpr (.inr ((Multiset.mem_cons.mp h).resolve_left hne))

/-- **The invariant.** The maps agree; a peer is named only when it has come into the maps;
    and each one that is still on its way there is on it once. -/
structure MapsInv (st : MqttState) (flight : Multiset MqttOp) : Prop where
  matching : ∀ c p, st.maps.clientToPeer c = some p → st.maps.peerToClient p = some c
  held : ∀ p c, st.maps.peerToClient p = some c →
    p ∈ st.registry.peers ∨ .onPeerExpired p ∈ flight
  known : ∀ p, Named st flight p → Known st flight p
  coming_created : ∀ p ∈ coming flight, p < st.created
  coming_once : (coming flight).Nodup
  added : ∀ c p, .map c p ∈ flight → p ∈ st.registry.peers

namespace MapsInv

variable {st st' : MqttState} {op : MqttOp} {others : Multiset MqttOp}

/-- **Frame.** An operation that leaves the maps and the registry alone, brings no peer and
    names only those that were named. -/
theorem keep (h : MapsInv st (op ::ₘ others)) {next : List MqttOp}
    (hmaps : st'.maps = st.maps) (hreg : st'.registry = st.registry)
    (hcreated : st'.created = st.created) (hbrings : op.brings = none)
    (hnotify : ∀ p, .onPeerExpired p ≠ op) (hnext : ∀ o ∈ next, o.brings = none)
    (hmarked : ∀ p, Marked st' p → Named st (op ::ₘ others) p)
    (huses : ∀ o ∈ next, ∀ p, o.uses = some p → Named st (op ::ₘ others) p) :
    MapsInv st' (↑next + others) := by
  have hcoming : coming (↑next + others) = coming (op ::ₘ others) := by
    refine Code.filterMap_next ?_
    rw [List.filterMap_eq_nil_iff.mpr hnext, hbrings, Option.toList_none]
  refine ⟨?_, ?_, ?_, ?_, ?_, ?_⟩
  · rw [hmaps]
    exact h.matching
  · intro p c hp
    rw [hmaps] at hp
    rw [hreg]
    exact (h.held p c hp).imp_right fun hmem => mem_after hmem (hnotify p) next
  · intro p hp
    rw [Known, hcreated, hcoming]
    exact h.known p (hp.before (hmarked p) fun o ho => huses o ho p)
  · rw [hcoming, hcreated]
    exact h.coming_created
  · rw [hcoming]
    exact h.coming_once
  · intro c p hop
    rw [hreg]
    refine h.added c p (mem_before hop fun ho => ?_)
    cases hnext _ ho

/-- A new peer is nobody's yet. -/
theorem create {c : String} (h : MapsInv st (.create c ::ₘ others)) :
    MapsInv { st with created := st.created + 1 } (↑[MqttOp.add c st.created] + others) := by
  have hbefore : coming (.create c ::ₘ others) = coming others := coming_cons_none rfl others
  have hafter : coming (↑[MqttOp.add c st.created] + others) = st.created ::ₘ coming others :=
    coming_cons_some rfl others
  have hlt := h.coming_created
  have honce := h.coming_once
  rw [hbefore] at hlt honce
  refine ⟨h.matching, ?_, ?_, ?_, ?_, ?_⟩
  · intro p c' hp
    exact (h.held p c' hp).imp_right fun hmem => mem_after hmem (by simp) _
  · intro p hp
    obtain ⟨hp1, hp2⟩ := h.known p (hp.before .inl (by simp [MqttOp.uses]))
    rw [hbefore] at hp2
    refine ⟨Nat.lt_succ_of_lt hp1, ?_⟩
    rw [hafter, Multiset.mem_cons]
    rintro (rfl | hp)
    · exact Nat.lt_irrefl _ hp1
    · exact hp2 hp
  · intro p hp
    rw [hafter, Multiset.mem_cons] at hp
    rcases hp with rfl | hp
    · exact Nat.lt_succ_self _
    · exact Nat.lt_succ_of_lt (hlt p hp)
  · rw [hafter, Multiset.nodup_cons]
    exact ⟨fun hmem => Nat.lt_irrefl _ (hlt _ hmem), honce⟩
  · intro c' p hop
    exact h.added c' p (mem_before hop (by simp))

/-- The new peer comes into the registry. -/
theorem add {c : String} {p : ℕ} (h : MapsInv st (.add c p ::ₘ others)) :
    MapsInv { st with registry := st.registry.add p } (↑[MqttOp.map c p] + others) := by
  have hsame : coming (↑[MqttOp.map c p] + others) = coming (.add c p ::ₘ others) :=
    (coming_cons_some rfl others).trans (coming_cons_some rfl others).symm
  refine ⟨h.matching, ?_, ?_, ?_, ?_, ?_⟩
  · intro q c' hq
    exact (h.held q c' hq).imp (fun hmem => PeerRegistry.mem_add.mpr (.inl hmem))
      fun hmem => mem_after hmem (by simp) _
  · intro q hq
    rw [Known, hsame]
    exact h.known q (hq.before .inl (by simp [MqttOp.uses]))
  · rw [hsame]
    exact h.coming_created
  · rw [hsame]
    exact h.coming_once
  · intro c' q hop
    rcases Multiset.mem_add.mp hop with hop | hop
    · cases List.mem_singleton.mp hop
      exact PeerRegistry.mem_add.mpr (.inr rfl)
    · exact PeerRegistry.mem_add.mpr (.inl (h.added c' q (Multiset.mem_cons_of_mem hop)))

/-- The new peer comes into the maps, and it is on its way there no more. -/
theorem map {c : String} {p : ℕ} (h : MapsInv st (.map c p ::ₘ others)) :
    MapsInv { st with maps := st.maps.link c p } (↑[MqttOp.handle p] + others) := by
  have hbefore : coming (.map c p ::ₘ others) = p ::ₘ coming others := coming_cons_some rfl others
  have hafter : coming (↑[MqttOp.handle p] + others) = coming others := coming_cons_none rfl others
  have hlt := h.coming_created
  have honce := h.coming_once
  rw [hbefore] at hlt honce
  obtain ⟨hgone, honce⟩ := Multiset.nodup_cons.mp honce
  -- until now nobody has named the new peer
  have hfresh : ∀ q, Named st (.map c p ::ₘ others) q → q ≠ p := by
    rintro q hq rfl
    refine (h.known q hq).2 ?_
    rw [hbefore]
    exact Multiset.mem_cons_self _ _
  refine ⟨?_, ?_, ?_, ?_, ?_, ?_⟩
  · intro c' q hq
    rw [ClientMaps.clientToPeer_link] at hq
    rw [ClientMaps.peerToClient_link]
    split at hq
    case isTrue hc => rw [if_pos (Option.some.inj hq).symm, hc]
    case isFalse hc =>
      have hmatch := h.matching c' q hq
      rw [if_neg (hfresh q (.inl (.inl ⟨c', hmatch⟩))), hmatch]
  · intro q c' hq
    rw [ClientMaps.peerToClient_link] at hq
    split at hq
    case isTrue hqp =>
      rw [hqp]
      exact .inl (h.added c p (Multiset.mem_cons_self _ _))
    case isFalse => exact (h.held q c' hq).imp_right fun hmem => mem_after hmem (by simp) _
  · intro q hq
    rw [Known, hafter]
    by_cases hqp : q = p
    · rw [hqp]
      exact ⟨hlt p (Multiset.mem_cons_self _ _), hgone⟩
    · have hnamed : Named st (.map c p ::ₘ others) q := by
        refine hq.before ?_ ?_
        · rintro (⟨c', hq⟩ | hq)
          · rw [ClientMaps.peerToClient_link, if_neg hqp] at hq
            exact .inl (.inl ⟨c', hq⟩)
          · exact .inl (.inr hq)
        · intro o ho hu
          rw [List.mem_singleton.mp ho] at hu
          exact absurd (Option.some.inj hu).symm hqp
      obtain ⟨hq1, hq2⟩ := h.known q hnamed
      rw [hbefore, Multiset.mem_cons, not_or] at hq2
      exact ⟨hq1, hq2.2⟩
  · intro q hq
    rw [hafter] at hq
    exact hlt q (Multiset.mem_cons_of_mem hq)
  · rw [hafter]
    exact honce
  · intro c' q hop
    exact h.added c' q (mem_before hop (by simp))

/-- What a sweep takes out of the registry it tells the service about. -/
theorem sweep (h : MapsInv st (.sweep ::ₘ others)) :
    MapsInv { st with registry := st.registry.sweep (· ∈ st.expired) }
      (↑((st.registry.expiredPeers (· ∈ st.expired)).map MqttOp.onPeerExpired) + others) := by
  set told := (st.registry.expiredPeers (· ∈ st.expired)).map MqttOp.onPeerExpired with htold
  have hsilent : ∀ o ∈ told, o.brings = none ∧ o.uses = none := by
    intro o ho
    obtain ⟨p, -, rfl⟩ := List.mem_map.mp ho
    exact ⟨rfl, rfl⟩
  have hcoming : coming (↑told + others) = coming (.sweep ::ₘ others) := by
    rw [coming_add, coming_coe, List.filterMap_eq_nil_iff.mpr fun o ho => (hsilent o ho).1,
      coming_cons_none rfl]
    exact zero_add _
  refine ⟨h.matching, ?_, ?_, ?_, ?_, ?_⟩
  · intro p c hp
    rcases h.held p c hp with hmem | hmem
    -- an entry of a peer that is swept out is backed by the call that is to come
    · by_cases hexp : p ∈ st.expired
      · refine .inr (Multiset.mem_add.mpr (.inl (List.mem_map.mpr ⟨p, ?_, rfl⟩)))
        exact PeerRegistry.mem_expiredPeers.mpr ⟨hmem, decide_eq_true hexp⟩
      · exact .inl (PeerRegistry.mem_sweep.mpr ⟨hmem, decide_eq_false hexp⟩)
    · exact .inr (mem_after hmem (by simp) _)
  · intro p hp
    rw [Known, hcoming]
    refine h.known p (hp.before .inl fun o ho hu => ?_)
    rw [(hsilent o ho).2] at hu
    cases hu
  · rw [hcoming]
    exact h.coming_created
  · rw [hcoming]
    exact h.coming_once
  · intro c p hop
    have hbefore : .map c p ∈ .sweep ::ₘ others := by
      refine mem_before hop fun ho => ?_
      cases (hsilent _ ho).1
    -- a peer that is not yet in the maps has not expired
    refine PeerRegistry.mem_sweep.mpr ⟨h.added c p hbefore, decide_eq_false fun hexp => ?_⟩
    exact (h.known p (.inl (.inr (.inr hexp)))).2 (mem_coming hbefore rfl)

/-- The entries of an expired peer go. -/
theorem onPeerExpired {p : ℕ} (h : MapsInv st (.onPeerExpired p ::ₘ others)) :
    MapsInv { st with maps := st.maps.onPeerExpired p } (↑([] : List MqttOp) + others) := by
  have hcoming : coming (↑([] : List MqttOp) + others) = coming (.onPeerExpired p ::ₘ others) := by
    rw [coming_add, coming_cons_none rfl]
    exact zero_add _
  refine ⟨?_, ?_, ?_, ?_, ?_, ?_⟩
  · intro c q hq
    obtain ⟨hq, hqp⟩ := ClientMaps.clientToPeer_onPeerExpired (h.matching c p) hq
    rw [ClientMaps.peerToClient_onPeerExpired, if_neg hqp]
    exact h.matching c q hq
  · intro q c hq
    rw [ClientMaps.peerToClient_onPeerExpired] at hq
    split at hq
    case isTrue => cases hq
    case isFalse hqp =>
      exact (h.held q c hq).imp_right fun hmem => mem_after hmem (by simpa using hqp) _
  · intro q hq
    rw [Known, hcoming]
    refine h.known q (hq.before ?_ (by simp))
    rintro (⟨c, hq⟩ | hq)
    · rw [ClientMaps.peerToClient_onPeerExpired] at hq
      split at hq
      case isTrue => cases hq
      case isFalse => exact .inl (.inl ⟨c, hq⟩)
    · exact .inl (.inr hq)
  · rw [hcoming]
    exact h.coming_created
  · rw [hcoming]
    exact h.coming_once
  · intro c q hop
    exact h.added c q (mem_before hop (by simp))

end MapsInv

/-! ### All interleavings -/

/-- Every operation keeps the invariant. -/
theorem mqttExec_keeps {s : Threads MqttState MqttOp} {op : MqttOp} {others : Multiset MqttOp}
    {x : Bool} {e : Effect MqttState MqttOp} (hfl : s.inFlight = op ::ₘ others)
    (hI : MapsInv s.shared s.inFlight) (he : mqttExec op x s = some e) :
    MapsInv e.shared (↑e.next + others + ↑e.spawn.flatten) := by
  rw [hfl] at hI
  rw [Code.next_add_spawn]
  cases op with
  | lookup c =>
    simp only [mqttExec] at he
    split at he
    case h_1 p hp =>
      cases he
      -- the peer that the client's entry leads to has an entry of its own
      refine hI.keep rfl rfl rfl rfl (by simp) (by simp [MqttOp.brings]) (fun q => .inl) ?_
      intro o ho q hu
      rw [List.mem_singleton.mp ho] at hu
      obtain rfl : p = q := Option.some.inj hu
      exact .inl (.inl ⟨c, hI.matching c p hp⟩)
    case h_2 =>
      cases he
      exact hI.keep rfl rfl rfl rfl (by simp) (by simp [MqttOp.brings]) (fun q => .inl)
        (by simp [MqttOp.uses])
  | get c p =>
    simp only [mqttExec] at he
    split at he
    case h_1 q hq =>
      cases he
      refine hI.keep rfl rfl rfl rfl (by simp) (by simp [MqttOp.brings]) (fun q => .inl) ?_
      intro o ho q' hu
      rw [List.mem_singleton.mp ho] at hu
      obtain rfl : q = q' := Option.some.inj hu
      rw [(PeerRegistry.get_eq_some.mp hq).1]
      exact named_self rfl
    case h_2 =>
      cases he
      exact hI.keep rfl rfl rfl rfl (by simp) (by simp [MqttOp.brings]) (fun q => .inl)
        (by simp [MqttOp.uses])
  | create c =>
    simp only [mqttExec] at he
    split at he
    case isTrue =>
      cases he
      exact hI.create
    case isFalse =>
      cases he
      exact hI.keep rfl rfl rfl rfl (by simp) (by simp) (fun q => .inl) (by simp)
  | add c p =>
    cases he
    exact hI.add
  | map c p =>
    cases he
    exact hI.map
  | handle p =>
    simp only [mqttExec] at he
    split at he
    case h_1 q hq =>
      cases he
      refine hI.keep rfl rfl rfl rfl (by simp) (by simp) ?_ (by simp)
      rintro q' (hq' | hq' | hq')
      · exact .inl (.inl hq')
      -- the peer that is handed the message is the one that `handle` uses
      · rcases List.mem_cons.mp hq' with rfl | hq'
        · rw [(PeerRegistry.get_eq_some.mp hq).1]
          exact named_self rfl
        · exact .inl (.inr (.inl hq'))
      · exact .inl (.inr (.inr hq'))
    case h_2 =>
      cases he
      exact hI.keep rfl rfl rfl rfl (by simp) (by simp) (fun q => .inl) (by simp)
  | markExpired p =>
    cases he
    refine hI.keep rfl rfl rfl rfl (by simp) (by simp) ?_ (by simp)
    rintro q (hq | hq | hq)
    · exact .inl (.inl hq)
    · exact .inl (.inr (.inl hq))
    · rcases List.mem_cons.mp hq with rfl | hq
      · exact named_self rfl
      · exact .inl (.inr (.inr hq))
  | sweep =>
    cases he
    exact (List.append_nil _).symm ▸ hI.sweep
  | onPeerExpired p =>
    cases he
    exact hI.onPeerExpired

/-- A call brings no peer, and a connection that closes is one that was handed a message. -/
theorem mqttEntry_keeps {closes : MqttState → ℕ → Bool} {uid : String}
    (hcloses : ∀ st p, closes st p = true → p ∈ st.handed) {s : Threads MqttState MqttOp}
    {call : MqttCall} {ops : List MqttOp} (hI : MapsInv s.shared s.inFlight)
    (hops : mqttEntry closes uid call s = some ops) :
    MapsInv s.shared (s.inFlight + ↑ops) := by
  have hquiet : (∀ o ∈ ops, o.brings = none) ∧
      ∀ o ∈ ops, ∀ p, o.uses = some p → p ∈ s.shared.handed := by
    cases call with
    | message topic =>
      simp only [mqttEntry] at hops
      split at hops <;> cases hops <;> simp [MqttOp.brings, MqttOp.uses]
    | closed p =>
      simp only [mqttEntry] at hops
      split at hops
      case isTrue h =>
        cases hops
        simpa [MqttOp.brings, MqttOp.uses] using hcloses s.shared p h
      case isFalse => cases hops
    | sweep =>
      cases hops
      simp [MqttOp.brings, MqttOp.uses]
  have hcoming : coming (s.inFlight + ↑ops) = coming s.inFlight := by
    rw [coming_add, coming_coe, List.filterMap_eq_nil_iff.mpr hquiet.1]
    exact add_zero _
  refine ⟨hI.matching, ?_, ?_, ?_, ?_, ?_⟩
  · intro p c hp
    exact (hI.held p c hp).imp_right fun hmem => Multiset.mem_add.mpr (.inl hmem)
  · intro p hp
    rw [Known, hcoming]
    refine hI.known p ?_
    rcases hp with hp | ⟨o, ho, hu⟩
    · exact .inl hp
    · rcases Multiset.mem_add.mp ho with ho | ho
      · exact .inr ⟨o, ho, hu⟩
      · exact .inl (.inr (.inl (hquiet.2 o ho p hu)))
  · rw [hcoming]
    exact hI.coming_created
  · rw [hcoming]
    exact hI.coming_once
  · intro c p hop
    rcases Multiset.mem_add.mp hop with hop | hop
    · exact hI.added c p hop
    · cases hquiet.1 _ hop

/-- With nothing in the maps and nothing in flight nobody is named. -/
theorem mapsInv_init (closes : MqttState → ℕ → Bool) (uid : String) :
    MapsInv (mqttCode closes uid).init.shared (mqttCode closes uid).init.inFlight := by
  refine ⟨?_, ?_, ?_, ?_, ?_, ?_⟩
  · intro c p hp
    cases hp
  · intro p c hp
    cases hp
  · rintro p ((⟨c, hp⟩ | hp | hp) | ⟨o, ho, -⟩)
    · cases hp
    · cases hp
    · cases hp
    · exact absurd ho (Multiset.notMem_zero o)
  · intro p hp
    exact absurd hp (Multiset.notMem_zero p)
  · exact Multiset.nodup_zero
  · intro c p hop
    exact absurd hop (Multiset.notMem_zero _)

/-- What holds of every state that is reached. -/
theorem mapsInv_run {closes : MqttState → ℕ → Bool} {uid : String}
    (hcloses : ∀ st p, closes st p = true → p ∈ st.handed) {as : List (Label Bool MqttCall)}
    {s : Threads MqttState MqttOp} (hrun : (mqttCode closes uid).machine.run as = some s) :
    MapsInv s.shared s.inFlight :=
  Code.interleavings (fun _ _ _ hI hops => mqttEntry_keeps hcloses hI hops)
    (fun _ _ _ _ _ hfl hI he => mqttExec_keeps hfl hI he) (mapsInv_init closes uid) hrun

/-- **The maps stay consistent.** In every state that any interleaving reaches, the clients'
    entries match the peers', those are entries of peers that the registry holds or that are
    being swept out of it, and the next step, if it is the expiry of a peer, leaves the
    entries of all other peers. -/
theorem maps_consistent (closes : MqttState → ℕ → Bool) (uid : String)
    (hcloses : ∀ st p, closes st p = true → p ∈ st.handed) (as : List (Label Bool MqttCall))
    (s : Threads MqttState MqttOp) (hrun : (mqttCode closes uid).machine.run as = some s) :
    MapsConsistent s ∧ ∀ i x s', (mqttCode closes uid).step s (.run i x) = some s' →
      KeepsOthers s s' i := by
  have hinv := mapsInv_run hcloses hrun
  refine ⟨⟨hinv.matching, hinv.held⟩, ?_⟩
  intro i x s' hstep p rest hi c p' hc hne
  -- the step is the call of the listener, and it erases only what belongs to `p`
  obtain ⟨op, rest', others, e, hi', -, he, hsh, -⟩ := Code.step_run hstep
  rw [hi, Option.some.injEq, List.cons.injEq] at hi'
  obtain ⟨rfl, -⟩ := hi'
  cases he
  rw [hsh]
  refine ⟨ClientMaps.clientToPeer_onPeerExpired_of_ne hc hne, ?_⟩
  refine ClientMaps.peerToClient_onPeerExpired.trans ?_
  rw [if_neg hne]
  exact hinv.matching c p' hc

/-- A client sends an offer, its peer expires, and while the sweep is under way the client
    sends another offer, which gets it a new peer before the first one's expiry is told. -/
def replacedPeer : List (Label Bool MqttCall) :=
  [.call (.message "uid/offer/c1"), .run 0 true, .run 0 true, .run 0 true, .run 0 true,
   .run 0 true, .call (.closed 0), .run 1 true, .call .sweep, .run 2 true,
   .call (.message "uid/offer/c1"), .run 3 true, .run 3 true, .run 3 true, .run 3 true,
   .run 3 true]

theorem maps_consistent_replacedPeer :
    ∃ s s', (mqttCode (fun st p => p ∈ st.handed) "uid").machine.run replacedPeer = some s ∧
      (mqttCode (fun st p => p ∈ st.handed) "uid").step s (.run 2 true) = some s' ∧
      s.shared.maps.clientToPeer "c1" = some 1 ∧ s.shared.maps.peerToClient 0 = some "c1" ∧
      MapsConsistent s ∧ KeepsOthers s s' 2 := by
  have h := fun s => maps_consistent (fun st p => p ∈ st.handed) "uid"
    (fun _ _ hp => of_decide_eq_true hp) replacedPeer s
  exact ⟨_, _, rfl, rfl, by decide, by decide, (h _ rfl).1, (h _ rfl).2 2 true _ rfl⟩

end PiWebrtc.Signaling
