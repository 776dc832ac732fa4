import PiWebrtc.Lib.Machine
import PiWebrtc.DataChannel.Reassembly

namespace PiWebrtc.DataChannel

open Scatter Transition

/-!
# Several remotes on one channel

Through a relay the packets of several remotes arrive on one channel, and each remote
chooses its stream ids by itself.  `last_sequence_` is kept for each remote, `assemblies_`
is not: a packet acts on the assembly of its stream id, whoever opened it.
`streams_attributed` shows that this is all that mixes remotes up.  As long as every stream
packet that finds an assembly comes from the remote that opened it, each assembly is what the
packets of that remote alone say (`RelayInv`).
-/

/-- The packet has byte `b` for position `i` of a payload. -/
def Received.Sends (r : Received) (i : ℕ) (b : UInt8) : Prop :=
  match r.packet.body with
  | .ipc _ _ payload => payload.bytes[i]? = some b
  | .raw payload => payload.bytes[i]? = some b
  | .stream _ (.chunk c) => c.Supplies i b
  | _ => False

/-- The stream that a packet belongs to. -/
def Received.stream (r : Received) : Option String :=
  match r.packet.body with
  | .stream id _ => some id
  | _ => none

/-- The packet is the header of stream `id`. -/
def Received.opens (id : String) (r : Received) : Bool :=
  match r.packet.streamPayload id with
  | some (.header _) => true
  | _ => false

/-- The remote that sent the last header of stream `id`. -/
def openerOf (id : String) (received : List Received) : Option String :=
  (received.reverse.find? (Received.opens id)).map Received.remoteId

/-- What remote `q` sent. -/
def sentBy (q : String) (received : List Received) : List Received :=
  received.filter fun r => r.remoteId = q

/-- A channel, and the packets that it has received. -/
structure Relay where
  channel : IpcChannel
  received : List Received := []

/-- Receive a packet; a run ends at an exception. -/
def Relay.step (s : Relay) (r : Received) : Option Relay :=
  match s.channel.onPacket r with
  | .ok channel => some ⟨channel, s.received ++ [r]⟩
  | .error _ => none

/-- A channel just created, and all orders of packets. -/
def relay (role : ChannelRole) (endpoints : Option EndpointRegistry) : Machine Relay Received where
  init := ⟨.create role endpoints, []⟩
  step := Relay.step

/-- What is asked for, of a packet that is received in `s` and leads to `s'`: what is written is
    for the remote that sent the packet and consists of bytes that this remote sent; and an
    assembly that another remote has opened stays as it is. -/
structure Attributed (s : Relay) (r : Received) (s' : Relay) : Prop where
  written : ∃ writes, s'.channel.written = s.channel.written ++ writes ∧
    ∀ w ∈ writes, w.remoteId = r.remoteId ∧ ∀ i b, w.payload.bytes[i]? = some b →
      ∃ q ∈ s'.received, q.remoteId = r.remoteId ∧ q.stream = r.stream ∧ q.Sends i b
  apart : ∀ id opener, s.channel.assemblies id ≠ none → openerOf id s.received = some opener →
    opener ≠ r.remoteId → s'.channel.assemblies id = s.channel.assemblies id

/-- The payload is a trailer. -/
def StreamPayload.isTrailer : StreamPayload → Bool
  | .trailer _ => true
  | _ => false

/-- The condition: a stream packet that finds an assembly comes from the remote that opened it;
    and at a trailer, the bytes that this remote sent twice since the header are a multiple of
    `2 ^ 64`. -/
def OwnStream (s : Relay) (r : Received) : Prop :=
  match r.packet.body with
  | .stream id payload =>
    (s.channel.assemblies id ≠ none → openerOf id s.received = some r.remoteId) ∧
      (payload.isTrailer = true →
        2 ^ 64 ∣ (viewOf id (sentBy r.remoteId s.received)).repeatedBytes)
  | _ => True

instance (s : Relay) (r : Received) : Decidable (OwnStream s r) := by
  unfold OwnStream
  cases r.packet.body with
  | stream id payload => exact inferInstanceAs (Decidable (_ ∧ _))
  | _ => exact isTrue trivial

/-! ### One more packet -/

theorem body_of_streamPayload {id : String} {packet : Packet} {p : StreamPayload}
    (h : packet.streamPayload id = some p) : packet.body = .stream id p := by
  unfold Packet.streamPayload at h
  split at h
  case h_1 streamId payload hbody =>
    rw [Option.ite_none_right_eq_some, Option.some.injEq] at h
    obtain ⟨rfl, rfl⟩ := h
    exact hbody
  case h_2 => cases h

section Concat

variable {id : String} {received : List Received} {r : Received}

theorem viewOf_concat (id : String) (received : List Received) (r : Received) :
    viewOf id (received ++ [r]) =
      (r.packet.streamPayload id).elim (viewOf id received) (viewOf id received).next := by
  rw [viewOf, List.filterMap_append, List.foldl_append, List.filterMap_cons, List.filterMap_nil]
  cases r.packet.streamPayload id <;> rfl

theorem sentBy_concat_self (received : List Received) (r : Received) :
    sentBy r.remoteId (received ++ [r]) = sentBy r.remoteId received ++ [r] := by
  rw [sentBy, List.filter_append, List.filter_singleton, decide_eq_true rfl, cond_true]
  rfl

theorem sentBy_concat_of_ne {q : String} (received : List Received) (hq : r.remoteId ≠ q) :
    sentBy q (received ++ [r]) = sentBy q received := by
  rw [sentBy, List.filter_append, List.filter_singleton, decide_eq_false hq, cond_false,
    List.append_nil]
  rfl

theorem openerOf_concat (id : String) (received : List Received) (r : Received) :
    openerOf id (received ++ [r]) =
      if r.opens id = true then some r.remoteId else openerOf id received := by
  rw [openerOf, List.reverse_append, List.reverse_singleton, List.singleton_append,
    List.find?_cons]
  cases r.opens id <;> rfl

/-- A chunk of the view was received. -/
theorem exists_of_mem_chunks {c : StreamChunk} (hc : c ∈ (viewOf id received).chunks) :
    ∃ q ∈ received, q.packet.body = .stream id (.chunk c) := by
  induction received using List.reverseRecOn with
  | nil => cases hc
  | append_singleton received r ih =>
    have hold : c ∈ (viewOf id received).chunks →
        ∃ q ∈ received ++ [r], q.packet.body = .stream id (.chunk c) := by
      intro hmem
      obtain ⟨q, hq, hbody⟩ := ih hmem
      exact ⟨q, List.mem_append_left _ hq, hbody⟩
    rw [viewOf_concat] at hc
    cases hp : r.packet.streamPayload id with
    | none =>
      rw [hp] at hc
      exact hold hc
    | some p =>
      rw [hp] at hc
      cases p with
      | header h => cases hc
      | chunk c' =>
        rcases List.mem_append.mp hc with hmem | hmem
        · exact hold hmem
        · refine ⟨r, List.mem_append_right _ (List.mem_singleton_self r), ?_⟩
          rw [List.mem_singleton.mp hmem]
          exact body_of_streamPayload hp
      | trailer t => exact hold hc
      | notSet => exact hold hc

end Concat

/-! ### Every run keeps the remotes apart -/

/-- **The invariant.** Every assembly is what the packets of the remote that opened it say. -/
def RelayInv (s : Relay) : Prop :=
  ∀ id a, s.channel.assemblies id = some a → ∃ opener, openerOf id s.received = some opener ∧
    Assembled a (viewOf id (sentBy opener s.received))

section Step

variable {s s' : Relay} {r : Received}

theorem Relay.step_eq_some (h : s.step r = some s') :
    s.channel.onPacket r = .ok s'.channel ∧ s'.received = s.received ++ [r] := by
  rw [Relay.step] at h
  split at h
  case h_1 channel hok =>
    obtain rfl := Option.some.inj h
    exact ⟨hok, rfl⟩
  case h_2 => cases h

/-- A packet of another stream, or of none, leaves the assembly alone. -/
theorem assemblies_of_other {ch ch' : IpcChannel} {id : String}
    (hp : r.packet.streamPayload id = none) (h : ch.onPacket r = .ok ch') :
    ch'.assemblies id = ch.assemblies id := by
  cases hbody : r.packet.body with
  | stream other p =>
    have hne : id ≠ other := by
      rintro rfl
      simp [Packet.streamPayload, hbody] at hp
    obtain ⟨a', out, -, rfl⟩ := IpcChannel.onPacket_stepped hbody h
    rw [IpcChannel.settle_assemblies, Function.update_of_ne hne]
  | _ =>
    have hother : ∀ id p, r.packet.body ≠ .stream id p := by simp [hbody]
    rw [IpcChannel.onPacket_other hother h]

/-- A packet that is not one of stream `id` changes nothing of it. -/
theorem RelayInv.frame (h : RelayInv s) (hreceived : s'.received = s.received ++ [r])
    {id : String} (hp : r.packet.streamPayload id = none)
    (hsame : s'.channel.assemblies id = s.channel.assemblies id) {a : Assembly}
    (ha : s'.channel.assemblies id = some a) : ∃ opener, openerOf id s'.received = some opener ∧
      Assembled a (viewOf id (sentBy opener s'.received)) := by
  obtain ⟨opener, hopener, hassembled⟩ := h id a (hsame ▸ ha)
  have hopens : r.opens id = false := by rw [Received.opens, hp]
  refine ⟨opener, ?_, ?_⟩
  · rw [hreceived, openerOf_concat, hopens]
    exact hopener
  · rw [hreceived]
    by_cases hremote : r.remoteId = opener
    · rw [← hremote, sentBy_concat_self, viewOf_concat, hp]
      exact hremote ▸ hassembled
    · rw [sentBy_concat_of_ne _ hremote]
      exact hassembled

/-- The assembly that a stream packet finds is what the packets of its own remote say. -/
theorem RelayInv.own (h : RelayInv s) {id : String} {p : StreamPayload}
    (hbody : r.packet.body = .stream id p) (hown : OwnStream s r) :
    ∀ a ∈ s.channel.assemblies id, Assembled a (viewOf id (sentBy r.remoteId s.received)) := by
  intro a ha
  obtain ⟨opener, hopener, hassembled⟩ := h id a ha
  rw [OwnStream, hbody] at hown
  have hmine := hown.1 (by rw [ha]; exact Option.some_ne_none a)
  obtain rfl : opener = r.remoteId := Option.some.inj (hopener.symm.trans hmine)
  exact hassembled

/-- A packet that meets the condition keeps the invariant. -/
theorem RelayInv.step (h : RelayInv s) (hown : OwnStream s r) (hs : s.step r = some s') :
    RelayInv s' := by
  obtain ⟨hok, hreceived⟩ := Relay.step_eq_some hs
  intro id a ha
  cases hp : r.packet.streamPayload id with
  | none =>
    exact h.frame hreceived hp (assemblies_of_other hp hok) ha
  | some p =>
    have hbody := body_of_streamPayload hp
    obtain ⟨a', out, hstep, hch⟩ := IpcChannel.onPacket_stepped hbody hok
    rw [hch, IpcChannel.settle_assemblies, Function.update_self] at ha
    have hfound : s.channel.assemblies id ≠ none →
        openerOf id s.received = some r.remoteId := by
      have hown' := hown
      rw [OwnStream, hbody] at hown'
      exact hown'.1
    refine ⟨r.remoteId, ?_, ?_⟩
    · rw [hreceived, openerOf_concat, Received.opens, hp]
      cases hstep with
      -- a header opens the stream, whoever had it before
      | opened header buffer hb => rfl
      | written chunk before buffer hbefore hguard hb =>
        exact hfound (by rw [hbefore]; exact Option.some_ne_none before)
      -- here no assembly is left
      | dropped chunk => cases ha
      | ended trailer out hout => cases ha
      | ignored =>
        have hfull : s.channel.assemblies id = some a := ha
        exact hfound (by rw [hfull]; exact Option.some_ne_none a)
    · rw [hreceived, sentBy_concat_self, viewOf_concat, hp]
      exact hstep.assembled (h.own hbody hown) a ha

/-- What a stream packet makes the channel write. -/
theorem RelayInv.written_stream (h : RelayInv s) (hown : OwnStream s r)
    (hs : s.step r = some s') {id : String} {p : StreamPayload}
    (hbody : r.packet.body = .stream id p) :
    ∃ writes, s'.channel.written = s.channel.written ++ writes ∧
      ∀ w ∈ writes, w.remoteId = r.remoteId ∧ ∀ i b, w.payload.bytes[i]? = some b →
        ∃ q ∈ s'.received, q.remoteId = r.remoteId ∧ q.stream = r.stream ∧ q.Sends i b := by
  obtain ⟨hok, hreceived⟩ := Relay.step_eq_some hs
  obtain ⟨a', out, hstep, hch⟩ := IpcChannel.onPacket_stepped hbody hok
  have hassembled := h.own hbody hown
  rw [hch, IpcChannel.settle_written]
  refine ⟨_, rfl, fun w hw => ?_⟩
  cases hstep with
  | ended trailer _ hout =>
    cases out with
    | none => cases hw
    | some body =>
      obtain ⟨a, ha, rfl, hfull⟩ := hout body rfl
      obtain rfl := List.mem_singleton.mp hw
      rw [OwnStream, hbody] at hown
      -- the counter is right, so every byte comes from a chunk
      have hsound := ((hassembled a ha).sound_iff hfull).mpr (hown.2 rfl)
      refine ⟨rfl, fun i b hb => ?_⟩
      obtain ⟨c, hc, hsupplies⟩ := hsound.supplied i b hb
      obtain ⟨q, hq, hqbody⟩ := exists_of_mem_chunks hc
      obtain ⟨hmem, hremote⟩ := List.mem_filter.mp hq
      refine ⟨q, ?_, of_decide_eq_true hremote, ?_, ?_⟩
      · rw [hreceived]
        exact List.mem_append_left _ hmem
      · rw [Received.stream, Received.stream, hqbody, hbody]
      · rw [Received.Sends, hqbody]
        exact hsupplies
  | _ => cases hw

theorem IpcChannel.acceptSequence_written (ch : IpcChannel) (remoteId endpoint : String)
    (sequence : UInt64) (now : ℤ) :
    (ch.acceptSequence remoteId endpoint sequence now).1.written = ch.written := by
  unfold acceptSequence
  split
  · rfl
  · dsimp only
    split
    · rfl
    · rfl

/-- A packet without a stream makes the channel write its payload, or nothing. -/
theorem written_other (hs : s.step r = some s') (hother : ∀ id p, r.packet.body ≠ .stream id p) :
    ∃ writes, s'.channel.written = s.channel.written ++ writes ∧
      ∀ w ∈ writes, w.remoteId = r.remoteId ∧ ∀ i b, w.payload.bytes[i]? = some b →
        ∃ q ∈ s'.received, q.remoteId = r.remoteId ∧ q.stream = r.stream ∧ q.Sends i b := by
  obtain ⟨hok, hreceived⟩ := Relay.step_eq_some hs
  have hlast : r ∈ s'.received := by
    rw [hreceived]
    exact List.mem_append_right _ (List.mem_singleton_self r)
  rw [IpcChannel.onPacket] at hok
  split at hok
  case h_1 endpoint sequence payload hbody =>
    have hacc := s.channel.acceptSequence_written r.remoteId endpoint sequence r.now
    split at hok
    case h_1 mid accepted hmid =>
      rw [hmid] at hacc
      split at hok
      · rw [← Except.ok.inj hok]
        -- the sequence number is accepted, and the payload is the packet's own
        refine ⟨[⟨endpoint, r.remoteId, payload⟩], congrArg (· ++ _) hacc, fun w hw => ?_⟩
        obtain rfl := List.mem_singleton.mp hw
        refine ⟨rfl, fun i b hb => ⟨r, hlast, rfl, rfl, ?_⟩⟩
        rw [Received.Sends, hbody]
        exact hb
      · rw [← Except.ok.inj hok]
        exact ⟨[], hacc.trans (List.append_nil _).symm, fun w hw => by cases hw⟩
  case h_2 payload hbody =>
    rw [← Except.ok.inj hok]
    refine ⟨[⟨IpcEndpoint.kName, r.remoteId, payload⟩], rfl, fun w hw => ?_⟩
    obtain rfl := List.mem_singleton.mp hw
    refine ⟨rfl, fun i b hb => ⟨r, hlast, rfl, rfl, ?_⟩⟩
    rw [Received.Sends, hbody]
    exact hb
  case h_3 id p hbody => exact absurd hbody (hother id p)
  case h_4 =>
    rw [← Except.ok.inj hok]
    exact ⟨[], (List.append_nil _).symm, fun w hw => by cases hw⟩

/-- A packet that meets the condition is attributed to its remote. -/
theorem RelayInv.attributed (h : RelayInv s) (hown : OwnStream s r) (hs : s.step r = some s') :
    Attributed s r s' := by
  obtain ⟨hok, -⟩ := Relay.step_eq_some hs
  constructor
  · cases hbody : r.packet.body with
    | stream id p => exact h.written_stream hown hs hbody
    | _ => exact written_other hs (by simp [hbody])
  · intro id opener hassembly hopener hne
    cases hp : r.packet.streamPayload id with
    | none => exact assemblies_of_other hp hok
    | some p =>
      -- a packet of the stream would be one of the remote that opened it
      rw [OwnStream, body_of_streamPayload hp] at hown
      exact absurd (Option.some.inj (hopener.symm.trans (hown.1 hassembly))) hne

end Step

/-- **Streams are attributed to their senders.** In every run in which the stream packets that
    find an assembly come from the remote that opened it, and no remote hides a hole by sending
    bytes twice, what each packet makes the channel write is for its remote and consists of
    that remote's bytes, and the assemblies of the other remotes stay as they are. -/
theorem streams_attributed (role : ChannelRole) (endpoints : Option EndpointRegistry)
    (as : List Received) (r : Received) (s s' : Relay)
    (hown : (relay role endpoints).Guarded OwnStream (relay role endpoints).init (as ++ [r]))
    (hrun : (relay role endpoints).run as = some s) (hstep : s.step r = some s') :
    Attributed s r s' := by
  obtain ⟨hbefore, hlast⟩ := (Machine.guarded_append hrun).mp hown
  have hinv : RelayInv s := by
    refine Machine.guarded_invariant (M := relay role endpoints) ?_ ?_ hbefore hrun
    · intro s r s' h hown hstep
      exact h.step hown hstep
    · intro id a ha
      cases ha
  exact hinv.attributed hlast.1 hstep

/-- A payload of one byte. -/
def oneByte (b : UInt8) : StdString := ⟨[b], Nat.one_lt_two_pow (by decide)⟩

/-- A packet of stream `"0"` from `remoteId`. -/
def fromRemote (remoteId : String) (p : StreamPayload) : Received :=
  ⟨⟨"", .stream "0" p⟩, remoteId, 0, IpcChannel.amplyHeap⟩

/-- Two remotes use the same stream id, one after the other. -/
def oneAfterTheOther : List Received :=
  [fromRemote "a" (.header ⟨"", 1⟩), fromRemote "a" (.chunk ⟨0, oneByte 1⟩),
    fromRemote "a" (.trailer ⟨""⟩),
    fromRemote "b" (.header ⟨"", 1⟩), fromRemote "b" (.chunk ⟨0, oneByte 2⟩)]

theorem streams_attributed_oneAfterTheOther :
    ∃ s s', (relay .reliable none).run oneAfterTheOther = some s ∧
      s.step (fromRemote "b" (.trailer ⟨""⟩)) = some s' ∧
      s'.channel.written = s.channel.written ++ [⟨"", "b", oneByte 2⟩] ∧
      Attributed s (fromRemote "b" (.trailer ⟨""⟩)) s' :=
  ⟨_, _, rfl, rfl, rfl,
    streams_attributed .reliable none oneAfterTheOther _ _ _ (by decide) rfl rfl⟩

/-- A remote sends a stream of one byte, and before its trailer another remote sends one under
    the same id. -/
def sameId : List Received :=
  [fromRemote "a" (.header ⟨"", 1⟩), fromRemote "a" (.chunk ⟨0, oneByte 1⟩),
    fromRemote "b" (.header ⟨"", 1⟩), fromRemote "b" (.chunk ⟨0, oneByte 2⟩)]

/-- The first remote's trailer hands out the other one's byte as its own. -/
theorem not_attributed_sameId :
    ∃ s s', (relay .reliable none).run sameId = some s ∧
      s.step (fromRemote "a" (.trailer ⟨""⟩)) = some s' ∧
      s'.channel.written = s.channel.written ++ [⟨"", "a", oneByte 2⟩] ∧
      ¬ Attributed s (fromRemote "a" (.trailer ⟨""⟩)) s' := by
  refine ⟨_, _, rfl, rfl, rfl, fun h => ?_⟩
  have hapart := h.apart "0" "b" (by decide) (by decide) (by decide)
  exact absurd hapart (by decide)

end PiWebrtc.DataChannel
