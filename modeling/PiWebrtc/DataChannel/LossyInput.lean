import PiWebrtc.Lib.Machine
import PiWebrtc.DataChannel.Reassembly
import Mathlib.Data.List.Chain

namespace PiWebrtc.DataChannel

open Transition

/-!
# No replay on the lossy channel

A lossy channel delivers packets late, twice or out of order, and `AcceptSequence` has to keep
a stale one from the endpoint.  It remembers one packet for each pair of remote and endpoint.

* `LastSequence.accepts`, `LastSequence.hear` — the test on the entry of one pair, and what a
  packet of that pair leaves of it.
* `screening` — a channel together with the packets it has received and accepted, over all
  orders of packets.
* `EntriesKept` — the invariant: the entry of a pair is what its own packets leave, and it is
  the last numbered packet of the pair that was accepted.
* `lossy_never_replayed` — the law over whole runs.
-/

/-! ### The packets of one pair -/

/-- The remote and the endpoint of an IPC packet. -/
def Received.pair (r : Received) : Option (String × String) :=
  match r.packet.body with
  | .ipc endpoint _ _ => some (r.remoteId, endpoint)
  | _ => none

/-- `ipc().sequence()`, 0 if the sender does not number its packets. -/
def Received.sequence (r : Received) : UInt64 :=
  match r.packet.body with
  | .ipc _ sequence _ => sequence
  | _ => 0

/-- An IPC payload: an IPC body or a raw one. -/
def Received.isIpc (r : Received) : Bool :=
  match r.packet.body with
  | .ipc _ _ _ => true
  | .raw _ => true
  | _ => false

/-- The packet belongs to the pair. -/
def Received.isOf (p : String × String) (r : Received) : Bool := r.pair = some p

/-- The packet belongs to the pair and is numbered. -/
def Received.sequencedIn (p : String × String) (r : Received) : Bool :=
  r.isOf p && r.sequence ≠ 0

theorem Received.pair_eq_some {r : Received} {p : String × String} (h : r.pair = some p) :
    ∃ endpoint sequence payload, r.packet.body = .ipc endpoint sequence payload ∧
      p = (r.remoteId, endpoint) ∧ r.sequence = sequence := by
  unfold pair at h
  split at h
  case h_1 endpoint sequence payload hbody =>
    exact ⟨endpoint, sequence, payload, hbody, (Option.some.inj h).symm, by
      simp [Received.sequence, hbody]⟩
  case h_2 => cases h

/-! ### What is remembered of a pair -/

namespace LastSequence

/-- The test of `AcceptSequence` on a numbered packet. -/
def accepts (last : LastSequence) (r : Received) : Bool :=
  ¬ (r.sequence ≤ last.sequence ∧ r.now - last.receivedAt < IpcChannel.kSequenceResetGap)

/-- The entry after a packet of the pair. -/
def hear (last : LastSequence) (r : Received) : LastSequence :=
  if r.sequence ≠ 0 ∧ last.accepts r then ⟨r.sequence, r.now⟩ else last

/-- The entry after the packets of the pair, from the first one on. -/
def heard (packets : List Received) : LastSequence := packets.foldl hear {}

/-- The entry that an accepted packet leaves, and the one of a pair that has none. -/
def ofLast : Option Received → LastSequence
  | none => {}
  | some a => ⟨a.sequence, a.now⟩

/-- Where there is no entry yet every numbered packet passes. -/
theorem accepts_new {r : Received} (h : r.sequence ≠ 0) : accepts {} r = true := by
  have hpos : ¬ r.sequence ≤ 0 := fun hle => h (UInt64.le_zero_iff.mp hle)
  simp [accepts, hpos]

end LastSequence

/-! ### The test of a packet -/

namespace IpcChannel

/-- The packet is handed to its endpoint. -/
def accepts (ch : IpcChannel) (r : Received) : Bool :=
  match r.packet.body with
  | .ipc endpoint sequence _ => (ch.acceptSequence r.remoteId endpoint sequence r.now).2
  | .raw _ => true
  | _ => false

variable {ch ch' : IpcChannel} {r : Received}

/-- On the lossy channel a numbered packet is tested on the entry of its pair. -/
theorem accepts_sequenced (hrole : ch.role = .lossy) {p : String × String}
    (hpair : r.pair = some p) (hseq : r.sequence ≠ 0) :
    ch.accepts r = (ch.lastSequence p).accepts r := by
  obtain ⟨endpoint, sequence, payload, hbody, rfl, rfl⟩ := Received.pair_eq_some hpair
  by_cases htest : r.sequence ≤ (ch.lastSequence (r.remoteId, endpoint)).sequence ∧
      r.now - (ch.lastSequence (r.remoteId, endpoint)).receivedAt < kSequenceResetGap
  · simp [accepts, hbody, acceptSequence, hrole, hseq, LastSequence.accepts, htest]
  · simp [accepts, hbody, acceptSequence, hrole, hseq, LastSequence.accepts, htest]

/-- Packets without a number, and everything on the other channels, pass. -/
theorem accepts_of_unscreened (hipc : r.isIpc = true)
    (h : ch.role ≠ .lossy ∨ r.sequence = 0) : ch.accepts r = true := by
  cases hbody : r.packet.body with
  | ipc endpoint sequence payload =>
    rw [Received.sequence, hbody] at h
    simp [accepts, hbody, acceptSequence, h]
  | raw payload => simp [accepts, hbody]
  | stream id payload => simp [Received.isIpc, hbody] at hipc
  | other => simp [Received.isIpc, hbody] at hipc

/-- **What is accepted is handed over.** An IPC packet is written to its endpoint exactly if it
    is accepted. -/
theorem onPacket_written {endpoint : String} {sequence : UInt64} {payload : StdString}
    (hbody : r.packet.body = .ipc endpoint sequence payload) (h : ch.onPacket r = .ok ch') :
    ch'.written = ch.written ++
      if ch.accepts r then [⟨endpoint, r.remoteId, payload⟩] else [] := by
  have hwritten : (ch.acceptSequence r.remoteId endpoint sequence r.now).1.written =
      ch.written := by
    unfold acceptSequence
    split
    · rfl
    · dsimp only
      split <;> rfl
  rw [accepts, hbody]
  rw [onPacket, hbody] at h
  dsimp only at h ⊢
  split at h
  case isTrue hacc =>
    rw [← Except.ok.inj h, if_pos hacc, writeToEndpoint_written, hwritten]
  case isFalse hacc =>
    rw [← Except.ok.inj h, if_neg hacc, hwritten, List.append_nil]

/-! ### What a packet leaves of the entries -/

/-- The entries after `AcceptSequence`. -/
theorem acceptSequence_entry (hrole : ch.role = .lossy) {p q : String × String}
    (hpair : r.pair = some q) :
    (ch.acceptSequence r.remoteId q.2 r.sequence r.now).1.lastSequence p =
      if p = q then (ch.lastSequence p).hear r else ch.lastSequence p := by
  obtain ⟨endpoint, sequence, payload, hbody, rfl, rfl⟩ := Received.pair_eq_some hpair
  by_cases hseq : r.sequence = 0
  · simp [acceptSequence, hseq, LastSequence.hear]
  by_cases htest : r.sequence ≤ (ch.lastSequence (r.remoteId, endpoint)).sequence ∧
      r.now - (ch.lastSequence (r.remoteId, endpoint)).receivedAt < kSequenceResetGap
  · by_cases hp : p = (r.remoteId, endpoint)
    · simp [acceptSequence, hrole, hseq, htest, LastSequence.hear, LastSequence.accepts, hp]
    · simp [acceptSequence, hrole, hseq, htest, hp]
  · by_cases hp : p = (r.remoteId, endpoint)
    · simp [acceptSequence, hrole, hseq, htest, LastSequence.hear, LastSequence.accepts, hp]
    · simp [acceptSequence, hrole, hseq, htest, hp]

theorem acceptSequence_role (ch : IpcChannel) (remoteId endpoint : String) (sequence : UInt64)
    (now : ℤ) : (ch.acceptSequence remoteId endpoint sequence now).1.role = ch.role := by
  unfold acceptSequence
  split
  · rfl
  · dsimp only
    split <;> rfl

/-- A stream packet leaves the role and the entries alone. -/
theorem settle_entry (ch : IpcChannel) (id remoteId : String)
    (result : Option Assembly × Option StdString) :
    (ch.settle id remoteId result).role = ch.role ∧
      (ch.settle id remoteId result).lastSequence = ch.lastSequence := by
  unfold settle
  split
  · exact ⟨rfl, rfl⟩
  · exact ⟨rfl, rfl⟩

/-- An IPC packet leaves the role and the entries that `AcceptSequence` leaves. -/
theorem onPacket_ipc {endpoint : String} {sequence : UInt64} {payload : StdString}
    (hbody : r.packet.body = .ipc endpoint sequence payload) (h : ch.onPacket r = .ok ch') :
    ch'.role = ch.role ∧ ch'.lastSequence =
      (ch.acceptSequence r.remoteId endpoint sequence r.now).1.lastSequence := by
  have hrole := acceptSequence_role ch r.remoteId endpoint sequence r.now
  rw [onPacket, hbody] at h
  dsimp only at h
  split at h
  · rw [← Except.ok.inj h]
    exact ⟨hrole, rfl⟩
  · rw [← Except.ok.inj h]
    exact ⟨hrole, rfl⟩

/-- **What a packet does to the entries.** On the lossy channel its own pair hears it. -/
theorem onPacket_entry (hrole : ch.role = .lossy) (h : ch.onPacket r = .ok ch') :
    ch'.role = ch.role ∧ ∀ p, ch'.lastSequence p =
      if r.isOf p then (ch.lastSequence p).hear r else ch.lastSequence p := by
  cases hbody : r.packet.body with
  | ipc endpoint sequence payload =>
    obtain ⟨hrole', hlast⟩ := onPacket_ipc hbody h
    have hpair : r.pair = some (r.remoteId, endpoint) := by rw [Received.pair, hbody]
    have hseq : r.sequence = sequence := by rw [Received.sequence, hbody]
    refine ⟨hrole', fun p => ?_⟩
    rw [hlast, ← hseq, acceptSequence_entry hrole hpair]
    have hof : r.isOf p = decide (p = (r.remoteId, endpoint)) := by
      simp [Received.isOf, hpair, eq_comm]
    rw [hof]
    simp only [decide_eq_true_eq]
  | raw payload =>
    rw [onPacket, hbody] at h
    rw [← Except.ok.inj h]
    exact ⟨rfl, fun p => by simp [Received.isOf, Received.pair, hbody, writeToEndpoint]⟩
  | stream id payload =>
    obtain ⟨a', out, _, rfl⟩ := onPacket_stepped hbody h
    obtain ⟨hrole', hlast⟩ := settle_entry ch id r.remoteId (a', out)
    exact ⟨hrole', fun p => by simp [Received.isOf, Received.pair, hbody, hlast]⟩
  | other =>
    rw [onPacket, hbody] at h
    rw [← Except.ok.inj h]
    exact ⟨rfl, fun p => by simp [Received.isOf, Received.pair, hbody]⟩

/-- No packet changes the role. -/
theorem onPacket_role (h : ch.onPacket r = .ok ch') : ch'.role = ch.role := by
  cases hbody : r.packet.body with
  | ipc endpoint sequence payload => exact (onPacket_ipc hbody h).1
  | raw payload =>
    rw [onPacket, hbody] at h
    rw [← Except.ok.inj h]
    rfl
  | stream id payload =>
    obtain ⟨a', out, _, rfl⟩ := onPacket_stepped hbody h
    exact (settle_entry ch id r.remoteId (a', out)).1
  | other =>
    rw [onPacket, hbody] at h
    rw [← Except.ok.inj h]

end IpcChannel

/-! ### Runs -/

/-- A channel, what it has received, and what it has accepted of it. -/
structure Screening where
  channel : IpcChannel
  received : List Received := []
  accepted : List Received := []

namespace Screening

/-- Receive a packet; a run ends at an exception. -/
def step (s : Screening) (r : Received) : Option Screening :=
  match s.channel.onPacket r with
  | .ok channel => some
      { channel, received := s.received ++ [r],
        accepted := if s.channel.accepts r then s.accepted ++ [r] else s.accepted }
  | .error _ => none

/-- The numbered packets of a pair that were accepted. -/
def sequenced (s : Screening) (p : String × String) : List Received :=
  s.accepted.filter (Received.sequencedIn p)

theorem step_eq_some {s s' : Screening} {r : Received} :
    s.step r = some s' ↔ ∃ channel, s.channel.onPacket r = .ok channel ∧
      s' = { channel, received := s.received ++ [r],
             accepted := if s.channel.accepts r then s.accepted ++ [r] else s.accepted } := by
  unfold step
  cases s.channel.onPacket r with
  | error e => simp
  | ok channel =>
    simp only [Except.ok.injEq, Option.some.injEq, exists_eq_left']
    exact eq_comm

/-- The accepted packets of a pair grow by a packet that is its own, numbered and accepted. -/
theorem sequenced_append {s : Screening} {r : Received} (s' : Screening) (p : String × String)
    (h : s'.accepted = if s.channel.accepts r then s.accepted ++ [r] else s.accepted) :
    s'.sequenced p =
      if s.channel.accepts r ∧ r.sequencedIn p then s.sequenced p ++ [r]
      else s.sequenced p := by
  unfold sequenced
  rw [h]
  cases hacc : s.channel.accepts r with
  | false => simp
  | true =>
    cases hseq : r.sequencedIn p with
    | false => simp [hseq]
    | true => simp [hseq]

end Screening

/-- A channel just created, and all orders of packets. -/
def screening (role : ChannelRole) (endpoints : Option EndpointRegistry) :
    Machine Screening Received where
  init := { channel := .create role endpoints }
  step := Screening.step

/-- The entries of a lossy channel: what its own packets leave, and the last one accepted. -/
structure EntriesKept (s : Screening) : Prop where
  lossy : s.channel.role = .lossy
  heard : ∀ p, s.channel.lastSequence p = .heard (s.received.filter (Received.isOf p))
  last : ∀ p, s.channel.lastSequence p = .ofLast (s.sequenced p).getLast?
  rising : ∀ p, (s.sequenced p).IsChain fun a b =>
    b.now - a.now < IpcChannel.kSequenceResetGap → a.sequence < b.sequence

theorem entriesKept_init (endpoints : Option EndpointRegistry) :
    EntriesKept (screening .lossy endpoints).init where
  lossy := rfl
  heard _ := rfl
  last _ := rfl
  rising _ := .nil

namespace EntriesKept

variable {s s' : Screening} {r : Received}

/-- A numbered packet that passes comes a second after the last one or is numbered higher. -/
theorem accepts_iff (h : EntriesKept s) {p : String × String} (hpair : r.pair = some p)
    (hseq : r.sequence ≠ 0) {a : Received} (ha : (s.sequenced p).getLast? = some a) :
    s.channel.accepts r = true ↔
      (r.now - a.now < IpcChannel.kSequenceResetGap → a.sequence < r.sequence) := by
  rw [IpcChannel.accepts_sequenced h.lossy hpair hseq, h.last p, ha, LastSequence.accepts,
    LastSequence.ofLast, decide_eq_true_eq, not_and', UInt64.not_le]

/-- **Step of the screening.** -/
theorem step (h : EntriesKept s) (hstep : s.step r = some s') : EntriesKept s' := by
  obtain ⟨channel, hch, rfl⟩ := Screening.step_eq_some.mp hstep
  obtain ⟨hrole, hentry⟩ := IpcChannel.onPacket_entry h.lossy hch
  have hgrow := fun p => Screening.sequenced_append (s := s) (r := r)
    { channel, received := s.received ++ [r],
      accepted := if s.channel.accepts r then s.accepted ++ [r] else s.accepted } p rfl
  refine ⟨hrole.trans h.lossy, fun p => ?_, fun p => ?_, fun p => ?_⟩
  · rw [hentry p, h.heard p, List.filter_append]
    cases hof : r.isOf p with
    | false => simp [hof]
    | true => simp [hof, LastSequence.heard, List.foldl_append]
  · rw [hentry p, hgrow p]
    cases hof : r.isOf p with
    | false => simp [Received.sequencedIn, hof, h.last p]
    | true =>
      by_cases hseq : r.sequence = 0
      · simp [Received.sequencedIn, hof, hseq, LastSequence.hear, h.last p]
      · have hacc := IpcChannel.accepts_sequenced h.lossy (of_decide_eq_true hof) hseq
        rw [LastSequence.hear, ← hacc]
        cases hval : s.channel.accepts r with
        | false => simp [Received.sequencedIn, hof, hseq, h.last p]
        | true => simp [Received.sequencedIn, hof, hseq, LastSequence.ofLast]
  · rw [hgrow p]
    split
    case isFalse => exact h.rising p
    case isTrue hnew =>
      obtain ⟨hof, hseq⟩ : r.isOf p = true ∧ r.sequence ≠ 0 := by
        simpa [Received.sequencedIn] using hnew.2
      rw [List.isChain_append]
      refine ⟨h.rising p, .singleton r, fun a ha b hb => ?_⟩
      obtain rfl : r = b := by simpa using hb
      exact (h.accepts_iff (of_decide_eq_true hof) hseq ha).mp hnew.1

end EntriesKept

/-- After every run on a lossy channel. -/
theorem entriesKept {endpoints : Option EndpointRegistry} {as : List Received} {s : Screening}
    (hrun : (screening .lossy endpoints).run as = some s) : EntriesKept s :=
  Machine.run_invariant (entriesKept_init endpoints) (fun _ _ _ h hstep => h.step hstep) hrun

/-- The received packets are those of the run, and the accepted ones are some of them. -/
theorem received_eq {role : ChannelRole} {endpoints : Option EndpointRegistry}
    {as : List Received} {s : Screening} (hrun : (screening role endpoints).run as = some s) :
    s.received = as ∧ s.accepted.Sublist as := by
  suffices hgen : ∀ (as : List Received) (t : Screening), t.accepted.Sublist t.received →
      (screening role endpoints).runFrom t as = some s →
      s.received = t.received ++ as ∧ s.accepted.Sublist (t.received ++ as) from
    hgen as _ .slnil hrun
  intro as
  induction as with
  | nil =>
    intro t hsub hrun
    obtain rfl := Option.some.inj hrun
    rw [List.append_nil]
    exact ⟨rfl, hsub⟩
  | cons r as ih =>
    intro t hsub hrun
    obtain ⟨u, hu, hrest⟩ := Machine.runFrom_cons_eq_some _ |>.mp hrun
    obtain ⟨channel, _, rfl⟩ := Screening.step_eq_some.mp hu
    have hsub' : (if t.channel.accepts r then t.accepted ++ [r] else t.accepted).Sublist
        (t.received ++ [r]) := by
      split
      · exact hsub.append (.refl [r])
      · exact hsub.trans (List.sublist_append_left _ _)
    simpa using ih _ hsub' hrest

/-- After every run the role is the one created with. -/
theorem role_eq {role : ChannelRole} {endpoints : Option EndpointRegistry}
    {as : List Received} {s : Screening} (hrun : (screening role endpoints).run as = some s) :
    s.channel.role = role := by
  refine Machine.run_invariant (P := fun s : Screening => s.channel.role = role) rfl ?_ hrun
  intro s r s' hrole hstep
  obtain ⟨channel, hch, rfl⟩ := Screening.step_eq_some.mp hstep
  exact (IpcChannel.onPacket_role hch).trans hrole

/-! ### The law -/

/-- What holds of a lossy channel after the packets `as`. -/
structure NeverReplayed (endpoints : Option EndpointRegistry) (as : List Received)
    (s : Screening) : Prop where
  /-- Of two numbered packets of a pair accepted one after the other, less than a second
      apart, the later one has the higher number. -/
  increasing : ∀ p, (s.sequenced p).IsChain fun a b =>
    b.now - a.now < IpcChannel.kSequenceResetGap → a.sequence < b.sequence
  /-- Another run with the same packets of the pair decides the same. -/
  ownPair : ∀ as' s' r p, (screening .lossy endpoints).run as' = some s' →
    r.pair = some p → as'.filter (Received.isOf p) = as.filter (Received.isOf p) →
    s'.channel.accepts r = s.channel.accepts r
  /-- A second after the last numbered packet of the pair that was accepted, every number is. -/
  restarted : ∀ r p, r.pair = some p →
    (∀ a ∈ (s.sequenced p).getLast?, IpcChannel.kSequenceResetGap ≤ r.now - a.now) →
    s.channel.accepts r = true
  /-- On a clock that does not run backwards, so it is a second after the last packet of the
      pair that was accepted, numbered or not. -/
  restartedSteady : as.Pairwise (fun a b => a.now ≤ b.now) → ∀ r p, r.pair = some p →
    (∀ a ∈ (s.accepted.filter (Received.isOf p)).getLast?,
      IpcChannel.kSequenceResetGap ≤ r.now - a.now) →
    s.channel.accepts r = true
  /-- An IPC payload without a number is accepted. -/
  unsequenced : ∀ r, r.isIpc = true → r.sequence = 0 → s.channel.accepts r = true
  /-- What is accepted is written to its endpoint, and what is not is not. -/
  written : ∀ r ch endpoint sequence payload, r.packet.body = .ipc endpoint sequence payload →
    s.channel.onPacket r = .ok ch → ch.written = s.channel.written ++
      if s.channel.accepts r then [⟨endpoint, r.remoteId, payload⟩] else []

theorem accepts_of_restarted {s : Screening} (h : EntriesKept s) {r : Received}
    {p : String × String} (hpair : r.pair = some p)
    (hlast : ∀ a ∈ (s.sequenced p).getLast?, IpcChannel.kSequenceResetGap ≤ r.now - a.now) :
    s.channel.accepts r = true := by
  by_cases hseq : r.sequence = 0
  · obtain ⟨endpoint, sequence, payload, hbody, _, _⟩ := Received.pair_eq_some hpair
    exact IpcChannel.accepts_of_unscreened (by rw [Received.isIpc, hbody]) (.inr hseq)
  cases ha : (s.sequenced p).getLast? with
  | none =>
    rw [IpcChannel.accepts_sequenced h.lossy hpair hseq, h.last p, ha]
    exact LastSequence.accepts_new hseq
  | some a => exact (h.accepts_iff hpair hseq ha).mpr fun hlt => absurd hlt (hlast a ha).not_gt

/-- Whether a packet is accepted is decided by the entry that the packets of its pair leave. -/
theorem accepts_eq_of_heard {s s' : Screening} (h : EntriesKept s) (h' : EntriesKept s')
    {r : Received} {p : String × String} (hpair : r.pair = some p)
    (hsame : s'.received.filter (Received.isOf p) = s.received.filter (Received.isOf p)) :
    s'.channel.accepts r = s.channel.accepts r := by
  by_cases hseq : r.sequence = 0
  · obtain ⟨endpoint, sequence, payload, hbody, _, _⟩ := Received.pair_eq_some hpair
    have hipc : r.isIpc = true := by rw [Received.isIpc, hbody]
    rw [IpcChannel.accepts_of_unscreened hipc (.inr hseq),
      IpcChannel.accepts_of_unscreened hipc (.inr hseq)]
  · rw [IpcChannel.accepts_sequenced h'.lossy hpair hseq,
      IpcChannel.accepts_sequenced h.lossy hpair hseq, h'.heard p, h.heard p, hsame]

/-- In time order, no numbered packet of the pair came after its last accepted one. -/
theorem le_last_of_steady {as : List Received} {s : Screening}
    (hsub : s.accepted.Sublist as) (hsteady : as.Pairwise fun a b => a.now ≤ b.now)
    {p : String × String} {a b : Received}
    (ha : (s.accepted.filter (Received.isOf p)).getLast? = some a) (hb : b ∈ s.sequenced p) :
    b.now ≤ a.now := by
  have hmem : b ∈ s.accepted.filter (Received.isOf p) := by
    rw [Screening.sequenced, List.mem_filter, Received.sequencedIn, Bool.and_eq_true] at hb
    exact List.mem_filter.mpr ⟨hb.1, hb.2.1⟩
  have hpw := (hsteady.sublist hsub).filter (Received.isOf p)
  obtain ⟨init, hinit⟩ := List.getLast?_eq_some_iff.mp ha
  rw [hinit] at hmem hpw
  rcases List.mem_append.mp hmem with hold | hnew
  · exact (List.pairwise_append.mp hpw).2.2 b hold a (List.mem_singleton_self a)
  · exact (List.mem_singleton.mp hnew ▸ le_refl a.now)

/-- **No replay.** After every run of a lossy channel the law holds; and the other channels
    accept every IPC payload. -/
theorem lossy_never_replayed (endpoints : Option EndpointRegistry) :
    (∀ as s, (screening .lossy endpoints).run as = some s → NeverReplayed endpoints as s) ∧
      ∀ role, role ≠ .lossy → ∀ as s, (screening role endpoints).run as = some s →
        ∀ r : Received, r.isIpc = true → s.channel.accepts r = true := by
  refine ⟨fun as s hrun => ?_, fun role hrole as s hrun r hipc => ?_⟩
  · have h := entriesKept hrun
    obtain ⟨hreceived, hsub⟩ := received_eq hrun
    refine ⟨h.rising, ?_, fun r p => accepts_of_restarted h, ?_, ?_,
      fun r ch endpoint sequence payload => IpcChannel.onPacket_written⟩
    · intro as' s' r p hrun' hpair hsame
      rw [← hreceived, ← (received_eq hrun').1] at hsame
      exact accepts_eq_of_heard h (entriesKept hrun') hpair hsame
    · intro hsteady r p hpair hlast
      refine accepts_of_restarted h hpair fun b hb => ?_
      have hmem : b ∈ s.sequenced p := List.mem_of_getLast? hb
      cases ha : (s.accepted.filter (Received.isOf p)).getLast? with
      | none =>
        rw [Screening.sequenced, List.mem_filter, Received.sequencedIn, Bool.and_eq_true] at hmem
        rw [List.getLast?_eq_none_iff, List.filter_eq_nil_iff] at ha
        exact absurd hmem.2.1 (ha b hmem.1)
      | some a =>
        have hle := le_last_of_steady hsub hsteady ha hmem
        have hgap := hlast a ha
        omega
    · exact fun r hipc hseq => IpcChannel.accepts_of_unscreened hipc (.inr hseq)
  · exact IpcChannel.accepts_of_unscreened hipc (.inl ((role_eq hrun).symm ▸ hrole))

/-- An empty message of `"peer"` with a number to endpoint `"e"`. -/
def numbered (sequence : UInt64) (now : ℤ) : Received :=
  ⟨⟨"", .ipc "e" sequence .empty⟩, "peer", now, IpcChannel.amplyHeap⟩

/-- Number 5, a stale 3 half a second later, and a restart at 1 a second after the 5. -/
theorem lossy_never_replayed_restart :
    ∃ s, (screening .lossy none).run
        [numbered 5 0, numbered 3 500000000, numbered 1 1000000000] = some s ∧
      s.accepted = [numbered 5 0, numbered 1 1000000000] ∧
      NeverReplayed none [numbered 5 0, numbered 3 500000000, numbered 1 1000000000] s :=
  ⟨_, rfl, rfl, (lossy_never_replayed none).1 _ _ rfl⟩

end PiWebrtc.DataChannel
