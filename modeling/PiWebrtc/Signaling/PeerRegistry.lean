import PiWebrtc.Lib.Threads

namespace PiWebrtc.Signaling

open Transition

/-!
# The peers of a signaling service

`PeerRegistry` keeps the peers that a service creates for its clients.  A peer that has
expired is swept out by the cleaner, a thread that waits until it is woken.  What wakes it
is the listener that `Add` installs: the peer posts a task for it when it expires, and the
task sets `expiry_pending`.

The operations are the sections under the registry's and the cleaner's mutex and the
accesses to a peer's expired flag and listener, in the order in which the source makes them.
`Add` installs the listener before it puts the peer into the map.  A peer that expired
before that has told nobody, and one that expires between the two may be missed by the sweep
it has asked for; `expired_swept` shows that expired peers stay behind in no other way.
-/

/-! ### The registry -/

/-- The registry's map, by the peers' ids, and the flag of its cleaner. -/
structure PeerRegistry where
  peers : List ℕ := []
  expiryPending : Bool := false
  deriving DecidableEq, Repr

namespace PeerRegistry

/-- The map after `peers_[id] = peer`. -/
def add (r : PeerRegistry) (p : ℕ) : PeerRegistry :=
  { r with peers := if p ∈ r.peers then r.peers else r.peers ++ [p] }

/-- `Get`: a peer that has expired is not handed out. -/
def get (r : PeerRegistry) (isExpired : ℕ → Bool) (p : ℕ) : Option ℕ :=
  if p ∈ r.peers ∧ isExpired p = false then some p else none

/-- The section of `Remove`. -/
def remove (r : PeerRegistry) (p : ℕ) : PeerRegistry :=
  { r with peers := r.peers.filter fun q => q ≠ p }

/-- The expired peers of the map. -/
def expiredPeers (r : PeerRegistry) (isExpired : ℕ → Bool) : List ℕ :=
  r.peers.filter fun p => isExpired p

/-- The section of `Sweep`: the expired peers are taken out. -/
def sweep (r : PeerRegistry) (isExpired : ℕ → Bool) : PeerRegistry :=
  { r with peers := r.peers.filter fun p => !isExpired p }

@[simp] theorem mem_add {r : PeerRegistry} {p q : ℕ} :
    q ∈ (r.add p).peers ↔ q ∈ r.peers ∨ q = p := by
  unfold add
  split
  case isTrue hp =>
    refine ⟨.inl, fun h => h.elim id ?_⟩
    rintro rfl
    exact hp
  case isFalse => simp

@[simp] theorem mem_sweep {r : PeerRegistry} {isExpired : ℕ → Bool} {p : ℕ} :
    p ∈ (r.sweep isExpired).peers ↔ p ∈ r.peers ∧ isExpired p = false := by
  simp [sweep]

@[simp] theorem mem_expiredPeers {r : PeerRegistry} {isExpired : ℕ → Bool} {p : ℕ} :
    p ∈ r.expiredPeers isExpired ↔ p ∈ r.peers ∧ isExpired p = true := by
  simp [expiredPeers]

theorem get_eq_some {r : PeerRegistry} {isExpired : ℕ → Bool} {p q : ℕ} :
    r.get isExpired p = some q ↔ q = p ∧ p ∈ r.peers ∧ isExpired p = false := by
  rw [get, Option.ite_none_right_eq_some, Option.some.injEq]
  constructor
  · rintro ⟨hp, rfl⟩
    exact ⟨rfl, hp⟩
  · rintro ⟨rfl, hp⟩
    exact ⟨hp, rfl⟩

end PeerRegistry

/-! ### Peers that expire -/

/-- The registry and the peers around it: those whose `is_expired_` is set, and those that
    have a listener. -/
structure RegistryState where
  registry : PeerRegistry := {}
  expired : List ℕ := []
  listening : List ℕ := []
  deriving DecidableEq, Repr

/-- The atomic operations. -/
inductive RegistryOp where
  /-- `Add`: install the listener. -/
  | setListener (p : ℕ)
  /-- `Add`: put the peer into the map, under `mutex_`. -/
  | insert (p : ℕ)
  /-- `MarkExpired`: exchange the flag. -/
  | markExpired (p : ℕ)
  /-- `MarkExpired`: look for the listener, and post a task for it. -/
  | post (p : ℕ)
  /-- The posted task: `Cleaner::Wake`. -/
  | wake
  /-- The cleaner: wait for `expiry_pending` and clear it. -/
  | wait
  /-- `Sweep`, under `mutex_`. -/
  | sweep
  /-- `Remove`, under `mutex_`. -/
  | erase (p : ℕ)
  /-- `Terminate` of a peer, which has been taken out of the map. -/
  | terminate (p : ℕ)
  deriving DecidableEq, Repr

/-- The calls that come in from the services and from the peers' own threads. -/
inductive RegistryCall where
  | add (p : ℕ)
  | remove (p : ℕ)
  | expire (p : ℕ)
  deriving DecidableEq, Repr

/-- Execute one operation. -/
def registryExec (op : RegistryOp) (_ : Unit) (s : Threads RegistryState RegistryOp) :
    Option (Effect RegistryState RegistryOp) :=
  let r := s.shared
  match op with
  | .setListener p => some ⟨{ r with listening := p :: r.listening }, [.insert p], []⟩
  | .insert p => some ⟨{ r with registry := r.registry.add p }, [], []⟩
  -- only the first to set the flag goes on
  | .markExpired p =>
    if p ∈ r.expired then some ⟨r, [], []⟩
    else some ⟨{ r with expired := p :: r.expired }, [.post p], []⟩
  | .post p => some ⟨r, [], if p ∈ r.listening then [[.wake]] else []⟩
  | .wake => some ⟨{ r with registry := { r.registry with expiryPending := true } }, [], []⟩
  | .wait =>
    if r.registry.expiryPending then
      some ⟨{ r with registry := { r.registry with expiryPending := false } }, [.sweep], []⟩
    else none
  | .sweep =>
    some ⟨{ r with registry := r.registry.sweep (· ∈ r.expired) },
      (r.registry.expiredPeers (· ∈ r.expired)).map .terminate ++ [.wait], []⟩
  | .erase p =>
    some ⟨{ r with registry := r.registry.remove p },
      if p ∈ r.registry.peers then [.terminate p] else [], []⟩
  -- `is_expired_` is set without a word to the listener
  | .terminate p => some ⟨{ r with expired := p :: r.expired }, [], []⟩

/-- The first operation of a call. -/
def registryEntry : RegistryCall → RegistryOp
  | .add p => .setListener p
  | .remove p => .erase p
  | .expire p => .markExpired p

/-- An empty registry with its cleaner running. -/
def registryCode : Code RegistryState RegistryOp Unit RegistryCall where
  init := { shared := {}, todo := [[.wait]] }
  entry call _ := some [registryEntry call]
  exec := registryExec

/-- What is asked for: while the cleaner waits with its flag clear and nothing else is going
    on, the registry holds no expired peer. -/
def ExpiredSwept (s : Threads RegistryState RegistryOp) : Prop :=
  s.inFlight = {.wait} → s.shared.registry.expiryPending = false →
    ∀ p ∈ s.shared.registry.peers, p ∉ s.shared.expired

/-- The cleaner is still going to sweep: it has been woken, or it is about to be. -/
def WakeToCome (r : RegistryState) (flight : Multiset RegistryOp) : Prop :=
  r.registry.expiryPending = true ∨ .wake ∈ flight ∨ .sweep ∈ flight ∨
    ∃ p ∈ r.listening, .post p ∈ flight

instance (r : RegistryState) (flight : Multiset RegistryOp) : Decidable (WakeToCome r flight) :=
  inferInstanceAs (Decidable (_ ∨ _ ∨ _ ∨ _))

/-- The condition: a peer that `Add` puts into the map has not expired, or the cleaner is
    still going to sweep; and so is it when a peer is terminated that the map holds (again). -/
def SweepComes (op : RegistryOp) (s : Threads RegistryState RegistryOp) : Prop :=
  match op with
  | .insert p => p ∈ s.shared.expired → WakeToCome s.shared s.inFlight
  | .terminate p => p ∈ s.shared.registry.peers → WakeToCome s.shared s.inFlight
  | _ => True

instance (op : RegistryOp) (s : Threads RegistryState RegistryOp) :
    Decidable (SweepComes op s) := by
  unfold SweepComes
  split <;> infer_instance

/-! ### Every expired peer has its sweep to come -/

/-- An operation that wakes the cleaner or is what the cleaner was woken for. -/
def RegistryOp.wakes : RegistryOp → Bool
  | .post _ => true
  | .wake => true
  | .sweep => true
  | _ => false

/-- **Frame.** A sweep to come still comes after any other operation. -/
theorem WakeToCome.frame {r r' : RegistryState} {op : RegistryOp} {others : Multiset RegistryOp}
    (h : WakeToCome r (op ::ₘ others)) (hop : op.wakes = false)
    (hpending : r.registry.expiryPending = true → r'.registry.expiryPending = true)
    (hlisten : r.listening ⊆ r'.listening) (next : List RegistryOp) :
    WakeToCome r' (↑next + others) := by
  -- what is in flight and wakes the cleaner is one of the others
  have hmem : ∀ o ∈ op ::ₘ others, o.wakes = true → o ∈ (↑next + others : Multiset RegistryOp) := by
    intro o ho hwakes
    rcases Multiset.mem_cons.mp ho with rfl | ho
    · rw [hop] at hwakes
      cases hwakes
    · exact Multiset.mem_add.mpr (.inr ho)
  rcases h with hp | hwake | hsweep | ⟨p, hp, hpost⟩
  · exact .inl (hpending hp)
  · exact .inr (.inl (hmem _ hwake rfl))
  · exact .inr (.inr (.inl (hmem _ hsweep rfl)))
  · exact .inr (.inr (.inr ⟨p, hlisten hp, hmem _ hpost rfl⟩))

/-- **The invariant.** The peers in the map and those about to be put there have their
    listener, and while an expired peer is in the map the cleaner is going to sweep. -/
structure RegistryInv (r : RegistryState) (flight : Multiset RegistryOp) : Prop where
  held_listening : ∀ p ∈ r.registry.peers, p ∈ r.listening
  added_listening : ∀ p, .insert p ∈ flight → p ∈ r.listening
  sweep_to_come : ∀ p ∈ r.registry.peers, p ∈ r.expired → WakeToCome r flight

namespace RegistryInv

variable {r r' : RegistryState} {op : RegistryOp} {others : Multiset RegistryOp}

/-- What comes after an operation that starts no insertion. -/
theorem added_next (h : RegistryInv r (op ::ₘ others)) {next : List RegistryOp}
    (hnext : ∀ q, .insert q ∉ next) {p : ℕ}
    (hp : .insert p ∈ (↑next + others : Multiset RegistryOp)) : p ∈ r.listening := by
  rcases Multiset.mem_add.mp hp with hp | hp
  · exact absurd (Multiset.mem_coe.mp hp) (hnext p)
  · exact h.added_listening p (Multiset.mem_cons_of_mem hp)

/-- An operation that wakes nobody and brings neither a peer nor an insertion; the peers
    that it makes expired have the sweep to come. -/
theorem keep (h : RegistryInv r (op ::ₘ others)) (hop : op.wakes = false)
    {next : List RegistryOp} (hpeers : r'.registry.peers ⊆ r.registry.peers)
    (hpending : r'.registry.expiryPending = r.registry.expiryPending)
    (hlisten : r'.listening = r.listening) (hnext : ∀ p, .insert p ∉ next)
    (hexpired : ∀ p ∈ r'.registry.peers, p ∈ r'.expired → p ∉ r.expired →
      WakeToCome r' (↑next + others)) : RegistryInv r' (↑next + others) where
  held_listening p hp := hlisten ▸ h.held_listening p (hpeers hp)
  added_listening p hp := hlisten ▸ h.added_next hnext hp
  sweep_to_come p hp hexp := by
    by_cases hbefore : p ∈ r.expired
    · exact (h.sweep_to_come p (hpeers hp) hbefore).frame hop (fun hp => hpending ▸ hp)
        (hlisten ▸ List.Subset.refl _) next
    · exact hexpired p hp hexp hbefore

/-- The cleaner is going to sweep after an operation that leaves the peers as they are. -/
theorem awake (h : RegistryInv r (op ::ₘ others)) {next : List RegistryOp}
    (hpeers : r'.registry.peers = r.registry.peers) (hlisten : r'.listening = r.listening)
    (hnext : ∀ p, .insert p ∉ next) (hwake : WakeToCome r' (↑next + others)) :
    RegistryInv r' (↑next + others) where
  held_listening p hp := hlisten ▸ h.held_listening p (hpeers ▸ hp)
  added_listening _ hp := hlisten ▸ h.added_next hnext hp
  sweep_to_come _ _ _ := hwake

/-- `Add` has put a peer into the map. -/
theorem insert {p : ℕ} (h : RegistryInv r (.insert p ::ₘ others))
    (hp : p ∈ r.expired → WakeToCome r (.insert p ::ₘ others)) :
    RegistryInv { r with registry := r.registry.add p } others where
  held_listening q hq := by
    rcases PeerRegistry.mem_add.mp hq with hq | rfl
    · exact h.held_listening q hq
    · exact h.added_listening q (Multiset.mem_cons_self _ _)
  added_listening q hq := h.added_listening q (Multiset.mem_cons_of_mem hq)
  sweep_to_come q hq hexp := by
    have hwake : WakeToCome r (.insert p ::ₘ others) := by
      rcases PeerRegistry.mem_add.mp hq with hq | rfl
      · exact h.sweep_to_come q hq hexp
      · exact hp hexp
    exact zero_add others ▸ hwake.frame rfl id (List.Subset.refl _) []

end RegistryInv

/-- Every operation executed under the condition keeps the invariant. -/
theorem registryExec_keeps {s : Threads RegistryState RegistryOp} {op : RegistryOp}
    {others : Multiset RegistryOp} {e : Effect RegistryState RegistryOp}
    (hfl : s.inFlight = op ::ₘ others) (hP : RegistryInv s.shared s.inFlight)
    (hg : SweepComes op s) (he : registryExec op () s = some e) :
    RegistryInv e.shared (↑e.next + others + ↑e.spawn.flatten) := by
  rw [hfl] at hP
  rw [Code.next_add_spawn]
  cases op with
  | setListener p =>
    cases he
    refine ⟨?_, ?_, ?_⟩
    · intro q hq
      exact List.mem_cons_of_mem p (hP.held_listening q hq)
    · intro q hq
      rcases Multiset.mem_add.mp hq with hq | hq
      · obtain rfl : q = p := by simpa using hq
        exact List.mem_cons_self
      · exact List.mem_cons_of_mem p (hP.added_listening q (Multiset.mem_cons_of_mem hq))
    · intro q hq hexp
      refine (hP.sweep_to_come q hq hexp).frame rfl ?_ ?_ _
      · exact id
      · exact List.subset_cons_self p _
  | insert p =>
    cases he
    have hins := hP.insert fun hexp => hfl ▸ hg hexp
    exact (zero_add others).symm ▸ hins
  | markExpired p =>
    simp only [registryExec] at he
    split at he
    case isTrue =>
      cases he
      -- it has expired before, so nothing is new
      exact hP.keep rfl (List.Subset.refl _) rfl rfl (by simp) fun q _ h1 h2 => absurd h1 h2
    case isFalse =>
      cases he
      refine hP.keep rfl (List.Subset.refl _) rfl rfl (by simp) fun q hq h1 h2 => ?_
      -- the peer is in the map, so its listener will be told
      obtain rfl : q = p := (List.mem_cons.mp h1).resolve_right h2
      exact .inr (.inr (.inr ⟨q, hP.held_listening q hq, by simp⟩))
  | post p =>
    cases he
    by_cases hp : p ∈ s.shared.listening
    · rw [if_pos hp]
      exact hP.awake rfl rfl (by simp) (.inr (.inl (by simp)))
    · -- a peer that has no listener wakes nobody
      rw [if_neg hp]
      refine ⟨hP.held_listening, fun q hq => hP.added_next (by simp) hq, fun q hq hexp => ?_⟩
      rcases hP.sweep_to_come q hq hexp with h | h | h | ⟨p', hp', h⟩
      · exact .inl h
      · exact .inr (.inl (by simpa using h))
      · exact .inr (.inr (.inl (by simpa using h)))
      · refine .inr (.inr (.inr ⟨p', hp', ?_⟩))
        rcases Multiset.mem_cons.mp h with h | h
        · cases h
          exact absurd hp' hp
        · simpa using h
  | wake =>
    cases he
    exact hP.awake rfl rfl (by simp) (.inl rfl)
  | wait =>
    simp only [registryExec] at he
    split at he
    case isTrue =>
      cases he
      exact hP.awake rfl rfl (by simp) (.inr (.inr (.inl (by simp))))
    case isFalse => cases he
  -- what the sweep leaves in the map has not expired
  | sweep =>
    cases he
    refine ⟨?_, ?_, ?_⟩
    · intro p hp
      exact hP.held_listening p (PeerRegistry.mem_sweep.mp hp).1
    · intro p hp
      exact hP.added_next (by simp) hp
    · intro p hp hexp
      exact absurd (PeerRegistry.mem_sweep.mp hp).2 (by simpa using hexp)
  | erase p =>
    cases he
    refine hP.keep rfl ?_ rfl rfl ?_ fun q _ h1 h2 => absurd h1 h2
    · exact List.filter_subset_self _
    · split <;> simp
  -- the condition: a peer that is in the map has a sweep to come
  | terminate p =>
    cases he
    refine hP.keep rfl (List.Subset.refl _) rfl rfl (by simp) fun q hq h1 h2 => ?_
    obtain rfl : q = p := (List.mem_cons.mp h1).resolve_right h2
    have hwake : WakeToCome s.shared (.terminate q ::ₘ others) := hfl ▸ hg hq
    exact hwake.frame rfl id (List.Subset.refl _) _

/-- A call does not start with an insertion, and it takes no operation away. -/
theorem registryEntry_keeps {r : RegistryState} {flight : Multiset RegistryOp}
    (hP : RegistryInv r flight) (call : RegistryCall) :
    RegistryInv r (flight + ↑[registryEntry call]) where
  held_listening := hP.held_listening
  added_listening p hp := by
    rcases Multiset.mem_add.mp hp with hp | hp
    · exact hP.added_listening p hp
    · cases call <;> simp [registryEntry] at hp
  sweep_to_come p hp hexp := by
    have hmem : ∀ o ∈ flight, o ∈ flight + ↑[registryEntry call] :=
      fun o ho => Multiset.mem_add.mpr (.inl ho)
    exact (hP.sweep_to_come p hp hexp).imp_right
      (Or.imp (hmem _) (Or.imp (hmem _) fun ⟨q, hq, h⟩ => ⟨q, hq, hmem _ h⟩))

/-- **No expired peer stays behind.** In every interleaving in which a peer that is put into
    the map has not expired or still has a sweep to come, the registry of a cleaner that
    waits for the next wake-up holds no expired peer. -/
theorem expired_swept (as : List (Label Unit RegistryCall)) (s : Threads RegistryState RegistryOp)
    (hswept : registryCode.machine.Guarded (Code.When SweepComes) registryCode.init as)
    (hrun : registryCode.machine.run as = some s) : ExpiredSwept s := by
  have hinv : RegistryInv s.shared s.inFlight := by
    refine Code.guarded_interleavings ?_ ?_ ⟨by simp [registryCode], ?_, by simp [registryCode]⟩
      hswept hrun
    · intro s call ops hP hops
      cases hops
      exact registryEntry_keeps hP call
    · intro s op others x e hfl hP hg he
      exact registryExec_keeps hfl hP hg he
    · intro p hp
      simp [registryCode, Threads.inFlight] at hp
  intro hwaits hclear p hp hexp
  -- the cleaner waits and the flag is clear, so no wake-up is to come for an expired peer
  rcases hinv.sweep_to_come p hp hexp with h | h | h | ⟨q, -, h⟩
  · rw [hclear] at h
    cases h
  all_goals
    rw [hwaits, Multiset.mem_singleton] at h
    cases h

/-- A peer is added, expires, wakes the cleaner and is swept out. -/
def addedAndExpired : List (Label Unit RegistryCall) :=
  [.call (.add 0), .run 1 (), .run 1 (), .call (.expire 0), .run 2 (), .run 2 (), .run 3 (),
   .run 0 (), .run 0 (), .run 0 ()]

theorem expired_swept_addedAndExpired :
    ∃ s, registryCode.machine.run addedAndExpired = some s ∧ s.inFlight = {.wait} ∧
      s.shared.registry.peers = [] ∧ ExpiredSwept s :=
  ⟨_, rfl, rfl, rfl, expired_swept addedAndExpired _ (by decide) rfl⟩

/-- The peer expires before `Add` has installed the listener. -/
def expiredBeforeAdd : List (Label Unit RegistryCall) :=
  [.call (.expire 0), .run 1 (), .run 1 (), .call (.add 0), .run 2 (), .run 2 ()]

/-- The peer expires when `Add` has installed the listener, and the sweep that it asks for is
    over before `Add` puts it into the map. -/
def expiredDuringAdd : List (Label Unit RegistryCall) :=
  [.call (.add 0), .run 1 (), .call (.expire 0), .run 2 (), .run 2 (), .run 3 (),
   .run 0 (), .run 0 (), .run 1 ()]

/-- In both runs the cleaner waits with its flag clear and nothing else is going on, and the
    registry holds a peer that has expired. -/
theorem not_expiredSwept_expiredBeforeAdd :
    (∃ s, registryCode.machine.run expiredBeforeAdd = some s ∧ s.inFlight = {.wait} ∧
      s.shared.registry = ⟨[0], false⟩ ∧ s.shared.expired = [0] ∧ ¬ ExpiredSwept s) ∧
    (∃ s, registryCode.machine.run expiredDuringAdd = some s ∧ s.inFlight = {.wait} ∧
      s.shared.registry = ⟨[0], false⟩ ∧ s.shared.expired = [0] ∧ ¬ ExpiredSwept s) := by
  refine ⟨⟨_, rfl, by decide, rfl, rfl, fun h => ?_⟩, ⟨_, rfl, by decide, rfl, rfl, fun h => ?_⟩⟩
  · exact absurd (h (by decide) rfl 0 (by decide)) (by decide)
  · exact absurd (h (by decide) rfl 0 (by decide)) (by decide)

end PiWebrtc.Signaling
