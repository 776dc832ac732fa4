import PiWebrtc.Lib.Threads
import PiWebrtc.Ipc.GamepadEndpoint

namespace PiWebrtc.Ipc

open Transition
open Rtc (CFloat)

/-!
# Snapshots in time order

`Write` and `OnRemoteClosed` read the clock before they take `mutex_`, so between the two
another call may read a later time and publish it first.  Then the stamps go backwards, and a
report may even put `last_received` of its remote back.  `Start` reads the clock under the lock.

`snapshots_in_order_iff` says that this is all: the snapshots of a run are in time order exactly
if the locked sections that publish are executed in the order of their clock readings.
-/

variable {α δ : Type}

/-- The operations, with what the call has computed before. -/
inductive GamepadOp (δ : Type) where
  /-- `Write`: `Clock::now()`. -/
  | readWrite (remoteId : String) (state : GamepadState δ)
  /-- `Write`: the locked section. -/
  | lockWrite (remoteId : String) (state : GamepadState δ) (now : ℕ)
  /-- `OnRemoteClosed`: `Clock::now()`. -/
  | readClosed (remoteId : String)
  /-- `OnRemoteClosed`: the locked section. -/
  | lockClosed (remoteId : String) (now : ℕ)
  /-- `Start`: the locked section, with `Clock::now()` in it. -/
  | lockStart
  deriving DecidableEq, Repr

/-- The calls. -/
inductive GamepadCall where
  | write (remoteId : String) (payload : List UInt8)
  | onRemoteClosed (remoteId : String)
  | start
  deriving DecidableEq, Repr

/-- The clock and the endpoint. History: the clock readings of the sections that have
    published, and every value that `last_received` was set to. -/
structure GamepadShared (δ : Type) where
  clock : ℕ := 0
  endpoint : GamepadEndpoint δ := {}
  readings : List ℕ := []
  received : List (String × ℕ) := []

/-- The operations of a call; an invalid payload is dropped before the clock is read. -/
def gamepadEntry (codec : InputCodec α δ) :
    GamepadCall → Threads (GamepadShared δ) (GamepadOp δ) → Option (List (GamepadOp δ))
  | .write remoteId payload, _ => some ((codec.stateOf payload).map (.readWrite remoteId)).toList
  | .onRemoteClosed remoteId, _ => some [.readClosed remoteId]
  | .start, _ => some [.lockStart]

/-- Execute an operation.  The outcome is what the clock says, if the operation reads it: a
    steady clock does not run backwards, and it counts in a signed 64-bit number. -/
def gamepadExec (op : GamepadOp δ) (now : ℕ) (s : Threads (GamepadShared δ) (GamepadOp δ)) :
    Option (Effect (GamepadShared δ) (GamepadOp δ)) :=
  let r := s.shared
  match op with
  | .readWrite remoteId state =>
    if r.clock ≤ now ∧ now < 2 ^ 63 then
      some { shared := { r with clock := now }, next := [.lockWrite remoteId state now] }
    else none
  | .lockWrite remoteId state read =>
    some { shared :=
      { r with
        endpoint := r.endpoint.writeLocked remoteId state read
        readings := r.readings ++ [read]
        received := r.received ++ [(remoteId, read)] } }
  | .readClosed remoteId =>
    if r.clock ≤ now ∧ now < 2 ^ 63 then
      some { shared := { r with clock := now }, next := [.lockClosed remoteId now] }
    else none
  | .lockClosed remoteId read =>
    some { shared :=
      { r with
        endpoint := r.endpoint.onRemoteClosedLocked remoteId read
        readings :=
          if remoteId ∈ r.endpoint.gamepads.keys then r.readings ++ [read] else r.readings } }
  | .lockStart =>
    if r.clock ≤ now ∧ now < 2 ^ 63 then
      some { shared :=
        { r with
          clock := now
          endpoint := r.endpoint.start now
          readings := r.readings ++ [now] } }
    else none

/-- The calls of any number of channels. -/
def gamepadCode (codec : InputCodec α δ) :
    Code (GamepadShared δ) (GamepadOp δ) ℕ GamepadCall where
  init := ⟨{}, []⟩
  entry := gamepadEntry codec
  exec := gamepadExec

/-- What is asked for: the stamps never decrease, and no remote's `last_received` is set back. -/
structure InTimeOrder (s : Threads (GamepadShared δ) (GamepadOp δ)) : Prop where
  stamps : (s.shared.endpoint.published.map GamepadSnapshot.deviceMonotonicNs).Pairwise (· ≤ ·)
  received : ∀ r, ((s.shared.received.filter fun e => e.1 = r).map Prod.snd).Pairwise (· ≤ ·)

/-- The condition: a section that publishes is not executed after one of a call that has read
    the clock later. -/
def InClockOrder (op : GamepadOp δ) (s : Threads (GamepadShared δ) (GamepadOp δ)) : Prop :=
  match op with
  | .lockWrite _ _ read => ∀ t ∈ s.shared.readings, t ≤ read
  | .lockClosed remoteId read =>
    remoteId ∈ s.shared.endpoint.gamepads.keys → ∀ t ∈ s.shared.readings, t ≤ read
  | _ => True

instance (op : GamepadOp δ) (s : Threads (GamepadShared δ) (GamepadOp δ)) :
    Decidable (InClockOrder op s) :=
  match op with
  | .lockWrite _ _ read => inferInstanceAs (Decidable (∀ t ∈ s.shared.readings, t ≤ read))
  | .lockClosed remoteId read => inferInstanceAs (Decidable
      (remoteId ∈ s.shared.endpoint.gamepads.keys → ∀ t ∈ s.shared.readings, t ≤ read))
  | .readWrite _ _ | .readClosed _ | .lockStart => isTrue trivial

/-- The time that an operation has read. -/
def GamepadOp.reading : GamepadOp δ → ℕ
  | .lockWrite _ _ read => read
  | .lockClosed _ read => read
  | _ => 0

/-- **The invariant.** A stamp is the clock reading of the section that published it, every
    reading is one of the past, and `last_received` is set by sections that publish. -/
structure ClockInv (r : GamepadShared δ) (flight : Multiset (GamepadOp δ)) : Prop where
  stamps : r.endpoint.published.map GamepadSnapshot.deviceMonotonicNs =
    r.readings.map UInt64.ofNat
  clock : r.clock < 2 ^ 63
  past : ∀ t ∈ r.readings, t ≤ r.clock
  pending : ∀ op ∈ flight, op.reading ≤ r.clock
  received : (r.received.map Prod.snd).Sublist r.readings

namespace ClockInv

variable {r : GamepadShared δ} {flight : Multiset (GamepadOp δ)}

/-- The snapshots are in time order exactly if the readings are. -/
theorem inTimeOrder_iff {s : Threads (GamepadShared δ) (GamepadOp δ)}
    (h : ClockInv s.shared s.inFlight) : InTimeOrder s ↔ s.shared.readings.Pairwise (· ≤ ·) := by
  have hval : ∀ t ∈ s.shared.readings, (UInt64.ofNat t).toNat = t := fun t ht =>
    UInt64.toNat_ofNat_of_lt' (((h.past t ht).trans_lt h.clock).trans (by decide))
  have hstamps : (s.shared.readings.map UInt64.ofNat).Pairwise (· ≤ ·) ↔
      s.shared.readings.Pairwise (· ≤ ·) := by
    rw [List.pairwise_map]
    refine List.Pairwise.iff_of_mem fun {a b} ha hb => ?_
    rw [UInt64.le_iff_toNat_le, hval a ha, hval b hb]
  constructor
  · intro hP
    exact hstamps.mp (h.stamps ▸ hP.stamps)
  · intro hread
    refine ⟨h.stamps ▸ hstamps.mpr hread, fun q => ?_⟩
    exact (hread.sublist h.received).sublist (List.filter_sublist.map Prod.snd)

/-- A section that publishes. -/
theorem publish {op : GamepadOp δ} {others : Multiset (GamepadOp δ)}
    (h : ClockInv r (op ::ₘ others)) (r' : GamepadShared δ) (now : ℕ) (hsteady : r.clock ≤ r'.clock)
    (hclock : r'.clock < 2 ^ 63) (hnow : now ≤ r'.clock)
    (hpublished : r'.endpoint.published.map GamepadSnapshot.deviceMonotonicNs =
      r.endpoint.published.map GamepadSnapshot.deviceMonotonicNs ++ [UInt64.ofNat now])
    (hreadings : r'.readings = r.readings ++ [now])
    (hreceived : (r'.received.map Prod.snd).Sublist r'.readings) : ClockInv r' others where
  stamps := by rw [hpublished, h.stamps, hreadings, List.map_append, List.map_singleton]
  clock := hclock
  past t ht := by
    rw [hreadings] at ht
    rcases List.mem_append.mp ht with hold | hnew
    · exact (h.past t hold).trans hsteady
    · exact List.mem_singleton.mp hnew ▸ hnow
  pending o ho := (h.pending o (Multiset.mem_cons_of_mem ho)).trans hsteady
  received := hreceived

/-- Reading the clock. -/
theorem read {op : GamepadOp δ} {others : Multiset (GamepadOp δ)} {now : ℕ}
    (h : ClockInv r (op ::ₘ others)) (op' : GamepadOp δ) (hsteady : r.clock ≤ now)
    (hclock : now < 2 ^ 63) (hop : op'.reading = now) :
    ClockInv { r with clock := now } (op' ::ₘ others) where
  stamps := h.stamps
  clock := hclock
  past t ht := (h.past t ht).trans hsteady
  pending o ho := by
    rcases Multiset.mem_cons.mp ho with rfl | ho
    · exact hop.le
    · exact (h.pending o (Multiset.mem_cons_of_mem ho)).trans hsteady
  received := h.received

/-- An operation that ends its call and changes nothing. -/
theorem done {op : GamepadOp δ} {others : Multiset (GamepadOp δ)}
    (h : ClockInv r (op ::ₘ others)) : ClockInv r others :=
  ⟨h.stamps, h.clock, h.past, fun o ho => h.pending o (Multiset.mem_cons_of_mem ho), h.received⟩

/-- **Execution of an operation.** -/
theorem exec {s : Threads (GamepadShared δ) (GamepadOp δ)} {op : GamepadOp δ}
    {others : Multiset (GamepadOp δ)} {now : ℕ}
    {e : Effect (GamepadShared δ) (GamepadOp δ)} (h : ClockInv s.shared (op ::ₘ others))
    (he : gamepadExec op now s = some e) :
    ClockInv e.shared (↑e.next + others + ↑e.spawn.flatten) := by
  have hpending := h.pending op (Multiset.mem_cons_self op others)
  cases op with
  | readWrite remoteId state =>
    rw [gamepadExec, Option.ite_none_right_eq_some] at he
    obtain ⟨⟨hsteady, hclock⟩, he⟩ := he
    obtain rfl := Option.some.inj he
    simpa using h.read (.lockWrite remoteId state now) hsteady hclock rfl
  | readClosed remoteId =>
    rw [gamepadExec, Option.ite_none_right_eq_some] at he
    obtain ⟨⟨hsteady, hclock⟩, he⟩ := he
    obtain rfl := Option.some.inj he
    simpa using h.read (.lockClosed remoteId now) hsteady hclock rfl
  | lockWrite remoteId state read =>
    obtain rfl := Option.some.inj he
    have hafter := h.publish { s.shared with
      endpoint := s.shared.endpoint.writeLocked remoteId state read
      readings := s.shared.readings ++ [read]
      received := s.shared.received ++ [(remoteId, read)] }
      read le_rfl h.clock hpending
      (by simp [GamepadEndpoint.writeLocked, GamepadEndpoint.pruneLocked,
        GamepadEndpoint.publishLocked]) rfl
      (by simpa using h.received.append (.refl [read]))
    simpa using hafter
  | lockClosed remoteId read =>
    obtain rfl := Option.some.inj he
    by_cases hmem : remoteId ∈ s.shared.endpoint.gamepads.keys
    · have hafter := h.publish { s.shared with
        endpoint := s.shared.endpoint.onRemoteClosedLocked remoteId read
        readings := s.shared.readings ++ [read] }
        read le_rfl h.clock hpending
        (by simp [GamepadEndpoint.onRemoteClosedLocked, hmem, GamepadEndpoint.pruneLocked,
          GamepadEndpoint.publishLocked]) rfl
        (h.received.trans (List.sublist_append_left _ _))
      simpa [hmem] using hafter
    · simpa [hmem, GamepadEndpoint.onRemoteClosedLocked] using h.done
  | lockStart =>
    rw [gamepadExec, Option.ite_none_right_eq_some] at he
    obtain ⟨⟨hsteady, hclock⟩, he⟩ := he
    obtain rfl := Option.some.inj he
    have hafter := h.publish { s.shared with
      clock := now
      endpoint := s.shared.endpoint.start now
      readings := s.shared.readings ++ [now] }
      now hsteady hclock le_rfl
      (by simp [GamepadEndpoint.start, GamepadEndpoint.publishLocked]) rfl
      (h.received.trans (List.sublist_append_left _ _))
    simpa using hafter

theorem init (codec : InputCodec α δ) :
    ClockInv (gamepadCode codec).init.shared (gamepadCode codec).init.inFlight :=
  ⟨rfl, Nat.two_pow_pos 63, fun _ ht => absurd ht List.not_mem_nil,
    fun _ hop => absurd hop (Multiset.notMem_zero _), .slnil⟩

/-- The operations that a call starts with have read nothing yet. -/
theorem call {codec : InputCodec α δ} {s : Threads (GamepadShared δ) (GamepadOp δ)}
    {k : GamepadCall} {ops : List (GamepadOp δ)} (h : ClockInv s.shared s.inFlight)
    (hops : (gamepadCode codec).entry k s = some ops) :
    ClockInv s.shared (s.inFlight + ↑ops) := by
  refine ⟨h.stamps, h.clock, h.past, fun op hop => ?_, h.received⟩
  rcases Multiset.mem_add.mp hop with hold | hnew
  · exact h.pending op hold
  · have hzero : op.reading = 0 := by
      cases k with
      | write remoteId payload =>
        obtain rfl := Option.some.inj hops
        obtain ⟨state, _, rfl⟩ : ∃ state, codec.stateOf payload = some state ∧
            .readWrite remoteId state = op := by
          simpa using hnew
        rfl
      | onRemoteClosed remoteId =>
        obtain rfl := Option.some.inj hops
        exact List.mem_singleton.mp hnew ▸ rfl
      | start =>
        obtain rfl := Option.some.inj hops
        exact List.mem_singleton.mp hnew ▸ rfl
    exact hzero ▸ Nat.zero_le s.shared.clock

/-- One more reading keeps the order exactly if no earlier one is later. -/
theorem pairwise_append_iff {l : List ℕ} {t : ℕ} (hl : l.Pairwise (· ≤ ·)) :
    (l ++ [t]).Pairwise (· ≤ ·) ↔ ∀ u ∈ l, u ≤ t := by
  simp [List.pairwise_append, hl]

/-- **Exactness of a step.** An operation executed while the readings are in order keeps them
    so exactly if it meets the condition. -/
theorem exec_ordered_iff {s : Threads (GamepadShared δ) (GamepadOp δ)} {op : GamepadOp δ}
    {others : Multiset (GamepadOp δ)} {now : ℕ}
    {e : Effect (GamepadShared δ) (GamepadOp δ)} (h : ClockInv s.shared (op ::ₘ others))
    (hread : s.shared.readings.Pairwise (· ≤ ·)) (he : gamepadExec op now s = some e) :
    e.shared.readings.Pairwise (· ≤ ·) ↔ InClockOrder op s := by
  cases op with
  | readWrite remoteId state =>
    rw [gamepadExec, Option.ite_none_right_eq_some] at he
    obtain rfl := Option.some.inj he.2
    exact iff_of_true hread trivial
  | readClosed remoteId =>
    rw [gamepadExec, Option.ite_none_right_eq_some] at he
    obtain rfl := Option.some.inj he.2
    exact iff_of_true hread trivial
  | lockWrite remoteId state read =>
    obtain rfl := Option.some.inj he
    exact pairwise_append_iff hread
  | lockClosed remoteId read =>
    obtain rfl := Option.some.inj he
    dsimp only [InClockOrder]
    split
    case isTrue hmem => exact (pairwise_append_iff hread).trans ⟨fun h _ => h, fun h => h hmem⟩
    case isFalse hmem => exact iff_of_true hread fun hmem' => absurd hmem' hmem
  | lockStart =>
    rw [gamepadExec, Option.ite_none_right_eq_some] at he
    obtain rfl := Option.some.inj he.2
    -- under the lock nobody else publishes a later time
    exact iff_of_true
      ((pairwise_append_iff hread).mpr fun t ht => (h.past t ht).trans he.1.1) trivial

end ClockInv

/-- **Snapshots in time order.** In every interleaving of the calls of any channels, the stamps
    and the times of every remote are in order throughout exactly if every section that
    publishes is executed after those of earlier clock readings only. -/
theorem snapshots_in_order_iff (codec : InputCodec α δ) (as : List (Label ℕ GamepadCall))
    (s : Threads (GamepadShared δ) (GamepadOp δ))
    (hrun : (gamepadCode codec).machine.run as = some s) :
    (gamepadCode codec).machine.Always InTimeOrder (gamepadCode codec).init as ↔
      (gamepadCode codec).machine.Guarded (Code.When InClockOrder) (gamepadCode codec).init as := by
  refine Code.always_iff_guarded (C := gamepadCode codec)
    (I := ClockInv) (P := InTimeOrder) (g := InClockOrder)
    (fun s k ops h hops => h.call hops) (fun s op others x e hfl h he => ?_) ?_ ?_
    (ClockInv.init codec) ?_ hrun
  · exact (hfl ▸ h : ClockInv s.shared (op ::ₘ others)).exec he
  · intro s s' k ops h hP hops hshared _
    exact ⟨hshared ▸ hP.stamps, hshared ▸ hP.received⟩
  · intro s s' op others x e h hP hfl he hshared hfl'
    have hop : ClockInv s.shared (op ::ₘ others) := hfl ▸ h
    have hafter : ClockInv s'.shared s'.inFlight := by
      rw [hshared, hfl']
      exact hop.exec he
    rw [hafter.inTimeOrder_iff, hshared]
    exact hop.exec_ordered_iff (h.inTimeOrder_iff.mp hP) he
  · exact (ClockInv.init codec).inTimeOrder_iff.mpr .nil

/-- Two reports of `"a"` on two channels, one after the other. -/
def reportsInTurn : List (Label ℕ GamepadCall) :=
  [.call .start, .run 0 1, .call (.write "a" [1]), .run 1 2, .run 1 0, .call (.write "a" [2]),
    .run 2 3, .run 2 0]

theorem snapshots_in_order_iff_inTurn :
    (gamepadCode byteCodec).machine.Always InTimeOrder (gamepadCode byteCodec).init
      reportsInTurn :=
  (snapshots_in_order_iff byteCodec reportsInTurn _ rfl).mpr (by decide)

/-- The second report reads the clock after the first one and takes the lock before it. -/
def reportsOvertaken : List (Label ℕ GamepadCall) :=
  [.call .start, .run 0 1, .call (.write "a" [1]), .call (.write "a" [2]), .run 1 2, .run 2 3,
    .run 2 0, .run 1 0]

theorem not_inTimeOrder_reportsOvertaken :
    ¬ ∀ (as : List (Label ℕ GamepadCall)) (s : Threads (GamepadShared CFloat) (GamepadOp CFloat)),
      (gamepadCode byteCodec).machine.run as = some s → InTimeOrder s := by
  intro h
  have hstamps := (h reportsOvertaken _ rfl).stamps
  have hbad : ¬ ([1, 3, 2] : List UInt64).Pairwise (· ≤ ·) := by decide
  exact hbad hstamps

end PiWebrtc.Ipc
