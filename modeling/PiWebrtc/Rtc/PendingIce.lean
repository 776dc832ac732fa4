import PiWebrtc.Lib.Threads
import Mathlib.Data.Multiset.Filter

namespace PiWebrtc.Rtc

open Transition

/-!
# Pending ICE candidates

`SetRemoteIce` runs on the thread of the signaling service.  It hands a candidate to the
peer connection if there is a remote description, and puts it into the pending list if not.
The signaling thread applies remote descriptions; when one is applied, `FlushPendingIce`
empties the list.  The look at the remote description and the insertion into the list are
two steps: between them the description may be applied and the list be flushed, and the
candidate then stays behind.  `ice_complete` shows that candidates are lost in no other way,
and never handed over twice.

The peer connection exists throughout.  Its part, applying a description and taking a
candidate, is one operation each.
-/

/-- `PendingIceCandidate`. -/
structure IceCandidate where
  sdpMid : String
  sdpMlineIndex : ℤ
  candidate : String
  deriving DecidableEq, Repr

/-- Whether there is a remote description, the pending list, and history: the candidates
    received, and those handed to `AddIceCandidate`. -/
structure IceState where
  remoteDescription : Bool := false
  pendingIceCandidates : List IceCandidate := []
  received : List IceCandidate := []
  handed : List IceCandidate := []

/-- The atomic operations. -/
inductive IceOp where
  /-- `SetRemoteIce`: look for the remote description. -/
  | checkRemote (ice : IceCandidate)
  /-- `SetRemoteIce`: put the candidate into the list, under `pending_ice_mutex_`. -/
  | push (ice : IceCandidate)
  /-- Parse a candidate and hand it to `AddIceCandidate`. -/
  | addIce (ice : IceCandidate)
  /-- The peer connection applies a remote description. -/
  | setRemoteDescription
  /-- `FlushPendingIce`: swap the list out, under `pending_ice_mutex_`. -/
  | flush
  deriving DecidableEq, Repr

/-- Whether a remote description can be applied. -/
inductive IceOutcome where
  | ok
  | failed
  deriving DecidableEq, Repr

inductive IceCall where
  | setRemoteIce (ice : IceCandidate)
  | setRemoteDescription
  deriving DecidableEq, Repr

/-- Execute one operation.  `parses` is `CreateIceCandidate`. -/
def iceExec (parses : IceCandidate → Bool) (op : IceOp) (x : IceOutcome)
    (s : Threads IceState IceOp) : Option (Effect IceState IceOp) :=
  let r := s.shared
  match op with
  | .checkRemote ice =>
    some ⟨{ r with received := r.received ++ [ice] },
      if r.remoteDescription then [.addIce ice] else [.push ice], []⟩
  -- the look at the remote description is over, whatever has happened since
  | .push ice =>
    some ⟨{ r with pendingIceCandidates := r.pendingIceCandidates ++ [ice] }, [], []⟩
  | .addIce ice =>
    some ⟨if parses ice then { r with handed := r.handed ++ [ice] } else r, [], []⟩
  | .setRemoteDescription =>
    match x with
    | .ok => some ⟨{ r with remoteDescription := true }, [.flush], []⟩
    | .failed => some ⟨r, [], []⟩
  | .flush =>
    some ⟨{ r with pendingIceCandidates := [] }, r.pendingIceCandidates.map .addIce, []⟩

/-- The first operation of a call. -/
def iceEntry : IceCall → IceOp
  | .setRemoteIce ice => .checkRemote ice
  | .setRemoteDescription => .setRemoteDescription

/-- A peer without a remote description. -/
def iceCode (parses : IceCandidate → Bool) : Code IceState IceOp IceOutcome IceCall where
  init := { shared := {}, todo := [] }
  entry call _ := some [iceEntry call]
  exec := iceExec parses

/-- What is asked for: once there is a remote description and no call is in progress, each
    candidate that was received and parses has been handed over once, and none is pending. -/
def IceComplete (parses : IceCandidate → Bool) (s : Threads IceState IceOp) : Prop :=
  s.shared.remoteDescription = true → s.Quiet →
    s.shared.pendingIceCandidates = [] ∧ s.shared.handed.Perm (s.shared.received.filter parses)

def IceOp.isPush : IceOp → Bool
  | .push _ => true
  | _ => false

/-- The condition: a candidate is put into the list only while there is no remote
    description, or while the flush that follows one is still to come. -/
def FlushComes (op : IceOp) (s : Threads IceState IceOp) : Prop :=
  op.isPush = true → s.shared.remoteDescription = false ∨ .flush ∈ s.todo.flatten

instance (op : IceOp) (s : Threads IceState IceOp) : Decidable (FlushComes op s) :=
  inferInstanceAs (Decidable (_ → _))

/-! ### No candidate is lost or duplicated on the way -/

/-- The candidate that an operation is going to put into the list or to hand over. -/
def IceOp.carries : IceOp → Option IceCandidate
  | .push ice => some ice
  | .addIce ice => some ice
  | _ => none

/-- The candidates on their way. -/
def carried (flight : Multiset IceOp) : Multiset IceCandidate := flight.filterMap IceOp.carries

@[simp] theorem carried_add (f g : Multiset IceOp) : carried (f + g) = carried f + carried g :=
  Multiset.filterMap_add IceOp.carries f g

@[simp] theorem carried_coe (ops : List IceOp) :
    carried ↑ops = ↑(ops.filterMap IceOp.carries) := rfl

theorem carried_cons (op : IceOp) (others : Multiset IceOp) :
    carried (op ::ₘ others) = ↑op.carries.toList + carried others := by
  rw [← Multiset.singleton_add, carried_add]
  refine congrArg (· + carried others) ?_
  cases h : op.carries with
  | none => exact Multiset.filterMap_cons_none op 0 h
  | some ice => exact Multiset.filterMap_cons_some IceOp.carries op 0 h

/-- **The invariant.** The candidates handed over, and those of the pending ones and of those
    on their way that parse, are the received ones that parse. -/
def Balanced (parses : IceCandidate → Bool) (r : IceState) (flight : Multiset IceOp) : Prop :=
  (r.handed : Multiset IceCandidate) +
      (↑r.pendingIceCandidates + carried flight).filter (fun ice => parses ice = true) =
    (r.received : Multiset IceCandidate).filter fun ice => parses ice = true

namespace Balanced

variable {parses : IceCandidate → Bool} {r r' : IceState} {flight flight' : Multiset IceOp}

/-- A candidate moves. -/
theorem move (h : Balanced parses r flight) (hhanded : r'.handed = r.handed)
    (hreceived : r'.received = r.received)
    (hbag : (↑r'.pendingIceCandidates + carried flight' : Multiset IceCandidate) =
      ↑r.pendingIceCandidates + carried flight) : Balanced parses r' flight' := by
  rw [Balanced, hhanded, hreceived, hbag]
  exact h

/-- A candidate comes in. -/
theorem receive (h : Balanced parses r flight) (ice : IceCandidate)
    (hflight : carried flight' = ice ::ₘ carried flight) :
    Balanced parses { r with received := r.received ++ [ice] } flight' := by
  -- add the candidate to both sides of the equation, if it parses
  have hsum := congrArg (· + Multiset.filter (fun c => parses c = true) {ice}) h
  simp only [add_assoc, ← Multiset.filter_add] at hsum
  rw [Balanced, hflight, ← Multiset.singleton_add, add_comm ({ice} : Multiset IceCandidate)]
  show _ = Multiset.filter (fun c => parses c = true) ↑(r.received ++ [ice])
  rw [← Multiset.coe_add]
  exact hsum

/-- A candidate is handed over, if it parses. -/
theorem handOver (h : Balanced parses r flight) (ice : IceCandidate)
    (hflight : carried flight = ice ::ₘ carried flight') :
    Balanced parses (if parses ice then { r with handed := r.handed ++ [ice] } else r)
      flight' := by
  rw [Balanced, hflight, Multiset.add_cons] at h
  by_cases hparse : parses ice = true
  · rw [if_pos hparse]
    rw [Multiset.filter_cons_of_pos (p := fun c => parses c = true) _ hparse,
      ← Multiset.singleton_add, ← add_assoc] at h
    show (↑(r.handed ++ [ice]) : Multiset IceCandidate) + _ = _
    rw [← Multiset.coe_add]
    exact h
  · rw [if_neg hparse]
    rw [Multiset.filter_cons_of_neg (p := fun c => parses c = true) _ hparse] at h
    exact h

end Balanced

section Operations

variable {parses : IceCandidate → Bool} {s : Threads IceState IceOp} {op : IceOp}
  {others : Multiset IceOp} {x : IceOutcome} {e : Effect IceState IceOp}

/-- Every operation keeps the balance. -/
theorem iceExec_balanced (h : Balanced parses s.shared (op ::ₘ others))
    (he : iceExec parses op x s = some e) :
    Balanced parses e.shared (↑e.next + others + ↑e.spawn.flatten) := by
  cases op with
  | checkRemote ice =>
    cases he
    refine h.receive ice ?_
    split <;> simp [carried_cons, IceOp.carries]
  | push ice =>
    cases he
    refine h.move rfl rfl ?_
    show (↑(s.shared.pendingIceCandidates ++ [ice]) + _ : Multiset IceCandidate) = _
    simp [carried_cons, IceOp.carries, ← Multiset.coe_add, add_assoc]
  | addIce ice =>
    cases he
    refine h.handOver ice ?_
    simp [carried_cons, IceOp.carries]
  -- neither outcome moves a candidate
  | setRemoteDescription =>
    cases x with
    | ok | failed =>
      cases he
      refine h.move rfl rfl ?_
      simp [carried_cons, IceOp.carries]
  | flush =>
    cases he
    refine h.move rfl rfl ?_
    simp [carried_cons, IceOp.carries, Function.comp_def]

/-- With a remote description, what is pending has a flush to come. -/
def FlushPending (r : IceState) (flight : Multiset IceOp) : Prop :=
  r.remoteDescription = true → r.pendingIceCandidates = [] ∨ .flush ∈ flight

/-- Every operation executed under the condition keeps it so. -/
theorem iceExec_flushPending (h : FlushPending s.shared (op ::ₘ others))
    (hfl : s.inFlight = op ::ₘ others) (hg : FlushComes op s)
    (he : iceExec parses op x s = some e) :
    FlushPending e.shared (↑e.next + others + ↑e.spawn.flatten) := by
  have hlater : op ≠ .flush → .flush ∈ op ::ₘ others →
      .flush ∈ ↑e.next + others + ↑e.spawn.flatten := by
    intro hne hmem
    have hothers := (Multiset.mem_cons.mp hmem).resolve_left hne.symm
    exact Multiset.mem_add.mpr (.inl (Multiset.mem_add.mpr (.inr hothers)))
  intro hremote
  cases op with
  | checkRemote ice =>
    cases he
    exact (h hremote).imp_right (hlater nofun)
  | push ice =>
    cases he
    -- the candidate comes in before the description, or before the flush
    have hremote' : s.shared.remoteDescription = true := hremote
    have hflush : .flush ∈ s.inFlight := (hg rfl).resolve_left (by rw [hremote']; simp)
    rw [hfl] at hflush
    exact .inr (hlater nofun hflush)
  | addIce ice =>
    cases he
    by_cases hparse : parses ice = true
    · simp only [hparse] at hremote ⊢
      exact (h hremote).imp_right (hlater nofun)
    · simp only [hparse] at hremote ⊢
      exact (h hremote).imp_right (hlater nofun)
  | setRemoteDescription =>
    cases x with
    -- from here on the flush is to come
    | ok =>
      cases he
      exact .inr (by simp)
    | failed =>
      cases he
      exact (h hremote).imp_right (hlater nofun)
  | flush =>
    cases he
    exact .inl rfl

end Operations

/-- **ICE candidates.** In every interleaving in which a candidate is put into the list only
    while the flush is still to come, no candidate is lost and none is handed over twice. -/
theorem ice_complete (parses : IceCandidate → Bool) (as : List (Label IceOutcome IceCall))
    (s : Threads IceState IceOp)
    (hsafe : (iceCode parses).machine.Guarded (Code.When FlushComes) (iceCode parses).init as)
    (hrun : (iceCode parses).machine.run as = some s) : IceComplete parses s := by
  have hbal : Balanced parses s.shared s.inFlight := by
    refine Code.interleavings (C := iceCode parses) (I := Balanced parses) ?_ ?_ rfl hrun
    · intro s call ops hbal hops
      obtain rfl := Option.some.inj hops
      have hnone : carried ↑[iceEntry call] = 0 := by cases call <;> rfl
      apply hbal.move rfl rfl
      rw [carried_add, hnone, add_zero]
    · intro s op others x e hfl hbal he
      rw [hfl] at hbal
      exact iceExec_balanced hbal he
  have hflush : FlushPending s.shared s.inFlight := by
    refine Code.guarded_interleavings (P := FlushPending) ?_ ?_ (fun _ => .inl rfl) hsafe hrun
    · intro s call ops hflush _ hremote
      exact (hflush hremote).imp_right fun hmem => Multiset.mem_add.mpr (.inl hmem)
    · intro s op others x e hfl hflush hg he
      rw [hfl] at hflush
      exact iceExec_flushPending hflush hfl hg he
  intro hremote hquiet
  rw [hquiet] at hflush hbal
  -- when all is quiet no flush is to come, so nothing is pending
  have hnone : s.shared.pendingIceCandidates = [] :=
    (hflush hremote).resolve_right (Multiset.notMem_zero _)
  refine ⟨hnone, ?_⟩
  have hfilter : (s.shared.received : Multiset IceCandidate).filter (fun c => parses c = true) =
      ↑(s.shared.received.filter parses) := by
    rw [Multiset.filter_coe]
    simp
  rw [Balanced, hnone, hfilter] at hbal
  rw [← Multiset.coe_eq_coe]
  simpa [carried] using hbal

/-- Two candidates that parse. -/
def hostIce : IceCandidate := ⟨"0", 0, "candidate:1 1 udp 1 10.0.0.1 5000 typ host"⟩

def relayIce : IceCandidate := ⟨"0", 0, "candidate:2 1 udp 1 10.0.0.2 5000 typ relay"⟩

/-- The library parses everything but the empty text. -/
def parsesText (ice : IceCandidate) : Bool := ice.candidate ≠ ""

/-- The first candidate is put into the list when the description has been applied and its
    flush is still to come; the second one finds the description. -/
def pushedBeforeFlush : List (Label IceOutcome IceCall) :=
  [.call (.setRemoteIce hostIce), .run 0 .ok, .call .setRemoteDescription, .run 1 .ok, .run 0 .ok,
   .call (.setRemoteIce relayIce), .run 2 .ok, .run 1 .ok, .run 2 .ok, .run 1 .ok]

theorem ice_complete_pushedBeforeFlush :
    ∃ s, (iceCode parsesText).machine.run pushedBeforeFlush = some s ∧
      s.shared.remoteDescription = true ∧ s.Quiet ∧ s.shared.handed = [relayIce, hostIce] ∧
      IceComplete parsesText s :=
  ⟨_, rfl, rfl, rfl, rfl, ice_complete parsesText pushedBeforeFlush _ (by decide) rfl⟩

/-- The description is applied and flushed between the look at it and the insertion. -/
def pushedAfterFlush : List (Label IceOutcome IceCall) :=
  [.call (.setRemoteIce hostIce), .run 0 .ok, .call .setRemoteDescription, .run 1 .ok, .run 1 .ok,
   .run 0 .ok]

/-- The candidate is still pending when everything is done. -/
theorem not_iceComplete_pushedAfterFlush :
    ∃ s, (iceCode parsesText).machine.run pushedAfterFlush = some s ∧
      s.shared.pendingIceCandidates = [hostIce] ∧ s.shared.handed = [] ∧
      ¬ IceComplete parsesText s := by
  refine ⟨_, rfl, rfl, rfl, fun h => ?_⟩
  exact absurd (h rfl rfl).1 nofun

end PiWebrtc.Rtc
