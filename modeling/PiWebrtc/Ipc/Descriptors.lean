import PiWebrtc.Ipc.UnixSocketServer
import Mathlib.Algebra.Order.Group.Multiset

namespace PiWebrtc.Ipc

open Transition

/-!
# Who closes a descriptor

A connection is closed by its reader, in `HandleClient`.  `Stop` closes the descriptors of
the clients it takes over once more, and `SendToAll` shuts the clients it dropped down after
it has released the mutex, when their readers may be gone.  `descriptors_owned` shows that
this is all: in every interleaving in which `Stop` takes no client over and every dropped
client still has its reader when it is shut down, each accepted descriptor is closed exactly
once and no call goes to a number that names something else.
-/

/-- How often connection `c` was closed. -/
def closes (c : ℕ) (calls : List SysCall) : ℕ :=
  calls.countP fun call => call.kind = .close ∧ call.client.conn = c

/-- What is asked for, of a server with the operations `flight` still to be done. -/
structure DescriptorsOwned (r : UnixSocketServer) (flight : Multiset ServerOp) : Prop where
  hit : ∀ call ∈ r.calls, call.hit = true
  closed_once : ∀ c < r.accepted.length, closes c r.calls ≤ 1
  all_closed : flight = 0 → ∀ c < r.accepted.length, closes c r.calls = 1

/-- The dropped client that an operation shuts down. -/
def ServerOp.stale : ServerOp → Option Client
  | .shutdownStale k => some k
  | _ => none

/-- The condition: `Stop` finds no client to take over, and a client that `SendToAll`
    dropped is shut down before its reader has closed it. -/
def LeavesToReader (op : ServerOp) (s : Threads UnixSocketServer ServerOp) : Prop :=
  (op = .sweep → s.shared.clients = []) ∧
    ∀ k ∈ op.stale, ∃ o ∈ s.todo.flatten, o.reader = some k

instance (op : ServerOp) (s : Threads UnixSocketServer ServerOp) :
    Decidable (LeavesToReader op s) :=
  inferInstanceAs (Decidable (_ ∧ _))

/-! ### Each connection has one owner -/

/-- The client whose descriptor an operation is going to close, at the end of its thread. -/
def ServerOp.holds : ServerOp → Option Client
  | .register k => some k
  | .readCheck k => some k
  | .read k => some k
  | .deliver k => some k
  | .leave k => some k
  | .close k => some k
  | _ => none

theorem ServerOp.holds_of_reader {op : ServerOp} {k : Client} (h : op.reader = some k) :
    op.holds = some k := by
  cases op <;> first | exact h | cases h

/-- The clients that the operations in flight hold. -/
def held (flight : Multiset ServerOp) : Multiset Client := flight.filterMap ServerOp.holds

@[simp] theorem held_add (f g : Multiset ServerOp) : held (f + g) = held f + held g :=
  Multiset.filterMap_add ServerOp.holds f g

@[simp] theorem held_coe (ops : List ServerOp) :
    held ↑ops = ↑(ops.filterMap ServerOp.holds) := rfl

theorem held_cons_holder {op : ServerOp} {k : Client} (h : op.holds = some k)
    (others : Multiset ServerOp) : held (op ::ₘ others) = k ::ₘ held others :=
  Multiset.filterMap_cons_some ServerOp.holds op others h

theorem held_cons_of_none {op : ServerOp} (h : op.holds = none) (others : Multiset ServerOp) :
    held (op ::ₘ others) = held others :=
  Multiset.filterMap_cons_none op others h

/-- `Stop` has clients to join and close. -/
def ServerOp.reaps : ServerOp → Bool
  | .joinReader _ _ => true
  | .closeClient _ _ => true
  | _ => false

/-- **The invariant.** Every accepted connection has been closed or is held by exactly one
    operation in flight, and a connection that is held is named by its number. -/
structure DescriptorInv (r : UnixSocketServer) (flight : Multiset ServerOp) : Prop where
  own : ∀ k ∈ held flight, k.conn < r.accepted.length ∧ r.names k = true
  once : ∀ c < r.accepted.length,
    (held flight).countP (fun k => k.conn = c) + closes c r.calls = 1
  old : ∀ call ∈ r.calls, call.client.conn < r.accepted.length
  hit : ∀ call ∈ r.calls, call.hit = true
  noReap : ∀ op ∈ flight, op.reaps = false

namespace DescriptorInv

variable {r r' : UnixSocketServer} {op : ServerOp} {others : Multiset ServerOp}

/-- The invariant is all that is asked for. -/
theorem owned {flight : Multiset ServerOp} (h : DescriptorInv r flight) :
    DescriptorsOwned r flight where
  hit := h.hit
  closed_once c hc := by
    have := h.once c hc
    omega
  all_closed hquiet c hc := by
    have hone := h.once c hc
    have hnone : held flight = 0 := by rw [hquiet]; rfl
    rw [hnone, Multiset.countP_zero, Nat.zero_add] at hone
    exact hone

/-- **Frame.** An operation that hands its connection on, if it holds one, leaves the
    numbers of the held connections alone and makes at most shutdowns that hit. -/
theorem frame (h : DescriptorInv r (op ::ₘ others)) {next : List ServerOp}
    (new : List SysCall) (hacc : r'.accepted = r.accepted) (hcalls : r'.calls = r.calls ++ new)
    (hnew : ∀ call ∈ new, call.kind = .shutdown ∧ call.hit = true ∧
      call.client.conn < r.accepted.length)
    (hnames : ∀ k, r.names k = true → r'.names k = true)
    (hheld : next.filterMap ServerOp.holds = op.holds.toList)
    (hreap : ∀ o ∈ next, o.reaps = false) : DescriptorInv r' (↑next + others) := by
  have hsame : held (↑next + others) = held (op ::ₘ others) := Code.filterMap_next hheld
  -- none of the new calls is a close
  have hnone : ∀ c, closes c new = 0 := by
    intro c
    rw [closes, List.countP_eq_zero]
    intro call hcall hclose
    have hkind := (hnew call hcall).1
    rw [(of_decide_eq_true hclose).1] at hkind
    cases hkind
  refine ⟨?_, ?_, ?_, ?_, ?_⟩
  · intro k hk
    rw [hsame] at hk
    rw [hacc]
    exact (h.own k hk).imp_right (hnames k)
  · intro c hc
    rw [hacc] at hc
    rw [hsame, hcalls, closes, List.countP_append]
    show _ + (closes c r.calls + closes c new) = 1
    rw [hnone c]
    exact h.once c hc
  · intro call hcall
    rw [hacc]
    rw [hcalls, List.mem_append] at hcall
    exact hcall.elim (h.old call) fun hcall => (hnew call hcall).2.2
  · intro call hcall
    rw [hcalls, List.mem_append] at hcall
    exact hcall.elim (h.hit call) fun hcall => (hnew call hcall).2.1
  · intro o ho
    rcases Multiset.mem_add.mp ho with ho | ho
    · exact hreap o ho
    · exact h.noReap o (Multiset.mem_cons_of_mem ho)

/-- An operation that changes nothing that the invariant looks at. -/
theorem keep (h : DescriptorInv r (op ::ₘ others)) {next : List ServerOp}
    (hacc : r'.accepted = r.accepted) (hcalls : r'.calls = r.calls) (htable : r'.table = r.table)
    (hheld : next.filterMap ServerOp.holds = op.holds.toList)
    (hreap : ∀ o ∈ next, o.reaps = false) : DescriptorInv r' (↑next + others) := by
  refine h.frame [] hacc (by rw [hcalls, List.append_nil]) (by simp) (fun k hk => ?_)
    hheld hreap
  rw [UnixSocketServer.names, htable]
  exact hk

/-- A new connection is held by the registration to come. -/
theorem accept (h : DescriptorInv r (op ::ₘ others)) (hop : op.holds = none) {fd : ℕ}
    (hfree : r.table fd = none) :
    DescriptorInv (r.accept fd) (.register ⟨fd, r.accepted.length⟩ ::ₘ others) := by
  have hlen : (r.accept fd).accepted.length = r.accepted.length + 1 := List.length_append
  have hheld : held (op ::ₘ others) = held others := held_cons_of_none hop others
  have hnew : held (.register ⟨fd, r.accepted.length⟩ ::ₘ others) =
      ⟨fd, r.accepted.length⟩ ::ₘ held others := held_cons_holder rfl others
  have hown := h.own
  have honce := h.once
  rw [hheld] at hown honce
  refine ⟨?_, ?_, ?_, h.hit, ?_⟩
  · intro k hk
    rw [hnew, Multiset.mem_cons] at hk
    rw [hlen]
    rcases hk with rfl | hk
    · exact ⟨Nat.lt_succ_self _, decide_eq_true (Function.update_self fd _ r.table)⟩
    · obtain ⟨hlt, hn⟩ := hown k hk
      have hn' := of_decide_eq_true hn
      -- the kernel gives out a number only while nothing has it
      have hne : k.fd ≠ fd := by
        intro heq
        rw [heq, hfree] at hn'
        cases hn'
      refine ⟨Nat.lt_succ_of_lt hlt, decide_eq_true ?_⟩
      show Function.update r.table fd _ k.fd = _
      rw [Function.update_of_ne hne]
      exact hn'
  · intro c hc
    rw [hlen] at hc
    rw [hnew, Multiset.countP_cons]
    show _ + closes c r.calls = 1
    by_cases hlast : r.accepted.length = c
    · -- nobody held the new connection, and nobody closed it
      have hothers : (held others).countP (fun k => k.conn = c) = 0 := by
        rw [Multiset.countP_eq_zero]
        intro k hk hkc
        have hlt := (hown k hk).1
        omega
      have hcloses : closes c r.calls = 0 := by
        rw [closes, List.countP_eq_zero]
        intro call hcall hclose
        have hlt := h.old call hcall
        rw [(of_decide_eq_true hclose).2] at hlt
        omega
      rw [hothers, hcloses, if_pos hlast]
    · rw [if_neg hlast]
      exact honce c (by omega)
  · intro call hcall
    rw [hlen]
    exact Nat.lt_succ_of_lt (h.old call hcall)
  · intro o ho
    rcases Multiset.mem_cons.mp ho with rfl | ho
    · rfl
    · exact h.noReap o (Multiset.mem_cons_of_mem ho)

/-- The reader closes the connection, and nobody holds it any more. -/
theorem close {k : Client} (h : DescriptorInv r (.close k ::ₘ others)) :
    DescriptorInv (r.close k) others := by
  have hheld : held (.close k ::ₘ others) = k ::ₘ held others := held_cons_holder rfl others
  have hown := h.own
  have honce := h.once
  rw [hheld] at hown honce
  obtain ⟨hlt, hhit⟩ := hown k (Multiset.mem_cons_self k _)
  have hcloses : ∀ c, closes c (r.close k).calls =
      closes c r.calls + if k.conn = c then 1 else 0 := by
    intro c
    show closes c (r.calls ++ [⟨.close, k, r.names k⟩]) = _
    rw [closes, List.countP_append, ← closes]
    simp [List.countP_cons]
  refine ⟨?_, ?_, ?_, ?_, fun o ho => h.noReap o (Multiset.mem_cons_of_mem ho)⟩
  · intro k' hk'
    obtain ⟨hlt', hn⟩ := hown k' (Multiset.mem_cons_of_mem hk')
    have hn' := of_decide_eq_true hn
    -- whoever holds the same number would hold the same connection
    have hne : k'.fd ≠ k.fd := by
      intro hfd
      have hk := of_decide_eq_true hhit
      rw [hfd, hk] at hn'
      have hconn : k.conn = k'.conn := Holder.client.inj (Option.some.inj hn')
      have hone : (k ::ₘ held others).countP (fun k₁ => k₁.conn = k.conn) ≤ 1 := by
        have hsum := honce k.conn hlt
        omega
      exact Code.not_of_countP hone rfl hk' hconn.symm
    refine ⟨hlt', decide_eq_true ?_⟩
    show Function.update r.table k.fd none k'.fd = _
    rw [Function.update_of_ne hne]
    exact hn'
  · intro c hc
    have hone := honce c hc
    rw [Multiset.countP_cons] at hone
    rw [hcloses c]
    omega
  · exact List.forall_mem_append.mpr ⟨h.old, List.forall_mem_singleton.mpr hlt⟩
  · exact List.forall_mem_append.mpr ⟨h.hit, List.forall_mem_singleton.mpr hhit⟩

end DescriptorInv

/-! ### All interleavings -/

/-- Changing what a number names that no connection has leaves the connections named. -/
theorem names_update {r r' : UnixSocketServer} {k : Client} {fd : ℕ} {holder : Option Holder}
    (hk : r.names k = true) (hfd : r.table fd ≠ some (.client k.conn))
    (htable : r'.table = Function.update r.table fd holder) : r'.names k = true := by
  have hk' := of_decide_eq_true hk
  have hne : k.fd ≠ fd := by
    rintro rfl
    exact hfd hk'
  refine decide_eq_true ?_
  rw [htable, Function.update_of_ne hne]
  exact hk'

/-- Every operation executed under the condition keeps the invariant. -/
theorem serverExec_keeps {s : Threads UnixSocketServer ServerOp} {op : ServerOp}
    {others : Multiset ServerOp} {x : ServerOutcome} {e : Effect UnixSocketServer ServerOp}
    (hfl : s.inFlight = op ::ₘ others) (hP : DescriptorInv s.shared s.inFlight)
    (hg : LeavesToReader op s) (he : serverExec op x s = some e) :
    DescriptorInv e.shared (↑e.next + others + ↑e.spawn.flatten) := by
  rw [hfl] at hP
  rw [Code.next_add_spawn]
  cases op with
  | acceptCheck =>
    cases he
    refine hP.keep rfl rfl rfl ?_ ?_ <;> split <;> simp [ServerOp.holds, ServerOp.reaps]
  -- a registration is the only operation that a new connection is handed on to
  | accept =>
    simp only [serverExec] at he
    split at he
    case h_1 fd =>
      split at he
      case isTrue hfd =>
        cases he
        exact hP.accept rfl hfd.2
      case isFalse => cases he
    case h_2 =>
      cases he
      exact hP.keep rfl rfl rfl rfl (by simp [ServerOp.reaps])
  | register k =>
    simp only [serverExec] at he
    split at he
    case isTrue => cases he
    case isFalse =>
      cases he
      exact hP.keep rfl rfl rfl rfl (by simp [ServerOp.reaps])
  | sendToAll =>
    cases he
    refine hP.keep rfl rfl rfl ?_ fun o ho => ?_
    · simp [ServerOp.holds, Function.comp_def]
    · obtain ⟨k, -, rfl⟩ := List.mem_map.mp (List.append_nil _ ▸ ho)
      rfl
  | shutdownStale k =>
    cases he
    -- the reader is still there, so the number still names the connection
    obtain ⟨o, ho, hreader⟩ := hg.2 k rfl
    have hk : k ∈ held (.shutdownStale k ::ₘ others) := by
      rw [← hfl]
      exact List.mem_filterMap.mpr ⟨o, ho, ServerOp.holds_of_reader hreader⟩
    obtain ⟨hlt, hn⟩ := hP.own k hk
    refine hP.frame [⟨.shutdown, k, s.shared.names k⟩] rfl rfl ?_ (fun _ => id) rfl (by simp)
    intro call hcall
    rw [List.mem_singleton.mp hcall]
    exact ⟨rfl, hn, hlt⟩
  | readCheck k =>
    cases he
    refine hP.keep rfl rfl rfl ?_ ?_ <;> split <;> simp [ServerOp.holds, ServerOp.reaps]
  | read k =>
    cases he
    refine hP.keep rfl rfl rfl ?_ ?_ <;> split <;> simp [ServerOp.holds, ServerOp.reaps]
  | deliver k =>
    cases he
    exact hP.keep rfl rfl rfl rfl (by simp [ServerOp.reaps])
  | leave k =>
    simp only [serverExec] at he
    split at he
    case h_1 =>
      cases he
      exact hP.keep rfl rfl rfl rfl (by simp [ServerOp.reaps])
    case h_2 c _ =>
      split at he
      case isTrue =>
        cases he
        exact hP.keep rfl rfl rfl rfl (by simp [ServerOp.reaps])
      case isFalse => cases he
  | close k =>
    cases he
    simpa using hP.close
  | stopFlag =>
    cases he
    exact hP.keep rfl rfl rfl rfl (by simp [ServerOp.reaps])
  | stopServer =>
    cases he
    exact hP.keep rfl rfl rfl rfl (by simp [ServerOp.reaps])
  | joinAccept =>
    simp only [serverExec] at he
    split at he
    case isTrue => cases he
    case isFalse =>
      cases he
      exact hP.keep rfl rfl rfl rfl (by simp [ServerOp.reaps])
  -- by the condition nobody is registered any more when `Stop` sweeps
  | sweep =>
    cases he
    have hnone := hg.1 rfl
    refine hP.keep rfl ?_ rfl ?_ ?_
    · show s.shared.calls ++ s.shared.clients.map _ = _
      rw [hnone, List.map_nil, List.append_nil]
    · rw [hnone]
      rfl
    · rw [hnone]
      simp [reap, ServerOp.reaps]
  -- `Stop` has taken no client over, so it has none to join
  | joinReader k rest =>
    cases hP.noReap _ (Multiset.mem_cons_self _ _)
  | closeClient k rest =>
    cases hP.noReap _ (Multiset.mem_cons_self _ _)
  | stopReturn =>
    cases he
    exact hP.keep rfl rfl rfl rfl (by simp)
  | foreignOpen fd =>
    simp only [serverExec] at he
    split at he
    case isTrue hfree =>
      cases he
      -- a number that the kernel gives to something else was free before
      exact hP.frame [] rfl (List.append_nil _).symm (by simp)
        (fun k hk => names_update hk (by rw [hfree]; simp) rfl) rfl (by simp)
    case isFalse => cases he
  | foreignClose fd =>
    simp only [serverExec] at he
    split at he
    case isTrue hforeign =>
      cases he
      exact hP.frame [] rfl (List.append_nil _).symm (by simp)
        (fun k hk => names_update hk (by rw [hforeign]; simp) rfl) rfl (by simp)
    case isFalse => cases he

/-- A call brings in operations that hold no connection. -/
theorem serverEntry_keeps {s : Threads UnixSocketServer ServerOp} {c : ServerCall}
    {ops : List ServerOp} (hP : DescriptorInv s.shared s.inFlight)
    (hc : serverEntry c s = some ops) :
    DescriptorInv s.shared (s.inFlight + ↑ops) := by
  have hops : ops.filterMap ServerOp.holds = [] ∧ ∀ op ∈ ops, op.reaps = false := by
    cases c with
    | stop =>
      simp only [serverEntry] at hc
      split at hc
      case isTrue => cases hc
      case isFalse =>
        cases hc
        exact ⟨rfl, by simp [ServerOp.reaps]⟩
    | send | foreignOpen fd | foreignClose fd =>
      cases hc
      exact ⟨rfl, by simp [ServerOp.reaps]⟩
  -- so the connections that are held are the same
  have hheld : held (s.inFlight + ↑ops) = held s.inFlight := by
    rw [held_add, held_coe, hops.1]
    exact add_zero _
  refine ⟨?_, ?_, hP.old, hP.hit, ?_⟩
  · rw [hheld]
    exact hP.own
  · rw [hheld]
    exact hP.once
  · intro op hop
    rcases Multiset.mem_add.mp hop with hop | hop
    · exact hP.noReap op hop
    · exact hops.2 op hop

/-- A server that was just started has accepted nobody. -/
theorem descriptorInv_init :
    DescriptorInv serverCode.init.shared serverCode.init.inFlight := by
  refine ⟨?_, ?_, ?_, ?_, ?_⟩
  · intro k hk
    exact absurd hk (Multiset.notMem_zero k)
  · intro c hc
    exact absurd hc (Nat.not_lt_zero c)
  · intro call hcall
    cases hcall
  · intro call hcall
    cases hcall
  · intro op hop
    rw [List.mem_singleton.mp hop]
    rfl

/-- **Descriptors are owned.** In every interleaving in which `Stop` takes no client over
    and no dropped client is shut down after its reader has closed it, no call goes to a
    number that names something else, no descriptor is closed twice, and when nothing is
    left to do each has been closed. -/
theorem descriptors_owned (as : List (Label ServerOutcome ServerCall))
    (s : Threads UnixSocketServer ServerOp)
    (hsafe : serverCode.machine.Guarded (Code.When LeavesToReader) serverCode.init as)
    (hrun : serverCode.machine.run as = some s) :
    DescriptorsOwned s.shared s.inFlight := by
  have hinv : DescriptorInv s.shared s.inFlight :=
    Code.guarded_interleavings (fun _ _ _ hP hc => serverEntry_keeps hP hc)
      (fun _ _ _ _ _ hfl hP hg he => serverExec_keeps hfl hP hg he) descriptorInv_init
      hsafe hrun
  exact hinv.owned

/-- The accept thread takes a client on descriptor 5 in. -/
def acceptsOne : List (Label ServerOutcome ServerCall) :=
  [.run 0 .done, .run 0 (.accepted 5), .run 0 .done, .run 0 .done]

/-- A client comes and goes, and the server is stopped. -/
def oneClient : List (Label ServerOutcome ServerCall) :=
  acceptsOne ++
    [.run 1 .done, .run 1 .data, .run 1 .done, .run 1 .done, .run 1 .eof, .run 1 .done,
     .run 1 .done, .call .stop, .run 2 .done, .run 2 .done, .run 0 .done, .run 2 .done,
     .run 2 .done, .run 2 .done]

theorem descriptors_owned_oneClient :
    ∃ s, serverCode.machine.run oneClient = some s ∧ s.inFlight = 0 ∧
      s.shared.accepted = [5] ∧ DescriptorsOwned s.shared s.inFlight :=
  ⟨_, rfl, rfl, rfl, descriptors_owned oneClient _ (by decide) rfl⟩

/-- `Stop` finds a client, whose reader closes the descriptor; the number is used for
    something else before `Stop` closes it, too. -/
def stoppedWithClient : List (Label ServerOutcome ServerCall) :=
  acceptsOne ++
    [.call .stop, .run 2 .done, .run 2 .done, .run 0 .done, .run 2 .done, .run 2 .done,
     .run 1 .done, .run 1 .done, .run 1 .done, .run 2 .done,
     .call (.foreignOpen 5), .run 3 .done, .run 2 .done]

/-- `SendToAll` drops a client and shuts it down when the reader has closed the descriptor
    and the number names the next client. -/
def staleShutdown : List (Label ServerOutcome ServerCall) :=
  acceptsOne ++
    [.call .send, .run 2 (.failing [5]),
     .run 1 .done, .run 1 .eof, .run 1 .done, .run 1 .done,
     .run 0 .done, .run 0 (.accepted 5), .run 2 .done]

/-- In the first run the connection is closed twice, the second time under a number that
    names something else; in the second run the next client is shut down. -/
theorem not_descriptorsOwned_stoppedWithClient :
    (∃ s, serverCode.machine.run stoppedWithClient = some s ∧
      closes 0 s.shared.calls = 2 ∧ ¬ DescriptorsOwned s.shared s.inFlight) ∧
    (∃ s, serverCode.machine.run staleShutdown = some s ∧
      s.shared.calls.map SysCall.hit = [true, false] ∧
      ¬ DescriptorsOwned s.shared s.inFlight) := by
  refine ⟨⟨_, rfl, rfl, fun h => ?_⟩, ⟨_, rfl, rfl, fun h => ?_⟩⟩
  · exact absurd (h.closed_once 0 (by decide)) (by decide)
  · exact absurd h.hit (by decide)

end PiWebrtc.Ipc
