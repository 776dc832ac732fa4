import PiWebrtc.Ipc.Descriptors

namespace PiWebrtc.Ipc

open Transition

/-!
# What runs on after `Stop`

`Stop` joins the accept thread, takes over the clients that are registered and joins their
readers.  A client that `SendToAll` dropped is not registered any more, and its thread was
detached: nobody waits for it.  `shutdown_complete_iff` shows that this is the only gap.  In
every interleaving, the server is shut down completely whenever `Stop` has returned, exactly
if each time `Stop` gets to its end the readers of the dropped clients are past their last
section.
-/

/-- What is asked for: once `Stop` has returned, no client is registered and no reader has a
    section under `mutex_` before it. -/
def ShutdownComplete (s : Threads UnixSocketServer ServerOp) : Prop :=
  s.shared.stopped = true →
    s.shared.clients = [] ∧ ∀ op ∈ s.todo.flatten, op.beforeClose = none

/-- The condition: when `Stop` gets to its end, the readers of the clients that `SendToAll`
    dropped are past their last section. -/
def DroppedReadersGone (op : ServerOp) (s : Threads UnixSocketServer ServerOp) : Prop :=
  op = .stopReturn → ∀ o ∈ s.todo.flatten, ∀ k ∈ o.beforeClose, k.conn ∉ s.shared.dropped

instance (op : ServerOp) (s : Threads UnixSocketServer ServerOp) :
    Decidable (DroppedReadersGone op s) :=
  inferInstanceAs (Decidable (_ → _))

/-! ### What an operation does -/

namespace ServerOp

/-- The clients whose readers `Stop` is still going to join. -/
def toJoin : ServerOp → List Client
  | .joinReader k rest => k :: rest
  | .closeClient _ rest => rest
  | _ => []

/-- The operations of `Stop` after its section. -/
def afterSweep : ServerOp → Bool
  | .joinReader _ _ => true
  | .closeClient _ _ => true
  | .stopReturn => true
  | _ => false

theorem reader_of_beforeClose {op : ServerOp} {k : Client} (h : op.beforeClose = some k) :
    op.reader = some k := by
  cases op <;> first | exact h | cases h

theorem holds_of_beforeClose {op : ServerOp} {k : Client} (h : op.beforeClose = some k) :
    op.holds = some k :=
  holds_of_reader (reader_of_beforeClose h)

end ServerOp

/-- What comes after an operation: where the control flow may go. -/
structure Follows (op : ServerOp) (next : List ServerOp) : Prop where
  accepting : ∀ o ∈ next, o.inAcceptLoop = true → op.inAcceptLoop = true
  sweeps : .sweep ∈ next → op = .joinAccept
  afterSweep : ∀ o ∈ next, o.afterSweep = true → op = .sweep ∨ op.afterSweep = true
  stops : next.countP ServerOp.inStop ≤ [op].countP ServerOp.inStop
  reading : ∀ o ∈ next, ∀ k ∈ o.beforeClose,
    op.beforeClose = some k ∧ op ≠ .leave k ∨ op = .register k

/-- What an operation does to the fields that the shutdown depends on. -/
structure Changes (op : ServerOp) (r r' : UnixSocketServer) : Prop where
  joined : r'.acceptJoined = (r.acceptJoined || decide (op = .joinAccept))
  swept : r'.swept = (r.swept || decide (op = .sweep))
  stopped : r'.stopped = (r.stopped || decide (op = .stopReturn))
  registered : ∀ k, op = .register k → k ∈ r'.clients
  clients : ∀ k ∈ r'.clients, k ∈ r.clients ∧ op ≠ .sweep ∨ op = .register k
  gone : ∀ k ∈ r.clients,
    k ∈ r'.clients ∨ k.conn ∈ r'.dropped ∨ op = .leave k ∨ op = .sweep
  dropped : r.dropped ⊆ r'.dropped

/-- How `Stop` goes on with the clients it has taken over. -/
theorem follows_reap {op : ServerOp} (hop : op = .sweep ∨ op.afterSweep = true)
    (hstop : op.inStop = true) (ks : List Client) : Follows op [reap ks] := by
  have hone : [op].countP ServerOp.inStop = 1 := by rw [List.countP_singleton, if_pos hstop]
  cases ks <;> constructor <;>
    simp [reap, hop, hone, ServerOp.inAcceptLoop, ServerOp.inStop, ServerOp.beforeClose]

/-- An operation that touches none of these fields. -/
theorem Changes.same {op : ServerOp} {r r' : UnixSocketServer}
    (hop : op ≠ .joinAccept ∧ op ≠ .sweep ∧ op ≠ .stopReturn ∧ ∀ k, op ≠ .register k)
    (hjoined : r'.acceptJoined = r.acceptJoined) (hswept : r'.swept = r.swept)
    (hstopped : r'.stopped = r.stopped) (hclients : r'.clients = r.clients)
    (hdropped : r'.dropped = r.dropped) : Changes op r r' where
  joined := by rw [hjoined, decide_eq_false hop.1, Bool.or_false]
  swept := by rw [hswept, decide_eq_false hop.2.1, Bool.or_false]
  stopped := by rw [hstopped, decide_eq_false hop.2.2.1, Bool.or_false]
  registered k hk := absurd hk (hop.2.2.2 k)
  clients k hk := .inl ⟨hclients ▸ hk, hop.2.1⟩
  gone k hk := .inl (hclients ▸ hk)
  dropped := by rw [hdropped]; exact List.Subset.refl _

section Operation

variable {s : Threads UnixSocketServer ServerOp} {op : ServerOp} {x : ServerOutcome}
  {e : Effect UnixSocketServer ServerOp}

/-- **Control flow.** -/
theorem serverExec_follows (he : serverExec op x s = some e) :
    Follows op (e.next ++ e.spawn.flatten) := by
  cases op with
  | sweep =>
    cases he
    exact follows_reap (.inl rfl) rfl _
  | closeClient k rest =>
    cases he
    exact follows_reap (.inr rfl) rfl rest
  | _ =>
    simp only [serverExec] at he
    try split at he
    all_goals try split at he
    all_goals cases he
    all_goals constructor
    all_goals
      simp [ServerOp.inAcceptLoop, ServerOp.inStop, ServerOp.afterSweep, ServerOp.beforeClose]

/-- **Data.** -/
theorem serverExec_changes (he : serverExec op x s = some e) : Changes op s.shared e.shared := by
  cases op with
  | register k =>
    simp only [serverExec] at he
    split at he
    case isTrue => cases he
    case isFalse =>
      cases he
      refine ⟨by simp, by simp, by simp, ?_, ?_, ?_, List.Subset.refl _⟩
      · rintro k' ⟨⟩
        exact List.mem_cons_self
      · intro k' hk'
        rcases List.mem_cons.mp hk' with rfl | hk'
        · exact .inr rfl
        · exact .inl ⟨hk', by simp⟩
      · intro k' hk'
        exact .inl (List.mem_cons_of_mem k hk')
  | sendToAll =>
    cases he
    refine ⟨by simp, by simp, by simp, by simp, ?_, ?_, List.subset_append_left _ _⟩
    · intro k hk
      exact .inl ⟨(List.mem_filter.mp hk).1, by simp⟩
    · intro k hk
      by_cases hfd : k.fd ∈ x.failingFds
      · -- a client that is no longer registered is one whose send failed
        refine .inr (.inl (List.mem_append_right _ ?_))
        exact List.mem_map_of_mem (List.mem_filter.mpr ⟨hk, decide_eq_true hfd⟩)
      · exact .inl (List.mem_filter.mpr ⟨hk, decide_eq_true hfd⟩)
  | leave k =>
    simp only [serverExec] at he
    split at he
    case h_1 =>
      cases he
      exact Changes.same (by simp) rfl rfl rfl rfl rfl
    case h_2 =>
      split at he
      case isTrue =>
        cases he
        refine ⟨by simp, by simp, by simp, by simp, ?_, ?_, List.Subset.refl _⟩
        · intro k' hk'
          exact .inl ⟨List.mem_of_mem_erase hk', by simp⟩
        · intro k' hk'
          by_cases heq : k' = k
          · exact .inr (.inr (.inl (by rw [heq])))
          · exact .inl ((List.mem_erase_of_ne heq).mpr hk')
      case isFalse => cases he
  | sweep =>
    cases he
    constructor <;> simp [UnixSocketServer.sweep]
  | joinAccept =>
    simp only [serverExec] at he
    split at he
    case isTrue => cases he
    case isFalse =>
      cases he
      constructor <;> simp +contextual
  | stopReturn =>
    cases he
    constructor <;> simp +contextual
  | _ =>
    simp only [serverExec] at he
    try split at he
    all_goals try split at he
    all_goals cases he
    all_goals exact Changes.same (by simp) rfl rfl rfl rfl rfl

/-- **Connections.** A connection is handed on to at most one operation; only `accept` brings
    a new one in. -/
theorem serverExec_holds (he : serverExec op x s = some e) :
    e.shared.accepted = s.shared.accepted ∧
        ((e.next ++ e.spawn.flatten).filterMap ServerOp.holds).Sublist op.holds.toList ∨
      ∃ fd, op = .accept ∧ e.shared.accepted = s.shared.accepted ++ [fd] ∧
        e.next ++ e.spawn.flatten = [.register ⟨fd, s.shared.accepted.length⟩] := by
  cases op with
  | accept =>
    simp only [serverExec] at he
    split at he
    case h_1 fd =>
      split at he
      case isTrue =>
        cases he
        exact .inr ⟨fd, rfl, rfl, rfl⟩
      case isFalse => cases he
    case h_2 =>
      cases he
      exact .inl ⟨rfl, List.nil_sublist _⟩
  | sendToAll =>
    cases he
    refine .inl ⟨rfl, ?_⟩
    simp [ServerOp.holds, Function.comp_def]
  | register k =>
    simp only [serverExec] at he
    split at he
    case isTrue => cases he
    case isFalse =>
      cases he
      exact .inl ⟨rfl, List.Sublist.refl _⟩
  | sweep =>
    cases he
    refine .inl ⟨rfl, ?_⟩
    cases s.shared.clients <;> exact List.nil_sublist _
  | closeClient k rest =>
    cases he
    refine .inl ⟨rfl, ?_⟩
    cases rest <;> exact List.nil_sublist _
  | _ =>
    simp only [serverExec] at he
    try split at he
    all_goals try split at he
    all_goals cases he
    all_goals exact .inl ⟨rfl, by simp [ServerOp.holds]⟩

/-- **Joining.** `Stop` goes on with every client it has to join, except for one whose
    reader has ended; its section takes all registered clients over. -/
theorem serverExec_toJoin (he : serverExec op x s = some e) :
    (∀ k ∈ op.toJoin, (∃ o ∈ e.next, k ∈ o.toJoin) ∨ ∀ o ∈ s.inFlight, o.reader ≠ some k) ∧
      (op = .sweep → ∀ k ∈ s.shared.clients, ∃ o ∈ e.next, k ∈ o.toJoin) := by
  have hreap : ∀ ks, (reap ks).toJoin = ks := by
    intro ks
    cases ks <;> rfl
  cases op with
  | joinReader k rest =>
    simp only [serverExec] at he
    split at he
    case isTrue => cases he
    case isFalse hended =>
      cases he
      refine ⟨fun k' hk' => ?_, by simp⟩
      rcases List.mem_cons.mp hk' with rfl | hk'
      -- the join returned, so no operation of the reader is left
      · refine .inr fun o ho hreader => hended ?_
        exact List.any_eq_true.mpr ⟨o, ho, decide_eq_true hreader⟩
      · exact .inl ⟨_, List.mem_singleton_self _, hk'⟩
  | closeClient k rest =>
    cases he
    refine ⟨fun k' hk' => .inl ⟨_, List.mem_singleton_self _, ?_⟩, by simp⟩
    rw [hreap]
    exact hk'
  | sweep =>
    cases he
    refine ⟨by simp [ServerOp.toJoin], fun _ k hk => ⟨_, List.mem_singleton_self _, ?_⟩⟩
    rw [hreap]
    exact hk
  | _ => simp [ServerOp.toJoin]

/-- `Stop` waits for the accept thread. -/
theorem serverExec_joinAccept (he : serverExec .joinAccept x s = some e) :
    ∀ o ∈ s.inFlight, o.inAcceptLoop = false := by
  simp only [serverExec] at he
  split at he
  case isTrue => cases he
  case isFalse hended =>
    intro o ho
    refine Bool.eq_false_iff.mpr fun hin => hended ?_
    exact List.any_eq_true.mpr ⟨o, ho, hin⟩

end Operation

/-! ### The phases of `Stop` -/

/-- How far `Stop` has come, and what is over since then. -/
structure StopPhases (r : UnixSocketServer) (flight : Multiset ServerOp) : Prop where
  joined : r.acceptJoined = true → ∀ o ∈ flight, o.inAcceptLoop = false
  sweeps : .sweep ∈ flight → r.acceptJoined = true
  swept : r.swept = true → r.acceptJoined = true ∧ r.clients = []
  afterSweep : ∀ o ∈ flight, o.afterSweep = true → r.swept = true
  stopped : r.stopped = true → r.swept = true
  one_stop : flight.countP (fun o => o.inStop = true) ≤ 1

/-- Every operation keeps the phases. -/
theorem StopPhases.step {r r' : UnixSocketServer} {op : ServerOp} {others : Multiset ServerOp}
    {next : List ServerOp} (h : StopPhases r (op ::ₘ others)) (hf : Follows op next)
    (hc : Changes op r r')
    (hjoin : op = .joinAccept → ∀ o ∈ op ::ₘ others, o.inAcceptLoop = false) :
    StopPhases r' (↑next + others) := by
  have hself : op ∈ op ::ₘ others := Multiset.mem_cons_self op others
  -- once the accept thread is joined nobody is in its loop
  have hnone : r'.acceptJoined = true → ∀ o ∈ op ::ₘ others, o.inAcceptLoop = false := by
    intro hr
    rw [hc.joined, Bool.or_eq_true, decide_eq_true_eq] at hr
    exact hr.elim h.joined hjoin
  have hkept : r.acceptJoined = true → r'.acceptJoined = true := by
    intro hr
    rw [hc.joined, hr, Bool.true_or]
  have hsweptKept : r.swept = true → r'.swept = true := by
    intro hr
    rw [hc.swept, hr, Bool.true_or]
  refine ⟨?_, ?_, ?_, ?_, ?_, ?_⟩
  -- an operation of the accept loop comes only from another one
  · intro hr o ho
    rcases Multiset.mem_add.mp ho with ho | ho
    · refine Bool.eq_false_iff.mpr fun hin => ?_
      exact Bool.eq_false_iff.mp (hnone hr op hself) (hf.accepting o ho hin)
    · exact hnone hr o (Multiset.mem_cons_of_mem ho)
  · intro ho
    rcases Multiset.mem_add.mp ho with ho | ho
    · rw [hc.joined, decide_eq_true (hf.sweeps ho), Bool.or_true]
    · exact hkept (h.sweeps (Multiset.mem_cons_of_mem ho))
  · intro hr
    rw [hc.swept, Bool.or_eq_true, decide_eq_true_eq] at hr
    have hjoined : r.acceptJoined = true := by
      rcases hr with hr | rfl
      · exact (h.swept hr).1
      · exact h.sweeps hself
    -- only a registration could bring a client, and the accept thread has ended
    refine ⟨hkept hjoined, List.eq_nil_iff_forall_not_mem.mpr fun k hk => ?_⟩
    rcases hc.clients k hk with ⟨hk, hne⟩ | rfl
    · rw [(h.swept (hr.resolve_right hne)).2] at hk
      cases hk
    · cases h.joined hjoined _ hself
  · intro o ho hafter
    rcases Multiset.mem_add.mp ho with ho | ho
    · rcases hf.afterSweep o ho hafter with rfl | hop
      · rw [hc.swept, decide_eq_true rfl, Bool.or_true]
      · exact hsweptKept (h.afterSweep op hself hop)
    · exact hsweptKept (h.afterSweep o (Multiset.mem_cons_of_mem ho) hafter)
  · intro hr
    rw [hc.stopped, Bool.or_eq_true, decide_eq_true_eq] at hr
    rcases hr with hr | rfl
    · exact hsweptKept (h.stopped hr)
    · exact hsweptKept (h.afterSweep _ hself rfl)
  · have hone := h.one_stop
    have hstops := hf.stops
    have hcoe : (next : Multiset ServerOp).countP (fun o => o.inStop = true) =
        next.countP ServerOp.inStop := by
      simp [Multiset.coe_countP]
    rw [Multiset.countP_cons] at hone
    rw [List.countP_singleton] at hstops
    rw [Multiset.countP_add, hcoe]
    omega

/-! ### The readers -/

/-- Every reader that has a section before it serves a client that is registered, that was
    dropped, or that `Stop` is going to join; no two of them serve the same client. -/
structure ReaderInv (r : UnixSocketServer) (flight : Multiset ServerOp) : Prop where
  fresh : ∀ k ∈ held flight, k.conn < r.accepted.length
  unique : (held flight).Nodup
  known : ∀ o ∈ flight, ∀ k ∈ o.beforeClose,
    k ∈ r.clients ∨ k.conn ∈ r.dropped ∨ ∃ j ∈ flight, k ∈ j.toJoin

namespace ReaderInv

variable {s : Threads UnixSocketServer ServerOp} {op : ServerOp} {others : Multiset ServerOp}
  {x : ServerOutcome} {e : Effect UnixSocketServer ServerOp}

/-- No two operations hold the same client. -/
theorem holds (h : ReaderInv s.shared (op ::ₘ others)) (he : serverExec op x s = some e) :
    (∀ k ∈ held (↑(e.next ++ e.spawn.flatten) + others), k.conn < e.shared.accepted.length) ∧
      (held (↑(e.next ++ e.spawn.flatten) + others)).Nodup := by
  rcases serverExec_holds he with ⟨hacc, hsub⟩ | ⟨fd, rfl, hacc, hnext⟩
  · have hle : held (↑(e.next ++ e.spawn.flatten) + others) ≤ held (op ::ₘ others) := by
      rw [held_add, held_coe, ← Multiset.singleton_add, held_add]
      refine Multiset.add_le_add_right (Multiset.coe_le.mpr (hsub.subperm.trans ?_))
      cases hop : op.holds with
      | none => exact List.nil_subperm
      | some k => simp [hop]
    rw [hacc]
    exact ⟨fun k hk => h.fresh k (Multiset.mem_of_le hle hk), Multiset.nodup_of_le hle h.unique⟩
  -- the new connection has a number that nobody holds
  · have hfresh := h.fresh
    have hunique := h.unique
    rw [held_cons_of_none rfl] at hfresh hunique
    rw [hnext, hacc, List.length_append, held_add, held_coe]
    show (∀ k ∈ ⟨fd, s.shared.accepted.length⟩ ::ₘ held others, _) ∧
      (⟨fd, s.shared.accepted.length⟩ ::ₘ held others).Nodup
    refine ⟨fun k hk => ?_, Multiset.nodup_cons.mpr ⟨fun hmem => ?_, hunique⟩⟩
    · rcases Multiset.mem_cons.mp hk with rfl | hk
      · exact Nat.lt_succ_self _
      · exact Nat.lt_succ_of_lt (hfresh k hk)
    · exact absurd (hfresh _ hmem) (Nat.lt_irrefl _)

/-- Every operation keeps the readers known. -/
theorem step (h : ReaderInv s.shared (op ::ₘ others)) (hfl : s.inFlight = op ::ₘ others)
    (he : serverExec op x s = some e) :
    ReaderInv e.shared (↑(e.next ++ e.spawn.flatten) + others) := by
  have hf := serverExec_follows he
  have hc := serverExec_changes he
  obtain ⟨hjoins, hsweep⟩ := serverExec_toJoin he
  refine ⟨(h.holds he).1, (h.holds he).2, fun o ho k hk => ?_⟩
  -- the section that starts a reader registers its client
  by_cases hreg : op = .register k
  · exact .inl (hc.registered k hreg)
  -- the client had a reader before the step
  obtain ⟨o', ho', hk', hstays⟩ : ∃ o' ∈ op ::ₘ others, o'.beforeClose = some k ∧
      op ≠ .leave k := by
    rcases Multiset.mem_add.mp ho with ho | ho
    · obtain ⟨hop, hne⟩ := (hf.reading o ho k hk).resolve_right hreg
      exact ⟨op, Multiset.mem_cons_self op others, hop, hne⟩
    · refine ⟨o, Multiset.mem_cons_of_mem ho, hk, ?_⟩
      rintro rfl
      -- the reader that leaves is the only one of its client
      have hunique := h.unique
      rw [held_cons_holder rfl, Multiset.nodup_cons] at hunique
      exact hunique.1 ((Multiset.mem_filterMap _ _).mpr
        ⟨o, ho, ServerOp.holds_of_beforeClose hk⟩)
  have hjoin : ∀ j ∈ e.next, k ∈ j.toJoin →
      ∃ j ∈ (↑(e.next ++ e.spawn.flatten) + others : Multiset ServerOp), k ∈ j.toJoin := by
    intro j hj hkj
    exact ⟨j, Multiset.mem_add.mpr (.inl (List.mem_append_left _ hj)), hkj⟩
  -- follow the client to where the step leaves it
  rcases h.known o' ho' k hk' with hclient | hdrop | ⟨j, hj, hkj⟩
  · rcases hc.gone k hclient with hk | hk | rfl | rfl
    · exact .inl hk
    · exact .inr (.inl hk)
    · exact absurd rfl hstays
    · obtain ⟨j, hj, hkj⟩ := hsweep rfl k hclient
      exact .inr (.inr (hjoin j hj hkj))
  · exact .inr (.inl (hc.dropped hdrop))
  · refine .inr (.inr ?_)
    rcases Multiset.mem_cons.mp hj with rfl | hj
    · rcases hjoins k hkj with ⟨j, hj, hkj⟩ | hended
      · exact hjoin j hj hkj
      · rw [hfl] at hended
        exact absurd (ServerOp.reader_of_beforeClose hk') (hended o' ho')
    · exact ⟨j, Multiset.mem_add.mpr (.inr hj), hkj⟩

end ReaderInv

/-! ### All interleavings -/

/-- **The invariant.** -/
def ShutdownInv (r : UnixSocketServer) (flight : Multiset ServerOp) : Prop :=
  StopPhases r flight ∧ ReaderInv r flight

/-- A server that was just started has no reader yet. -/
theorem shutdownInv_init : ShutdownInv serverCode.init.shared serverCode.init.inFlight := by
  have hone : ∀ o ∈ serverCode.init.inFlight, o = .acceptCheck :=
    fun o ho => List.mem_singleton.mp ho
  refine ⟨⟨nofun, ?_, nofun, ?_, nofun, by decide⟩, ⟨?_, by decide, ?_⟩⟩
  · intro h
    cases hone _ h
  · intro o ho hafter
    rw [hone o ho] at hafter
    cases hafter
  · intro k hk
    exact absurd hk (Multiset.notMem_zero k)
  · intro o ho k hk
    rw [hone o ho] at hk
    cases hk

/-- What a call brings in: the start of `Stop`, if none is in progress, or an operation that
    the shutdown does not depend on. -/
theorem serverEntry_cases {s : Threads UnixSocketServer ServerOp} {c : ServerCall}
    {ops : List ServerOp} (hc : serverEntry c s = some ops) :
    ∃ op, ops = [op] ∧ op.inAcceptLoop = false ∧ op ≠ .sweep ∧ op.afterSweep = false ∧
      op.holds = none ∧ op.beforeClose = none ∧
      (op.inStop = true → ∀ o ∈ s.inFlight, o.inStop = false) := by
  cases c with
  | stop =>
    simp only [serverEntry] at hc
    split at hc
    case isTrue => cases hc
    case isFalse hfree =>
      cases hc
      refine ⟨_, rfl, rfl, by simp, rfl, rfl, rfl, fun _ o ho => ?_⟩
      refine Bool.eq_false_iff.mpr fun hstop => hfree ?_
      exact List.any_eq_true.mpr ⟨o, ho, hstop⟩
  | send | foreignOpen fd | foreignClose fd =>
    cases hc
    exact ⟨_, rfl, rfl, by simp, rfl, rfl, rfl, by simp [ServerOp.inStop]⟩

/-- A call keeps the invariant. -/
theorem ShutdownInv.entry {s : Threads UnixSocketServer ServerOp} {c : ServerCall}
    {ops : List ServerOp} (h : ShutdownInv s.shared s.inFlight)
    (hc : serverEntry c s = some ops) : ShutdownInv s.shared (s.inFlight + ↑ops) := by
  obtain ⟨op, rfl, haccept, hsweep, hafter, hholds, hbefore, hstop⟩ := serverEntry_cases hc
  obtain ⟨hphases, hreaders⟩ := h
  have hheld : held (s.inFlight + ↑[op]) = held s.inFlight := by
    rw [held_add, held_coe, List.filterMap_cons_none hholds]
    exact add_zero _
  have hmem : ∀ o ∈ s.inFlight + ↑[op], o ∈ s.inFlight ∨ o = op := by
    intro o ho
    exact (Multiset.mem_add.mp ho).imp_right List.mem_singleton.mp
  refine ⟨⟨?_, ?_, hphases.swept, ?_, hphases.stopped, ?_⟩, ⟨?_, ?_, ?_⟩⟩
  · intro hr o ho
    rcases hmem o ho with ho | rfl
    · exact hphases.joined hr o ho
    · exact haccept
  · intro ho
    rcases hmem _ ho with ho | ho
    · exact hphases.sweeps ho
    · exact absurd ho.symm hsweep
  · intro o ho ho'
    rcases hmem o ho with ho | rfl
    · exact hphases.afterSweep o ho ho'
    · rw [hafter] at ho'
      cases ho'
  · rw [Multiset.countP_add, Multiset.coe_singleton, ← Multiset.cons_zero, Multiset.countP_cons,
      Multiset.countP_zero]
    by_cases hin : op.inStop = true
    · -- the first operation of a new `Stop`
      have hzero : s.inFlight.countP (fun o => o.inStop = true) = 0 := by
        rw [Multiset.countP_eq_zero]
        intro o ho
        rw [hstop hin o ho]
        simp
      rw [hzero, if_pos hin]
    · rw [if_neg hin]
      exact hphases.one_stop
  · rw [hheld]
    exact hreaders.fresh
  · rw [hheld]
    exact hreaders.unique
  · intro o ho k hk
    rcases hmem o ho with ho | rfl
    · rcases hreaders.known o ho k hk with hclient | hdrop | ⟨j, hj, hkj⟩
      · exact .inl hclient
      · exact .inr (.inl hdrop)
      · exact .inr (.inr ⟨j, Multiset.mem_add.mpr (.inl hj), hkj⟩)
    · rw [hbefore] at hk
      cases hk

/-- Every operation keeps the invariant. -/
theorem ShutdownInv.exec {s : Threads UnixSocketServer ServerOp} {op : ServerOp}
    {others : Multiset ServerOp} {x : ServerOutcome} {e : Effect UnixSocketServer ServerOp}
    (h : ShutdownInv s.shared s.inFlight) (hfl : s.inFlight = op ::ₘ others)
    (he : serverExec op x s = some e) :
    ShutdownInv e.shared (↑e.next + others + ↑e.spawn.flatten) := by
  rw [Code.next_add_spawn]
  refine ⟨?_, (hfl ▸ h.2 : ReaderInv _ _).step hfl he⟩
  refine (hfl ▸ h.1 : StopPhases _ _).step (serverExec_follows he) (serverExec_changes he) ?_
  rintro rfl
  rw [← hfl]
  exact serverExec_joinAccept he

section Step

variable {s s' : Threads UnixSocketServer ServerOp} {op : ServerOp} {others : Multiset ServerOp}
  {x : ServerOutcome} {e : Effect UnixSocketServer ServerOp}

/-- After `Stop`'s section only a dropped client has a reader that nobody waits for. -/
theorem ShutdownInv.dropped_of_stopReturn (hI : ShutdownInv s.shared s.inFlight)
    (hfl : s.inFlight = .stopReturn ::ₘ others) {o : ServerOp} (ho : o ∈ s.inFlight)
    {k : Client} (hk : o.beforeClose = some k) : k.conn ∈ s.shared.dropped := by
  have hself : .stopReturn ∈ s.inFlight := by
    rw [hfl]
    exact Multiset.mem_cons_self _ others
  rcases hI.2.known o ho k hk with hclient | hdrop | ⟨j, hj, hkj⟩
  · rw [(hI.1.swept (hI.1.afterSweep _ hself rfl)).2] at hclient
    cases hclient
  · exact hdrop
  · -- there is no other `Stop` that could join it
    have hone := hI.1.one_stop
    rw [hfl] at hone
    rw [hfl, Multiset.mem_cons] at hj
    rcases hj with rfl | hj
    · cases hkj
    · have hstop : j.inStop = true := by
        cases j <;> first | rfl | cases hkj
      exact absurd hstop (Code.not_of_countP hone rfl hj)

/-- **The end of `Stop`** leaves the server shut down completely exactly if the condition is
    met. -/
theorem shutdownComplete_stopReturn_iff (hI : ShutdownInv s.shared s.inFlight)
    (hfl : s.inFlight = .stopReturn ::ₘ others) (he : serverExec .stopReturn x s = some e)
    (hsh : s'.shared = e.shared) (hfl' : s'.inFlight = ↑e.next + others + ↑e.spawn.flatten) :
    ShutdownComplete s' ↔ DroppedReadersGone .stopReturn s := by
  cases he
  have hothers : s'.inFlight = others := by
    rw [hfl']
    simp
  constructor
  · intro hdone _ o ho k hk
    -- nothing follows: whoever is there now is there afterwards
    have hthere : o ∈ s'.inFlight := by
      have ho' : o ∈ s.inFlight := ho
      rw [hfl, Multiset.mem_cons] at ho'
      rw [hothers]
      rcases ho' with rfl | ho'
      · cases hk
      · exact ho'
    have hclosed := (hdone (by rw [hsh])).2 o hthere
    rw [hk] at hclosed
    cases hclosed
  · intro hg _
    have hself : .stopReturn ∈ s.inFlight := by
      rw [hfl]
      exact Multiset.mem_cons_self _ others
    refine ⟨?_, fun o ho => ?_⟩
    · rw [hsh]
      exact (hI.1.swept (hI.1.afterSweep _ hself rfl)).2
    · rw [Option.eq_none_iff_forall_ne_some]
      intro k hk
      have ho' : o ∈ s'.inFlight := ho
      rw [hothers] at ho'
      have hflight : o ∈ s.inFlight := by
        rw [hfl]
        exact Multiset.mem_cons_of_mem ho'
      exact hg rfl o hflight k hk (hI.dropped_of_stopReturn hfl hflight hk)

/-- **Every other operation** leaves it so. -/
theorem ShutdownComplete.exec (hI : ShutdownInv s.shared s.inFlight) (hP : ShutdownComplete s)
    (hop : op ≠ .stopReturn) (hfl : s.inFlight = op ::ₘ others)
    (he : serverExec op x s = some e) (hsh : s'.shared = e.shared)
    (hfl' : s'.inFlight = ↑e.next + others + ↑e.spawn.flatten) : ShutdownComplete s' := by
  intro hstopped
  have hc := serverExec_changes he
  have hself : op ∈ s.inFlight := by
    rw [hfl]
    exact Multiset.mem_cons_self op others
  rw [hsh, hc.stopped, decide_eq_false hop, Bool.or_false] at hstopped
  obtain ⟨hnone, hclosed⟩ := hP hstopped
  -- nobody registers a client any more
  have hreg : ∀ k, op ≠ .register k := by
    rintro k rfl
    have hjoined := (hI.1.swept (hI.1.stopped hstopped)).1
    cases hI.1.joined hjoined _ hself
  constructor
  · rw [hsh]
    refine List.eq_nil_iff_forall_not_mem.mpr fun k hk => ?_
    have hk' := ((hc.clients k hk).resolve_right (hreg k)).1
    rw [hnone] at hk'
    cases hk'
  · intro o ho
    have ho' : o ∈ s'.inFlight := ho
    rw [hfl', Code.next_add_spawn, Multiset.mem_add] at ho'
    rcases ho' with ho' | ho'
    · rw [Option.eq_none_iff_forall_ne_some]
      intro k hk
      have hself' := (((serverExec_follows he).reading o ho' k hk).resolve_right (hreg k)).1
      rw [hclosed op hself] at hself'
      cases hself'
    · refine hclosed o (?_ : o ∈ s.inFlight)
      rw [hfl]
      exact Multiset.mem_cons_of_mem ho'

/-- A call leaves it so. -/
theorem ShutdownComplete.entry {c : ServerCall} {ops : List ServerOp} (hP : ShutdownComplete s)
    (hc : serverEntry c s = some ops) (hsh : s'.shared = s.shared)
    (hfl : s'.inFlight = s.inFlight + ↑ops) : ShutdownComplete s' := by
  obtain ⟨op, rfl, -, -, -, -, hbefore, -⟩ := serverEntry_cases hc
  intro hstopped
  rw [hsh] at hstopped ⊢
  refine ⟨(hP hstopped).1, fun o ho => ?_⟩
  have ho' : o ∈ s'.inFlight := ho
  rw [hfl, Multiset.mem_add] at ho'
  rcases ho' with ho' | ho'
  · exact (hP hstopped).2 o ho'
  · rw [List.mem_singleton.mp ho']
    exact hbefore

end Step

/-- **Shutdown.** In every interleaving, the server is shut down completely in each state
    after `Stop` has returned, exactly if each time `Stop` gets to its end the readers of
    the dropped clients are past their last section. -/
theorem shutdown_complete_iff (as : List (Label ServerOutcome ServerCall))
    (s : Threads UnixSocketServer ServerOp) (hrun : serverCode.machine.run as = some s) :
    serverCode.machine.Always ShutdownComplete serverCode.init as ↔
      serverCode.machine.Guarded (Code.When DroppedReadersGone) serverCode.init as := by
  refine Code.always_iff_guarded (I := ShutdownInv) (fun _ _ _ hI hc => hI.entry hc)
    (fun _ _ _ _ _ hfl hI he => hI.exec hfl he) ?_ ?_ shutdownInv_init nofun hrun
  · intro s s' c ops _ hP hc hsh hfl
    exact hP.entry hc hsh hfl
  · intro s s' op others x e hI hP hfl he hsh hfl'
    have he' : serverExec op x s = some e := he
    by_cases hop : op = .stopReturn
    · subst hop
      exact shutdownComplete_stopReturn_iff hI hfl he' hsh hfl'
    · exact ⟨fun _ h => absurd h hop, fun _ => hP.exec hI hop hfl he' hsh hfl'⟩

/-- `Stop` takes a client over whose reader is in a callback, and joins the reader. -/
def stoppedInCallback : List (Label ServerOutcome ServerCall) :=
  acceptsOne ++
    [.run 1 .done, .run 1 .data, .call .stop, .run 2 .done, .run 2 .done, .run 0 .done,
     .run 2 .done, .run 2 .done, .run 1 .done, .run 1 .done, .run 1 .done, .run 1 .done,
     .run 2 .done, .run 2 .done, .run 2 .done]

theorem shutdown_complete_iff_stoppedInCallback :
    ∃ s, serverCode.machine.run stoppedInCallback = some s ∧ s.shared.stopped = true ∧
      serverCode.machine.Always ShutdownComplete serverCode.init stoppedInCallback := by
  exact ⟨_, rfl, rfl, (shutdown_complete_iff stoppedInCallback _ rfl).mpr (by decide)⟩

/-- A send fails while the reader of the client is in a callback; the client is dropped, and
    `Stop` returns before the reader does. -/
def droppedInCallback : List (Label ServerOutcome ServerCall) :=
  acceptsOne ++
    [.run 1 .done, .run 1 .data, .call .send, .run 2 (.failing [5]), .run 2 .done,
     .call .stop, .run 3 .done, .run 3 .done, .run 0 .done, .run 3 .done, .run 3 .done,
     .run 3 .done]

/-- `Stop` has returned, and the callbacks are still to be called. -/
theorem not_shutdownComplete_droppedInCallback :
    ∃ s, serverCode.machine.run droppedInCallback = some s ∧ s.shared.stopped = true ∧
      .deliver ⟨5, 0⟩ ∈ s.todo.flatten ∧ ¬ ShutdownComplete s := by
  refine ⟨_, rfl, rfl, by decide, fun h => ?_⟩
  exact absurd ((h rfl).2 (.deliver ⟨5, 0⟩) (by decide)) nofun

end PiWebrtc.Ipc
