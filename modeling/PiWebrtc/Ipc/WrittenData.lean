import PiWebrtc.Ipc.SocketWrites
import Mathlib.Algebra.Order.Group.Multiset

namespace PiWebrtc.Ipc

/-!
# The data of `Write`

What a client was sent, together with what the writer whose turn it is still owes it, are the
messages since it was registered (`InStep`); a client that was taken out was sent a part of such
a run of messages (`Uncut`).  Each of the steps that a writer, the accept thread or a reader can
make on the data keeps this of every connection (`StreamsInv`).
-/

/-! ### What a writer owes -/

namespace WriteOp

/-- The clients to which the message is still to be sent, the one whose turn it is first. -/
def pending : WriteOp → List Client
  | .writeAll _ k _ rest _ => k :: rest
  | _ => []

/-- What is still to be sent to a client. -/
def owes (op : WriteOp) (k : Client) : List UInt8 :=
  match op with
  | .writeAll message j sent rest _ =>
    if k = j then message.drop sent else if k ∈ rest then message else []
  | _ => []

/-- The operations of a `SendToAll` that has `mutex_`. -/
def sweeping : WriteOp → Bool
  | .writeAll _ _ _ _ _ => true
  | .unlock _ => true
  | _ => false

end WriteOp

/-- What the writer who has `mutex_` owes a client. -/
def owed (turn : Option WriteOp) (k : Client) : List UInt8 := turn.elim [] fun op => op.owes k

@[simp] theorem owed_some (op : WriteOp) (k : Client) : owed (some op) k = op.owes k := rfl

theorem owes_of_notMem {op : WriteOp} {k : Client} (h : k ∉ op.pending) : op.owes k = [] := by
  cases op with
  | writeAll message j sent rest stale =>
    obtain ⟨hne, hrest⟩ := not_or.mp (mt List.mem_cons.mpr h)
    rw [WriteOp.owes, if_neg hne, if_neg hrest]
  | _ => rfl

section Next

variable (message : List UInt8) (rest stale : List Client)

theorem nextWrite_pending : (nextWrite message rest stale).pending = rest := by
  cases rest with
  | nil => rfl
  | cons k rest => rfl

theorem nextWrite_sweeping : (nextWrite message rest stale).sweeping = true := by
  cases rest with
  | nil => rfl
  | cons k rest => rfl

variable {message rest}

/-- The whole message is owed to everybody who comes next. -/
theorem nextWrite_owes {k : Client} (hk : k ∈ rest) :
    (nextWrite message rest stale).owes k = message := by
  cases rest with
  | nil => cases hk
  | cons j rest =>
    rw [nextWrite, WriteOp.owes]
    split
    · exact List.drop_zero
    · next hne => rw [if_pos ((List.mem_cons.mp hk).resolve_left hne)]

/-- When the turn passes on, nothing changes for the others. -/
theorem nextWrite_owes_of_ne {j k : Client} {sent : ℕ} (hne : k ≠ j) (stale' : List Client) :
    (nextWrite message rest stale).owes k =
      (WriteOp.writeAll message j sent rest stale').owes k := by
  rw [WriteOp.owes, if_neg hne]
  split
  case isTrue hk => exact nextWrite_owes stale hk
  case isFalse hk => exact owes_of_notMem (by rwa [nextWrite_pending])

end Next

/-! ### Streams -/

/-- A stream of some successive messages, and of whole ones unless it was cut. -/
structure Uncut (written : List (List UInt8)) (c : SocketStream) : Prop where
  inOrder : ∃ messages, messages <:+: written ∧ c.sent <+: messages.flatten
  whole : c.cut = false → ∃ messages, messages <:+: written ∧ c.sent = messages.flatten

/-- The stream of a client with what is owed to it: the messages since it was registered. -/
structure InStep (written : List (List UInt8)) (due : List UInt8) (c : SocketStream) : Prop where
  live : c.cut = false
  since : c.since ≤ written.length
  sent : c.sent ++ due = (written.drop c.since).flatten

variable {written : List (List UInt8)} {due : List UInt8} {c : SocketStream}

theorem InStep.inOrder (h : InStep written due c) :
    ∃ messages, messages <:+: written ∧ c.sent <+: messages.flatten :=
  ⟨_, (List.drop_suffix _ _).isInfix, due, h.sent⟩

theorem InStep.uncut (h : InStep written [] c) : Uncut written c where
  inOrder := h.inOrder
  whole _ := by
    have hsent := h.sent
    rw [List.append_nil] at hsent
    exact ⟨_, (List.drop_suffix _ _).isInfix, hsent⟩

theorem Uncut.write (h : Uncut written c) (message : List UInt8) :
    Uncut (written ++ [message]) c where
  inOrder := by
    obtain ⟨messages, hinfix, hsent⟩ := h.inOrder
    exact ⟨messages, hinfix.trans (List.infix_append' [] written [message]), hsent⟩
  whole hcut := by
    obtain ⟨messages, hinfix, hsent⟩ := h.whole hcut
    exact ⟨messages, hinfix.trans (List.infix_append' [] written [message]), hsent⟩

/-- A message is going to be written, and is owed. -/
theorem InStep.write (h : InStep written [] c) (message : List UInt8) :
    InStep (written ++ [message]) message c where
  live := h.live
  since := by
    rw [List.length_append]
    exact h.since.trans (Nat.le_add_right _ _)
  sent := by
    have hsent := h.sent
    rw [List.append_nil] at hsent
    rw [hsent, List.drop_append_of_le_length h.since, List.flatten_append, List.flatten_singleton]

/-- A part of what is owed is sent. -/
theorem InStep.send (h : InStep written due c) (n : ℕ) :
    InStep written (due.drop n) { c with sent := c.sent ++ due.take n } where
  live := h.live
  since := h.since
  sent := by
    show c.sent ++ due.take n ++ due.drop n = _
    rw [List.append_assoc, List.take_append_drop]
    exact h.sent

/-- The data of the server; the connections in `reg` are going to be registered. -/
structure StreamsInv (r : WriteServer) (turn : Option WriteOp) (reg : Multiset ℕ) : Prop where
  client : ∀ k ∈ r.clients, ∃ c, r.streams[k.conn]? = some c ∧ InStep r.written (owed turn k) c
  gone : ∀ j c, r.streams[j]? = some c → (∀ k ∈ r.clients, k.conn ≠ j) → Uncut r.written c
  fresh : ∀ j ∈ reg, ∃ c, r.streams[j]? = some c ∧ c.sent = [] ∧ c.cut = false
  nodup : (↑(r.clients.map Client.conn) + reg).Nodup
  pending : ∀ op ∈ turn, op.pending.Nodup ∧ op.pending ⊆ r.clients

namespace StreamsInv

variable {r r' : WriteServer} {turn turn' : Option WriteOp} {reg : Multiset ℕ} {k : Client}

theorem inj (h : StreamsInv r turn reg) {k' : Client} (hk : k ∈ r.clients) (hk' : k' ∈ r.clients)
    (heq : k.conn = k'.conn) : k = k' :=
  List.inj_on_of_nodup_map (Multiset.coe_nodup.mp (Multiset.nodup_add.mp h.nodup).1) hk hk' heq

theorem nodup_clients (h : StreamsInv r turn reg) : r.clients.Nodup :=
  List.Nodup.of_map _ (Multiset.coe_nodup.mp (Multiset.nodup_add.mp h.nodup).1)

/-- A client is not going to be registered again. -/
theorem ne_of_reg (h : StreamsInv r turn reg) (hk : k ∈ r.clients) {j : ℕ} (hj : j ∈ reg) :
    k.conn ≠ j := by
  rintro rfl
  exact Multiset.disjoint_left.mp (Multiset.nodup_add.mp h.nodup).2.2
    (Multiset.mem_coe.mpr (List.mem_map_of_mem hk)) hj

/-- While nothing is owed, every stream is one of whole messages. -/
theorem uncut (h : StreamsInv r none reg) {j : ℕ} {c : SocketStream}
    (hc : r.streams[j]? = some c) : Uncut r.written c := by
  by_cases hk : ∃ k ∈ r.clients, k.conn = j
  · obtain ⟨k, hk, rfl⟩ := hk
    obtain ⟨c', hc', hstep⟩ := h.client k hk
    obtain rfl : c = c' := Option.some.inj (hc.symm.trans hc')
    exact hstep.uncut
  · exact h.gone j c hc fun k hk' heq => hk ⟨k, hk', heq⟩

theorem inOrder (h : StreamsInv r turn reg) {c : SocketStream} (hc : c ∈ r.streams) :
    ∃ messages, messages <:+: r.written ∧ c.sent <+: messages.flatten := by
  obtain ⟨j, hj⟩ := List.mem_iff_getElem?.mp hc
  by_cases hk : ∃ k ∈ r.clients, k.conn = j
  · obtain ⟨k, hk, rfl⟩ := hk
    obtain ⟨c', hc', hstep⟩ := h.client k hk
    obtain rfl : c = c' := Option.some.inj (hj.symm.trans hc')
    exact hstep.inOrder
  · exact (h.gone j c hj fun k hk' heq => hk ⟨k, hk', heq⟩).inOrder

/-- The turn passes on, and nobody is owed more or less. -/
theorem pass (h : StreamsInv r turn reg) (howed : ∀ k ∈ r.clients, owed turn' k = owed turn k)
    (hpending : ∀ op ∈ turn', op.pending.Nodup ∧ op.pending ⊆ r.clients) :
    StreamsInv r turn' reg where
  client k hk := by
    rw [howed k hk]
    exact h.client k hk
  gone := h.gone
  fresh := h.fresh
  nodup := h.nodup
  pending := hpending

/-- Only `mutex_` changes hands. -/
theorem lock (h : StreamsInv r turn reg) (locked : Bool) :
    StreamsInv { r with locked := locked } turn reg :=
  ⟨h.client, h.gone, h.fresh, h.nodup, h.pending⟩

/-- **Frame.** The stream of one client changes. -/
theorem modify (h : StreamsInv r turn reg) (hk : k ∈ r.clients) {f : SocketStream → SocketStream}
    (hsame : r'.written = r.written ∧ r'.clients = r.clients ∧
      r'.streams = r.streams.modify k.conn f)
    (hself : ∀ c, InStep r.written (owed turn k) c → InStep r.written (owed turn' k) (f c))
    (howed : ∀ j ∈ r.clients, j ≠ k → owed turn' j = owed turn j)
    (hpending : ∀ op ∈ turn', op.pending.Nodup ∧ op.pending ⊆ r.clients) :
    StreamsInv r' turn' reg := by
  obtain ⟨hwritten, hclients, hstreams⟩ := hsame
  have hget : ∀ j, k.conn ≠ j → r'.streams[j]? = r.streams[j]? := by
    intro j hj
    rw [hstreams, List.getElem?_modify_ne f _ hj]
  refine ⟨?_, ?_, ?_, ?_, ?_⟩
  · intro j hj
    rw [hclients] at hj
    obtain ⟨c, hc, hstep⟩ := h.client j hj
    rw [hwritten]
    by_cases hjk : j = k
    · subst hjk
      refine ⟨f c, ?_, hself c hstep⟩
      rw [hstreams, List.getElem?_modify_eq, hc]
      rfl
    · rw [hget _ fun heq => hjk (h.inj hj hk heq.symm), howed j hj hjk]
      exact ⟨c, hc, hstep⟩
  · intro j c hc hgone
    rw [hclients] at hgone
    rw [hget j (hgone k hk)] at hc
    rw [hwritten]
    exact h.gone j c hc hgone
  · intro j hj
    rw [hget j (h.ne_of_reg hk hj)]
    exact h.fresh j hj
  · rw [hclients]
    exact h.nodup
  · rw [hclients]
    exact hpending

/-- A client is taken out. -/
theorem erase (h : StreamsInv r turn reg) (hk : k ∈ r.clients) {f : SocketStream → SocketStream}
    (hsame : r'.written = r.written ∧ r'.clients = r.clients.erase k ∧
      r'.streams = r.streams.modify k.conn f)
    (hself : ∀ c, InStep r.written (owed turn k) c → Uncut r.written (f c))
    (howed : ∀ j ∈ r.clients, j ≠ k → owed turn' j = owed turn j)
    (hpending : ∀ op ∈ turn', op.pending.Nodup ∧ op.pending ⊆ r.clients.erase k) :
    StreamsInv r' turn' reg := by
  obtain ⟨hwritten, hclients, hstreams⟩ := hsame
  have hget : ∀ j, k.conn ≠ j → r'.streams[j]? = r.streams[j]? := by
    intro j hj
    rw [hstreams, List.getElem?_modify_ne f _ hj]
  have hmem : ∀ j, j ∈ r'.clients ↔ j ≠ k ∧ j ∈ r.clients := by
    intro j
    rw [hclients]
    exact h.nodup_clients.mem_erase_iff
  refine ⟨?_, ?_, ?_, ?_, ?_⟩
  · intro j hj
    obtain ⟨hne, hj⟩ := (hmem j).mp hj
    obtain ⟨c, hc, hstep⟩ := h.client j hj
    rw [hwritten, hget _ fun heq => hne (h.inj hj hk heq.symm), howed j hj hne]
    exact ⟨c, hc, hstep⟩
  · intro j c hc hgone
    rw [hwritten]
    by_cases hjk : k.conn = j
    · subst hjk
      obtain ⟨c', hc', hstep⟩ := h.client k hk
      rw [hstreams, List.getElem?_modify_eq, hc'] at hc
      obtain rfl : f c' = c := Option.some.inj hc
      exact hself c' hstep
    · rw [hget j hjk] at hc
      refine h.gone j c hc fun k' hk' heq => ?_
      exact hgone k' ((hmem k').mpr ⟨fun hkk => hjk (hkk ▸ heq), hk'⟩) heq
  · intro j hj
    rw [hget j (h.ne_of_reg hk hj)]
    exact h.fresh j hj
  · rw [hclients]
    refine Multiset.nodup_of_le (Multiset.add_le_add_right (Multiset.coe_le.mpr ?_)) h.nodup
    exact ((List.erase_sublist ..).map _).subperm
  · rw [hclients]
    exact hpending

/-- A reader takes its client out, if it is still in. -/
theorem leave (h : StreamsInv r none reg) :
    StreamsInv { r with clients := r.clients.erase k } none reg := by
  by_cases hk : k ∈ r.clients
  · refine h.erase (f := id) hk ⟨rfl, rfl, (List.modify_id _ _).symm⟩ (fun c hstep => ?_)
      (fun _ _ _ => rfl) nofun
    exact hstep.uncut
  · rw [List.erase_of_not_mem hk]
    exact h

/-- A client reads. -/
theorem clientRead (h : StreamsInv r turn reg) (conn n : ℕ) :
    StreamsInv (r.clientRead conn n) turn reg := by
  have hget : ∀ (j : ℕ) (c : SocketStream), r.streams[j]? = some c →
      ∃ m, (r.clientRead conn n).streams[j]? = some { c with read := m } := by
    intro j c hc
    rw [WriteServer.clientRead, List.getElem?_modify, hc, Option.map_eq_map, Option.map_some]
    split
    · exact ⟨c.read + n, rfl⟩
    · exact ⟨c.read, rfl⟩
  refine ⟨?_, ?_, ?_, h.nodup, h.pending⟩
  · intro k hk
    obtain ⟨c, hc, hstep⟩ := h.client k hk
    obtain ⟨m, hm⟩ := hget _ c hc
    exact ⟨_, hm, hstep.live, hstep.since, hstep.sent⟩
  · intro j c hc hgone
    rw [WriteServer.clientRead, List.getElem?_modify] at hc
    obtain ⟨before, hbefore, rfl⟩ := Option.map_eq_some_iff.mp hc
    have huncut := h.gone j before hbefore hgone
    split
    · exact ⟨huncut.inOrder, huncut.whole⟩
    · exact huncut
  · intro j hj
    obtain ⟨c, hc, hsent⟩ := h.fresh j hj
    obtain ⟨m, hm⟩ := hget j c hc
    exact ⟨_, hm, hsent⟩

/-- A connection is accepted. -/
theorem accept (h : StreamsInv r turn reg) (fd : ℕ) :
    StreamsInv (r.accept fd) turn (r.streams.length ::ₘ reg) := by
  have hget : ∀ (j : ℕ) (c : SocketStream), r.streams[j]? = some c →
      (r.accept fd).streams[j]? = some c := by
    intro j c hc
    show (r.streams ++ [({} : SocketStream)])[j]? = some c
    rw [List.getElem?_append_left (List.getElem?_eq_some_iff.mp hc).1]
    exact hc
  refine ⟨?_, ?_, ?_, ?_, h.pending⟩
  · intro k hk
    obtain ⟨c, hc, hstep⟩ := h.client k hk
    exact ⟨c, hget _ c hc, hstep⟩
  · intro j c hc hgone
    have hmem : (r.streams ++ [({} : SocketStream)])[j]? = some c := hc
    rcases Nat.lt_or_ge j r.streams.length with hlt | hge
    · rw [List.getElem?_append_left hlt] at hmem
      exact h.gone j c hmem hgone
    · rw [List.getElem?_append_right hge] at hmem
      obtain rfl := List.mem_singleton.mp (List.mem_of_getElem? hmem)
      exact ⟨⟨[], List.nil_infix, List.prefix_rfl⟩, fun _ => ⟨[], List.nil_infix, rfl⟩⟩
  · intro j hj
    rcases Multiset.mem_cons.mp hj with rfl | hj
    · exact ⟨{}, List.getElem?_concat_length, rfl, rfl⟩
    · obtain ⟨c, hc, hsent⟩ := h.fresh j hj
      exact ⟨c, hget j c hc, hsent⟩
  · rw [Multiset.add_cons, Multiset.nodup_cons]
    -- the new connection is numbered past every entry and every one to be registered
    refine ⟨fun hmem => ?_, h.nodup⟩
    rcases Multiset.mem_add.mp hmem with hmem | hmem
    · obtain ⟨k, hk, heq⟩ := List.mem_map.mp (Multiset.mem_coe.mp hmem)
      obtain ⟨c, hc, -⟩ := h.client k hk
      exact absurd (List.getElem?_eq_some_iff.mp hc).1 (by omega)
    · obtain ⟨c, hc, -⟩ := h.fresh _ hmem
      exact absurd (List.getElem?_eq_some_iff.mp hc).1 (lt_irrefl _)

/-- The connection gets an entry. -/
theorem register (h : StreamsInv r none (k.conn ::ₘ reg)) : StreamsInv (r.register k) none reg := by
  obtain ⟨c, hc, hsent, hcut⟩ := h.fresh k.conn (Multiset.mem_cons_self _ _)
  have hself : (r.register k).streams[k.conn]? = some { c with since := r.written.length } := by
    rw [WriteServer.register, List.getElem?_modify_eq, hc]
    rfl
  have hget : ∀ j, k.conn ≠ j → (r.register k).streams[j]? = r.streams[j]? := by
    intro j hj
    exact List.getElem?_modify_ne _ _ hj
  have hnodup := h.nodup
  rw [Multiset.add_cons, Multiset.nodup_cons] at hnodup
  refine ⟨?_, ?_, ?_, ?_, nofun⟩
  · intro j hj
    rcases List.mem_cons.mp hj with rfl | hj
    · refine ⟨_, hself, hcut, le_rfl, ?_⟩
      show c.sent ++ [] = (r.written.drop r.written.length).flatten
      rw [hsent, List.drop_length]
      rfl
    · rw [hget _ (h.ne_of_reg hj (Multiset.mem_cons_self _ _)).symm]
      exact h.client j hj
  · intro j c hc hgone
    rw [hget j (hgone k List.mem_cons_self)] at hc
    exact h.gone j c hc fun k' hk' => hgone k' (List.mem_cons_of_mem k hk')
  · intro j hj
    rw [hget j fun heq => hnodup.1 (Multiset.mem_add.mpr (.inr (heq ▸ hj)))]
    exact h.fresh j (Multiset.mem_cons_of_mem hj)
  · show (↑((k :: r.clients).map Client.conn) + reg).Nodup
    rw [List.map_cons, ← Multiset.cons_coe, Multiset.cons_add, Multiset.nodup_cons]
    exact hnodup

/-- A writer gets `mutex_`. -/
theorem write (h : StreamsInv r none reg) (message : List UInt8) {ks : List Client}
    (hks : ks.Perm r.clients) :
    StreamsInv { r with locked := true, written := r.written ++ [message] }
      (some (nextWrite message ks [])) reg := by
  refine ⟨?_, ?_, h.fresh, h.nodup, ?_⟩
  · intro k hk
    obtain ⟨c, hc, hstep⟩ := h.client k hk
    have howed : owed (some (nextWrite message ks [])) k = message :=
      nextWrite_owes [] (hks.mem_iff.mpr hk)
    rw [howed]
    exact ⟨c, hc, hstep.write message⟩
  · intro j c hc hgone
    exact (h.gone j c hc hgone).write message
  · rintro op ⟨⟩
    rw [nextWrite_pending]
    exact ⟨hks.nodup_iff.mpr h.nodup_clients, hks.subset⟩

end StreamsInv

end PiWebrtc.Ipc
