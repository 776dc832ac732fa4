import PiWebrtc.Ipc.WrittenData

namespace PiWebrtc.Ipc

open Transition

/-!
# Messages are not torn

Writers take turns with `mutex_`, so the messages are in one order, and every client is sent a
run of them (`StreamsInv`).  A client to which a `send` failed is no longer in `clients_`, and a
descriptor number is closed by the reader of its client, once the client is out of `clients_`
(`HoldersInv`), so no later `send` reaches it.  `sockets_never_torn` puts the two together for
every interleaving.
-/

/-- What is asked for: every client received a prefix of some successive messages; and while no
    message is being written, every client to which no `send` failed was sent whole messages. -/
structure NeverTorn (r : WriteServer) : Prop where
  inOrder : ∀ c ∈ r.streams, ∃ messages, messages <:+: r.written ∧ c.received <+: messages.flatten
  whole : r.locked = false → ∀ c ∈ r.streams, c.cut = false →
    ∃ messages, messages <:+: r.written ∧ c.sent = messages.flatten

/-! ### Who holds a descriptor -/

namespace WriteOp

/-- The client whose descriptor an operation is going to close, at the end of its thread. -/
def holds : WriteOp → Option Client
  | .register k => some k
  | .read k => some k
  | .leave k => some k
  | .close k => some k
  | _ => none

/-- The client whose reader has not taken it out yet. -/
def reads : WriteOp → Option Client
  | .read k => some k
  | .leave k => some k
  | _ => none

/-- The connection that an operation is going to register. -/
def registers : WriteOp → Option ℕ
  | .register k => some k.conn
  | _ => none

theorem holds_of_reads {op : WriteOp} {k : Client} (h : op.reads = some k) : op.holds = some k := by
  cases op with
  | read j => exact h
  | leave j => exact h
  | _ => cases h

end WriteOp

/-- The numbers of the clients in `held` still name their connections, and the clients of the
    server are among those in `reading`. -/
structure HoldersInv (r : WriteServer) (held reading : Multiset Client) : Prop where
  names : ∀ k ∈ held, r.table k.fd = some (.client k.conn) ∧ k.conn < r.streams.length
  once : (held.map Client.conn).Nodup
  entries : ∀ k ∈ r.clients, k ∈ reading

namespace HoldersInv

variable {r r' : WriteServer} {held reading : Multiset Client} {k : Client}

/-- **Frame.** Clients may be taken out, and connections added. -/
theorem frame (h : HoldersInv r held reading)
    (htable : ∀ k ∈ held, r.table k.fd = some (.client k.conn) →
      r'.table k.fd = some (.client k.conn))
    (hstreams : r.streams.length ≤ r'.streams.length) (hclients : r'.clients ⊆ r.clients) :
    HoldersInv r' held reading where
  names k hk := ⟨htable k hk (h.names k hk).1, (h.names k hk).2.trans_le hstreams⟩
  once := h.once
  entries k hk := h.entries k (hclients hk)

/-- A connection is accepted on a number that names nothing. -/
theorem accept (h : HoldersInv r held reading) {fd : ℕ} (hfd : r.table fd = none) :
    HoldersInv (r.accept fd) (⟨fd, r.streams.length⟩ ::ₘ held) reading where
  names k hk := by
    rcases Multiset.mem_cons.mp hk with rfl | hk
    · refine ⟨Function.update_self .., ?_⟩
      show r.streams.length < (r.streams ++ [_]).length
      rw [List.length_append]
      exact Nat.lt_succ_self _
    · obtain ⟨hname, hlt⟩ := h.names k hk
      constructor
      · show Function.update r.table fd _ k.fd = _
        rw [Function.update_of_ne, hname]
        rintro rfl
        rw [hname] at hfd
        cases hfd
      · show k.conn < (r.streams ++ [_]).length
        rw [List.length_append]
        exact Nat.lt_succ_of_lt hlt
  once := by
    rw [Multiset.map_cons, Multiset.nodup_cons]
    refine ⟨fun hmem => ?_, h.once⟩
    obtain ⟨k, hk, heq⟩ := Multiset.mem_map.mp hmem
    have hlt := (h.names k hk).2
    rw [heq] at hlt
    exact lt_irrefl _ hlt
  entries := h.entries

/-- A reader closes its descriptor. -/
theorem close (h : HoldersInv r (k ::ₘ held) reading) :
    HoldersInv { r with table := Function.update r.table k.fd none } held reading where
  names j hj := by
    obtain ⟨hname, hlt⟩ := h.names j (Multiset.mem_cons_of_mem hj)
    refine ⟨?_, hlt⟩
    show Function.update r.table k.fd none j.fd = _
    rw [Function.update_of_ne, hname]
    -- two clients of one number would be clients of one connection
    intro hfd
    rw [hfd, (h.names k (Multiset.mem_cons_self k held)).1] at hname
    have hconn : k.conn = j.conn := Holder.client.inj (Option.some.inj hname)
    have honce := h.once
    rw [Multiset.map_cons, Multiset.nodup_cons] at honce
    exact honce.1 (Multiset.mem_map.mpr ⟨j, hj, hconn.symm⟩)
  once := by
    have honce := h.once
    rw [Multiset.map_cons, Multiset.nodup_cons] at honce
    exact honce.2
  entries := h.entries

/-- The reader of a client is started. -/
theorem register (h : HoldersInv r (k ::ₘ held) reading) :
    HoldersInv (r.register k) (k ::ₘ held) (k ::ₘ reading) where
  names j hj := by
    obtain ⟨hname, hlt⟩ := h.names j hj
    exact ⟨hname, hlt.trans_eq (List.length_modify ..).symm⟩
  once := h.once
  entries j hj := by
    rcases List.mem_cons.mp hj with rfl | hj
    · exact Multiset.mem_cons_self j reading
    · exact Multiset.mem_cons_of_mem (h.entries j hj)

/-- A reader has taken its client out. -/
theorem leave (h : HoldersInv r held (k ::ₘ reading)) (hnodup : r.clients.Nodup) :
    HoldersInv { r with clients := r.clients.erase k } held reading where
  names := h.names
  once := h.once
  entries j hj := by
    obtain ⟨hne, hj⟩ := hnodup.mem_erase_iff.mp hj
    exact (Multiset.mem_cons.mp (h.entries j hj)).resolve_left hne

end HoldersInv

/-! ### The invariant -/

/-- Whose turn it is. -/
structure Turn (r : WriteServer) (flight : Multiset WriteOp) (turn : Option WriteOp) : Prop where
  locked : r.locked = turn.isSome
  sweeping : flight.filter (fun op => op.sweeping = true) = turn.elim 0 fun op => {op}

namespace Turn

variable {r r' : WriteServer} {op : WriteOp} {others : Multiset WriteOp} {turn : Option WriteOp}
  {new : List WriteOp}

/-- Beside the operation whose turn it is, there is none of a `SendToAll` with `mutex_`. -/
theorem eq_some (h : Turn r (op ::ₘ others) turn) (hop : op.sweeping = true) :
    turn = some op ∧ others.filter (fun op => op.sweeping = true) = 0 := by
  have hsweeping := h.sweeping
  rw [Multiset.filter_cons_of_pos (p := fun op => op.sweeping = true) others hop] at hsweeping
  cases turn with
  | none => exact absurd hsweeping (Multiset.cons_ne_zero)
  | some op' =>
    rw [Option.elim_some, ← Multiset.cons_zero] at hsweeping
    obtain ⟨rfl, hnone⟩ | ⟨hne, hnone⟩ := Multiset.cons_eq_cons.mp hsweeping
    · exact ⟨rfl, hnone⟩
    · obtain ⟨cs, -, hzero⟩ := hnone
      exact absurd hzero.symm (Multiset.cons_ne_zero)

/-- An operation that has not `mutex_` for long leaves the turn alone. -/
theorem still (h : Turn r (op ::ₘ others) turn) (hop : op.sweeping = false)
    (hnew : ∀ o ∈ new, o.sweeping = false) (hlocked : r'.locked = r.locked) :
    Turn r' (↑new + others) turn where
  locked := hlocked.trans h.locked
  sweeping := by
    have hnone : (↑new : Multiset WriteOp).filter (fun op => op.sweeping = true) = 0 :=
      Multiset.filter_eq_nil.mpr fun o ho => ne_true_of_eq_false (hnew o (Multiset.mem_coe.mp ho))
    have hsweeping := h.sweeping
    rw [Multiset.filter_cons_of_neg (p := fun op => op.sweeping = true) others
      (ne_true_of_eq_false hop)] at hsweeping
    rw [Multiset.filter_add, hnone, Multiset.zero_add]
    exact hsweeping

/-- While `mutex_` is free, it is nobody's turn. -/
theorem eq_none {flight : Multiset WriteOp} (h : Turn r flight turn) (hfree : r.locked = false) :
    turn = none := by
  have hnone := h.locked
  rw [hfree] at hnone
  exact Option.not_isSome_iff_eq_none.mp (ne_true_of_eq_false hnone.symm)

end Turn

/-- **The invariant.** -/
structure WriteInv (r : WriteServer) (flight : Multiset WriteOp) : Prop where
  data : ∃ turn, Turn r flight turn ∧ StreamsInv r turn (flight.filterMap WriteOp.registers)
  holders : HoldersInv r (flight.filterMap WriteOp.holds) (flight.filterMap WriteOp.reads)

namespace WriteInv

variable {r r' : WriteServer} {op o : WriteOp} {others : Multiset WriteOp} {turn : Option WriteOp}
  {new : List WriteOp}

/-- The number of a client of the server names its connection. -/
theorem table_eq {flight : Multiset WriteOp} (h : WriteInv r flight) {k : Client}
    (hk : k ∈ r.clients) : r.table k.fd = some (.client k.conn) := by
  obtain ⟨op, hop, hreads⟩ := (Multiset.mem_filterMap _ _).mp (h.holders.entries k hk)
  exact (h.holders.names k
    ((Multiset.mem_filterMap _ _).mpr ⟨op, hop, WriteOp.holds_of_reads hreads⟩)).1

theorem none_of_sweeping (hop : op.sweeping = true) :
    op.holds = none ∧ op.reads = none ∧ op.registers = none := by
  cases op with
  | writeAll message k sent rest stale => exact ⟨rfl, rfl, rfl⟩
  | unlock stale => exact ⟨rfl, rfl, rfl⟩
  | _ => cases hop

/-- **Frame.** A `SendToAll` with `mutex_` goes on. -/
theorem sweep (h : WriteInv r (op ::ₘ others)) (hop : op.sweeping = true)
    (ho : o.sweeping = true)
    (hdata : ∀ reg, StreamsInv r (some op) reg → StreamsInv r' (some o) reg)
    (hsame : r'.locked = r.locked ∧ r'.table = r.table ∧ r'.streams.length = r.streams.length)
    (hclients : r'.clients ⊆ r.clients) : WriteInv r' (o ::ₘ others) := by
  obtain ⟨hlocked, htable, hlength⟩ := hsame
  obtain ⟨hholds, hreads, hregisters⟩ := none_of_sweeping hop
  obtain ⟨hholds', hreads', hregisters'⟩ := none_of_sweeping ho
  obtain ⟨⟨turn, hturn, hstreams⟩, hholders⟩ := h
  obtain ⟨rfl, hothers⟩ := hturn.eq_some hop
  rw [Multiset.filterMap_cons_none _ _ hregisters] at hstreams
  rw [Multiset.filterMap_cons_none _ _ hholds, Multiset.filterMap_cons_none _ _ hreads] at hholders
  refine ⟨⟨some o, ⟨hlocked.trans hturn.locked, ?_⟩, ?_⟩, ?_⟩
  · rw [Multiset.filter_cons_of_pos (p := fun op => op.sweeping = true) others ho, hothers]
    rfl
  · rw [Multiset.filterMap_cons_none _ _ hregisters']
    exact hdata _ hstreams
  · rw [Multiset.filterMap_cons_none _ _ hholds', Multiset.filterMap_cons_none _ _ hreads']
    exact hholders.frame (fun k _ hname => htable ▸ hname) hlength.ge hclients

/-- **Frame.** An operation of another thread. -/
theorem still (h : WriteInv r (op ::ₘ others)) (hop : op.sweeping = false)
    (hnew : ∀ o ∈ new, o.sweeping = false) (hlocked : r'.locked = r.locked)
    (hdata : ∀ turn, r.locked = turn.isSome →
      StreamsInv r turn ((op ::ₘ others).filterMap WriteOp.registers) →
      StreamsInv r' turn ((↑new + others).filterMap WriteOp.registers))
    (hholders : HoldersInv r ((op ::ₘ others).filterMap WriteOp.holds)
        ((op ::ₘ others).filterMap WriteOp.reads) →
      HoldersInv r' ((↑new + others).filterMap WriteOp.holds)
        ((↑new + others).filterMap WriteOp.reads)) :
    WriteInv r' (↑new + others) := by
  obtain ⟨⟨turn, hturn, hstreams⟩, hheld⟩ := h
  exact ⟨⟨turn, hturn.still hop hnew hlocked, hdata turn hturn.locked hstreams⟩, hholders hheld⟩

/-- **Frame.** The same, when it hands on what it holds. -/
theorem quiet (h : WriteInv r (op ::ₘ others)) (hop : op.sweeping = false)
    (hnew : ∀ o ∈ new, o.sweeping = false) (hlocked : r'.locked = r.locked)
    (hregisters : new.filterMap WriteOp.registers = op.registers.toList)
    (hholds : new.filterMap WriteOp.holds = op.holds.toList)
    (hreads : new.filterMap WriteOp.reads = op.reads.toList)
    (hdata : ∀ turn reg, StreamsInv r turn reg → StreamsInv r' turn reg)
    (htable : ∀ k conn, r.table k = some (.client conn) → r'.table k = some (.client conn))
    (hlength : r.streams.length ≤ r'.streams.length) (hclients : r'.clients ⊆ r.clients) :
    WriteInv r' (↑new + others) := by
  refine h.still hop hnew hlocked (fun turn _ hstreams => ?_) fun hheld => ?_
  · rw [Code.filterMap_next hregisters]
    exact hdata _ _ hstreams
  · rw [Code.filterMap_next hholds, Code.filterMap_next hreads]
    exact hheld.frame (fun k _ => htable k.fd k.conn) hlength hclients

section Operation

variable {message : List UInt8} {k : Client} {sent : ℕ} {rest stale : List Client}

/-- The writer goes on with the next client: the message was sent whole. -/
theorem done (h : WriteInv r (.writeAll message k sent rest stale ::ₘ others))
    (hsent : message.length ≤ sent) : WriteInv r (nextWrite message rest stale ::ₘ others) := by
  refine h.sweep rfl (nextWrite_sweeping ..) (fun reg hstreams => ?_) ⟨rfl, rfl, rfl⟩ (fun _ => id)
  obtain ⟨hnodup, hsub⟩ := hstreams.pending _ rfl
  refine hstreams.pass (fun j hj => ?_) ?_
  · by_cases hjk : j = k
    · subst hjk
      have hnext : (nextWrite message rest stale).owes j = [] :=
        owes_of_notMem (by rw [nextWrite_pending]; exact (List.nodup_cons.mp hnodup).1)
      rw [owed_some, owed_some, hnext, WriteOp.owes, if_pos rfl, List.drop_eq_nil_of_le hsent]
    · exact nextWrite_owes_of_ne stale hjk stale
  · rintro op ⟨⟩
    rw [nextWrite_pending]
    exact ⟨(List.nodup_cons.mp hnodup).2, fun j hj => hsub (List.mem_cons_of_mem k hj)⟩

/-- A `send` took some of the bytes. -/
theorem send (h : WriteInv r (.writeAll message k sent rest stale ::ₘ others)) (n : ℕ) :
    WriteInv (r.send k ((message.drop sent).take n))
      (.writeAll message k (sent + n) rest stale ::ₘ others) := by
  obtain ⟨turn, hturn, hstreams⟩ := h.data
  obtain ⟨rfl, -⟩ := hturn.eq_some rfl
  have hk : k ∈ r.clients := (hstreams.pending _ rfl).2 List.mem_cons_self
  have hsend : r.send k ((message.drop sent).take n) = { r with
      streams := r.streams.modify k.conn fun c =>
        { c with sent := c.sent ++ (message.drop sent).take n } } := by
    rw [WriteServer.send, h.table_eq hk]
  rw [hsend]
  refine h.sweep rfl rfl (fun reg hstreams => ?_) ⟨rfl, rfl, List.length_modify ..⟩ (fun _ => id)
  have hpending := hstreams.pending _ rfl
  refine hstreams.modify hk ⟨rfl, rfl, rfl⟩ (fun c hstep => ?_) (fun j _ hjk => ?_) ?_
  · rw [owed_some, WriteOp.owes, if_pos rfl] at hstep
    rw [owed_some, WriteOp.owes, if_pos rfl, ← List.drop_drop]
    exact hstep.send n
  · rw [owed_some, owed_some, WriteOp.owes, WriteOp.owes, if_neg hjk, if_neg hjk]
  · rintro op ⟨⟩
    exact hpending

/-- A `send` failed, and the client is dropped. -/
theorem drop (h : WriteInv r (.writeAll message k sent rest stale ::ₘ others)) :
    WriteInv (r.drop k) (nextWrite message rest (stale ++ [k]) ::ₘ others) := by
  refine h.sweep rfl (nextWrite_sweeping ..) (fun reg hstreams => ?_)
    ⟨rfl, rfl, List.length_modify ..⟩ (List.erase_subset ..)
  obtain ⟨hnodup, hsub⟩ := hstreams.pending _ rfl
  refine hstreams.erase (hsub List.mem_cons_self) ⟨rfl, rfl, rfl⟩ (fun c hstep => ?_)
    (fun j _ hjk => nextWrite_owes_of_ne _ hjk stale) ?_
  · exact ⟨hstep.inOrder, nofun⟩
  · rintro op ⟨⟩
    rw [nextWrite_pending]
    obtain ⟨hrest, hnodup⟩ := List.nodup_cons.mp hnodup
    refine ⟨hnodup, fun j hj => ?_⟩
    have hjk : j ≠ k := by
      rintro rfl
      exact hrest hj
    exact (List.mem_erase_of_ne hjk).mpr (hsub (List.mem_cons_of_mem k hj))

/-- A writer gets `mutex_`. -/
theorem write (h : WriteInv r (.write message ::ₘ others)) (hlocked : r.locked = false)
    {ks : List Client} (hks : ks.Perm r.clients) :
    WriteInv { r with locked := true, written := r.written ++ [message] }
      (nextWrite message ks [] ::ₘ others) := by
  obtain ⟨⟨turn, hturn, hstreams⟩, hholders⟩ := h
  obtain ⟨hholds, hreads, hregisters⟩ := none_of_sweeping (nextWrite_sweeping message ks [])
  obtain rfl := hturn.eq_none hlocked
  rw [Multiset.filterMap_cons_none _ _ rfl] at hstreams
  rw [Multiset.filterMap_cons_none _ _ rfl, Multiset.filterMap_cons_none _ _ rfl] at hholders
  have hothers : others.filter (fun op => op.sweeping = true) = 0 := by
    have hsweeping := hturn.sweeping
    rwa [Multiset.filter_cons_of_neg (p := fun op => op.sweeping = true) others
      (ne_true_of_eq_false rfl)] at hsweeping
  refine ⟨⟨some (nextWrite message ks []), ⟨rfl, ?_⟩, ?_⟩, ?_⟩
  · rw [Multiset.filter_cons_of_pos (p := fun op => op.sweeping = true) others
      (nextWrite_sweeping ..), hothers]
    rfl
  · rw [Multiset.filterMap_cons_none _ _ hregisters]
    exact hstreams.write message hks
  · rw [Multiset.filterMap_cons_none _ _ hholds, Multiset.filterMap_cons_none _ _ hreads]
    exact hholders.frame (fun k _ => id) le_rfl (fun _ => id)

/-- The writer releases `mutex_`. -/
theorem unlock (h : WriteInv r (.unlock stale ::ₘ others)) :
    WriteInv { r with locked := false } (↑(stale.map WriteOp.shutdownStale) + others) := by
  obtain ⟨⟨turn, hturn, hstreams⟩, hholders⟩ := h
  obtain ⟨rfl, hothers⟩ := hturn.eq_some rfl
  have hnone : ∀ {α : Type} (f : WriteOp → Option α), (∀ k, f (.shutdownStale k) = none) →
      f (.unlock stale) = none →
      (↑(stale.map WriteOp.shutdownStale) + others : Multiset WriteOp).filterMap f =
        (WriteOp.unlock stale ::ₘ others).filterMap f := by
    intro α f hf hunlock
    refine Code.filterMap_next ?_
    rw [hunlock, List.filterMap_map]
    exact List.filterMap_eq_nil_iff.mpr fun k _ => hf k
  refine ⟨⟨none, ⟨rfl, ?_⟩, ?_⟩, ?_⟩
  · rw [Multiset.filter_add, hothers, add_zero]
    refine Multiset.filter_eq_nil.mpr fun o ho => ?_
    obtain ⟨k, -, rfl⟩ := List.mem_map.mp (Multiset.mem_coe.mp ho)
    exact nofun
  · rw [hnone _ (fun _ => rfl) rfl]
    have hpass : StreamsInv r none _ := hstreams.pass (fun _ _ => rfl) nofun
    exact hpass.lock false
  · rw [hnone _ (fun _ => rfl) rfl, hnone _ (fun _ => rfl) rfl]
    exact hholders.frame (fun k _ => id) le_rfl (fun _ => id)

/-- A connection is accepted. -/
theorem accept (h : WriteInv r (.accept ::ₘ others)) {fd : ℕ} (hfd : r.table fd = none) :
    WriteInv (r.accept fd) (.register ⟨fd, r.streams.length⟩ ::ₘ others) := by
  rw [← Multiset.singleton_add, ← Multiset.coe_singleton]
  refine h.still rfl (by simp [WriteOp.sweeping]) rfl (fun turn _ hstreams => ?_) fun hheld => ?_
  · rw [Multiset.filterMap_cons_none _ _ rfl] at hstreams
    rw [Multiset.coe_singleton, Multiset.singleton_add,
      Multiset.filterMap_cons_some WriteOp.registers (.register _) _ rfl]
    exact hstreams.accept fd
  · rw [Multiset.filterMap_cons_none _ _ rfl, Multiset.filterMap_cons_none _ _ rfl] at hheld
    rw [Multiset.coe_singleton, Multiset.singleton_add,
      Multiset.filterMap_cons_some WriteOp.holds (.register _) _ rfl,
      Multiset.filterMap_cons_none _ _ rfl]
    exact hheld.accept hfd

/-- A client is registered, and its reader started. -/
theorem register (h : WriteInv r (.register k ::ₘ others)) (hfree : r.locked = false) :
    WriteInv (r.register k) (↑[WriteOp.flush, .read k] + others) := by
  have hcons : (↑[WriteOp.flush, .read k] + others : Multiset WriteOp) =
      .flush ::ₘ .read k ::ₘ others := by
    rw [← Multiset.cons_coe, Multiset.cons_add, Multiset.coe_singleton, Multiset.singleton_add]
  refine h.still rfl (by simp [WriteOp.sweeping]) rfl (fun turn hturn hstreams => ?_)
    fun hheld => ?_
  · rw [hfree] at hturn
    obtain rfl := Option.not_isSome_iff_eq_none.mp (ne_true_of_eq_false hturn.symm)
    rw [Multiset.filterMap_cons_some WriteOp.registers (.register k) _ rfl] at hstreams
    rw [hcons, Multiset.filterMap_cons_none _ _ rfl, Multiset.filterMap_cons_none _ _ rfl]
    exact hstreams.register
  · rw [Multiset.filterMap_cons_some WriteOp.holds (.register k) _ rfl,
      Multiset.filterMap_cons_none _ _ rfl] at hheld
    rw [hcons, Multiset.filterMap_cons_none _ _ rfl,
      Multiset.filterMap_cons_some WriteOp.holds (.read k) _ rfl,
      Multiset.filterMap_cons_none WriteOp.flush _ rfl,
      Multiset.filterMap_cons_some WriteOp.reads (.read k) _ rfl]
    exact hheld.register

/-- A reader has taken its client out, if it was still in. -/
theorem leave (h : WriteInv r (.leave k ::ₘ others)) (hfree : r.locked = false) :
    WriteInv { r with clients := r.clients.erase k } (.close k ::ₘ others) := by
  rw [← Multiset.singleton_add, ← Multiset.coe_singleton]
  refine h.still rfl (by simp [WriteOp.sweeping]) rfl (fun turn hturn hstreams => ?_)
    fun hheld => ?_
  · rw [hfree] at hturn
    obtain rfl := Option.not_isSome_iff_eq_none.mp (ne_true_of_eq_false hturn.symm)
    rw [Multiset.filterMap_cons_none _ _ rfl] at hstreams
    rw [Multiset.coe_singleton, Multiset.singleton_add, Multiset.filterMap_cons_none _ _ rfl]
    exact hstreams.leave
  · rw [Multiset.filterMap_cons_some WriteOp.holds (.leave k) _ rfl,
      Multiset.filterMap_cons_some WriteOp.reads (.leave k) _ rfl] at hheld
    rw [Multiset.coe_singleton, Multiset.singleton_add,
      Multiset.filterMap_cons_some WriteOp.holds (.close k) _ rfl,
      Multiset.filterMap_cons_none _ _ rfl]
    obtain ⟨turn, -, hstreams⟩ := h.data
    exact hheld.leave hstreams.nodup_clients

/-- A reader closes its descriptor. -/
theorem close (h : WriteInv r (.close k ::ₘ others)) :
    WriteInv { r with table := Function.update r.table k.fd none } others := by
  rw [← Multiset.zero_add others, ← Multiset.coe_nil]
  refine h.still rfl nofun rfl (fun turn _ hstreams => ?_) fun hheld => ?_
  · rw [Multiset.filterMap_cons_none _ _ rfl] at hstreams
    rw [Multiset.coe_nil, Multiset.zero_add]
    exact ⟨hstreams.client, hstreams.gone, hstreams.fresh, hstreams.nodup, hstreams.pending⟩
  · rw [Multiset.filterMap_cons_some WriteOp.holds (.close k) _ rfl,
      Multiset.filterMap_cons_none _ _ rfl] at hheld
    rw [Multiset.coe_nil, Multiset.zero_add]
    exact hheld.close

end Operation

/-- What follows an operation, when that is one operation. -/
theorem next_one (o : WriteOp) (others : Multiset WriteOp) :
    (↑([o] ++ ([] : List (List WriteOp)).flatten) + others : Multiset WriteOp) = o ::ₘ others :=
  Multiset.singleton_add o others

/-- What an operation does. -/
theorem exec {s : Threads WriteServer WriteOp} {x : WriteOutcome} {e : Effect WriteServer WriteOp}
    (h : WriteInv s.shared (op ::ₘ others)) (he : writeExec op x s = some e) :
    WriteInv e.shared (↑(e.next ++ e.spawn.flatten) + others) := by
  cases op with
  | write message =>
    cases x with
    | order ks =>
      rw [writeExec, Option.ite_none_right_eq_some] at he
      obtain ⟨⟨hfree, hks⟩, ⟨⟩⟩ := he
      rw [next_one]
      exact h.write hfree hks
    | _ => cases he
  | writeAll message k sent rest stale =>
    dsimp only [writeExec] at he
    by_cases hsent : message.length ≤ sent
    · rw [if_pos hsent] at he
      cases he
      rw [next_one]
      exact h.done hsent
    · rw [if_neg hsent] at he
      cases x with
      | sent n =>
        obtain ⟨-, ⟨⟩⟩ := Option.ite_none_right_eq_some.mp he
        rw [next_one]
        exact h.send n
      | interrupted =>
        cases he
        rw [next_one]
        exact h
      | failed =>
        cases he
        rw [next_one]
        exact h.drop
      | _ => cases he
  | unlock stale =>
    cases he
    rw [List.flatten_nil, List.append_nil]
    exact h.unlock
  | accept =>
    have hidle := (next_one .accept others).symm ▸ h
    cases x with
    | accepted fd =>
      obtain ⟨hfd, ⟨⟩⟩ := Option.ite_none_right_eq_some.mp he
      rw [next_one]
      exact h.accept hfd
    | _ =>
      cases he
      exact hidle
  | register k =>
    rw [writeExec, Option.ite_none_left_eq_some] at he
    obtain ⟨hnot, ⟨⟩⟩ := he
    exact h.register (eq_false_of_ne_true fun hlocked => hnot (.inl hlocked))
  | leave k =>
    rw [writeExec] at he
    obtain ⟨hfree, he⟩ := Option.ite_none_left_eq_some.mp he
    have hleave := h.leave (eq_false_of_ne_true hfree)
    split at he
    -- `SendToAll` has dropped the client before
    case h_1 hnone =>
      cases he
      have hk : k ∉ s.shared.clients := by
        intro hk
        exact absurd (decide_eq_true rfl) (List.find?_eq_none.mp hnone k hk)
      rw [List.erase_of_not_mem hk] at hleave
      rw [next_one]
      exact hleave
    case h_2 c hfind =>
      obtain ⟨-, ⟨⟩⟩ := Option.ite_none_right_eq_some.mp he
      rw [next_one]
      exact hleave
  | close k =>
    cases he
    rw [List.flatten_nil, List.append_nil, Multiset.coe_nil, Multiset.zero_add]
    exact h.close
  -- none of the rest touches the entries or a number that names a client
  | shutdownStale k =>
    cases he
    exact h.quiet rfl nofun rfl rfl rfl rfl (fun _ _ => id) (fun _ _ => id) le_rfl (fun _ => id)
  | flush =>
    obtain ⟨-, ⟨⟩⟩ := Option.ite_none_left_eq_some.mp he
    exact h.quiet rfl (by simp [WriteOp.sweeping]) rfl rfl rfl rfl (fun _ _ => id) (fun _ _ => id)
      le_rfl (fun _ => id)
  | read k =>
    cases he
    split
    · exact h.quiet rfl (by simp [WriteOp.sweeping]) rfl rfl rfl rfl (fun _ _ => id)
        (fun _ _ => id) le_rfl (fun _ => id)
    · exact h.quiet rfl (by simp [WriteOp.sweeping]) rfl rfl rfl rfl (fun _ _ => id)
        (fun _ _ => id) le_rfl (fun _ => id)
  | clientRead conn n =>
    obtain ⟨-, ⟨⟩⟩ := Option.ite_none_right_eq_some.mp he
    exact h.quiet rfl nofun rfl rfl rfl rfl (fun _ _ hstreams => hstreams.clientRead conn n)
      (fun _ _ => id) (List.length_modify ..).ge (fun _ => id)
  | foreignOpen fd =>
    obtain ⟨hfd, ⟨⟩⟩ := Option.ite_none_right_eq_some.mp he
    refine h.quiet rfl nofun rfl rfl rfl rfl ?_ (fun j conn hj => ?_) le_rfl (fun _ => id)
    · exact fun _ _ hstreams =>
        ⟨hstreams.client, hstreams.gone, hstreams.fresh, hstreams.nodup, hstreams.pending⟩
    · show Function.update s.shared.table fd _ j = _
      rw [Function.update_of_ne, hj]
      rintro rfl
      rw [hj] at hfd
      cases hfd
  | foreignClose fd =>
    obtain ⟨hfd, ⟨⟩⟩ := Option.ite_none_right_eq_some.mp he
    refine h.quiet rfl nofun rfl rfl rfl rfl ?_ (fun j conn hj => ?_) le_rfl (fun _ => id)
    · exact fun _ _ hstreams =>
        ⟨hstreams.client, hstreams.gone, hstreams.fresh, hstreams.nodup, hstreams.pending⟩
    · show Function.update s.shared.table fd _ j = _
      rw [Function.update_of_ne, hj]
      rintro rfl
      rw [hj] at hfd
      cases hfd

/-- A call adds an operation that has nothing to do with the entries yet. -/
theorem call {flight : Multiset WriteOp} (h : WriteInv r flight)
    (hop : op.sweeping = false ∧ op.holds = none ∧ op.reads = none ∧ op.registers = none) :
    WriteInv r (flight + ↑[op]) := by
  obtain ⟨hsweeping, hholds, hreads, hregisters⟩ := hop
  obtain ⟨⟨turn, hturn, hstreams⟩, hheld⟩ := h
  rw [Multiset.coe_singleton, add_comm, Multiset.singleton_add]
  refine ⟨⟨turn, ⟨hturn.locked, ?_⟩, ?_⟩, ?_⟩
  · rw [Multiset.filter_cons_of_neg (p := fun op => op.sweeping = true) flight
      (ne_true_of_eq_false hsweeping)]
    exact hturn.sweeping
  · rw [Multiset.filterMap_cons_none _ _ hregisters]
    exact hstreams
  · rw [Multiset.filterMap_cons_none _ _ hholds, Multiset.filterMap_cons_none _ _ hreads]
    exact hheld

theorem entry {s : Threads WriteServer WriteOp} {k : WriteCall} {ops : List WriteOp}
    (h : WriteInv s.shared s.inFlight) (hops : writeCode.entry k s = some ops) :
    WriteInv s.shared (s.inFlight + ↑ops) := by
  cases k with
  | write message | clientRead conn n | foreignOpen fd | foreignClose fd =>
    cases hops
    exact h.call ⟨rfl, rfl, rfl, rfl⟩

theorem init : WriteInv writeCode.init.shared writeCode.init.inFlight where
  data := ⟨none, ⟨rfl, rfl⟩, ⟨nofun, nofun, nofun, Multiset.nodup_zero, nofun⟩⟩
  holders := ⟨nofun, Multiset.nodup_zero, nofun⟩

theorem neverTorn {flight : Multiset WriteOp} (h : WriteInv r flight) : NeverTorn r := by
  obtain ⟨turn, hturn, hstreams⟩ := h.data
  constructor
  · intro c hc
    obtain ⟨messages, hinfix, hsent⟩ := hstreams.inOrder hc
    exact ⟨messages, hinfix, (List.take_prefix _ _).trans hsent⟩
  · intro hfree c hc hcut
    obtain rfl := hturn.eq_none hfree
    obtain ⟨j, hj⟩ := List.mem_iff_getElem?.mp hc
    exact (hstreams.uncut hj).whole hcut

end WriteInv

/-! ### Clients that were dropped -/

/-- Connection `j` was cut after these bytes. -/
def CutAt (j : ℕ) (bytes : List UInt8) (r : WriteServer) : Prop :=
  ∃ c, r.streams[j]? = some c ∧ c.cut = true ∧ c.sent = bytes

namespace CutAt

variable {r : WriteServer} {j : ℕ} {bytes : List UInt8}

/-- A connection that is changed is cut no less and sent no more, unless it is the one of a
    client that is still served. -/
theorem modify (h : CutAt j bytes r) {conn : ℕ} {f : SocketStream → SocketStream}
    (hf : ∀ c, r.streams[conn]? = some c → c.cut = true → (f c).cut = true ∧ (f c).sent = c.sent) :
    CutAt j bytes { r with streams := r.streams.modify conn f } := by
  obtain ⟨c, hc, hcut, hsent⟩ := h
  by_cases hj : conn = j
  · subst hj
    refine ⟨f c, ?_, (hf c hc hcut).1, (hf c hc hcut).2.trans hsent⟩
    show (r.streams.modify conn f)[conn]? = some (f c)
    rw [List.getElem?_modify_eq, hc]
    rfl
  · refine ⟨c, ?_, hcut, hsent⟩
    show (r.streams.modify conn f)[j]? = some c
    rw [List.getElem?_modify_ne _ _ hj, hc]

/-- No operation sends anything more. -/
theorem exec (h : CutAt j bytes r) {op : WriteOp} {others : Multiset WriteOp} {x : WriteOutcome}
    {s : Threads WriteServer WriteOp} {e : Effect WriteServer WriteOp} (hr : s.shared = r)
    (hinv : WriteInv r (op ::ₘ others)) (he : writeExec op x s = some e) :
    CutAt j bytes e.shared := by
  subst hr
  cases op with
  | writeAll message k sent rest stale =>
    dsimp only [writeExec] at he
    by_cases hsent : message.length ≤ sent
    · rw [if_pos hsent] at he
      cases he
      exact h
    · rw [if_neg hsent] at he
      cases x with
      | sent n =>
        obtain ⟨-, ⟨⟩⟩ := Option.ite_none_right_eq_some.mp he
        obtain ⟨turn, hturn, hstreams⟩ := hinv.data
        obtain ⟨rfl, -⟩ := hturn.eq_some rfl
        have hk : k ∈ s.shared.clients := (hstreams.pending _ rfl).2 List.mem_cons_self
        show CutAt j bytes (s.shared.send k _)
        rw [WriteServer.send, hinv.table_eq hk]
        refine h.modify fun c hc hcut => ?_
        -- the client whose turn it is has not been cut
        obtain ⟨c', hc', hstep⟩ := hstreams.client k hk
        obtain rfl : c = c' := Option.some.inj (hc.symm.trans hc')
        exact absurd hcut (ne_true_of_eq_false hstep.live)
      | interrupted =>
        cases he
        exact h
      | failed =>
        cases he
        exact h.modify fun c _ _ => ⟨rfl, rfl⟩
      | _ => cases he
  | write message =>
    cases x with
    | order ks =>
      obtain ⟨-, ⟨⟩⟩ := Option.ite_none_right_eq_some.mp he
      exact h
    | _ => cases he
  | accept =>
    cases x with
    | accepted fd =>
      obtain ⟨-, ⟨⟩⟩ := Option.ite_none_right_eq_some.mp he
      obtain ⟨c, hc, hcut⟩ := h
      refine ⟨c, ?_, hcut⟩
      show (s.shared.streams ++ _)[j]? = some c
      rw [List.getElem?_append_left (List.getElem?_eq_some_iff.mp hc).1, hc]
    | _ =>
      cases he
      exact h
  | register k =>
    obtain ⟨-, ⟨⟩⟩ := Option.ite_none_left_eq_some.mp he
    exact h.modify fun c _ hcut => ⟨hcut, rfl⟩
  | clientRead conn n =>
    obtain ⟨-, ⟨⟩⟩ := Option.ite_none_right_eq_some.mp he
    exact h.modify fun c _ hcut => ⟨hcut, rfl⟩
  -- the rest leaves the connections alone
  | unlock stale | shutdownStale k | read k | close k =>
    cases he
    exact h
  | flush =>
    obtain ⟨-, ⟨⟩⟩ := Option.ite_none_left_eq_some.mp he
    exact h
  | leave k =>
    obtain ⟨-, he⟩ := Option.ite_none_left_eq_some.mp he
    split at he
    · cases he
      exact h
    · obtain ⟨-, ⟨⟩⟩ := Option.ite_none_right_eq_some.mp he
      exact h
  | foreignOpen fd | foreignClose fd =>
    obtain ⟨-, ⟨⟩⟩ := Option.ite_none_right_eq_some.mp he
    exact h

end CutAt

/-- **Socket writes are never torn.** In every interleaving of writers with clients that are
    accepted, read and leave, every client received a prefix of some successive messages, in the
    one order in which they were written, and whole messages unless a `send` to it failed; and a
    client to which a message could not be sent whole is sent nothing after it. -/
theorem sockets_never_torn (as : List (Label WriteOutcome WriteCall))
    (s : Threads WriteServer WriteOp) (hrun : writeCode.machine.run as = some s) :
    NeverTorn s.shared ∧ ∀ bs s', writeCode.machine.runFrom s bs = some s' →
      ∀ (j : ℕ) (c : SocketStream), s.shared.streams[j]? = some c → c.cut = true →
        ∃ c', s'.shared.streams[j]? = some c' ∧ c'.cut = true ∧ c'.sent = c.sent := by
  have hcall : ∀ s k ops, WriteInv s.shared s.inFlight → writeCode.entry k s = some ops →
      WriteInv s.shared (s.inFlight + ↑ops) := fun _ _ _ h hops => h.entry hops
  have hexec : ∀ s op others x e, s.inFlight = op ::ₘ others → WriteInv s.shared s.inFlight →
      writeCode.exec op x s = some e →
      WriteInv e.shared (↑e.next + others + ↑e.spawn.flatten) := by
    intro s op others x e hfl h he
    rw [Code.next_add_spawn]
    exact (hfl ▸ h).exec he
  have hinv := Code.interleavings hcall hexec WriteInv.init hrun
  refine ⟨hinv.neverTorn, fun bs s' hrun' j c hc hcut => ?_⟩
  refine (Code.interleavings_from (I := fun r flight => WriteInv r flight ∧ CutAt j c.sent r)
    ?_ ?_ ⟨hinv, c, hc, hcut, rfl⟩ hrun').2
  · exact fun s k ops h hops => ⟨hcall s k ops h.1 hops, h.2⟩
  · exact fun s op others x e hfl h he =>
      ⟨hexec s op others x e hfl h.1 he, h.2.exec rfl (hfl ▸ h.1) he⟩

/-- A client is sent the first message in two parts and half of the second one; the third one is
    written after it was dropped. -/
def cutInSecond : List (Label WriteOutcome WriteCall) :=
  [.run 0 (.accepted 5), .run 0 .done, .run 0 .done,
    .call (.write [1, 2, 3]), .run 2 (.order [⟨5, 0⟩]), .run 2 (.sent 2), .run 2 .interrupted,
    .run 2 (.sent 1), .run 2 .done, .run 2 .done,
    .call (.write [4, 5]), .run 3 (.order [⟨5, 0⟩]), .run 3 (.sent 1), .run 3 .failed,
    .run 3 .done, .run 3 .done,
    .call (.clientRead 0 2), .run 4 .done]

/-- What follows: the third message. -/
def writtenAfterCut : List (Label WriteOutcome WriteCall) :=
  [.call (.write [6]), .run 5 (.order []), .run 5 .done]

theorem sockets_never_torn_cutInSecond :
    ∃ s s', writeCode.machine.run cutInSecond = some s ∧
      s.shared.written = [[1, 2, 3], [4, 5]] ∧ s.shared.streams = [⟨[1, 2, 3, 4], 2, 0, true⟩] ∧
      NeverTorn s.shared ∧ writeCode.machine.runFrom s writtenAfterCut = some s' ∧
      s'.shared.written = [[1, 2, 3], [4, 5], [6]] ∧
      ∃ c, s'.shared.streams[0]? = some c ∧ c.cut = true ∧ c.sent = [1, 2, 3, 4] :=
  ⟨_, _, rfl, rfl, rfl, (sockets_never_torn cutInSecond _ rfl).1, rfl, rfl,
    (sockets_never_torn cutInSecond _ rfl).2 writtenAfterCut _ rfl 0 _ rfl rfl⟩

end PiWebrtc.Ipc
