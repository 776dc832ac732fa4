import PiWebrtc.Ipc.PublishLatest
import Mathlib.Algebra.Order.Group.Multiset

namespace PiWebrtc.Ipc

/-!
# The data of `PublishLatest`

A client's version says which message it was sent last: the client has received a subsequence of
the messages up to that one, the last one included (`ClientOk`).  Each of the steps that a flush,
a publication or a connection can make on the data keeps this of every client (`DataInv`).
-/

/-- What a client received: some of the messages, in their order and each of them whole, and
    all of them but the last one are read. -/
structure Received (published : List (List UInt8)) (k : Connection)
    (messages : List (List UInt8)) : Prop where
  subsequence : messages.Sublist published
  whole : k.sent = messages.flatten
  oneUnread : messages.dropLast.flatten.length ≤ k.read
  readable : k.read ≤ k.sent.length

/-- A client was sent a subsequence of the messages up to its version, the last one included. -/
def ClientOk (r : LatestServer) (c : LatestClient) : Prop :=
  c.sentVersion ≤ r.latestVersion ∧ ∃ k messages, r.connections[c.conn]? = some k ∧
    Received (r.published.take c.sentVersion) k messages ∧
    messages.getLast? = (r.published.take c.sentVersion).getLast?

/-- The next message may be sent to the client. -/
def Ready (r : LatestServer) (conn : ℕ) : Prop :=
  r.unread conn = 0 ∧ ∃ c ∈ r.clients, c.conn = conn ∧ c.sentVersion < r.latestVersion

/-- The data of the server; the connections in `reg` are going to be registered. -/
structure DataInv (r : LatestServer) (reg : Multiset ℕ) : Prop where
  version : r.latestVersion = r.published.length
  latest : ∀ message, r.published.getLast? = some message → message = r.latest
  ok : ∀ c ∈ r.clients, ClientOk r c
  fresh : ∀ conn ∈ reg, r.connections[conn]? = some {}
  nodup : (↑(r.clients.map LatestClient.conn) + reg).Nodup
  received : ∀ k ∈ r.connections, k.dropped = false → ∃ messages, Received r.published k messages

/-! ### Messages -/

namespace Received

variable {published : List (List UInt8)} {k : Connection} {messages : List (List UInt8)}

theorem new : Received published {} [] :=
  ⟨List.nil_sublist _, rfl, Nat.zero_le _, Nat.zero_le _⟩

theorem mono (h : Received published k messages) {published' : List (List UInt8)}
    (hsub : published.Sublist published') : Received published' k messages :=
  ⟨h.subsequence.trans hsub, h.whole, h.oneUnread, h.readable⟩

theorem read (h : Received published k messages) {n : ℕ} (hn : n ≤ k.sent.length - k.read) :
    Received published { k with read := k.read + n } messages := by
  have hreadable := h.readable
  refine ⟨h.subsequence, h.whole, Nat.le_add_right_of_le h.oneUnread, ?_⟩
  show k.read + n ≤ k.sent.length
  omega

/-- The latest message goes to a client that has read everything before. -/
theorem send {version : ℕ} {latest : List UInt8}
    (h : Received (published.take version) k messages) (hversion : version < published.length)
    (hlatest : published.getLast? = some latest) (hread : k.sent.length - k.read = 0) :
    Received published { k with sent := k.sent ++ latest } (messages ++ [latest]) := by
  obtain ⟨before, rfl⟩ := List.getLast?_eq_some_iff.mp hlatest
  rw [List.length_append, List.length_singleton] at hversion
  have hsub := h.subsequence
  rw [List.take_append_of_le_length (by omega)] at hsub
  have hreadable := h.readable
  refine ⟨(hsub.trans (List.take_sublist _ _)).append (List.Sublist.refl _), ?_, ?_, ?_⟩
  · show k.sent ++ latest = _
    rw [List.flatten_append, ← h.whole, List.flatten_singleton]
  · rw [List.dropLast_concat, ← h.whole]
    exact Nat.sub_eq_zero_iff_le.mp hread
  · show k.read ≤ (k.sent ++ latest).length
    rw [List.length_append]
    omega

end Received

/-! ### Data -/

theorem ClientOk.same {r r' : LatestServer} {c c' : LatestClient} (h : ClientOk r c)
    (hversion : r'.latestVersion = r.latestVersion) (hpublished : r'.published = r.published)
    (hconn : r'.connections[c.conn]? = r.connections[c.conn]?) (hc : c'.conn = c.conn)
    (hsent : c'.sentVersion = c.sentVersion) : ClientOk r' c' := by
  rw [ClientOk, hversion, hpublished, hc, hsent, hconn]
  exact h

namespace DataInv

variable {r r' : LatestServer} {reg : Multiset ℕ}

theorem lt_of_mem (h : DataInv r reg) {c : LatestClient} (hc : c ∈ r.clients) :
    c.conn < r.connections.length := by
  obtain ⟨-, k, -, hk, -⟩ := h.ok c hc
  exact (List.getElem?_eq_some_iff.mp hk).1

theorem lt_of_reg (h : DataInv r reg) {conn : ℕ} (hc : conn ∈ reg) :
    conn < r.connections.length :=
  (List.getElem?_eq_some_iff.mp (h.fresh conn hc)).1

/-- There is one entry for each connection. -/
theorem eq_of_conn (h : DataInv r reg) {c c' : LatestClient} (hc : c ∈ r.clients)
    (hc' : c' ∈ r.clients) (heq : c.conn = c'.conn) : c = c' :=
  List.inj_on_of_nodup_map (Multiset.coe_nodup.mp (Multiset.nodup_add.mp h.nodup).1) hc hc' heq

/-- A client is not going to be registered again. -/
theorem ne_of_reg (h : DataInv r reg) {c : LatestClient} (hc : c ∈ r.clients) {conn : ℕ}
    (hreg : conn ∈ reg) : c.conn ≠ conn := by
  rintro rfl
  exact Multiset.disjoint_left.mp (Multiset.nodup_add.mp h.nodup).2.2
    (Multiset.mem_coe.mpr (List.mem_map_of_mem hc)) hreg

/-- **Frame.** The entries change, but not what they say about the messages. -/
theorem mapClients (h : DataInv r reg) {f : LatestClient → LatestClient}
    (hf : ∀ c, (f c).conn = c.conn ∧ (f c).sentVersion = c.sentVersion) :
    DataInv { r with clients := r.clients.map f } reg where
  version := h.version
  latest := h.latest
  ok c hc := by
    obtain ⟨before, hbefore, rfl⟩ := List.mem_map.mp hc
    exact (h.ok before hbefore).same rfl rfl rfl (hf before).1 (hf before).2
  fresh := h.fresh
  nodup := by
    have hmap : (r.clients.map f).map LatestClient.conn = r.clients.map LatestClient.conn := by
      rw [List.map_map]
      exact List.map_congr_left fun c _ => (hf c).1
    show (↑((r.clients.map f).map LatestClient.conn) + reg).Nodup
    rw [hmap]
    exact h.nodup
  received := h.received

theorem flushed (h : DataInv r reg) (conn : ℕ) (result : FlushResult) (unread : ℕ) :
    DataInv (r.flushed conn result unread) reg := by
  refine h.mapClients fun c => ?_
  split
  · exact ⟨rfl, rfl⟩
  · exact ⟨rfl, rfl⟩

/-- Some clients are taken out. -/
theorem erase (h : DataInv r reg) (conn : ℕ) : DataInv (r.erase conn) reg where
  version := h.version
  latest := h.latest
  ok c hc := h.ok c (List.mem_filter.mp hc).1
  fresh := h.fresh
  nodup := by
    refine Multiset.nodup_of_le (Multiset.add_le_add_right (Multiset.coe_le.mpr ?_)) h.nodup
    exact (List.filter_sublist.map _).subperm
  received := h.received

/-- A message is published. -/
theorem publish (h : DataInv r reg) (message : List UInt8) :
    DataInv { r with
      latest := message
      latestVersion := r.latestVersion + 1
      published := r.published ++ [message] } reg where
  version := by
    show r.latestVersion + 1 = (r.published ++ [message]).length
    rw [List.length_append, List.length_singleton, h.version]
  latest m hm := by
    have hm' : (r.published ++ [message]).getLast? = some m := hm
    rw [List.getLast?_concat, Option.some.injEq] at hm'
    exact hm'.symm
  ok c hc := by
    obtain ⟨hle, k, messages, hk, hreceived, hlast⟩ := h.ok c hc
    -- what a client was last sent is among the messages published before this one
    have htake : (r.published ++ [message]).take c.sentVersion = r.published.take c.sentVersion :=
      List.take_append_of_le_length (h.version ▸ hle)
    refine ⟨Nat.le_succ_of_le hle, k, messages, hk, ?_, ?_⟩
    · show Received ((r.published ++ [message]).take c.sentVersion) k messages
      rw [htake]
      exact hreceived
    · show _ = ((r.published ++ [message]).take c.sentVersion).getLast?
      rw [htake]
      exact hlast
  fresh := h.fresh
  nodup := h.nodup
  received k hk hlive := by
    obtain ⟨messages, hreceived⟩ := h.received k hk hlive
    exact ⟨messages, hreceived.mono (List.sublist_append_left _ _)⟩

/-- A connection is accepted. -/
theorem accept (h : DataInv r reg) :
    DataInv { r with connections := r.connections ++ [{}] } (r.connections.length ::ₘ reg) where
  version := h.version
  latest := h.latest
  ok c hc :=
    (h.ok c hc).same rfl rfl (List.getElem?_append_left (h.lt_of_mem hc)) rfl rfl
  fresh conn hconn := by
    show (r.connections ++ [({} : Connection)])[conn]? = some {}
    rcases Multiset.mem_cons.mp hconn with rfl | hconn
    · exact List.getElem?_concat_length
    · rw [List.getElem?_append_left (h.lt_of_reg hconn)]
      exact h.fresh conn hconn
  nodup := by
    rw [Multiset.add_cons, Multiset.nodup_cons]
    -- the new connection is numbered past every entry and every one to be registered
    refine ⟨fun hmem => ?_, h.nodup⟩
    rcases Multiset.mem_add.mp hmem with hmem | hmem
    · obtain ⟨c, hc, heq⟩ := List.mem_map.mp (Multiset.mem_coe.mp hmem)
      exact absurd (h.lt_of_mem hc) (by omega)
    · exact absurd (h.lt_of_reg hmem) (lt_irrefl _)
  received k hk hlive := by
    rcases List.mem_append.mp hk with hk | hk
    · exact h.received k hk hlive
    · rw [List.mem_singleton.mp hk]
      exact ⟨[], Received.new⟩

/-- The connection gets an entry. -/
theorem register {conn : ℕ} (h : DataInv r (conn ::ₘ reg)) :
    DataInv { r with clients := r.clients ++ [{ conn := conn }] } reg where
  version := h.version
  latest := h.latest
  ok c hc := by
    rcases List.mem_append.mp hc with hc | hc
    · exact h.ok c hc
    · rw [List.mem_singleton.mp hc]
      exact ⟨Nat.zero_le _, {}, [], h.fresh conn (Multiset.mem_cons_self _ _), Received.new, rfl⟩
  fresh j hj := h.fresh j (Multiset.mem_cons_of_mem hj)
  nodup := by
    show (↑((r.clients ++ [({ conn := conn } : LatestClient)]).map LatestClient.conn) + reg).Nodup
    have hnodup := h.nodup
    rw [Multiset.add_cons, ← Multiset.cons_add] at hnodup
    rw [List.map_append, ← Multiset.coe_add, List.map_singleton, Multiset.coe_singleton,
      add_comm (Multiset.ofList _), Multiset.singleton_add]
    exact hnodup
  received := h.received

/-! ### Connections -/

/-- **Frame.** A connection changes, with its entry, if it has one. -/
theorem modifyConnection (h : DataInv r reg) {conn : ℕ} {f : Connection → Connection}
    (hreg : conn ∈ reg → f {} = {}) (hsame : r'.latestVersion = r.latestVersion ∧
      r'.published = r.published ∧ r'.latest = r.latest ∧
      r'.connections = r.connections.modify conn f)
    (hconns : (↑(r'.clients.map LatestClient.conn) : Multiset ℕ) ≤
      ↑(r.clients.map LatestClient.conn))
    (hothers : ∀ c ∈ r'.clients, c.conn ≠ conn →
      ∃ before ∈ r.clients, c.conn = before.conn ∧ c.sentVersion = before.sentVersion)
    (hself : ∀ c ∈ r'.clients, c.conn = conn → ClientOk r' c)
    (hlive : ∀ k, r.connections[conn]? = some k → (f k).dropped = false →
      ∃ messages, Received r.published (f k) messages) : DataInv r' reg := by
  obtain ⟨hversion, hpublished, hlatest, hconnections⟩ := hsame
  -- only the place `conn` of the list of connections changes
  have hget : ∀ j, conn ≠ j → r'.connections[j]? = r.connections[j]? := by
    intro j hj
    rw [hconnections, List.getElem?_modify_ne f _ hj]
  have hself' : r'.connections[conn]? = (r.connections[conn]?).map f := by
    rw [hconnections, List.getElem?_modify_eq, Option.map_eq_map]
  constructor
  · rw [hversion, hpublished]
    exact h.version
  · rw [hpublished, hlatest]
    exact h.latest
  · intro c hc
    by_cases hconn : c.conn = conn
    · exact hself c hc hconn
    · obtain ⟨before, hbefore, heq, hsent⟩ := hothers c hc hconn
      exact (h.ok before hbefore).same hversion hpublished
        (hget _ fun hj => hconn (heq.trans hj.symm)) heq hsent
  · intro j hj
    by_cases hconn : conn = j
    · subst hconn
      rw [hself', h.fresh conn hj, Option.map_some, hreg hj]
    · rw [hget j hconn]
      exact h.fresh j hj
  · exact Multiset.nodup_of_le (Multiset.add_le_add_right hconns) h.nodup
  · intro k hk hdropped
    rw [hpublished]
    obtain ⟨j, hj⟩ := List.mem_iff_getElem?.mp hk
    by_cases hconn : conn = j
    · rw [← hconn, hself', Option.map_eq_some_iff] at hj
      obtain ⟨before, hbefore, rfl⟩ := hj
      exact hlive before hbefore hdropped
    · rw [hget j hconn] at hj
      exact h.received k (List.mem_of_getElem? hj) hdropped

/-- A client is dropped, whatever it was sent before. -/
theorem drop (h : DataInv r reg) {c : LatestClient} (hc : c ∈ r.clients)
    (f : Connection → Connection) (hf : ∀ k, (f k).dropped = true)
    (hsame : r'.latestVersion = r.latestVersion ∧ r'.published = r.published ∧
      r'.latest = r.latest ∧ r'.connections = r.connections.modify c.conn f)
    (hclients : r'.clients = (r.erase c.conn).clients) : DataInv r' reg := by
  have hmem : ∀ c' ∈ r'.clients, c' ∈ r.clients ∧ c'.conn ≠ c.conn := by
    intro c' hc'
    rw [hclients] at hc'
    obtain ⟨hc', hne⟩ := List.mem_filter.mp hc'
    exact ⟨hc', of_decide_eq_true hne⟩
  refine h.modifyConnection (fun hreg => absurd rfl (h.ne_of_reg hc hreg)) hsame ?_ ?_ ?_ ?_
  · rw [hclients]
    exact Multiset.coe_le.mpr (List.filter_sublist.map _).subperm
  · intro c' hc' _
    exact ⟨c', (hmem c' hc').1, rfl, rfl⟩
  · intro c' hc' heq
    exact absurd heq (hmem c' hc').2
  · intro k _ hlive
    rw [hf k] at hlive
    cases hlive

theorem map_conn_setSent (r : LatestServer) (conn : ℕ) :
    (r.setSent conn).clients.map LatestClient.conn = r.clients.map LatestClient.conn := by
  rw [LatestServer.setSent, List.map_map]
  refine List.map_congr_left fun c _ => ?_
  show LatestClient.conn (if _ then _ else _) = _
  split
  · rfl
  · rfl

/-- What is unread on the connection of a client. -/
theorem unread_eq {conn : ℕ} {k : Connection} (hk : r.connections[conn]? = some k) :
    r.unread conn = k.sent.length - k.read := by
  rw [LatestServer.unread, hk]

/-- The client is sent the whole message. -/
theorem send (h : DataInv r reg) {conn : ℕ} (hready : Ready r conn) :
    DataInv (((r.write conn r.latest.length).setSent conn).flushed conn .sent (r.unread conn))
      reg := by
  obtain ⟨hunread, c, hc, rfl, hlt⟩ := hready
  obtain ⟨-, k, messages, hk, hreceived, -⟩ := h.ok c hc
  -- the client is behind, so something was published, and `latest` is the last of it
  have hlatest : r.published.getLast? = some r.latest := by
    cases hlast : r.published.getLast? with
    | none =>
      rw [h.version, List.getLast?_eq_none_iff.mp hlast] at hlt
      exact absurd hlt (Nat.not_lt_zero _)
    | some message => rw [h.latest message hlast]
  have hsent : Received r.published { k with sent := k.sent ++ r.latest.take r.latest.length }
      (messages ++ [r.latest]) := by
    rw [List.take_length]
    exact hreceived.send (h.version ▸ hlt) hlatest (unread_eq hk ▸ hunread)
  refine DataInv.flushed ?_ _ _ _
  refine h.modifyConnection (fun hreg => absurd rfl (h.ne_of_reg hc hreg))
    ⟨rfl, rfl, rfl, rfl⟩ ?_ ?_ ?_ ?_
  · show (↑((r.setSent c.conn).clients.map LatestClient.conn) : Multiset ℕ) ≤ _
    rw [map_conn_setSent]
  · intro c' hc' hne
    obtain ⟨before, hbefore, rfl⟩ := List.mem_map.mp hc'
    split at hne
    case isTrue heq => exact absurd heq hne
    case isFalse heq => exact ⟨before, hbefore, by rw [if_neg heq], by rw [if_neg heq]⟩
  · intro c' hc' heq
    obtain ⟨before, hbefore, rfl⟩ := List.mem_map.mp hc'
    have hconn : before.conn = c.conn := by
      split at heq
      case isTrue hconn => exact hconn
      case isFalse => exact heq
    have hget : ((r.write c.conn r.latest.length).setSent c.conn).connections[c.conn]? =
        some { k with sent := k.sent ++ r.latest.take r.latest.length } := by
      show (r.connections.modify c.conn _)[c.conn]? = _
      rw [List.getElem?_modify_eq, hk]
      rfl
    rw [if_pos hconn]
    refine ⟨le_rfl, { k with sent := k.sent ++ r.latest.take r.latest.length },
      messages ++ [r.latest], ?_, ?_, ?_⟩
    · show ((r.write c.conn r.latest.length).setSent c.conn).connections[before.conn]? = _
      rw [hconn]
      exact hget
    · show Received (r.published.take r.latestVersion) _ _
      rw [h.version, List.take_length]
      exact hsent
    · show _ = (r.published.take r.latestVersion).getLast?
      rw [h.version, List.take_length, List.getLast?_concat, hlatest]
  · intro k' hk' _
    obtain rfl : k = k' := Option.some.inj (hk.symm.trans hk')
    exact ⟨_, hsent⟩

/-- A client reads. -/
theorem clientRead (h : DataInv r reg) {conn n : ℕ} (hn : n ≤ r.unread conn) :
    DataInv { r with connections := r.connections.modify conn fun k =>
      { k with read := k.read + n } } reg := by
  -- the client reads no more than is there
  have hle : ∀ k, r.connections[conn]? = some k → n ≤ k.sent.length - k.read := by
    intro k hk
    exact unread_eq hk ▸ hn
  refine h.modifyConnection (fun hreg => ?_) ⟨rfl, rfl, rfl, rfl⟩ le_rfl ?_ ?_ ?_
  · obtain rfl : n = 0 := Nat.le_zero.mp (hle _ (h.fresh conn hreg))
    rfl
  · exact fun c hc _ => ⟨c, hc, rfl, rfl⟩
  · rintro c hc rfl
    obtain ⟨hversion, k, messages, hk, hreceived, hlast⟩ := h.ok c hc
    refine ⟨hversion, _, messages, ?_, hreceived.read (hle k hk), hlast⟩
    rw [List.getElem?_modify_eq, hk]
    rfl
  · intro k hk hlive
    obtain ⟨messages, hreceived⟩ := h.received k (List.mem_of_getElem? hk) hlive
    exact ⟨messages, hreceived.read (hle k hk)⟩

end DataInv

end PiWebrtc.Ipc
