import PiWebrtc.Ipc.LatestData

namespace PiWebrtc.Ipc

open Transition

/-!
# What the clients of `PublishLatest` receive

A client is sent the next message only when nothing of the last one is unread, so it never has
more than one of them unread.  A client that is not up to date has either been passed over by its
last flush, or a flush is still going to reach it (`Settled`): every publication and every
registration is followed by a flush.  `latest_kept` puts the two together for every interleaving.
-/

/-- A flush is in progress, or about to begin. -/
def LatestOp.flushing : LatestOp → Bool
  | .flush | .checkUnread _ _ _ | .send _ _ _ => true
  | _ => false

/-- What is asked for: every client that was not dropped received a subsequence of the messages,
    with at most one of them unread; when no flush is going on, a client that was not passed over at
    its last flush and whose send did not block then got the last one published; and it is only
    passed over if it has something unread. -/
structure LatestKept (s : Threads LatestServer LatestOp) : Prop where
  received : ∀ k ∈ s.shared.connections, k.dropped = false →
    ∃ messages, Received s.shared.published k messages
  latest : (∀ op ∈ s.inFlight, op.flushing = false) → ∀ c ∈ s.shared.clients,
    c.lastFlush ≠ some .unread → c.lastFlush ≠ some .blocked →
    ∃ k messages, s.shared.connections[c.conn]? = some k ∧
      Received s.shared.published k messages ∧
      messages.getLast? = s.shared.published.getLast?
  passedOver : ∀ c ∈ s.shared.clients, c.lastFlush = some .unread → 0 < c.unreadThen

/-! ### The invariant -/

/-- The connection that an operation is going to register. -/
def LatestOp.registers : LatestOp → Option ℕ
  | .register conn => some conn
  | _ => none

/-- The operations of a flush that has `mutex_`. -/
def LatestOp.sweeping : LatestOp → Bool
  | .checkUnread _ _ _ | .send _ _ _ | .unlock _ => true
  | _ => false

/-- A flush is going to get to the client. -/
def LatestOp.reaches (conn : ℕ) : LatestOp → Prop
  | .flush => True
  | .checkUnread c rest _ | .send c rest _ => conn = c ∨ conn ∈ rest
  | _ => False

theorem flushing_of_reaches {op : LatestOp} {conn : ℕ} (h : op.reaches conn) :
    op.flushing = true := by
  cases op with
  | flush | checkUnread _ _ _ | send _ _ _ => rfl
  | _ => cases h

/-- The client is up to date, was passed over by its last flush, or will be flushed again. -/
def Settled (r : LatestServer) (flight : Multiset LatestOp) (c : LatestClient) : Prop :=
  c.sentVersion = r.latestVersion ∨ c.lastFlush = some .unread ∨ c.lastFlush = some .blocked ∨
    ∃ op ∈ flight, op.reaches c.conn

/-- **The invariant.** -/
structure LatestInv (r : LatestServer) (flight : Multiset LatestOp) : Prop where
  data : DataInv r (flight.filterMap LatestOp.registers)
  lock : flight.countP (fun op => op.sweeping = true) = if r.locked then 1 else 0
  ready : ∀ conn rest stale, .send conn rest stale ∈ flight → Ready r conn
  settled : ∀ c ∈ r.clients, Settled r flight c

/-! ### Settled clients -/

theorem Settled.mono {r r' : LatestServer} {flight flight' : Multiset LatestOp} {c : LatestClient}
    (h : Settled r flight c) (hversion : r'.latestVersion = r.latestVersion)
    (hreach : ∀ op ∈ flight, op.reaches c.conn → ∃ op ∈ flight', op.reaches c.conn) :
    Settled r' flight' c := by
  rcases h with hsent | hunread | hblocked | ⟨op, hop, hreaches⟩
  · exact .inl (hsent.trans hversion.symm)
  · exact .inr (.inl hunread)
  · exact .inr (.inr (.inl hblocked))
  · exact .inr (.inr (.inr (hreach op hop hreaches)))

/-- An operation is carried out: if it reached the client, one that follows it does. -/
theorem Settled.next {r r' : LatestServer} {op : LatestOp} {new others : Multiset LatestOp}
    {c : LatestClient} (h : Settled r (op ::ₘ others) c)
    (hversion : r'.latestVersion = r.latestVersion)
    (hop : op.reaches c.conn → ∃ o ∈ new, o.reaches c.conn) : Settled r' (new + others) c := by
  refine h.mono hversion fun o ho hreach => ?_
  rcases Multiset.mem_cons.mp ho with rfl | ho
  · obtain ⟨o, ho, hreach⟩ := hop hreach
    exact ⟨o, Multiset.mem_add.mpr (.inl ho), hreach⟩
  · exact ⟨o, Multiset.mem_add.mpr (.inr ho), hreach⟩

/-- A flush that is about to begin reaches everybody. -/
theorem settled_of_flush {r : LatestServer} {new : List LatestOp} {others : Multiset LatestOp}
    (hnew : .flush ∈ new) (c : LatestClient) : Settled r (↑new + others) c :=
  .inr (.inr (.inr ⟨.flush, Multiset.mem_add.mpr (.inl (Multiset.mem_coe.mpr hnew)), trivial⟩))

/-! ### Flushes -/

namespace LatestInv

variable {r r' : LatestServer} {op o : LatestOp} {others : Multiset LatestOp}

/-- While no flush has `mutex_`, no operation of one is in flight. -/
theorem idle (h : LatestInv r (op ::ₘ others)) (hop : op.sweeping = false)
    (hunlocked : r.locked = false) : others.countP (fun o => o.sweeping = true) = 0 := by
  have hlock := h.lock
  rw [Multiset.countP_cons_of_neg (p := fun o => o.sweeping = true) others
    (ne_true_of_eq_false hop), hunlocked] at hlock
  exact hlock

/-- Only one flush has `mutex_`. -/
theorem alone (h : LatestInv r (op ::ₘ others)) (hop : op.sweeping = true) :
    r.locked = true ∧ others.countP (fun o => o.sweeping = true) = 0 := by
  have hlock := h.lock
  split at hlock
  case isTrue hlocked => exact ⟨hlocked, Code.countP_others hlock.le hop⟩
  case isFalse =>
    exact absurd hop (Multiset.countP_eq_zero.mp hlock op (Multiset.mem_cons_self op others))

theorem not_send (hidle : others.countP (fun o => o.sweeping = true) = 0) {conn : ℕ}
    {rest stale : List ℕ} : .send conn rest stale ∉ others :=
  fun hmem => Multiset.countP_eq_zero.mp hidle _ hmem rfl

/-- A flush goes on. -/
theorem sweep (hidle : others.countP (fun o => o.sweeping = true) = 0)
    (hdata : DataInv r' (others.filterMap LatestOp.registers)) (hlocked : r'.locked = true)
    (ho : o.sweeping = true)
    (hready : ∀ conn rest stale, o = .send conn rest stale → Ready r' conn)
    (hsettled : ∀ c ∈ r'.clients, Settled r' (o ::ₘ others) c) : LatestInv r' (o ::ₘ others) where
  data := by
    have hnone : o.registers = none := by
      cases o with
      | register conn => cases ho
      | _ => rfl
    rw [Multiset.filterMap_cons_none _ _ hnone]
    exact hdata
  lock := by
    rw [Multiset.countP_cons_of_pos (p := fun o => o.sweeping = true) others ho, hidle, hlocked]
    rfl
  ready conn rest stale hmem := by
    rcases Multiset.mem_cons.mp hmem with heq | hmem
    · exact hready conn rest stale heq.symm
    · exact absurd hmem (not_send hidle)
  settled := hsettled

theorem nextClient_sweeping (rest stale : List ℕ) : (nextClient rest stale).sweeping = true := by
  cases rest with
  | nil => rfl
  | cons conn rest => rfl

theorem nextClient_ne_send (rest stale : List ℕ) {conn : ℕ} {rest' stale' : List ℕ} :
    nextClient rest stale ≠ .send conn rest' stale' := by
  cases rest with
  | nil => exact nofun
  | cons conn rest => exact nofun

theorem nextClient_reaches {rest : List ℕ} (stale : List ℕ) {conn : ℕ} (h : conn ∈ rest) :
    (nextClient rest stale).reaches conn := by
  cases rest with
  | nil => cases h
  | cons c rest => exact List.mem_cons.mp h

/-- The flush goes on with the next client, once something has come of it for this one. -/
theorem sweepNext {conn : ℕ} {rest : List ℕ} (stale : List ℕ) (h : LatestInv r (op ::ₘ others))
    (hop : op.sweeping = true)
    (hreaches : ∀ j, op.reaches j → j = conn ∨ j ∈ rest)
    (hdata : DataInv r' (others.filterMap LatestOp.registers)) (hlocked : r'.locked = r.locked)
    (hversion : r'.latestVersion = r.latestVersion)
    (hself : ∀ c ∈ r'.clients, c.conn = conn →
      c.sentVersion = r.latestVersion ∨ c.lastFlush = some .unread ∨ c.lastFlush = some .blocked)
    (hothers : ∀ c ∈ r'.clients, c.conn ≠ conn → c ∈ r.clients) :
    LatestInv r' (nextClient rest stale ::ₘ others) := by
  obtain ⟨hheld, hidle⟩ := h.alone hop
  refine sweep hidle hdata (hlocked.trans hheld) (nextClient_sweeping rest stale)
    (fun _ _ _ heq => absurd heq (nextClient_ne_send rest stale)) fun c hc => ?_
  by_cases hconn : c.conn = conn
  · rcases hself c hc hconn with hsent | hunread | hblocked
    · exact .inl (hsent.trans hversion.symm)
    · exact .inr (.inl hunread)
    · exact .inr (.inr (.inl hblocked))
  · rw [← Multiset.singleton_add]
    refine (h.settled c (hothers c hc hconn)).next hversion fun hreach => ?_
    have hrest : c.conn ∈ rest := (hreaches c.conn hreach).resolve_left hconn
    exact ⟨_, Multiset.mem_singleton_self _, nextClient_reaches stale hrest⟩

/-! ### One operation -/

/-- **Frame.** An operation that is not one of a flush with `mutex_`. -/
theorem still {new : List LatestOp} (h : LatestInv r (op ::ₘ others)) (hop : op.sweeping = false)
    (hnew : ∀ o ∈ new, o.sweeping = false)
    (hdata : DataInv r' ((↑new + others).filterMap LatestOp.registers))
    (hlocked : r'.locked = r.locked)
    (hready : r.locked = true → ∀ conn, Ready r conn → Ready r' conn)
    (hsettled : ∀ c ∈ r'.clients, Settled r' (↑new + others) c) :
    LatestInv r' (↑new + others) where
  data := hdata
  lock := by
    have hzero : (↑new : Multiset LatestOp).countP (fun o => o.sweeping = true) = 0 :=
      Multiset.countP_eq_zero.mpr fun o ho => ne_true_of_eq_false (hnew o (Multiset.mem_coe.mp ho))
    have hlock := h.lock
    rw [Multiset.countP_cons_of_neg (p := fun o => o.sweeping = true) others
      (ne_true_of_eq_false hop)] at hlock
    rw [Multiset.countP_add, hzero, hlocked, Nat.zero_add]
    exact hlock
  ready conn rest stale hmem := by
    rcases Multiset.mem_add.mp hmem with hmem | hmem
    · exact absurd (hnew _ (Multiset.mem_coe.mp hmem)) nofun
    · cases hheld : r.locked with
      | true => exact hready hheld conn (h.ready conn rest stale (Multiset.mem_cons_of_mem hmem))
      | false => exact absurd hmem (not_send (h.idle hop hheld))
  settled := hsettled

theorem registers_add {new : List LatestOp} (hnew : ∀ o ∈ new, o.registers = none) :
    (↑new + others).filterMap LatestOp.registers = others.filterMap LatestOp.registers := by
  have hnone : new.filterMap LatestOp.registers = [] := List.filterMap_eq_nil_iff.mpr hnew
  rw [Multiset.filterMap_add, Multiset.filterMap_coe, hnone, Multiset.coe_nil, Multiset.zero_add]

/-- **Frame.** The same, when no operation that follows is going to register a connection. -/
theorem quiet {new : List LatestOp} (h : LatestInv r (op ::ₘ others)) (hop : op.sweeping = false)
    (hnew : ∀ o ∈ new, o.sweeping = false ∧ o.registers = none)
    (hdata : DataInv r' (others.filterMap LatestOp.registers)) (hlocked : r'.locked = r.locked)
    (hready : r.locked = true → ∀ conn, Ready r conn → Ready r' conn)
    (hsettled : ∀ c ∈ r'.clients, Settled r' (↑new + others) c) :
    LatestInv r' (↑new + others) := by
  refine h.still hop (fun o ho => (hnew o ho).1) ?_ hlocked hready hsettled
  rw [registers_add fun o ho => (hnew o ho).2]
  exact hdata

/-- An operation that reaches no client leaves the clients settled. -/
theorem settled_of_same {new : Multiset LatestOp} {c : LatestClient}
    (h : LatestInv r (op ::ₘ others)) (hop : ∀ conn, ¬ op.reaches conn) (hc : c ∈ r.clients)
    (hversion : r'.latestVersion = r.latestVersion) : Settled r' (new + others) c :=
  (h.settled c hc).next hversion fun hreach => absurd hreach (hop c.conn)

/-- An entry after something came of the flush for `conn`. -/
theorem mem_flushed {conn unread : ℕ} {result : FlushResult} {c : LatestClient}
    (hc : c ∈ (r.flushed conn result unread).clients) :
    (∃ before ∈ r.clients, before.conn = conn ∧
        c = { before with lastFlush := some result, unreadThen := unread }) ∨
      c.conn ≠ conn ∧ c ∈ r.clients := by
  obtain ⟨before, hbefore, rfl⟩ := List.mem_map.mp hc
  by_cases hconn : before.conn = conn
  · rw [if_pos hconn]
    exact .inl ⟨before, hbefore, hconn, rfl⟩
  · rw [if_neg hconn]
    exact .inr ⟨hconn, hbefore⟩

section Client

variable {conn : ℕ} {rest stale : List ℕ}

/-- Nothing was sent to the client, and it keeps its place. -/
theorem flushed {result : FlushResult} {unread : ℕ} (h : LatestInv r (op ::ₘ others))
    (hop : op.sweeping = true) (hregisters : op.registers = none)
    (hreaches : ∀ j, op.reaches j → j = conn ∨ j ∈ rest)
    (hresult : result = .unread ∨ result = .blocked ∨
      ∀ c ∈ r.clients, c.conn = conn → c.sentVersion = r.latestVersion) :
    LatestInv (r.flushed conn result unread) (nextClient rest stale ::ₘ others) := by
  have hdata := h.data
  rw [Multiset.filterMap_cons_none _ _ hregisters] at hdata
  refine h.sweepNext stale hop hreaches (hdata.flushed conn result unread) rfl rfl ?_ ?_
  · intro c hc heq
    rcases mem_flushed hc with ⟨before, hbefore, hconn, rfl⟩ | ⟨hne, -⟩
    · rcases hresult with rfl | rfl | hsent
      · exact .inr (.inl rfl)
      · exact .inr (.inr rfl)
      · exact .inl (hsent before hbefore hconn)
    · exact absurd heq hne
  · intro c hc hne
    rcases mem_flushed hc with ⟨before, -, hconn, rfl⟩ | ⟨-, hmem⟩
    · exact absurd hconn hne
    · exact hmem

/-- The client is dropped, whatever it was sent before. -/
theorem dropped (stale : List ℕ) (h : LatestInv r (op ::ₘ others)) (hop : op.sweeping = true)
    (hregisters : op.registers = none) (hreaches : ∀ j, op.reaches j → j = conn ∨ j ∈ rest)
    (hclient : ∃ c ∈ r.clients, c.conn = conn) (f : Connection → Connection) :
    LatestInv ({ r with connections := r.connections.modify conn f }.drop conn)
      (nextClient rest stale ::ₘ others) := by
  obtain ⟨c, hc, rfl⟩ := hclient
  have hdata := h.data
  rw [Multiset.filterMap_cons_none _ _ hregisters] at hdata
  refine h.sweepNext stale hop hreaches ?_ rfl rfl ?_ ?_
  · refine hdata.drop hc ((fun k => { k with dropped := true }) ∘ f) (fun k => rfl)
      ⟨rfl, rfl, rfl, ?_⟩ rfl
    exact List.modify_modify_eq _ _ _ _
  · intro c' hc' heq
    exact absurd heq (of_decide_eq_true (List.mem_filter.mp hc').2)
  · exact fun c' hc' _ => (List.mem_filter.mp hc').1

/-- The client is sent the message. -/
theorem sent (h : LatestInv r (.send conn rest stale ::ₘ others)) :
    LatestInv (((r.write conn r.latest.length).setSent conn).flushed conn .sent (r.unread conn))
      (nextClient rest stale ::ₘ others) := by
  have hdata := h.data
  rw [Multiset.filterMap_cons_none _ _ rfl] at hdata
  have hready := h.ready conn rest stale (Multiset.mem_cons_self _ _)
  have hmem : ∀ c ∈ (((r.write conn r.latest.length).setSent conn).flushed conn .sent
      (r.unread conn)).clients,
      c.conn = conn ∧ c.sentVersion = r.latestVersion ∨ c.conn ≠ conn ∧ c ∈ r.clients := by
    intro c hc
    rcases mem_flushed hc with ⟨before, hbefore, hconn, rfl⟩ | ⟨hne, hmem⟩
    · obtain ⟨first, -, rfl⟩ := List.mem_map.mp hbefore
      refine .inl ⟨hconn, ?_⟩
      split at hconn
      case isTrue heq => rw [if_pos heq]; rfl
      case isFalse heq => exact absurd hconn heq
    · obtain ⟨first, hfirst, rfl⟩ := List.mem_map.mp hmem
      split at hne
      case isTrue heq => exact absurd heq hne
      case isFalse heq =>
        rw [if_neg heq]
        exact .inr ⟨heq, hfirst⟩
  refine h.sweepNext stale rfl (fun j hj => hj) (hdata.send hready) rfl rfl ?_ ?_
  · intro c hc heq
    rcases hmem c hc with ⟨-, hsent⟩ | ⟨hne, -⟩
    · exact .inl hsent
    · exact absurd heq hne
  · intro c hc hne
    rcases hmem c hc with ⟨heq, -⟩ | ⟨-, hmem⟩
    · exact absurd heq hne
    · exact hmem

end Client

section Operation

variable {s : Threads LatestServer LatestOp} {x : LatestOutcome}
  {e : Effect LatestServer LatestOp} {conn : ℕ} {rest stale : List ℕ}

/-- The check for one client. -/
theorem checkUnread (h : LatestInv s.shared (.checkUnread conn rest stale ::ₘ others))
    (he : latestExec (.checkUnread conn rest stale) x s = some e) :
    ∃ o, e.next = [o] ∧ e.spawn = [] ∧ LatestInv e.shared (o ::ₘ others) := by
  have hdata := h.data
  rw [Multiset.filterMap_cons_none _ _ rfl] at hdata
  simp only [latestExec] at he
  split at he
  -- the client has left since the flush began: the next one
  case h_1 hnone =>
    obtain rfl := Option.some.inj he
    have hother : ∀ c ∈ s.shared.clients, c.conn ≠ conn := by
      intro c hc heq
      exact absurd (decide_eq_true heq) (List.find?_eq_none.mp hnone c hc)
    refine ⟨_, rfl, rfl, h.sweepNext stale rfl (fun j hj => hj) hdata rfl rfl ?_ ?_⟩
    · exact fun c hc heq => absurd heq (hother c hc)
    · exact fun c hc _ => hc
  case h_2 c hfind =>
    have hc : c ∈ s.shared.clients := List.mem_of_find?_eq_some hfind
    have hconn : c.conn = conn :=
      of_decide_eq_true
        (List.find?_some (p := fun c : LatestClient => decide (c.conn = conn)) hfind)
    split at he
    -- nothing was published, or the client is up to date
    case isTrue hdone =>
      obtain rfl := Option.some.inj he
      refine ⟨_, rfl, rfl, h.flushed rfl rfl (fun j hj => hj) (.inr (.inr fun c' hc' heq => ?_))⟩
      rw [hdata.eq_of_conn hc' hc (heq.trans hconn.symm)]
      rcases hdone with hzero | hsent
      · have hle := (hdata.ok c hc).1
        omega
      · exact hsent
    case isFalse hbehind =>
      split at he
      · obtain rfl := Option.some.inj he
        refine ⟨_, rfl, rfl, ?_⟩
        -- the check fails
        have hdropped := h.dropped (stale ++ [conn]) rfl rfl (fun j hj => hj) ⟨c, hc, hconn⟩ id
        rw [List.modify_id] at hdropped
        exact hdropped
      split at he
      · obtain rfl := Option.some.inj he
        -- something is unread, and the client is passed over
        exact ⟨_, rfl, rfl, h.flushed rfl rfl (fun j hj => hj) (.inl rfl)⟩
      case isFalse hread =>
        obtain rfl := Option.some.inj he
        -- all was read: the send follows, and `mutex_` keeps it ready until then
        obtain ⟨hheld, hidle⟩ := h.alone rfl
        refine ⟨_, rfl, rfl, sweep hidle hdata hheld rfl ?_ ?_⟩
        · rintro _ _ _ ⟨⟩
          have hle := (hdata.ok c hc).1
          exact ⟨Nat.eq_zero_of_not_pos hread, c, hc, hconn,
            lt_of_le_of_ne hle fun heq => hbehind (.inr heq)⟩
        · intro c' hc'
          rw [← Multiset.singleton_add]
          exact (h.settled c' hc').next rfl fun hreach =>
            ⟨_, Multiset.mem_singleton_self _, hreach⟩

/-- The send to one client. -/
theorem send (h : LatestInv s.shared (.send conn rest stale ::ₘ others))
    (he : latestExec (.send conn rest stale) x s = some e) :
    ∃ o, e.next = [o] ∧ e.spawn = [] ∧ LatestInv e.shared (o ::ₘ others) := by
  obtain ⟨-, c, hc, hconn, -⟩ := h.ready conn rest stale (Multiset.mem_cons_self _ _)
  have hdropped := h.dropped (stale ++ [conn]) rfl rfl (fun j hj => hj) ⟨c, hc, hconn⟩
  have hfailed := hdropped id
  rw [List.modify_id] at hfailed
  cases x with
  | sent n =>
    simp only [latestExec] at he
    split at he
    case isTrue => cases he
    case isFalse =>
      split at he
      -- only a send of the whole message counts, a shorter one drops the client
      case isTrue hfull =>
        obtain rfl := Option.some.inj he
        exact ⟨_, rfl, rfl, hfull ▸ h.sent⟩
      case isFalse =>
        obtain rfl := Option.some.inj he
        exact ⟨_, rfl, rfl, hdropped _⟩
  | wouldBlock =>
    cases he
    exact ⟨_, rfl, rfl, h.flushed rfl rfl (fun j hj => hj) (.inr (.inl rfl))⟩
  | done =>
    cases he
    exact ⟨_, rfl, rfl, hfailed⟩
  | failed =>
    cases he
    exact ⟨_, rfl, rfl, hfailed⟩

/-- The flush releases `mutex_`. -/
theorem unlock {new : List LatestOp} (h : LatestInv r (.unlock stale ::ₘ others))
    (hnew : ∀ o ∈ new, ∃ conn, o = .shutdownStale conn)
    (hdata : DataInv r (others.filterMap LatestOp.registers)) :
    LatestInv { r with locked := false } (↑new + others) := by
  obtain ⟨-, hidle⟩ := h.alone rfl
  have hzero : (↑new + others).countP (fun o => o.sweeping = true) = 0 := by
    rw [Multiset.countP_add, hidle, Nat.add_zero]
    refine Multiset.countP_eq_zero.mpr fun o ho => ?_
    obtain ⟨conn, rfl⟩ := hnew o (Multiset.mem_coe.mp ho)
    exact nofun
  have hnone : ∀ o ∈ new, o.registers = none := by
    intro o ho
    obtain ⟨conn, rfl⟩ := hnew o ho
    rfl
  constructor
  · rw [registers_add hnone]
    exact ⟨hdata.version, hdata.latest, hdata.ok, hdata.fresh, hdata.nodup, hdata.received⟩
  · exact hzero
  · exact fun conn rest stale' hmem => absurd hmem (not_send hzero)
  · exact fun c hc => h.settled_of_same (fun _ => id) hc rfl

/-- What a client reads is not unread any more. -/
theorem unread_clientRead (r : LatestServer) (conn n j : ℕ) :
    { r with connections := r.connections.modify conn fun k =>
        { k with read := k.read + n } }.unread j ≤ r.unread j := by
  by_cases hj : conn = j
  · subst hj
    rw [LatestServer.unread, LatestServer.unread, List.getElem?_modify_eq]
    cases r.connections[conn]? with
    | none => exact le_rfl
    | some k => exact Nat.sub_le_sub_left (Nat.le_add_right _ _) _
  · rw [LatestServer.unread, LatestServer.unread, List.getElem?_modify_ne _ _ hj]

/-- **Every operation keeps the invariant.** -/
theorem exec (h : LatestInv s.shared (op ::ₘ others)) (he : latestExec op x s = some e) :
    LatestInv e.shared (↑(e.next ++ e.spawn.flatten) + others) := by
  -- an operation of a flush is followed by exactly one other
  have hone : (∃ o, e.next = [o] ∧ e.spawn = [] ∧ LatestInv e.shared (o ::ₘ others)) →
      LatestInv e.shared (↑(e.next ++ e.spawn.flatten) + others) := by
    rintro ⟨o, hnext, hspawn, hinv⟩
    rw [hnext, hspawn, List.flatten_nil, List.append_nil, Multiset.coe_singleton,
      Multiset.singleton_add]
    exact hinv
  have hdata := h.data
  cases op with
  | setLatest message =>
    rw [latestExec] at he
    split at he
    case isTrue => cases he
    case isFalse hfree =>
      obtain rfl := Option.some.inj he
      rw [Multiset.filterMap_cons_none _ _ rfl] at hdata
      -- everybody is behind now, and the flush that follows settles it
      exact h.quiet rfl (by simp [LatestOp.sweeping, LatestOp.registers])
        (hdata.publish message) rfl (fun hheld => absurd hheld hfree)
        fun c _ => settled_of_flush List.mem_cons_self c
  | flush =>
    rw [latestExec] at he
    split at he
    case isTrue => cases he
    case isFalse hfree =>
      obtain rfl := Option.some.inj he
      rw [Multiset.filterMap_cons_none _ _ rfl] at hdata
      refine hone ⟨_, rfl, rfl, sweep (h.idle rfl (eq_false_of_ne_true hfree)) ?_ rfl
        (nextClient_sweeping _ _) (fun _ _ _ heq => absurd heq (nextClient_ne_send _ _)) ?_⟩
      · exact ⟨hdata.version, hdata.latest, hdata.ok, hdata.fresh, hdata.nodup, hdata.received⟩
      · intro c hc
        exact .inr (.inr (.inr ⟨_, Multiset.mem_cons_self _ _,
          nextClient_reaches [] (List.mem_map_of_mem hc)⟩))
  | checkUnread conn rest stale => exact hone (h.checkUnread he)
  | send conn rest stale => exact hone (h.send he)
  | unlock stale =>
    cases he
    rw [Multiset.filterMap_cons_none _ _ rfl] at hdata
    refine h.unlock (fun o ho => ?_) hdata
    rw [List.flatten_nil, List.append_nil] at ho
    obtain ⟨conn, -, rfl⟩ := List.mem_map.mp ho
    exact ⟨conn, rfl⟩
  | shutdownStale conn =>
    cases he
    rw [Multiset.filterMap_cons_none _ _ rfl] at hdata
    exact h.quiet rfl (by simp) hdata rfl (fun _ _ hready => hready) fun c hc =>
      h.settled_of_same (fun _ => id) hc rfl
  | accept =>
    rw [latestExec] at he
    rw [Multiset.filterMap_cons_none _ _ rfl] at hdata
    split at he
    · obtain rfl := Option.some.inj he
      exact h.quiet rfl (by simp [LatestOp.sweeping, LatestOp.registers]) hdata rfl
        (fun _ _ hready => hready) fun c hc => h.settled_of_same (fun _ => id) hc rfl
    · obtain rfl := Option.some.inj he
      -- the connection has no entry before `register`, so no client is behind for it
      refine h.still rfl (by simp [LatestOp.sweeping]) ?_ rfl ?_
        fun c hc => h.settled_of_same (fun _ => id) hc rfl
      · rw [Multiset.filterMap_add]
        exact hdata.accept
      · rintro - conn ⟨hunread, c, hc, rfl, hlt⟩
        refine ⟨?_, c, hc, rfl, hlt⟩
        rw [LatestServer.unread, List.getElem?_append_left (hdata.lt_of_mem hc)]
        exact hunread
  | register conn =>
    rw [latestExec] at he
    split at he
    case isTrue => cases he
    case isFalse hfree =>
      obtain rfl := Option.some.inj he
      rw [Multiset.filterMap_cons_some LatestOp.registers (.register conn) others rfl] at hdata
      exact h.quiet rfl (by simp [LatestOp.sweeping, LatestOp.registers]) hdata.register rfl
        (fun hheld => absurd hheld hfree) fun c _ => settled_of_flush List.mem_cons_self c
  | read conn =>
    cases he
    rw [Multiset.filterMap_cons_none _ _ rfl] at hdata
    split
    · exact h.quiet rfl (by simp [LatestOp.sweeping, LatestOp.registers]) hdata rfl
        (fun _ _ hready => hready) fun c hc => h.settled_of_same (fun _ => id) hc rfl
    · exact h.quiet rfl (by simp [LatestOp.sweeping, LatestOp.registers]) hdata rfl
        (fun _ _ hready => hready) fun c hc => h.settled_of_same (fun _ => id) hc rfl
  | leave conn =>
    rw [latestExec] at he
    split at he
    case isTrue => cases he
    case isFalse hfree =>
      obtain rfl := Option.some.inj he
      rw [Multiset.filterMap_cons_none _ _ rfl] at hdata
      exact h.quiet rfl (by simp) (hdata.erase conn) rfl (fun hheld => absurd hheld hfree)
        fun c hc => h.settled_of_same (fun _ => id) (List.mem_filter.mp hc).1 rfl
  | clientRead conn n =>
    rw [latestExec, Option.ite_none_right_eq_some] at he
    obtain ⟨hn, ⟨⟩⟩ := he
    rw [Multiset.filterMap_cons_none _ _ rfl] at hdata
    refine h.quiet rfl (by simp) (hdata.clientRead hn) rfl ?_ fun c hc =>
      h.settled_of_same (fun _ => id) hc rfl
    rintro - j ⟨hunread, c, hc, rfl, hlt⟩
    exact ⟨Nat.eq_zero_of_le_zero (hunread ▸ unread_clientRead _ _ _ _), c, hc, rfl, hlt⟩

end Operation

/-! ### All interleavings -/

theorem init : LatestInv latestCode.init.shared latestCode.init.inFlight where
  data :=
    { version := rfl
      latest := fun message hlast => by cases hlast
      ok := fun c hc => by cases hc
      fresh := fun conn hconn => absurd hconn (Multiset.notMem_zero conn)
      nodup := Multiset.nodup_zero
      received := fun k hk => by cases hk }
  lock := rfl
  ready conn rest stale hmem := by
    cases Multiset.mem_singleton.mp hmem
  settled c hc := by cases hc

/-- A call adds an operation that is not one of a flush yet. -/
theorem call {flight : Multiset LatestOp} (h : LatestInv r flight)
    (hop : op.sweeping = false ∧ op.registers = none) : LatestInv r (flight + ↑[op]) := by
  rw [Multiset.coe_singleton, add_comm, Multiset.singleton_add]
  constructor
  · rw [Multiset.filterMap_cons_none _ _ hop.2]
    exact h.data
  · rw [Multiset.countP_cons_of_neg (p := fun o => o.sweeping = true) flight
      (ne_true_of_eq_false hop.1)]
    exact h.lock
  · intro conn rest stale hmem
    rcases Multiset.mem_cons.mp hmem with rfl | hmem
    · exact absurd hop.1 nofun
    · exact h.ready conn rest stale hmem
  · exact fun c hc => (h.settled c hc).mono rfl fun o ho hreach =>
      ⟨o, Multiset.mem_cons_of_mem ho, hreach⟩

/-- A client that was passed over had something unread. -/
def PassedOver (r : LatestServer) : Prop :=
  ∀ c ∈ r.clients, c.lastFlush = some .unread → 0 < c.unreadThen

theorem passedOver_flushed {conn unread : ℕ} {result : FlushResult} (h : PassedOver r)
    (hresult : result = .unread → 0 < unread) : PassedOver (r.flushed conn result unread) := by
  intro c hc hlast
  rcases mem_flushed hc with ⟨before, -, -, rfl⟩ | ⟨-, hmem⟩
  · exact hresult (Option.some.inj hlast)
  · exact h c hmem hlast

theorem passedOver_setSent (h : PassedOver r) (conn : ℕ) : PassedOver (r.setSent conn) := by
  intro c hc hlast
  obtain ⟨before, hbefore, rfl⟩ := List.mem_map.mp hc
  split at hlast
  case isTrue heq =>
    rw [if_pos heq]
    exact h before hbefore hlast
  case isFalse heq =>
    rw [if_neg heq]
    exact h before hbefore hlast

theorem passedOver_erase (h : PassedOver r) (conn : ℕ) : PassedOver (r.erase conn) :=
  fun c hc => h c (List.mem_filter.mp hc).1

/-- Every operation notes what was unread when it passes a client over. -/
theorem passedOver_exec (h : PassedOver s.shared) (he : latestExec op x s = some e) :
    PassedOver e.shared := by
  cases op with
  | setLatest | flush =>
    simp only [latestExec] at he
    split_ifs at he
    obtain rfl := Option.some.inj he
    exact h
  | register conn =>
    simp only [latestExec] at he
    split_ifs at he
    obtain rfl := Option.some.inj he
    exact List.forall_mem_append.mpr ⟨h, List.forall_mem_singleton.mpr nofun⟩
  | leave conn =>
    simp only [latestExec] at he
    split_ifs at he
    obtain rfl := Option.some.inj he
    exact passedOver_erase h conn
  | checkUnread conn rest stale =>
    simp only [latestExec] at he
    split at he
    case h_1 =>
      obtain rfl := Option.some.inj he
      exact h
    case h_2 c _ =>
      split_ifs at he with hdone hfailed hunread
      all_goals obtain rfl := Option.some.inj he
      · exact passedOver_flushed h nofun
      · exact passedOver_erase h conn
      · -- the one place where a client is passed over
        exact passedOver_flushed h fun _ => hunread
      · exact h
  | send conn rest stale =>
    cases x with
    | sent n =>
      simp only [latestExec] at he
      split_ifs at he
      all_goals obtain rfl := Option.some.inj he
      · exact passedOver_flushed (passedOver_setSent h conn) nofun
      · exact passedOver_erase h conn
    | wouldBlock =>
      cases he
      exact passedOver_flushed h nofun
    | done | failed =>
      cases he
      exact passedOver_erase h conn
  | unlock | shutdownStale | read =>
    cases he
    exact h
  | accept | clientRead =>
    simp only [latestExec] at he
    split_ifs at he
    all_goals
      obtain rfl := Option.some.inj he
      exact h

/-- The invariants are all that is asked for. -/
theorem kept {s : Threads LatestServer LatestOp} (h : LatestInv s.shared s.inFlight)
    (hpassed : PassedOver s.shared) : LatestKept s where
  received := h.data.received
  passedOver := hpassed
  latest hquiet c hc hunread hblocked := by
    -- no flush is going to come, so of the four cases only the first one is left
    have hsent : c.sentVersion = s.shared.published.length := by
      rcases h.settled c hc with hsent | heq | heq | ⟨o, ho, hreach⟩
      · exact hsent.trans h.data.version
      · exact absurd heq hunread
      · exact absurd heq hblocked
      · exact absurd (flushing_of_reaches hreach) (ne_true_of_eq_false (hquiet o ho))
    obtain ⟨-, k, messages, hk, hreceived, hlast⟩ := h.data.ok c hc
    rw [hsent, List.take_length] at hreceived hlast
    exact ⟨k, messages, hk, hreceived, hlast⟩

end LatestInv

/-- A client is accepted and sent the first message; the second one has to wait, since the
    client has read only half of the first; the third one is sent. -/
def readInPieces : List (Label LatestOutcome LatestCall) :=
  [.run 0 .done, .run 0 .done, .run 0 .done, .run 0 .done, .run 0 .done,
    .call (.publish [1, 2]), .run 2 .done, .run 2 .done, .run 2 .done, .run 2 (.sent 2),
    .run 2 .done,
    .call (.clientRead 0 1), .run 3 .done,
    .call (.publish [3]), .run 4 .done, .run 4 .done, .run 4 .done, .run 4 .done,
    .call (.clientRead 0 1), .run 5 .done,
    .call (.publish [4, 5]), .run 6 .done, .run 6 .done, .run 6 .done, .run 6 (.sent 2),
    .run 6 .done]

end PiWebrtc.Ipc
