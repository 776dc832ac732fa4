import PiWebrtc.Signaling.CloudflareConnections

namespace PiWebrtc.Signaling

open Transition

/-!
# The worker learns that the stream is ready

A `ready` that is sent while the socket is not open is lost, and `ready_sent_` is set all the
same; then it takes the next `joined` to send it again, which looks at the peer itself.  The
invariant speaks of the current peer between the two: as long as the `joined` connection has
got no `ready`, the task that will send it is waiting, or the peer has failed.

* `ready_delivered` — a device that has joined, publishes and is connected has handed a
  `ready` to the open socket of its connection.
-/

/-- A part of the service's state: what the readiness depends on. -/
structure ReadyView where
  stopped : Bool
  publishing : Bool
  peer : Bool
  offerSent : Bool
  publication : ℕ
  peers : List ℕ
  posts : List CloudflarePost
  connectedPosts : List ℕ
  readySent : Bool
  isConnected : Bool
  isClosed : Bool
  connection : ℕ
  socket : Option WorkerSocket
  sockets : List ℕ
  joined : Option (ℕ × Bool)
  readies : List ℕ

namespace CloudflareDevice

/-- A task of the current publication that reports a state of its peer. -/
def PeerEventWaits (s : CloudflareDevice) : Prop :=
  s.publication ∈ s.connectedPosts ∨ .failed s.publication ∈ s.posts

/-- What is asked for: the two flags of the publication go with its peer, and the `ready` of
    a connected peer has reached the connection on which the device has joined. -/
structure ReadyDelivered (s : CloudflareDevice) : Prop where
  offer : s.offerSent = true → s.peer = true
  peer : s.publishing = false → s.peer = false
  ready : s.joined = some (s.connection, false) → s.publishing = true → s.peer = true →
    s.isConnected = true → ¬ s.PeerEventWaits → s.connection ∈ s.readies

/-- What the readiness depends on. -/
def view (s : CloudflareDevice) : ReadyView where
  stopped := s.stopped
  publishing := s.publishing
  peer := s.peer
  offerSent := s.offerSent
  publication := s.publication
  peers := s.peers
  posts := s.posts
  connectedPosts := s.connectedPosts
  readySent := s.readySent
  isConnected := s.isConnected
  isClosed := s.isClosed
  connection := s.connection
  socket := s.socket
  sockets := s.sockets
  joined := s.joined
  readies := s.readies

end CloudflareDevice

/-- The publication of a posted task. -/
def CloudflarePost.of : CloudflarePost → ℕ
  | .offer publication _ => publication
  | .failed publication => publication

/-- What holds whatever becomes of the current peer: tasks are those of peers, whose numbers
    are not above the current one, and a connection that has joined is open. -/
structure ReadyBase (v : ReadyView) : Prop where
  running : v.publishing = true → v.stopped = false
  older : ∀ p ∈ v.peers, p ≤ v.publication
  posted : ∀ p ∈ v.posts, p.of ∈ v.peers
  connectedPosted : ∀ p ∈ v.connectedPosts, p ∈ v.peers
  joined_le : ∀ c b, v.joined = some (c, b) → c ≤ v.connection
  joined_open : ∀ b, v.joined = some (v.connection, b) →
    v.stopped = false ∧ v.socket = some ⟨v.connection, true⟩ ∧ v.connection ∈ v.sockets

/-- A peer that has connected, or was taken to be ready, is connected still or has closed or
    failed. -/
structure PeerInv (v : ReadyView) : Prop extends ReadyBase v where
  offer : v.offerSent = true → v.peer = true
  wanted : v.peer = true → v.publishing = true
  current : v.publication ∈ v.peers → v.peer = true
  closed : v.isClosed = true → v.isConnected = false
  seen : v.peer = true → v.readySent = true ∨ v.publication ∈ v.connectedPosts →
    v.isConnected = true ∨ v.isClosed = true ∨ .failed v.publication ∈ v.posts

/-- **The invariant.** Where `joined` has found no connected peer and the peer is connected
    now, the task that sends the `ready` is waiting, or one that gives the peer up. -/
structure ReadyInv (v : ReadyView) : Prop extends PeerInv v where
  ready : v.joined = some (v.connection, false) → v.peer = true → v.isConnected = true →
    v.connection ∈ v.readies ∨ (v.publication ∈ v.connectedPosts ∧ v.readySent = false) ∨
      .failed v.publication ∈ v.posts

namespace ReadyBase

open CloudflareDevice

variable {s : CloudflareDevice}

/-- After `StopPublishing` there is no peer to speak of. -/
theorem stopPublishing (h : ReadyBase s.view) : ReadyInv s.stopPublishing.view where
  running := h.running
  older p hp := (h.older p hp).trans (Nat.le_succ _)
  posted := h.posted
  connectedPosted := h.connectedPosted
  joined_le := h.joined_le
  joined_open := h.joined_open
  offer hoffer := by cases hoffer
  wanted hpeer := by cases hpeer
  current hmem := absurd (h.older _ hmem) (Nat.not_succ_le_self _)
  closed hclosed := by cases hclosed
  seen hpeer := by cases hpeer
  ready _ hpeer := by cases hpeer

theorem endPublishing (h : ReadyBase s.view) : ReadyInv s.endPublishing.view := by
  have hstop := h.stopPublishing
  refine { hstop with running := ?_, wanted := ?_ }
  · intro hpub
    cases hpub
  · intro hpeer
    cases hpeer

/-- `StartPublishing`, for a device that is to publish: the new peer has a number of its own. -/
theorem startPublishing (h : ReadyBase s.view) (hpub : s.publishing = true) (created : Bool) :
    ReadyInv (s.startPublishing created).view := by
  have hstop := h.stopPublishing
  unfold CloudflareDevice.startPublishing
  split
  · -- the peer is created
    have hnew : s.publication + 1 ∉ s.peers := fun hmem =>
      absurd (h.older _ hmem) (Nat.not_succ_le_self _)
    refine ⟨⟨⟨h.running, ?_, ?_, ?_, h.joined_le, h.joined_open⟩, ?_, ?_, ?_, ?_, ?_⟩, ?_⟩
    · intro p hp
      rcases List.mem_cons.mp hp with rfl | hp
      · exact le_rfl
      · exact hstop.older p hp
    · intro p hp
      exact List.mem_cons_of_mem _ (h.posted p hp)
    · intro p hp
      exact List.mem_cons_of_mem _ (h.connectedPosted p hp)
    · intro _
      rfl
    · intro _
      exact hpub
    · intro _
      rfl
    · intro hclosed
      cases hclosed
    · rintro - (hsent | hwaits)
      · cases hsent
      · -- no task can have been posted for the new number
        exact absurd (h.connectedPosted _ hwaits) hnew
    · intro _ _ hconn
      cases hconn
  · -- it could not be created
    unfold retryPublishing
    split
    · exact ReadyBase.stopPublishing hstop.toReadyBase
    · exact hstop

end ReadyBase

namespace PeerInv

open CloudflareDevice

variable {s : CloudflareDevice}

/-- A `ready` is sent when the state of the peer says so; on a connection that has joined it
    gets out. -/
theorem sendReady (h : PeerInv s.view)
    (hseen : s.peer = true → s.isConnected = true ∨ s.isClosed = true ∨
      .failed s.publication ∈ s.posts) : ReadyInv s.sendReady.view where
  toReadyBase := ⟨h.running, h.older, h.posted, h.connectedPosted, h.joined_le, h.joined_open⟩
  offer := h.offer
  wanted := h.wanted
  current := h.current
  closed := h.closed
  seen hpeer _ := hseen hpeer
  ready hjoined _ _ := by
    obtain ⟨-, hsocket, -⟩ := h.joined_open _ hjoined
    have hsocket' : s.socket = some ⟨s.connection, true⟩ := hsocket
    refine .inl ?_
    show s.connection ∈ s.sendReady.readies
    simp [CloudflareDevice.sendReady, hsocket']

end PeerInv

namespace ReadyInv

open CloudflareDevice

variable {s s' : CloudflareDevice}

theorem init : ReadyInv cloudflareDevice.init.view where
  running h := by cases h
  older p hp := by cases hp
  posted p hp := by cases hp
  connectedPosted p hp := by cases hp
  joined_le c b h := by cases h
  joined_open b h := by cases h
  offer h := by cases h
  wanted h := by cases h
  current h := by cases h
  closed h := by cases h
  seen h := by cases h
  ready h := by cases h

/-! ### Publishing -/

theorem retryPublishing (h : ReadyInv s.view) : ReadyInv s.retryPublishing.view := by
  unfold CloudflareDevice.retryPublishing
  split
  · exact h.toReadyBase.stopPublishing
  · exact h

/-! ### The connection -/

/-- On a new connection the device has not joined yet. -/
theorem newConnection (h : ReadyInv s.view) {connection : ℕ} {socket : Option WorkerSocket}
    {sockets : List ℕ} (hnew : s.connection < connection) :
    ReadyInv { s.view with connection := connection, socket := socket, sockets := sockets } where
  running := h.running
  older := h.older
  posted := h.posted
  connectedPosted := h.connectedPosted
  joined_le c b hjoined := (h.joined_le c b hjoined).trans hnew.le
  joined_open b hjoined := absurd (h.joined_le _ b hjoined) (not_le.mpr hnew)
  offer := h.offer
  wanted := h.wanted
  current := h.current
  closed := h.closed
  seen := h.seen
  ready hjoined := absurd (h.joined_le _ _ hjoined) (not_le.mpr hnew)

/-- The sockets change; that of a connection that has joined stays. -/
theorem otherSocket (h : ReadyInv s.view) {socket : Option WorkerSocket} {sockets : List ℕ}
    (hkeep : s.stopped = false → s.socket = some ⟨s.connection, true⟩ →
      s.connection ∈ s.sockets →
      socket = some ⟨s.connection, true⟩ ∧ s.connection ∈ sockets) :
    ReadyInv { s.view with socket := socket, sockets := sockets } where
  running := h.running
  older := h.older
  posted := h.posted
  connectedPosted := h.connectedPosted
  joined_le := h.joined_le
  joined_open b hjoined := by
    obtain ⟨hstopped, hsocket, hmem⟩ := h.joined_open b hjoined
    exact ⟨hstopped, hkeep hstopped hsocket hmem⟩
  offer := h.offer
  wanted := h.wanted
  current := h.current
  closed := h.closed
  seen := h.seen
  ready := h.ready

theorem startConnection (h : ReadyInv s.view) : ReadyInv s.startConnection.view := by
  unfold CloudflareDevice.startConnection CloudflareService.startConnection
  split
  · exact h
  · exact h.newConnection (Nat.lt_succ_self _)

theorem scheduleReconnect (h : ReadyInv s.view) : ReadyInv s.scheduleReconnect.view := by
  unfold CloudflareDevice.scheduleReconnect
  split
  · exact h
  · exact h.newConnection (Nat.lt_succ_self _)

theorem disconnect (h : ReadyInv s.view) : ReadyInv s.disconnect.view := by
  have hend : ReadyInv (s.cancelTimer .reconnect).endPublishing.view :=
    ReadyBase.endPublishing h.toReadyBase
  have hnew : ReadyInv { (s.cancelTimer .reconnect).endPublishing.view with
      connection := s.connection + 1, socket := none, sockets := s.sockets } :=
    hend.newConnection (Nat.lt_succ_self _)
  refine { hnew with running := ?_, joined_open := ?_ }
  · intro hpub
    cases hpub
  · intro b hjoined
    exact absurd (h.joined_le _ b hjoined) (Nat.not_succ_le_self _)

/-- The token of the current connection comes: there is no socket that has joined. -/
theorem onToken (h : ReadyInv s.view) {k : ℕ} (hk : k = s.connection → s.connection ∉ s.sockets)
    (usable : Bool) : ReadyInv (s.onToken k usable).view := by
  unfold CloudflareDevice.onToken
  split
  · exact h
  case isFalse hcur =>
    rw [not_or, not_not] at hcur
    split
    · exact h.otherSocket fun _ _ hmem => absurd hmem (hk hcur.2)
    · exact h.scheduleReconnect

/-- The socket of an older connection, or of a service that was stopped, reports its close. -/
theorem finishSocket (h : ReadyInv s.view) {k : ℕ} (hold : s.stopped = true ∨ k ≠ s.connection) :
    ReadyInv (s.finishSocket k).view := by
  refine h.otherSocket fun hstopped hsocket hmem => ?_
  have hne : s.connection ≠ k := by
    rcases hold with hold | hold
    · rw [hstopped] at hold
      cases hold
    · exact hold.symm
  refine ⟨?_, List.mem_filter.mpr ⟨hmem, decide_eq_true hne⟩⟩
  simp [CloudflareDevice.finishSocket, hsocket, hne]

/-- The socket of the current connection reports its close: a new attempt follows. -/
theorem onSocketClosed (h : ReadyInv s.view) (hstopped : s.stopped = false)
    (hpending : s.reconnectPending = false) (k : ℕ) (replaced : Bool) :
    ReadyInv ((s.finishSocket k).onSocketClosed replaced).view := by
  unfold CloudflareDevice.onSocketClosed
  split
  · have hend : ReadyInv s.endPublishing.view := h.toReadyBase.endPublishing
    rw [scheduleReconnect_of (by exact hstopped) (by exact hpending)]
    exact hend.newConnection (Nat.lt_succ_self _)
  · rw [scheduleReconnect_of (by exact hstopped) (by exact hpending)]
    exact h.newConnection (Nat.lt_succ_self _)

/-! ### Worker messages -/

/-- `OnJoined`: the worker is told at once where the peer is connected. -/
theorem onJoined (h : ReadyInv s.view) (hstopped : s.stopped = false)
    (hsocket : s.socket = some ⟨s.connection, true⟩) (hmem : s.connection ∈ s.sockets)
    (sleeping : Bool) : ReadyInv (s.onJoined sleeping).view := by
  have hbase : ReadyBase { s.view with joined := some (s.connection, sleeping) } := by
    refine ⟨h.running, h.older, h.posted, h.connectedPosted, ?_, ?_⟩
    · intro c b hjoined
      cases hjoined
      exact le_rfl
    · intro b _
      exact ⟨hstopped, hsocket, hmem⟩
  -- where the peer is not connected, nothing is owed to the worker
  have hquiet : ¬ (s.peer = true ∧ s.isConnected = true) →
      ReadyInv { s.view with joined := some (s.connection, sleeping) } := fun hno =>
    { hbase with
      offer := h.offer
      wanted := h.wanted
      current := h.current
      closed := h.closed
      seen := h.seen
      ready := fun _ hpeer hconn => absurd ⟨hpeer, hconn⟩ hno }
  unfold CloudflareDevice.onJoined
  dsimp only
  split
  case isTrue hpub =>
    refine hquiet fun hno => ?_
    have hwanted : s.publishing = true := h.wanted hno.1
    exact absurd hpub (ne_false_of_eq_true hwanted)
  case isFalse =>
    split
    · exact ReadyBase.endPublishing (s :=
        { s with unanswered := 0, joined := some (s.connection, sleeping) }) hbase
    · split
      case isTrue hconn =>
        -- the peer is connected, and the `ready` goes out at once
        refine { hbase with
          offer := h.offer, wanted := h.wanted, current := h.current, closed := h.closed,
          seen := ?_, ready := ?_ }
        · intro _ _
          exact .inl hconn.2
        · intro _ _ _
          refine .inl ?_
          simp [view, CloudflareDevice.sendReady, hsocket]
      case isFalse hno => exact hquiet hno

theorem onWake (h : ReadyInv s.view) (hstopped : s.stopped = false) (created : Bool) :
    ReadyInv (s.onWake created).view := by
  have hbase : ReadyBase { s with publishing := true }.view :=
    ⟨fun _ => hstopped, h.older, h.posted, h.connectedPosted, h.joined_le, h.joined_open⟩
  exact hbase.startPublishing rfl created

theorem onAnswer (h : ReadyInv s.view) (generation : ℕ) :
    ReadyInv (s.onAnswer generation).view := by
  unfold CloudflareDevice.onAnswer CloudflareService.onAnswer
  split <;> exact h

theorem onOfferError (h : ReadyInv s.view) (code : ErrorCode) :
    ReadyInv (s.onOfferError code).view := by
  have hact : ReadyInv
      { s with toCloudflareService := s.countReply.act s.repliedOffer }.view := h
  unfold CloudflareDevice.onOfferError
  split
  · exact h
  · split
    · exact hact.toReadyBase.endPublishing
    · exact hact.retryPublishing

theorem onMessage (h : ReadyInv s.view) (hstopped : s.stopped = false)
    (hsocket : s.socket = some ⟨s.connection, true⟩) (hmem : s.connection ∈ s.sockets)
    (m : WorkerMessage) : ReadyInv (s.onMessage m).view := by
  cases m with
  | joined sleeping => exact h.onJoined hstopped hsocket hmem sleeping
  | wake created => exact h.onWake hstopped created
  | answer generation => exact h.onAnswer generation
  | sleep => exact h.toReadyBase.endPublishing
  | error request code =>
    show ReadyInv
      (if CloudflareService.isReply request code then s.onOfferError code else s).view
    split
    · exact h.onOfferError code
    · exact h
  | other => exact h

/-! ### Tasks and handlers -/

theorem onTimer (h : ReadyInv s.view) (created down : Bool) (t : ArmedWait) :
    ReadyInv (s.onTimer created down t).view := by
  have hnote : ReadyInv (s.note t).view := h
  unfold CloudflareDevice.onTimer
  split
  · exact h.startConnection
  · split
    · exact h
    case isFalse hpub =>
      rw [not_or, Bool.not_eq_false] at hpub
      exact hnote.toReadyBase.startPublishing hpub.2 created
  · split
    · exact h
    · split
      · exact hnote.retryPublishing
      · exact h

/-- A local offer is sent for the peer that there is. -/
theorem onLocalOffer (h : ReadyInv s.view) {publication : ℕ} (hpeer : publication ∈ s.peers)
    (tracks : Bool) : ReadyInv (s.onLocalOffer publication tracks).view := by
  unfold CloudflareDevice.onLocalOffer
  split
  · exact h
  case isFalse hcur =>
    rw [not_or, not_not] at hcur
    obtain ⟨-, rfl⟩ := hcur
    split
    · exact h.retryPublishing
    · split
      · exact { h with offer := fun _ => h.current hpeer }
      · exact h

/-- A task with a local offer, or one that reports nothing of a peer that there is, is done
    with. -/
theorem dropPost (h : ReadyInv s.view) {i : ℕ} {p : CloudflarePost} (hp : s.posts[i]? = some p)
    (hother : s.peer = true → p ≠ .failed s.publication) :
    ReadyInv { s with posts := s.posts.eraseIdx i }.view := by
  have hkeep : s.peer = true → .failed s.publication ∈ s.posts →
      .failed s.publication ∈ s.posts.eraseIdx i := fun hpeer hmem =>
    mem_eraseIdx_of_ne hp hmem (hother hpeer).symm
  refine { h with posted := ?_, seen := ?_, ready := ?_ }
  · intro q hq
    exact h.posted q (List.mem_of_mem_eraseIdx hq)
  · intro hpeer hsent
    exact (h.seen hpeer hsent).imp_right (Or.imp_right (hkeep hpeer))
  · intro hjoined hpeer hconn
    exact (h.ready hjoined hpeer hconn).imp_right (Or.imp_right (hkeep hpeer))

/-- A posted task runs. -/
theorem runPost (h : ReadyInv s.view) {i : ℕ} {p : CloudflarePost} (hp : s.posts[i]? = some p) :
    ReadyInv ({ s with posts := s.posts.eraseIdx i }.runPost p).view := by
  cases p with
  | offer publication tracks =>
    have hpeer : publication ∈ s.peers := h.posted _ (List.mem_of_getElem? hp)
    have hrest := h.dropPost hp fun _ => CloudflarePost.noConfusion
    exact hrest.onLocalOffer hpeer tracks
  | failed publication =>
    show ReadyInv (if s.stopped = true ∨ publication ≠ s.publication then
      { s with posts := s.posts.eraseIdx i }
      else { s with posts := s.posts.eraseIdx i }.retryPublishing).view
    split
    case isTrue hold =>
      refine h.dropPost hp fun hpeer => ?_
      rintro ⟨rfl⟩
      -- a service that was stopped has no peer
      have hstopped := hold.resolve_right fun hne => hne rfl
      have hrunning : s.stopped = false := h.running (h.wanted hpeer)
      rw [hstopped] at hrunning
      cases hrunning
    case isFalse =>
      unfold CloudflareDevice.retryPublishing
      split
      · have hbase : ReadyBase { s with posts := s.posts.eraseIdx i }.view :=
          { h.toReadyBase with
            posted := fun q hq => h.posted q (List.mem_of_mem_eraseIdx hq) }
        exact hbase.stopPublishing
      case isFalse hpub =>
        exact h.dropPost hp fun hpeer => absurd (h.wanted hpeer) hpub

/-- `OnPeerState` of a connected peer. -/
theorem onPeerConnected (h : ReadyInv s.view) {i publication : ℕ}
    (hp : s.connectedPosts[i]? = some publication) :
    ReadyInv ({ s with connectedPosts := s.connectedPosts.eraseIdx i }.onPeerConnected
      publication).view := by
  have hrest : PeerInv { s with connectedPosts := s.connectedPosts.eraseIdx i }.view :=
    { h.toPeerInv with
      connectedPosted := fun q hq => h.connectedPosted q (List.mem_of_mem_eraseIdx hq)
      seen := fun hpeer hsent => h.seen hpeer (hsent.imp_right List.mem_of_mem_eraseIdx) }
  unfold CloudflareDevice.onPeerConnected
  split
  case isTrue hold =>
    refine { hrest with ready := fun hjoined hpeer hconn => ?_ }
    have hrunning : s.stopped = false := h.running (h.wanted hpeer)
    rcases hold with hold | hne
    · have hstopped : s.stopped = true := hold
      rw [hstopped] at hrunning
      cases hrunning
    · exact (h.ready hjoined hpeer hconn).imp_right (Or.imp_left (And.imp_left fun hmem =>
        mem_eraseIdx_of_ne hp hmem (Ne.symm hne)))
  case isFalse hcur =>
    rw [not_or, not_not] at hcur
    obtain ⟨-, rfl⟩ := hcur
    split
    case isTrue hsent =>
      refine { hrest with ready := fun hjoined hpeer hconn => ?_ }
      refine (h.ready hjoined hpeer hconn).imp_right (Or.imp_left fun hwaits => ?_)
      exact absurd hsent (ne_true_of_eq_false hwaits.2)
    case isFalse =>
      exact hrest.sendReady fun hpeer => h.seen hpeer (.inr (List.mem_of_getElem? hp))

/-! ### The states of a peer -/

/-- A peer connects: if a `ready` was sent before, it had been connected or has failed. -/
theorem peerConnected (h : ReadyInv s.view) (hpeer : s.publication ∈ s.peers)
    (hclosed : s.isClosed = false) :
    ReadyInv { s with
      connectedPosts := s.connectedPosts ++ [s.publication]
      isConnected := true }.view := by
  have hhere : s.publication ∈ s.connectedPosts ++ [s.publication] :=
    List.mem_append_right _ (List.mem_singleton.mpr rfl)
  refine { h with connectedPosted := ?_, closed := ?_, seen := ?_, ready := ?_ }
  · exact List.forall_mem_append.mpr ⟨h.connectedPosted, List.forall_mem_singleton.mpr hpeer⟩
  · intro hyes
    exact absurd hyes (ne_true_of_eq_false hclosed)
  · intro _ _
    exact .inl rfl
  · intro hjoined hpeer _
    by_cases hsent : s.readySent = true
    · rcases h.seen hpeer (.inl hsent) with hconn | hyes | hfailed
      · refine (h.ready hjoined hpeer hconn).imp_right (Or.imp_left fun hwaits => ?_)
        exact absurd hsent (ne_true_of_eq_false hwaits.2)
      · exact absurd hyes (ne_true_of_eq_false hclosed)
      · exact .inr (.inr hfailed)
    · exact .inr (.inl ⟨hhere, Bool.eq_false_iff.mpr hsent⟩)

/-- A peer has failed, and the task that gives it up is posted. -/
theorem peerFailed (h : ReadyInv s.view) (hpeer : s.publication ∈ s.peers) :
    ReadyInv { s with
      posts := s.posts ++ [CloudflarePost.failed s.publication]
      isConnected := false }.view := by
  have hhere : CloudflarePost.failed s.publication ∈ s.posts ++ [.failed s.publication] :=
    List.mem_append_right _ (List.mem_singleton.mpr rfl)
  refine { h with posted := ?_, closed := ?_, seen := ?_, ready := ?_ }
  · exact List.forall_mem_append.mpr ⟨h.posted, List.forall_mem_singleton.mpr hpeer⟩
  · intro _
    rfl
  · intro _ _
    exact .inr (.inr hhere)
  · intro _ _ _
    exact .inr (.inr hhere)

theorem peerClosed (h : ReadyInv s.view) :
    ReadyInv { s with isConnected := false, isClosed := true }.view := by
  refine { h with closed := ?_, seen := ?_, ready := ?_ }
  · intro _
    rfl
  · intro _ _
    exact .inr (.inl rfl)
  · intro _ _ hconn
    cases hconn

/-- A task of a peer is posted, which says nothing of the current one. -/
theorem post (h : ReadyInv s.view) {p : CloudflarePost} (hp : p.of ∈ s.peers) :
    ReadyInv { s with posts := s.posts ++ [p] }.view := by
  refine { h with posted := ?_, seen := ?_, ready := ?_ }
  · exact List.forall_mem_append.mpr ⟨h.posted, List.forall_mem_singleton.mpr hp⟩
  · intro hpeer hsent
    exact (h.seen hpeer hsent).imp_right (Or.imp_right (List.mem_append_left _))
  · intro hjoined hpeer hconn
    exact (h.ready hjoined hpeer hconn).imp_right (Or.imp_right (List.mem_append_left _))

/-- An older peer has connected. -/
theorem connectedPost (h : ReadyInv s.view) {publication : ℕ} (hp : publication ∈ s.peers)
    (hne : publication ≠ s.publication) :
    ReadyInv { s with connectedPosts := s.connectedPosts ++ [publication] }.view := by
  have hold : s.publication ∈ s.connectedPosts ++ [publication] →
      s.publication ∈ s.connectedPosts := by
    intro hmem
    rcases List.mem_append.mp hmem with hmem | hmem
    · exact hmem
    · exact absurd (List.mem_singleton.mp hmem).symm hne
  refine { h with connectedPosted := ?_, seen := ?_, ready := ?_ }
  · exact List.forall_mem_append.mpr ⟨h.connectedPosted, List.forall_mem_singleton.mpr hp⟩
  · intro hpeer hsent
    exact h.seen hpeer (hsent.imp_right hold)
  · intro hjoined hpeer hconn
    exact (h.ready hjoined hpeer hconn).imp_right (Or.imp_left (And.imp_left
      (List.mem_append_left _)))

/-- Every event keeps the invariant. -/
theorem step (h : ReadyInv s.view) (hconn : ConnectionInv s) {event : DeviceEvent}
    (hstep : s.step event = some s') : ReadyInv s'.view := by
  cases event with
  | connect =>
    cases hstep
    exact h.startConnection
  | disconnect =>
    cases hstep
    exact h.disconnect
  | token i usable =>
    obtain ⟨k, hk, rfl⟩ := step_token hstep
    have htaken : ReadyInv { s with tokenRequests := s.tokenRequests.eraseIdx i }.view := h
    refine htaken.onToken ?_ usable
    rintro rfl
    exact (hconn.asking (List.mem_of_getElem? hk)).2
  | opened =>
    obtain ⟨-, rfl⟩ := step_opened hstep
    refine h.otherSocket fun _ hsocket hmem => ⟨?_, hmem⟩
    rw [hsocket]
    rfl
  | message k m =>
    obtain ⟨⟨hk, hopen⟩, hstep⟩ := step_message hstep
    rcases hstep with ⟨-, rfl⟩ | ⟨⟨hrun, rfl⟩, rfl⟩
    · exact h
    · -- a message of the current connection has come through an open socket
      obtain ⟨-, isOpen, hsocket⟩ := hconn.holding hk
      have hopen' : s.socket = some ⟨s.connection, true⟩ := by
        cases isOpen with
        | false => exact absurd hsocket hopen
        | true => exact hsocket
      exact h.onMessage hrun hopen' hk m
  | socketClosed k replaced =>
    obtain ⟨hk, hstep⟩ := step_socketClosed hstep
    rcases hstep with ⟨hold, rfl⟩ | ⟨⟨hrun, rfl⟩, rfl⟩
    · exact h.finishSocket hold
    · exact h.onSocketClosed hrun (hconn.holding hk).1 _ replaced
  | expire i =>
    obtain ⟨t, -, -, rfl⟩ := step_expire hstep
    exact h
  | handler i created down =>
    obtain ⟨t, -, hstep⟩ := step_handler hstep
    have htaken : ReadyInv (s.takeWait i).view := h
    rcases hstep with ⟨-, rfl⟩ | ⟨-, rfl⟩
    · exact htaken
    · exact htaken.onTimer created down t
  | localOffer publication tracks =>
    obtain ⟨hp, rfl⟩ := step_localOffer hstep
    exact h.post hp
  | peerConnected publication =>
    obtain ⟨hp, hstep⟩ := step_peerConnected hstep
    rcases hstep with ⟨hne, rfl⟩ | ⟨⟨rfl, hclosed⟩, rfl⟩
    · exact h.connectedPost hp hne
    · exact h.peerConnected hp hclosed
  | peerFailed publication =>
    obtain ⟨hp, hstep⟩ := step_peerFailed hstep
    rcases hstep with ⟨-, rfl⟩ | ⟨rfl, rfl⟩
    · exact h.post hp
    · exact h.peerFailed hp
  | peerClosed publication =>
    cases step_peerClosed hstep
    exact h.peerClosed
  | post i =>
    obtain ⟨p, hp, rfl⟩ := step_post hstep
    exact h.runPost hp
  | connectedPost i =>
    obtain ⟨publication, hp, rfl⟩ := step_connectedPost hstep
    exact h.onPeerConnected hp

/-- What is asked for. -/
theorem delivered (h : ReadyInv s.view) : ReadyDelivered s where
  offer := h.offer
  peer hpub := by
    refine Bool.eq_false_iff.mpr fun hpeer => ?_
    exact absurd hpub (ne_false_of_eq_true (h.wanted hpeer))
  ready hjoined _ hpeer hconn hwaits := by
    rcases h.ready hjoined hpeer hconn with hready | hwait | hfailed
    · exact hready
    · exact absurd (.inl hwait.1) hwaits
    · exact absurd (.inr hfailed) hwaits

end ReadyInv

/-- **Readiness is delivered.** In every run an offer that was sent has its peer, a device
    that does not publish has none, and a device that has joined on its connection,
    publishes and is connected, with no state of the peer left to report, has handed a
    `ready` to the open socket of that connection. -/
theorem ready_delivered (as : List DeviceEvent) (s : CloudflareDevice)
    (hrun : cloudflareDevice.run as = some s) : s.ReadyDelivered := by
  have hinv : s.ConnectionInv ∧ ReadyInv s.view := by
    refine Machine.run_invariant (P := fun s => s.ConnectionInv ∧ ReadyInv s.view)
      ⟨CloudflareDevice.ConnectionInv.init, ReadyInv.init⟩ ?_ hrun
    -- what a message needs of its connection comes from the other invariant
    rintro t event t' ⟨hconn, hready⟩ hstep
    exact ⟨hconn.step hstep, hready.step hconn hstep⟩
  exact hinv.2.delivered

/-- The peer connects while the socket is down, and the device joins again afterwards. -/
def connectedWhileDown : List DeviceEvent :=
  [.connect, .token 0 true, .opened, .message 1 (.wake true), .socketClosed 1 false,
   .peerConnected 1, .connectedPost 0, .expire 1, .handler 1 true false, .token 0 true, .opened,
   .message 3 (.joined false)]

theorem ready_delivered_connectedWhileDown :
    ∃ s, cloudflareDevice.run connectedWhileDown = some s ∧ s.joined = some (3, false) ∧
      s.isConnected = true ∧ s.readies = [3] ∧ s.ReadyDelivered :=
  ⟨_, rfl, rfl, rfl, rfl, ready_delivered connectedWhileDown _ rfl⟩

end PiWebrtc.Signaling
