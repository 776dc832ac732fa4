import PiWebrtc.Signaling.CloudflareService

namespace PiWebrtc.Signaling

open Transition

/-!
# The Cloudflare service, with its timers, sockets and peer states

`CloudflareService` with what decides when its callbacks run.  A wait of a timer goes through
phases: to cancel it does not reach a handler that is queued already.  Every socket that was
opened may call back until it has reported its close, also when the service has dropped it.
The states of the current peer connection are set on another thread, and reported by tasks.

The handlers are those of `CloudflareService`.  The worker's messages may come in any order
here, whether they reply to an offer or not.  `AcrossPublishing` is the rule for what holds
across everything that the messages and the peers lead to.
-/

/-- `reconnect_timer_`, `health_timer_` and `retry_timer_`. -/
inductive CloudflareTimer where
  | reconnect
  | health
  | retry
  deriving DecidableEq, Repr

/-- The timer of a wait. -/
def CloudflareWait.timer : CloudflareWait → CloudflareTimer
  | .reconnect => .reconnect
  | .retry => .retry
  | .health _ => .health

/-- How far a wait has come. -/
inductive WaitPhase where
  | pending
  /-- The time is over, and the handler is queued without an error. -/
  | ready
  /-- The handler was queued already when the wait was cancelled: it finds no error. -/
  | late
  /-- The wait was cancelled in time: the handler finds `operation_aborted`. -/
  | aborted
  deriving DecidableEq, Repr

/-- A wait whose handler has not run, and the publication at which it was armed. -/
structure ArmedWait where
  wait : CloudflareWait
  phase : WaitPhase := .pending
  armed : ℕ
  deriving DecidableEq, Repr

/-- `cancel()`, for one wait. -/
def ArmedWait.cancel (t : ArmedWait) : ArmedWait :=
  match t.phase with
  | .pending => { t with phase := .aborted }
  | .ready => { t with phase := .late }
  | .late | .aborted => t

/-- The handler will find no error, and nobody has cancelled the wait. -/
def ArmedWait.live (t : ArmedWait) : Bool := t.phase = .pending || t.phase = .ready

/-- A retry or a health check that restarts or stops publishing: the publication at which
    its timer was armed, and the current one. -/
structure TimerAct where
  armed : ℕ
  publication : ℕ
  deriving DecidableEq, Repr

/-- The service with the waits of its timers, the connections of the sockets that have not
    reported a close, `ready_sent_`, two flags of the current peer (`is_connected_`, and
    whether its connection is closed), and the posted tasks that report a connected peer.
    History: the connection of the last `joined`, with whether its state was sleeping, the
    connections whose open socket was handed a `ready`, and what the timers did. -/
structure CloudflareDevice extends CloudflareService where
  timers : List ArmedWait := []
  sockets : List ℕ := []
  readySent : Bool := false
  isConnected : Bool := false
  isClosed : Bool := false
  connectedPosts : List ℕ := []
  joined : Option (ℕ × Bool) := none
  readies : List ℕ := []
  acts : List TimerAct := []
  deriving DecidableEq, Repr

/-- `DeviceResponse`; `created` tells whether the conductor can create a peer on a wake. -/
inductive WorkerMessage where
  | joined (sleeping : Bool)
  | wake (created : Bool)
  | answer (generation : ℕ)
  | sleep
  | error (request : String) (code : ErrorCode)
  /-- Channels, a change of control, an offer for the voices. -/
  | other
  deriving DecidableEq, Repr

namespace CloudflareDevice

/-! ### Timers -/

/-- `cancel()` of a timer. -/
def cancelTimer (s : CloudflareDevice) (timer : CloudflareTimer) : CloudflareDevice :=
  { s with timers := s.timers.map fun t => if t.wait.timer = timer then t.cancel else t }

/-- `expires_after`, which cancels the waits before, and `async_wait`. -/
def arm (s : CloudflareDevice) (w : CloudflareWait) : CloudflareDevice :=
  { s.cancelTimer w.timer with
    toCloudflareService := s.toCloudflareService.wait w
    timers := (s.cancelTimer w.timer).timers ++ [{ wait := w, armed := s.publication }] }

/-! ### The connection to the worker -/

/-- `StartConnection`. -/
def startConnection (s : CloudflareDevice) : CloudflareDevice :=
  { s with toCloudflareService := s.toCloudflareService.startConnection }

/-- `OpenSocket`. -/
def openSocket (s : CloudflareDevice) (connection : ℕ) : CloudflareDevice :=
  { s with
    toCloudflareService := s.toCloudflareService.openSocket connection
    sockets := s.sockets ++ [connection] }

/-- `DropSocket`: the close of the socket is still to come, and finds a newer connection. -/
def dropSocket (s : CloudflareDevice) : CloudflareDevice :=
  { s with toCloudflareService := s.toCloudflareService.dropSocket }

/-- `ScheduleReconnect`. -/
def scheduleReconnect (s : CloudflareDevice) : CloudflareDevice :=
  if s.stopped ∨ s.reconnectPending then s
  else
    { s with reconnectPending := true, connection := s.connection + 1 }.dropSocket.arm .reconnect

/-- `ScheduleReconnect` of a service that runs and has not scheduled one. -/
theorem scheduleReconnect_of {s : CloudflareDevice} (hstopped : s.stopped = false)
    (hpending : s.reconnectPending = false) :
    s.scheduleReconnect =
      { s with reconnectPending := true, connection := s.connection + 1 }.dropSocket.arm
        .reconnect := by
  unfold scheduleReconnect
  rw [if_neg (by simp [hstopped, hpending])]

/-- The response to a token request. -/
def onToken (s : CloudflareDevice) (connection : ℕ) (usable : Bool) : CloudflareDevice :=
  if s.stopped ∨ connection ≠ s.connection then s
  else if usable then s.openSocket connection
  else s.scheduleReconnect

/-- `SendReady`: `ready_sent_` is set also where the request is dropped. -/
def sendReady (s : CloudflareDevice) : CloudflareDevice :=
  { s with
    readySent := true
    readies :=
      match s.socket with
      | some ⟨connection, true⟩ => connection :: s.readies
      | _ => s.readies }

/-! ### Publishing -/

/-- `StopPublishing`. -/
def stopPublishing (s : CloudflareDevice) : CloudflareDevice :=
  { (s.cancelTimer .health).cancelTimer .retry with
    toCloudflareService := s.toCloudflareService.stopPublishing
    readySent := false
    isConnected := false
    isClosed := false }

/-- The worker does not want this device to publish. -/
def endPublishing (s : CloudflareDevice) : CloudflareDevice :=
  { s.stopPublishing with publishing := false }

/-- `RetryPublishing`. -/
def retryPublishing (s : CloudflareDevice) : CloudflareDevice :=
  if s.publishing then s.stopPublishing.arm .retry else s

/-- `StartPublishing`, when the peer was created; it ends with `MonitorPeer`. -/
def publish (s : CloudflareDevice) : CloudflareDevice :=
  { s with peer := true, peers := s.publication :: s.peers }.arm (.health s.publication)

/-- `StartPublishing`. -/
def startPublishing (s : CloudflareDevice) (created : Bool) : CloudflareDevice :=
  if created then s.stopPublishing.publish else s.stopPublishing.retryPublishing

/-- `Disconnect`. -/
def disconnect (s : CloudflareDevice) : CloudflareDevice :=
  { (s.cancelTimer .reconnect).endPublishing.dropSocket with
    stopped := true
    connection := s.connection + 1 }

/-- `OnSocketClosed`. -/
def onSocketClosed (s : CloudflareDevice) (replaced : Bool) : CloudflareDevice :=
  if replaced then s.dropSocket.endPublishing.scheduleReconnect
  else s.dropSocket.scheduleReconnect

/-! ### Worker messages -/

/-- `OnJoined`. -/
def onJoined (s : CloudflareDevice) (sleeping : Bool) : CloudflareDevice :=
  let s := { s with unanswered := 0, joined := some (s.connection, sleeping) }
  if s.publishing = false then s
  else if sleeping then s.endPublishing
  -- `ready` may have been lost with the old connection
  else if s.peer ∧ s.isConnected then s.sendReady
  else s

/-- `OnWake`. -/
def onWake (s : CloudflareDevice) (created : Bool) : CloudflareDevice :=
  { s with publishing := true }.startPublishing created

/-- The offer that a reply is to.  A reply to none is taken for one to an offer that was
    never sent. -/
def repliedOffer (s : CloudflareDevice) : SentOffer :=
  s.outstanding.head?.getD ⟨s.sent.length, s.publication⟩

/-- `OnAnswer`. -/
def onAnswer (s : CloudflareDevice) (generation : ℕ) : CloudflareDevice :=
  { s with toCloudflareService := s.toCloudflareService.onAnswer s.repliedOffer generation }

/-- `OnError`, of a reply to an offer. -/
def onOfferError (s : CloudflareDevice) (code : ErrorCode) : CloudflareDevice :=
  if s.offerSent = false ∨ 0 < s.unanswered - 1 then { s with toCloudflareService := s.countReply }
  else if code = .wakeStale then
    { s with toCloudflareService := s.countReply.act s.repliedOffer }.endPublishing
  else { s with toCloudflareService := s.countReply.act s.repliedOffer }.retryPublishing

/-- `OnMessage`. -/
def onMessage (s : CloudflareDevice) : WorkerMessage → CloudflareDevice
  | .joined sleeping => s.onJoined sleeping
  | .wake created => s.onWake created
  | .answer generation => s.onAnswer generation
  | .sleep => s.endPublishing
  | .error request code =>
    if CloudflareService.isReply request code then s.onOfferError code else s
  | .other => s

/-! ### Tasks and handlers -/

/-- The task with a local offer. -/
def onLocalOffer (s : CloudflareDevice) (publication : ℕ) (tracks : Bool) : CloudflareDevice :=
  if s.stopped ∨ publication ≠ s.publication then s
  else if tracks = false then s.retryPublishing
  else if s.canSend then { s with toCloudflareService := s.toCloudflareService.sendOffer }
  else s

/-- A posted task runs: a local offer, or `OnPeerState` of a failed peer. -/
def runPost (s : CloudflareDevice) : CloudflarePost → CloudflareDevice
  | .offer publication tracks => s.onLocalOffer publication tracks
  | .failed publication =>
    if s.stopped ∨ publication ≠ s.publication then s else s.retryPublishing

/-- `OnPeerState` of a connected peer. -/
def onPeerConnected (s : CloudflareDevice) (publication : ℕ) : CloudflareDevice :=
  if s.stopped ∨ publication ≠ s.publication then s
  else if s.readySent then s
  else s.sendReady

/-- Note what a timer does. -/
def note (s : CloudflareDevice) (t : ArmedWait) : CloudflareDevice :=
  { s with acts := ⟨t.armed, s.publication⟩ :: s.acts }

/-- The handler of a wait, when it finds no error. -/
def onTimer (s : CloudflareDevice) (created down : Bool) (t : ArmedWait) : CloudflareDevice :=
  match t.wait with
  | .reconnect => s.startConnection
  | .retry =>
    if s.stopped ∨ s.publishing = false then s else (s.note t).startPublishing created
  | .health publication =>
    if s.stopped ∨ publication ≠ s.publication then s
    else if s.peer = false ∨ down then (s.note t).retryPublishing
    else s.arm (.health publication)

/-- The socket of a connection reports its close: it is not open any more, and not asked to
    report anything again. -/
def finishSocket (s : CloudflareDevice) (connection : ℕ) : CloudflareDevice :=
  { s with
    sockets := s.sockets.filter fun k => k ≠ connection
    socket := s.socket.map fun w =>
      if w.connection = connection then { w with isOpen := false } else w }

end CloudflareDevice

/-- What happens: calls of the service, token responses, what its sockets report (of the
    connection that is given), the time of a wait is over and its handler runs, the states
    of a publication's peer, and posted tasks. -/
inductive DeviceEvent where
  | connect
  | disconnect
  | token (i : ℕ) (usable : Bool)
  | opened
  | message (connection : ℕ) (m : WorkerMessage)
  | socketClosed (connection : ℕ) (replaced : Bool)
  | expire (i : ℕ)
  | handler (i : ℕ) (created down : Bool)
  | localOffer (publication : ℕ) (tracks : Bool)
  | peerConnected (publication : ℕ)
  | peerFailed (publication : ℕ)
  | peerClosed (publication : ℕ)
  | post (i : ℕ)
  | connectedPost (i : ℕ)
  deriving DecidableEq, Repr

/-- The events in which a peer reports something, and the tasks that it has posted. -/
def DeviceEvent.ofPeer : DeviceEvent → Bool
  | .localOffer _ _ | .peerConnected _ | .peerFailed _ | .peerClosed _ | .post _
  | .connectedPost _ => true
  | _ => false

open CloudflareDevice in
/-- One event.  A state of a peer is set and its task posted in one; a closed peer
    connection stays closed. -/
def CloudflareDevice.step (s : CloudflareDevice) : DeviceEvent → Option CloudflareDevice
  | .connect => some s.startConnection
  | .disconnect => some s.disconnect
  | .token i usable =>
    (s.tokenRequests[i]?).map fun connection =>
      { s with tokenRequests := s.tokenRequests.eraseIdx i }.onToken connection usable
  | .opened =>
    if s.socket.any (fun w => w.connection ∈ s.sockets) then
      some { s with socket := s.socket.map fun w => { w with isOpen := true } }
    else none
  | .message connection m =>
    if connection ∈ s.sockets ∧ s.socket ≠ some ⟨connection, false⟩ then
      -- callbacks of an older connection are ignored
      some (if s.stopped ∨ connection ≠ s.connection then s else s.onMessage m)
    else none
  | .socketClosed connection replaced =>
    if connection ∈ s.sockets then
      some (if s.stopped ∨ connection ≠ s.connection then s.finishSocket connection
        else (s.finishSocket connection).onSocketClosed replaced)
    else none
  | .expire i =>
    (s.timers[i]?).bind fun t =>
      if t.phase = .pending then
        some { s with timers := s.timers.modify i fun t => { t with phase := .ready } }
      else none
  | .handler i created down =>
    (s.timers[i]?).bind fun t =>
      if t.phase = .pending then none
      else
        let rest := { s with timers := s.timers.eraseIdx i, waits := s.waits.eraseIdx i }
        some (if t.phase = .aborted then rest else rest.onTimer created down t)
  | .localOffer publication tracks =>
    if publication ∈ s.peers then some { s with posts := s.posts ++ [.offer publication tracks] }
    else none
  | .peerConnected publication =>
    if publication ∉ s.peers then none
    else if publication ≠ s.publication then
      some { s with connectedPosts := s.connectedPosts ++ [publication] }
    else if s.isClosed then none
    else
      some { s with connectedPosts := s.connectedPosts ++ [publication], isConnected := true }
  | .peerFailed publication =>
    if publication ∉ s.peers then none
    else if publication ≠ s.publication then
      some { s with posts := s.posts ++ [.failed publication] }
    else if s.isClosed then none
    else some { s with posts := s.posts ++ [.failed publication], isConnected := false }
  | .peerClosed publication =>
    if publication ∈ s.peers ∧ publication = s.publication then
      some { s with isConnected := false, isClosed := true }
    else none
  | .post i =>
    (s.posts[i]?).map fun p => { s with posts := s.posts.eraseIdx i }.runPost p
  | .connectedPost i =>
    (s.connectedPosts[i]?).map fun publication =>
      { s with connectedPosts := s.connectedPosts.eraseIdx i }.onPeerConnected publication

/-- A service that does nothing yet, and all orders of events. -/
def cloudflareDevice : Machine CloudflareDevice DeviceEvent where
  init := {}
  step := CloudflareDevice.step

namespace CloudflareDevice

/-! ### What an event does -/

section Events

variable {s s' : CloudflareDevice}

theorem step_token {i : ℕ} {usable : Bool} (h : s.step (.token i usable) = some s') :
    ∃ k, s.tokenRequests[i]? = some k ∧
      s' = { s with tokenRequests := s.tokenRequests.eraseIdx i }.onToken k usable := by
  obtain ⟨k, hk, heq⟩ := Option.map_eq_some_iff.mp h
  exact ⟨k, hk, heq.symm⟩

theorem step_opened (h : s.step .opened = some s') :
    (∃ w, s.socket = some w) ∧
      s' = { s with socket := s.socket.map fun w => { w with isOpen := true } } := by
  obtain ⟨hany, heq⟩ := Option.ite_none_right_eq_some.mp h
  refine ⟨?_, (Option.some.inj heq).symm⟩
  cases hsocket : s.socket with
  | none =>
    rw [hsocket] at hany
    cases hany
  | some w => exact ⟨w, rfl⟩

/-- A callback of connection `k` is ignored, or it is one of the current connection. -/
theorem ignored_or_current (s : CloudflareDevice) (k : ℕ) :
    (s.stopped = true ∨ k ≠ s.connection) ∨ s.stopped = false ∧ k = s.connection := by
  by_cases h : s.stopped = true ∨ k ≠ s.connection
  · exact .inl h
  · rw [not_or, not_not, Bool.not_eq_true] at h
    exact .inr h

theorem step_message {k : ℕ} {m : WorkerMessage} (h : s.step (.message k m) = some s') :
    (k ∈ s.sockets ∧ s.socket ≠ some ⟨k, false⟩) ∧
      ((s.stopped = true ∨ k ≠ s.connection) ∧ s' = s ∨
        (s.stopped = false ∧ k = s.connection) ∧ s' = s.onMessage m) := by
  obtain ⟨hfrom, heq⟩ := Option.ite_none_right_eq_some.mp h
  refine ⟨hfrom, ?_⟩
  rcases s.ignored_or_current k with hold | hcur
  · rw [if_pos hold] at heq
    exact .inl ⟨hold, (Option.some.inj heq).symm⟩
  · rw [if_neg (by simp [hcur])] at heq
    exact .inr ⟨hcur, (Option.some.inj heq).symm⟩

theorem step_socketClosed {k : ℕ} {replaced : Bool}
    (h : s.step (.socketClosed k replaced) = some s') :
    k ∈ s.sockets ∧
      ((s.stopped = true ∨ k ≠ s.connection) ∧ s' = s.finishSocket k ∨
        (s.stopped = false ∧ k = s.connection) ∧
          s' = (s.finishSocket k).onSocketClosed replaced) := by
  obtain ⟨hfrom, heq⟩ := Option.ite_none_right_eq_some.mp h
  refine ⟨hfrom, ?_⟩
  rcases s.ignored_or_current k with hold | hcur
  · rw [if_pos hold] at heq
    exact .inl ⟨hold, (Option.some.inj heq).symm⟩
  · rw [if_neg (by simp [hcur])] at heq
    exact .inr ⟨hcur, (Option.some.inj heq).symm⟩

theorem step_expire {i : ℕ} (h : s.step (.expire i) = some s') :
    ∃ t, s.timers[i]? = some t ∧ t.phase = .pending ∧
      s' = { s with timers := s.timers.modify i fun t => { t with phase := .ready } } := by
  obtain ⟨t, ht, h⟩ := Option.bind_eq_some_iff.mp h
  obtain ⟨hphase, heq⟩ := Option.ite_none_right_eq_some.mp h
  exact ⟨t, ht, hphase, (Option.some.inj heq).symm⟩

/-- The wait at place `i` is over. -/
def takeWait (s : CloudflareDevice) (i : ℕ) : CloudflareDevice :=
  { s with timers := s.timers.eraseIdx i, waits := s.waits.eraseIdx i }

theorem step_handler {i : ℕ} {created down : Bool}
    (h : s.step (.handler i created down) = some s') :
    ∃ t, s.timers[i]? = some t ∧
      (t.phase = .aborted ∧ s' = s.takeWait i ∨
        (t.phase = .ready ∨ t.phase = .late) ∧ s' = (s.takeWait i).onTimer created down t) := by
  obtain ⟨t, ht, h⟩ := Option.bind_eq_some_iff.mp h
  obtain ⟨hphase, h⟩ := Option.ite_none_left_eq_some.mp h
  have heq : (if t.phase = .aborted then s.takeWait i
      else (s.takeWait i).onTimer created down t) = s' := Option.some.inj h
  refine ⟨t, ht, ?_⟩
  cases hcase : t.phase with
  | pending => exact absurd hcase hphase
  | aborted =>
    rw [if_pos hcase] at heq
    exact .inl ⟨rfl, heq.symm⟩
  | ready | late =>
    rw [if_neg (by simp [hcase])] at heq
    exact .inr ⟨by simp, heq.symm⟩

theorem step_localOffer {publication : ℕ} {tracks : Bool}
    (h : s.step (.localOffer publication tracks) = some s') :
    publication ∈ s.peers ∧ s' = { s with posts := s.posts ++ [.offer publication tracks] } := by
  obtain ⟨hpeer, heq⟩ := Option.ite_none_right_eq_some.mp h
  exact ⟨hpeer, (Option.some.inj heq).symm⟩

theorem step_peerConnected {publication : ℕ} (h : s.step (.peerConnected publication) = some s') :
    publication ∈ s.peers ∧
      (publication ≠ s.publication ∧
          s' = { s with connectedPosts := s.connectedPosts ++ [publication] } ∨
        (publication = s.publication ∧ s.isClosed = false) ∧
          s' = { s with
            connectedPosts := s.connectedPosts ++ [publication], isConnected := true }) := by
  obtain ⟨hpeer, h⟩ := Option.ite_none_left_eq_some.mp h
  refine ⟨not_not.mp hpeer, ?_⟩
  by_cases hcur : publication = s.publication
  · rw [if_neg (not_not.mpr hcur)] at h
    obtain ⟨hclosed, heq⟩ := Option.ite_none_left_eq_some.mp h
    exact .inr ⟨⟨hcur, Bool.eq_false_iff.mpr hclosed⟩, (Option.some.inj heq).symm⟩
  · rw [if_pos hcur] at h
    exact .inl ⟨hcur, (Option.some.inj h).symm⟩

theorem step_peerFailed {publication : ℕ} (h : s.step (.peerFailed publication) = some s') :
    publication ∈ s.peers ∧
      (publication ≠ s.publication ∧
          s' = { s with posts := s.posts ++ [.failed publication] } ∨
        publication = s.publication ∧
          s' = { s with posts := s.posts ++ [.failed publication], isConnected := false }) := by
  obtain ⟨hpeer, h⟩ := Option.ite_none_left_eq_some.mp h
  refine ⟨not_not.mp hpeer, ?_⟩
  by_cases hcur : publication = s.publication
  · rw [if_neg (not_not.mpr hcur)] at h
    obtain ⟨-, heq⟩ := Option.ite_none_left_eq_some.mp h
    exact .inr ⟨hcur, (Option.some.inj heq).symm⟩
  · rw [if_pos hcur] at h
    exact .inl ⟨hcur, (Option.some.inj h).symm⟩

theorem step_peerClosed {publication : ℕ} (h : s.step (.peerClosed publication) = some s') :
    s' = { s with isConnected := false, isClosed := true } := by
  obtain ⟨-, heq⟩ := Option.ite_none_right_eq_some.mp h
  exact (Option.some.inj heq).symm

theorem step_post {i : ℕ} (h : s.step (.post i) = some s') :
    ∃ p, s.posts[i]? = some p ∧ s' = { s with posts := s.posts.eraseIdx i }.runPost p := by
  obtain ⟨p, hp, heq⟩ := Option.map_eq_some_iff.mp h
  exact ⟨p, hp, heq.symm⟩

theorem step_connectedPost {i : ℕ} (h : s.step (.connectedPost i) = some s') :
    ∃ publication, s.connectedPosts[i]? = some publication ∧
      s' = { s with connectedPosts := s.connectedPosts.eraseIdx i }.onPeerConnected
        publication := by
  obtain ⟨publication, hp, heq⟩ := Option.map_eq_some_iff.mp h
  exact ⟨publication, hp, heq.symm⟩

end Events

/-! ### What the publishing side consists of -/

/-- Nothing has happened to the connection, the timers and the number of the publication. -/
structure SameFrame (s s' : CloudflareDevice) : Prop where
  stopped : s'.stopped = s.stopped
  reconnectPending : s'.reconnectPending = s.reconnectPending
  connection : s'.connection = s.connection
  socket : s'.socket = s.socket
  tokenRequests : s'.tokenRequests = s.tokenRequests
  sockets : s'.sockets = s.sockets
  timers : s'.timers = s.timers
  publication : s'.publication = s.publication
  acts : s'.acts = s.acts

/-- A relation between states that holds across the steps of which the handlers of the
    worker's messages and of the peers' tasks consist. -/
structure AcrossPublishing (R : CloudflareDevice → CloudflareDevice → Prop) : Prop where
  frame : ∀ {s s'}, SameFrame s s' → R s s'
  trans : ∀ {s t u}, R s t → R t u → R s u
  stopPublishing : ∀ s, R s s.stopPublishing
  stopThenRetry : ∀ s, R s (s.stopPublishing.arm .retry)
  monitorPeer : ∀ s, R s (s.arm (.health s.publication))

namespace AcrossPublishing

variable {R : CloudflareDevice → CloudflareDevice → Prop}

theorem refl (hR : AcrossPublishing R) (s : CloudflareDevice) : R s s :=
  hR.frame ⟨rfl, rfl, rfl, rfl, rfl, rfl, rfl, rfl, rfl⟩

theorem endPublishing (hR : AcrossPublishing R) (s : CloudflareDevice) : R s s.endPublishing :=
  hR.trans (hR.stopPublishing s) (hR.frame ⟨rfl, rfl, rfl, rfl, rfl, rfl, rfl, rfl, rfl⟩)

theorem retryPublishing (hR : AcrossPublishing R) (s : CloudflareDevice) :
    R s s.retryPublishing := by
  unfold CloudflareDevice.retryPublishing
  split
  · exact hR.stopThenRetry s
  · exact hR.refl s

theorem startPublishing (hR : AcrossPublishing R) (s : CloudflareDevice) (created : Bool) :
    R s (s.startPublishing created) := by
  unfold CloudflareDevice.startPublishing
  split
  · have hpeer : R s.stopPublishing { s.stopPublishing with
        peer := true, peers := s.stopPublishing.publication :: s.stopPublishing.peers } :=
      hR.frame ⟨rfl, rfl, rfl, rfl, rfl, rfl, rfl, rfl, rfl⟩
    exact hR.trans (hR.stopPublishing s) (hR.trans hpeer (hR.monitorPeer _))
  · exact hR.trans (hR.stopPublishing s) (hR.retryPublishing _)

theorem onJoined (hR : AcrossPublishing R) (s : CloudflareDevice) (sleeping : Bool) :
    R s (s.onJoined sleeping) := by
  have hjoin : R s { s with unanswered := 0, joined := some (s.connection, sleeping) } :=
    hR.frame ⟨rfl, rfl, rfl, rfl, rfl, rfl, rfl, rfl, rfl⟩
  unfold CloudflareDevice.onJoined
  dsimp only
  split
  · exact hjoin
  · split
    · exact hR.trans hjoin (hR.endPublishing _)
    · split
      · exact hR.trans hjoin (hR.frame ⟨rfl, rfl, rfl, rfl, rfl, rfl, rfl, rfl, rfl⟩)
      · exact hjoin

theorem onOfferError (hR : AcrossPublishing R) (s : CloudflareDevice) (code : ErrorCode) :
    R s (s.onOfferError code) := by
  have hact : R s { s with toCloudflareService := s.countReply.act s.repliedOffer } :=
    hR.frame ⟨rfl, rfl, rfl, rfl, rfl, rfl, rfl, rfl, rfl⟩
  unfold CloudflareDevice.onOfferError
  split
  · exact hR.frame ⟨rfl, rfl, rfl, rfl, rfl, rfl, rfl, rfl, rfl⟩
  · split
    · exact hR.trans hact (hR.endPublishing _)
    · exact hR.trans hact (hR.retryPublishing _)

theorem onMessage (hR : AcrossPublishing R) (s : CloudflareDevice) (m : WorkerMessage) :
    R s (s.onMessage m) := by
  cases m with
  | joined sleeping => exact hR.onJoined s sleeping
  | wake created =>
    have hwant : R s { s with publishing := true } :=
      hR.frame ⟨rfl, rfl, rfl, rfl, rfl, rfl, rfl, rfl, rfl⟩
    exact hR.trans hwant (hR.startPublishing _ created)
  | answer generation =>
    show R s (s.onAnswer generation)
    unfold CloudflareDevice.onAnswer CloudflareService.onAnswer
    split <;> exact hR.frame ⟨rfl, rfl, rfl, rfl, rfl, rfl, rfl, rfl, rfl⟩
  | sleep => exact hR.endPublishing s
  | error request code =>
    show R s (if CloudflareService.isReply request code then s.onOfferError code else s)
    split
    · exact hR.onOfferError s code
    · exact hR.refl s
  | other => exact hR.refl s

theorem runPost (hR : AcrossPublishing R) (s : CloudflareDevice) (p : CloudflarePost) :
    R s (s.runPost p) := by
  cases p with
  | offer publication tracks =>
    show R s (s.onLocalOffer publication tracks)
    unfold CloudflareDevice.onLocalOffer
    split
    · exact hR.refl s
    · split
      · exact hR.retryPublishing s
      · split
        · exact hR.frame ⟨rfl, rfl, rfl, rfl, rfl, rfl, rfl, rfl, rfl⟩
        · exact hR.refl s
  | failed publication =>
    show R s (if s.stopped ∨ publication ≠ s.publication then s else s.retryPublishing)
    split
    · exact hR.refl s
    · exact hR.retryPublishing s

theorem onPeerConnected (hR : AcrossPublishing R) (s : CloudflareDevice) (publication : ℕ) :
    R s (s.onPeerConnected publication) := by
  unfold CloudflareDevice.onPeerConnected
  split
  · exact hR.refl s
  · split
    · exact hR.refl s
    · exact hR.frame ⟨rfl, rfl, rfl, rfl, rfl, rfl, rfl, rfl, rfl⟩

/-- The events in which a peer reports something, and the posted tasks. -/
theorem step (hR : AcrossPublishing R) {s s' : CloudflareDevice} {event : DeviceEvent}
    (hpeer : event.ofPeer = true) (hstep : s.step event = some s') : R s s' := by
  cases event with
  | post i =>
    obtain ⟨p, -, rfl⟩ := step_post hstep
    have htaken : R s { s with posts := s.posts.eraseIdx i } :=
      hR.frame ⟨rfl, rfl, rfl, rfl, rfl, rfl, rfl, rfl, rfl⟩
    exact hR.trans htaken (hR.runPost _ p)
  | connectedPost i =>
    obtain ⟨publication, -, rfl⟩ := step_connectedPost hstep
    have htaken : R s { s with connectedPosts := s.connectedPosts.eraseIdx i } :=
      hR.frame ⟨rfl, rfl, rfl, rfl, rfl, rfl, rfl, rfl, rfl⟩
    exact hR.trans htaken (hR.onPeerConnected _ publication)
  | localOffer publication tracks =>
    obtain ⟨-, rfl⟩ := step_localOffer hstep
    exact hR.frame ⟨rfl, rfl, rfl, rfl, rfl, rfl, rfl, rfl, rfl⟩
  | peerConnected publication =>
    obtain ⟨-, ⟨-, rfl⟩ | ⟨-, rfl⟩⟩ := step_peerConnected hstep
    · exact hR.frame ⟨rfl, rfl, rfl, rfl, rfl, rfl, rfl, rfl, rfl⟩
    · exact hR.frame ⟨rfl, rfl, rfl, rfl, rfl, rfl, rfl, rfl, rfl⟩
  | peerFailed publication =>
    obtain ⟨-, ⟨-, rfl⟩ | ⟨-, rfl⟩⟩ := step_peerFailed hstep
    · exact hR.frame ⟨rfl, rfl, rfl, rfl, rfl, rfl, rfl, rfl, rfl⟩
    · exact hR.frame ⟨rfl, rfl, rfl, rfl, rfl, rfl, rfl, rfl, rfl⟩
  | peerClosed publication =>
    obtain rfl := step_peerClosed hstep
    exact hR.frame ⟨rfl, rfl, rfl, rfl, rfl, rfl, rfl, rfl, rfl⟩
  | _ => cases hpeer

end AcrossPublishing

end CloudflareDevice

end PiWebrtc.Signaling
