import PiWebrtc.Lib.Machine

namespace PiWebrtc.Signaling

open Transition

/-!
# Publishing through the Cloudflare worker

The device keeps one connection to the worker and, between `wake` and `sleep`, one peer
connection, its publication.  Connections and publications are numbered; what was started
for an older one compares the numbers and returns.  All handlers run one after another on
the thread of the `io_context`.

The worker replies to the offers that were sent on a connection, each once and in their
order, with an answer or an error.  Everything else it may send at any time.
-/

/-- `protocol::ErrorCode`, as far as the service looks at it. -/
inductive ErrorCode where
  | noDataChannels
  | wakeStale
  | other
  deriving DecidableEq, Repr

/-- A connection of the `WebSocketClient`. -/
structure WorkerSocket where
  connection : ℕ
  isOpen : Bool
  deriving DecidableEq, Repr

/-- A timer that was started. -/
inductive CloudflareWait where
  | reconnect
  | retry
  | health (publication : ℕ)
  deriving DecidableEq, Repr

/-- A task that a peer's callback has posted, with the publication of the peer. -/
inductive CloudflarePost where
  /-- OnLocalSdp: an offer, which may have no tracks. -/
  | offer (publication : ℕ) (tracks : Bool)
  /-- OnConnectionState: the peer connection has failed. -/
  | failed (publication : ℕ)
  deriving DecidableEq, Repr

/-- An offer that was sent: the how-manieth it was, and its publication. -/
structure SentOffer where
  id : ℕ
  publication : ℕ
  deriving DecidableEq, Repr

/-- A reply that was acted upon: the offer that it replies to, and at that moment the
    current publication and the last offer that was sent for it. -/
structure ActedReply where
  offer : SentOffer
  publication : ℕ
  last : Option SentOffer
  deriving DecidableEq, Repr

/-- The members of `CloudflareService`, the token requests, timers and tasks not finished,
    and history: the offers sent on this connection that the worker has not replied to, all
    offers sent, the last one first, the publications that got a peer, and the replies acted
    upon.  What only delays a retry or tells the worker that the stream is ready is left
    out. -/
structure CloudflareService where
  stopped : Bool := false
  publishing : Bool := false
  peer : Bool := false
  generation : ℕ := 0
  unanswered : ℕ := 0
  offerSent : Bool := false
  reconnectPending : Bool := false
  connection : ℕ := 0
  publication : ℕ := 0
  socket : Option WorkerSocket := none
  tokenRequests : List ℕ := []
  waits : List CloudflareWait := []
  posts : List CloudflarePost := []
  outstanding : List SentOffer := []
  sent : List SentOffer := []
  peers : List ℕ := []
  acted : List ActedReply := []
  deriving DecidableEq, Repr

namespace CloudflareService

/-- Start a timer. -/
def wait (s : CloudflareService) (w : CloudflareWait) : CloudflareService :=
  { s with waits := s.waits ++ [w] }

/-! ### The connection to the worker -/

/-- `StartConnection`, with `RequestToken`. -/
def startConnection (s : CloudflareService) : CloudflareService :=
  if s.stopped then s
  else
    { s with
      reconnectPending := false
      connection := s.connection + 1
      tokenRequests := s.tokenRequests ++ [s.connection + 1] }

/-- `OpenSocket`: nothing was sent on the new connection. -/
def openSocket (s : CloudflareService) (connection : ℕ) : CloudflareService :=
  { s with socket := some ⟨connection, false⟩, outstanding := [] }

/-- `DropSocket`. -/
def dropSocket (s : CloudflareService) : CloudflareService := { s with socket := none }

/-- `ScheduleReconnect`: the peer connection stays. -/
def scheduleReconnect (s : CloudflareService) : CloudflareService :=
  if s.stopped ∨ s.reconnectPending then s
  else
    { s.dropSocket with
      reconnectPending := true
      connection := s.connection + 1
      waits := s.waits ++ [.reconnect] }

/-- The response to a token request; `usable` tells whether it has a token and a url. -/
def onToken (s : CloudflareService) (connection : ℕ) (usable : Bool) : CloudflareService :=
  if s.stopped ∨ connection ≠ s.connection then s
  else if usable then s.openSocket connection
  else s.scheduleReconnect

/-- `Send` gets a request out. -/
def canSend (s : CloudflareService) : Bool := s.socket.any WorkerSocket.isOpen

/-! ### Publishing -/

/-- `StopPublishing`. -/
def stopPublishing (s : CloudflareService) : CloudflareService :=
  { s with publication := s.publication + 1, peer := false, generation := 0, offerSent := false }

/-- The worker does not want this device to publish. -/
def endPublishing (s : CloudflareService) : CloudflareService :=
  { s.stopPublishing with publishing := false }

/-- `RetryPublishing`. -/
def retryPublishing (s : CloudflareService) : CloudflareService :=
  if s.publishing then s.stopPublishing.wait .retry else s

/-- `StartPublishing`, when the peer was created: it is asked for an offer. -/
def publish (s : CloudflareService) : CloudflareService :=
  { s with
    peer := true
    peers := s.publication :: s.peers
    waits := s.waits ++ [.health s.publication] }

/-- `StartPublishing`; `created` tells whether the conductor could create the peer. -/
def startPublishing (s : CloudflareService) (created : Bool) : CloudflareService :=
  if created then s.stopPublishing.publish else s.stopPublishing.retryPublishing

/-- An offer is sent. -/
def sendOffer (s : CloudflareService) : CloudflareService :=
  { s with
    unanswered := s.unanswered + 1
    offerSent := true
    outstanding := s.outstanding ++ [⟨s.sent.length, s.publication⟩]
    sent := ⟨s.sent.length, s.publication⟩ :: s.sent }

/-- The task with a local offer. -/
def onLocalOffer (s : CloudflareService) (publication : ℕ) (tracks : Bool) : CloudflareService :=
  if s.stopped ∨ publication ≠ s.publication then s
  else if tracks = false then s.retryPublishing
  else if s.canSend then s.sendOffer
  else s

/-- A posted task runs.  `OnPeerState` retries when the peer connection has failed. -/
def runPost (s : CloudflareService) : CloudflarePost → CloudflareService
  | .offer publication tracks => s.onLocalOffer publication tracks
  | .failed publication =>
    if s.stopped ∨ publication ≠ s.publication then s else s.retryPublishing

/-- A timer has fired.  `created` is for the peer of a retry, `down` tells the health check
    that the peer connection is gone or was down for too long. -/
def onTimer (s : CloudflareService) (created down : Bool) : CloudflareWait → CloudflareService
  | .reconnect => s.startConnection
  | .retry => if s.stopped ∨ s.publishing = false then s else s.startPublishing created
  | .health publication =>
    if s.stopped ∨ publication ≠ s.publication then s
    else if s.peer = false ∨ down then s.retryPublishing
    else s.wait (.health publication)

/-- `OnSocketClosed`; `replaced` for the close codes that say that another connection uses
    this device's id. -/
def onSocketClosed (s : CloudflareService) (replaced : Bool) : CloudflareService :=
  if replaced then s.dropSocket.endPublishing.scheduleReconnect
  else s.dropSocket.scheduleReconnect

/-- `Disconnect`. -/
def disconnect (s : CloudflareService) : CloudflareService :=
  { s.endPublishing.dropSocket with stopped := true, connection := s.connection + 1 }

/-! ### Worker messages -/

/-- `OnJoined`; `sleeping` is the state that the worker reports. -/
def onJoined (s : CloudflareService) (sleeping : Bool) : CloudflareService :=
  -- replies to offers on the old connection are lost
  if s.publishing = true ∧ sleeping = true then { s with unanswered := 0 }.endPublishing
  else { s with unanswered := 0 }

/-- `OnWake`. -/
def onWake (s : CloudflareService) (created : Bool) : CloudflareService :=
  { s with publishing := true }.startPublishing created

/-- A reply has come: `unanswered_ = max(0, unanswered_ - 1)`, and the worker's next reply is
    to the next offer. -/
def countReply (s : CloudflareService) : CloudflareService :=
  { s with unanswered := s.unanswered - 1, outstanding := s.outstanding.tail }

/-- The last offer that was sent for the current publication. -/
def lastOffer (s : CloudflareService) : Option SentOffer :=
  s.sent.find? fun o => o.publication = s.publication

/-- Note that the reply to `offer` is acted upon. -/
def act (s : CloudflareService) (offer : SentOffer) : CloudflareService :=
  { s with acted := ⟨offer, s.publication, s.lastOffer⟩ :: s.acted }

/-- `OnAnswer`, to `offer`. -/
def onAnswer (s : CloudflareService) (offer : SentOffer) (generation : ℕ) : CloudflareService :=
  if s.peer = false ∨ s.offerSent = false ∨ 0 < s.unanswered - 1 then s.countReply
  else { s.countReply.act offer with generation := generation }

/-- The error replies to an offer.  NO_DATA_CHANNELS comes after the answer. -/
def isReply (request : String) (code : ErrorCode) : Bool :=
  request = "offer" && code ≠ .noDataChannels

/-- `OnError`, of a reply to `offer`. -/
def onOfferError (s : CloudflareService) (offer : SentOffer) (code : ErrorCode) :
    CloudflareService :=
  if s.offerSent = false ∨ 0 < s.unanswered - 1 then s.countReply
  else if code = .wakeStale then (s.countReply.act offer).endPublishing
  else (s.countReply.act offer).retryPublishing

/-- The messages come on the connection that the service has. -/
def receives (s : CloudflareService) : Bool :=
  !s.stopped && s.socket = some ⟨s.connection, true⟩

end CloudflareService

/-- What happens: calls of the service, what becomes of its requests, its timers and its
    socket, the worker's messages, and the callbacks of the peers. -/
inductive CloudflareEvent where
  | connect
  | disconnect
  | token (i : ℕ) (usable : Bool)
  | opened
  | closed (replaced : Bool)
  | timer (i : ℕ) (fired created down : Bool)
  | joined (sleeping : Bool)
  | wake (created : Bool)
  | sleep
  | answer (generation : ℕ)
  | error (request : String) (code : ErrorCode)
  | localOffer (publication : ℕ) (tracks : Bool)
  | peerFailed (publication : ℕ)
  | post (i : ℕ)
  deriving DecidableEq, Repr

open CloudflareService in
/-- One event. -/
def CloudflareService.step (s : CloudflareService) : CloudflareEvent → Option CloudflareService
  | .connect => some s.startConnection
  | .disconnect => some s.disconnect
  | .token i usable =>
    (s.tokenRequests[i]?).map fun connection =>
      { s with tokenRequests := s.tokenRequests.eraseIdx i }.onToken connection usable
  | .opened =>
    s.socket.map fun socket => { s with socket := some { socket with isOpen := true } }
  | .closed replaced =>
    -- callbacks of an older connection are ignored
    if s.stopped = false ∧ s.socket.any (fun socket => socket.connection = s.connection) then
      some (s.onSocketClosed replaced)
    else none
  | .timer i fired created down =>
    -- a timer that was cancelled does nothing
    (s.waits[i]?).map fun w =>
      if fired then { s with waits := s.waits.eraseIdx i }.onTimer created down w
      else { s with waits := s.waits.eraseIdx i }
  | .joined sleeping => if s.receives then some (s.onJoined sleeping) else none
  | .wake created => if s.receives then some (s.onWake created) else none
  | .sleep => if s.receives then some s.endPublishing else none
  | .answer generation =>
    if s.receives then s.outstanding.head?.map fun offer => s.onAnswer offer generation else none
  | .error request code =>
    if s.receives = false then none
    else if isReply request code then s.outstanding.head?.map fun offer => s.onOfferError offer code
    else some s
  | .localOffer publication tracks =>
    if publication ∈ s.peers then some { s with posts := s.posts ++ [.offer publication tracks] }
    else none
  | .peerFailed publication =>
    if publication ∈ s.peers then some { s with posts := s.posts ++ [.failed publication] }
    else none
  | .post i =>
    (s.posts[i]?).map fun p => { s with posts := s.posts.eraseIdx i }.runPost p

/-- A service that does nothing yet, and all orders of events. -/
def cloudflareService : Machine CloudflareService CloudflareEvent where
  init := {}
  step := CloudflareService.step

end PiWebrtc.Signaling
