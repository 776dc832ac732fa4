import PiWebrtc.Lib.Machine

namespace PiWebrtc.Signaling

open Transition

/-!
# The WebSocket client

One connection, driven by asynchronous operations whose handlers run one after another on
the thread of the `io_context`.  The methods are called from outside or from within a
callback: while a callback runs, `stack` holds what its handler does when it returns, and no
other handler runs.

The streams are not part of the source.  Their operations may finish in any order and with
any outcome, and a timer that was cancelled or restarted may have fired just before.
-/

/-- `WebSocketClient::Frame`. -/
structure WsFrame where
  data : String
  text : Bool
  deriving DecidableEq, Repr

/-- `WsUrl`, as `ParseWsUrl` fills it in. -/
structure WsUrl where
  useTls : Bool
  host : String
  port : ℕ
  target : String
  deriving DecidableEq, Repr

/-- An asynchronous operation that was started and whose handler has not run. -/
inductive Pending where
  /-- The task that `Open` posts for a url it cannot parse. -/
  | badUrl
  | resolve
  | connect
  | tlsHandshake
  | handshake
  | read
  | write (frame : WsFrame)
  | close
  | pingTimer
  | silenceTimer
  deriving DecidableEq, Repr

/-- The frame that an operation writes. -/
def Pending.frame : Pending → Option WsFrame
  | .write f => some f
  | _ => none

/-- How an operation finishes. -/
inductive WsOutcome where
  | ok
  | failed (message : String)
  /-- The TLS server name cannot be set. -/
  | noServerName
  /-- A frame was read. -/
  | message (data : String) (text : Bool)
  /-- The server has closed the connection. -/
  | closed (code : ℕ) (reason : String)
  deriving DecidableEq, Repr

/-- What is left of a handler when the callback that it runs returns. -/
inductive Continuation where
  | afterOpen
  | afterMessage
  | afterClose
  deriving DecidableEq, Repr

/-- The members of `WebSocketClient` (of the callbacks whether they are set), the operations
    not finished, and history: the frames that were accepted, handed to the stream and
    written, how often the closing handshake was started, and the calls of OnClose. -/
structure WebSocketClient where
  onOpen : Bool
  onMessage : Bool
  onClose : Bool
  host : String := ""
  hostHeader : String := ""
  target : String := ""
  port : ℕ := 0
  useTls : Bool := false
  writeQueue : List WsFrame := []
  isOpen : Bool := false
  writing : Bool := false
  closing : Bool := false
  finished : Bool := false
  closeCode : ℕ := 1000
  closeReason : String := ""
  pending : List Pending := []
  stack : List Continuation := []
  accepted : List WsFrame := []
  started : List WsFrame := []
  written : List WsFrame := []
  closeStarts : ℕ := 0
  closed : List (ℕ × String) := []
  deriving DecidableEq

namespace WebSocketClient

/-- Start an operation that is not a write. -/
def start (s : WebSocketClient) (op : Pending) : WebSocketClient :=
  { s with pending := s.pending ++ [op] }

/-- Run a callback. -/
def callback (s : WebSocketClient) (k : Continuation) : WebSocketClient :=
  { s with stack := k :: s.stack }

/-- `Finish`, up to the call of OnClose.  A write in progress still reads the first frame. -/
def shut (s : WebSocketClient) : WebSocketClient :=
  { s with
    finished := true
    isOpen := false
    writeQueue := if s.writing then s.writeQueue.take 1 else []
    onOpen := false
    onMessage := false
    onClose := false }

/-- `Finish`. -/
def finish (s : WebSocketClient) (code : ℕ) (reason : String) : WebSocketClient :=
  if s.finished then s
  else if s.onClose then
    { s.shut.callback .afterClose with closed := s.closed ++ [(code, reason)] }
  else s.shut

/-- `host_header_`: the port is left out where it is the default. -/
def headerOf (url : WsUrl) : String :=
  (if ':' ∈ url.host.toList then "[" ++ url.host ++ "]" else url.host) ++
    if (url.port = 80 ∧ url.useTls = false) ∨ (url.port = 443 ∧ url.useTls = true) then ""
    else ":" ++ toString url.port

/-- `Open`, of a url that was parsed or not. -/
def «open» (s : WebSocketClient) : Option WsUrl → WebSocketClient
  -- reported on the next turn
  | none => s.start .badUrl
  | some url =>
    { s.start .resolve with
      host := url.host
      hostHeader := headerOf url
      target := url.target
      port := url.port
      useTls := url.useTls }

/-- `DoClose`. -/
def doClose (s : WebSocketClient) : WebSocketClient :=
  { s.start .close with closeStarts := s.closeStarts + 1 }

/-- `DoWrite`. -/
def doWrite (s : WebSocketClient) : WebSocketClient :=
  if s.writing ∨ s.finished ∨ s.isOpen = false then s
  else
    match s.writeQueue with
    | [] => if s.closing then s.doClose else s
    | f :: _ => { s.start (.write f) with writing := true, started := s.started ++ [f] }

/-- `write_queue_.push_back`. -/
def push (s : WebSocketClient) (f : WsFrame) : WebSocketClient :=
  { s with writeQueue := s.writeQueue ++ [f], accepted := s.accepted ++ [f] }

/-- `Queue`. -/
def queue (s : WebSocketClient) (data : String) (text : Bool) : WebSocketClient :=
  if s.finished ∨ s.closing then s
  -- not open yet: the frame is dropped
  else if s.isOpen = false then s
  else (s.push ⟨data, text⟩).doWrite

/-- `Close`, its first lines. -/
def beginClose (s : WebSocketClient) (code : ℕ) (reason : String) : WebSocketClient :=
  { s with closing := true, closeCode := code, closeReason := reason }

/-- `Close`. -/
def close (s : WebSocketClient) (code : ℕ) (reason : String) : WebSocketClient :=
  if s.finished ∨ s.closing then s
  else if s.isOpen = false then
    (s.beginClose code reason).finish code
      (if reason = "" then "closed before it opened" else reason)
  -- the close frame goes out after the queue drains
  else (s.beginClose code reason).doWrite

/-- `OnHandshake`, up to the call of OnOpen: the timers are started, and the first read. -/
def opened (s : WebSocketClient) : WebSocketClient :=
  { s with isOpen := true, pending := s.pending ++ [.pingTimer, .silenceTimer, .read] }

/-- `OnHandshake`, without an error. -/
def onHandshake (s : WebSocketClient) : WebSocketClient :=
  if s.onOpen then s.opened.callback .afterOpen else s.opened.doWrite

/-- The handler of a read that got a frame. -/
def onRead (s : WebSocketClient) (text : Bool) : WebSocketClient :=
  if text = false ∧ s.onMessage then (s.start .silenceTimer).callback .afterMessage
  else (s.start .silenceTimer).start .read

/-- The handler of a write, its first line. -/
def endWrite (s : WebSocketClient) : WebSocketClient := { s with writing := false }

/-- `write_queue_.pop_front`, of the frame that was written. -/
def pop (s : WebSocketClient) (f : WsFrame) : WebSocketClient :=
  { s with writeQueue := s.writeQueue.tail, written := s.written ++ [f] }

/-- The handler of a write. -/
def onWrite (s : WebSocketClient) (f : WsFrame) (error : Option String) : WebSocketClient :=
  if s.finished then { s.endWrite with writeQueue := [] }
  else
    match error with
    | some message => s.endWrite.finish 0 ("could not send: " ++ message)
    | none => (s.endWrite.pop f).doWrite

/-- The handler of an operation; `none` if it cannot finish so.  `Finish` does nothing if the
    client has finished, so the handlers' own check for it is left out where nothing but
    `Finish` follows. -/
def handle (s : WebSocketClient) : Pending → WsOutcome → Option WebSocketClient
  | .badUrl, .ok => some (s.finish 0 "the url is not a ws:// or wss:// url")
  | .resolve, .ok => some (if s.finished then s else s.start .connect)
  | .resolve, .failed message =>
    some (s.finish 0 ("could not resolve " ++ s.host ++ ": " ++ message))
  | .connect, .ok =>
    some (if s.finished then s else s.start (if s.useTls then .tlsHandshake else .handshake))
  | .connect, .noServerName =>
    if s.useTls then some (s.finish 0 "could not set the TLS server name") else none
  | .connect, .failed message =>
    some (s.finish 0 ("could not connect to " ++ s.hostHeader ++ ": " ++ message))
  | .tlsHandshake, .ok => some (if s.finished then s else s.start .handshake)
  | .tlsHandshake, .failed message =>
    some (s.finish 0 ("TLS handshake with " ++ s.host ++ " failed: " ++ message))
  | .handshake, .ok => some (if s.finished then s else s.onHandshake)
  | .handshake, .failed message =>
    some (s.finish 0 ("WebSocket handshake with " ++ s.hostHeader ++ " failed: " ++ message))
  | .read, .message _ text => some (if s.finished then s else s.onRead text)
  | .read, .closed code reason =>
    some (s.finish code (if reason = "" then "closed by the server" else reason))
  | .read, .failed message =>
    some (if s.closing then s.finish s.closeCode s.closeReason
      else s.finish 0 ("connection lost: " ++ message))
  | .write f, .ok => some (s.onWrite f none)
  | .write f, .failed message => some (s.onWrite f (some message))
  | .close, .ok => some (s.finish s.closeCode s.closeReason)
  | .close, .failed _ => some (s.finish s.closeCode s.closeReason)
  | .pingTimer, .ok =>
    some (if s.finished ∨ s.closing then s else (s.queue "ping" true).start .pingTimer)
  | .silenceTimer, .ok => some (s.finish 0 "no pong for 35 seconds")
  -- the timer was cancelled
  | .pingTimer, .failed _ => some s
  | .silenceTimer, .failed _ => some s
  | _, _ => none

/-- What follows a callback. -/
def resume (s : WebSocketClient) : Continuation → WebSocketClient
  | .afterOpen => s.doWrite
  | .afterMessage => if s.finished then s else s.start .read
  | .afterClose => s

/-- An operation leaves the list. -/
def settle (s : WebSocketClient) (i : ℕ) : WebSocketClient :=
  { s with pending := s.pending.eraseIdx i }

end WebSocketClient

/-- A method is called, the callback that runs returns, or operation `i` finishes. -/
inductive WsEvent where
  | open (url : Option WsUrl)
  | send (data : String)
  | close (code : ℕ) (reason : String)
  | ret
  | finish (i : ℕ) (outcome : WsOutcome)
  deriving DecidableEq, Repr

/-- One event. -/
def WebSocketClient.step (s : WebSocketClient) : WsEvent → Option WebSocketClient
  | .open url => some (s.open url)
  | .send data => some (s.queue data false)
  | .close code reason => some (s.close code reason)
  | .ret =>
    match s.stack with
    | [] => none
    | k :: rest => some ({ s with stack := rest }.resume k)
  | .finish i outcome =>
    -- the thread is not in a callback
    if s.stack = [] then (s.pending[i]?).bind fun op => (s.settle i).handle op outcome else none

/-- A new client with the given callbacks, and all orders of events. -/
def webSocketClient (onOpen onMessage onClose : Bool) : Machine WebSocketClient WsEvent where
  init := { onOpen := onOpen, onMessage := onMessage, onClose := onClose }
  step := WebSocketClient.step

end PiWebrtc.Signaling
