import PiWebrtc.Lib.Threads

namespace PiWebrtc.Ipc

open Transition

/-!
# The latest message

`PublishLatest` sets the latest message and sends it to every client that has read what it
was sent before; a client that has not gets the message that is the latest at the next
flush.  The accept thread flushes, too, once it has registered a client.

Clients are named by their connections, in the order of accepting; `UnixSocketServer` deals
with their descriptor numbers.  `mutex_` is held over several operations here, since the
clients may read between the system calls of one flush: `locked` tells whether a flush has
it, and the other sections wait for that.  The message callbacks and `Stop` are left out, and
versions are natural numbers: nobody publishes 2^64 messages.
-/

/-- What came of the last flush for a client. -/
inductive FlushResult where
  | upToDate
  | unread
  | blocked
  | sent
  deriving DecidableEq, Repr

/-- An entry of `clients_`, with the connection that it is for and, as history, what came of
    its last flush and how much was unread then. -/
structure LatestClient where
  conn : ℕ
  sentVersion : ℕ := 0
  lastFlush : Option FlushResult := none
  unreadThen : ℕ := 0
  deriving DecidableEq, Repr

/-- A connection: the bytes that the server sent and how many of them the client has read, and
    whether a flush dropped it. -/
structure Connection where
  sent : List UInt8 := []
  read : ℕ := 0
  dropped : Bool := false
  deriving DecidableEq, Repr

/-- The server, the connections, and, as history, the messages that were published. -/
structure LatestServer where
  latest : List UInt8 := []
  latestVersion : ℕ := 0
  clients : List LatestClient := []
  locked : Bool := false
  connections : List Connection := []
  published : List (List UInt8) := []
  deriving DecidableEq, Repr

/-- The operations.  A flush carries the clients that come next, and those that it has
    dropped. -/
inductive LatestOp where
  /-- `PublishLatest`: the message is set, under `mutex_`. -/
  | setLatest (message : List UInt8)
  /-- `SendToAll`: `mutex_` is taken. -/
  | flush
  /-- `SendLatest`, as far as the check of what is unread. -/
  | checkUnread (conn : ℕ) (rest stale : List ℕ)
  /-- `SendLatest`: `send`. -/
  | send (conn : ℕ) (rest stale : List ℕ)
  /-- `SendToAll`: `mutex_` is released. -/
  | unlock (stale : List ℕ)
  | shutdownStale (conn : ℕ)
  | accept
  /-- `AcceptLoop`: the client is registered and its reader started, under `mutex_`. -/
  | register (conn : ℕ)
  /-- `HandleClient`: `read`. -/
  | read (conn : ℕ)
  /-- `HandleClient`: the client is taken out, under `mutex_`. -/
  | leave (conn : ℕ)
  /-- The client reads `n` bytes. -/
  | clientRead (conn n : ℕ)
  deriving DecidableEq, Repr

/-- How a system call ends; `sent n` is a `send` that took `n` bytes. -/
inductive LatestOutcome where
  | done
  | failed
  | wouldBlock
  | sent (n : ℕ)
  deriving DecidableEq, Repr

/-- The calls from outside, and the clients' reads. -/
inductive LatestCall where
  | publish (message : List UInt8)
  | clientRead (conn n : ℕ)
  deriving DecidableEq, Repr

namespace LatestServer

/-- The entry of a client. -/
def client (r : LatestServer) (conn : ℕ) : Option LatestClient :=
  r.clients.find? fun c => c.conn = conn

/-- What is unread on a connection (`SIOCOUTQ`). -/
def unread (r : LatestServer) (conn : ℕ) : ℕ :=
  match r.connections[conn]? with
  | none => 0
  | some k => k.sent.length - k.read

/-- What a flush did for a client that had so much unread. -/
def flushed (r : LatestServer) (conn : ℕ) (result : FlushResult) (unread : ℕ) : LatestServer :=
  { r with clients := r.clients.map fun c =>
      if c.conn = conn then { c with lastFlush := some result, unreadThen := unread } else c }

/-- `send` took the first `n` bytes of the latest message. -/
def write (r : LatestServer) (conn n : ℕ) : LatestServer :=
  { r with connections := r.connections.modify conn fun k =>
      { k with sent := k.sent ++ r.latest.take n } }

/-- The client has been sent the latest message. -/
def setSent (r : LatestServer) (conn : ℕ) : LatestServer :=
  { r with clients := r.clients.map fun c =>
      if c.conn = conn then { c with sentVersion := r.latestVersion } else c }

/-- The client is taken out of `clients_`. -/
def erase (r : LatestServer) (conn : ℕ) : LatestServer :=
  { r with clients := r.clients.filter fun c => c.conn ≠ conn }

/-- The flush drops the client. -/
def drop (r : LatestServer) (conn : ℕ) : LatestServer :=
  { r.erase conn with
    connections := r.connections.modify conn fun k => { k with dropped := true } }

end LatestServer

/-- How a flush goes on. -/
def nextClient (rest stale : List ℕ) : LatestOp :=
  match rest with
  | [] => .unlock stale
  | conn :: rest => .checkUnread conn rest stale

/-- Execute one operation. -/
def latestExec (op : LatestOp) (x : LatestOutcome) (s : Threads LatestServer LatestOp) :
    Option (Effect LatestServer LatestOp) :=
  let r := s.shared
  match op with
  | .setLatest message =>
    if r.locked then none
    else
      some { shared := { r with
               latest := message
               latestVersion := r.latestVersion + 1
               published := r.published ++ [message] }
             next := [.flush] }
  | .flush =>
    if r.locked then none
    else
      some { shared := { r with locked := true }
             next := [nextClient (r.clients.map LatestClient.conn) []] }
  | .checkUnread conn rest stale =>
    match r.client conn with
    | none => some { shared := r, next := [nextClient rest stale] }
    | some c =>
      if r.latestVersion = 0 ∨ c.sentVersion = r.latestVersion then
        some { shared := r.flushed conn .upToDate (r.unread conn), next := [nextClient rest stale] }
      else if x = .failed then
        some { shared := r.drop conn, next := [nextClient rest (stale ++ [conn])] }
      else if 0 < r.unread conn then
        some { shared := r.flushed conn .unread (r.unread conn), next := [nextClient rest stale] }
      else some { shared := r, next := [.send conn rest stale] }
  | .send conn rest stale =>
    match x with
    | .sent n =>
      if r.latest.length < n then none
      else if n = r.latest.length then
        some { shared := ((r.write conn n).setSent conn).flushed conn .sent (r.unread conn)
               next := [nextClient rest stale] }
      -- a short write would leave half a message behind
      else
        some { shared := (r.write conn n).drop conn, next := [nextClient rest (stale ++ [conn])] }
    | .wouldBlock =>
      some { shared := r.flushed conn .blocked (r.unread conn), next := [nextClient rest stale] }
    | _ => some { shared := r.drop conn, next := [nextClient rest (stale ++ [conn])] }
  | .unlock stale => some { shared := { r with locked := false }, next := stale.map .shutdownStale }
  | .shutdownStale _ => some { shared := r }
  | .accept =>
    if x = .failed then some { shared := r, next := [.accept] }
    else
      some { shared := { r with connections := r.connections ++ [{}] }
             next := [.register r.connections.length] }
  | .register conn =>
    if r.locked then none
    else
      some { shared := { r with clients := r.clients ++ [{ conn := conn }] }
             next := [.flush, .accept]
             spawn := [[.read conn]] }
  -- the reader leaves its loop when `read` fails or the connection has ended
  | .read conn => some { shared := r, next := if x = .failed then [.leave conn] else [.read conn] }
  | .leave conn => if r.locked then none else some { shared := r.erase conn }
  | .clientRead conn n =>
    if n ≤ r.unread conn then
      some { shared := { r with connections := r.connections.modify conn fun k =>
               { k with read := k.read + n } } }
    else none

/-- A server that was just started. -/
def latestCode : Code LatestServer LatestOp LatestOutcome LatestCall where
  init := { shared := {}, todo := [[.accept]] }
  entry call _ :=
    match call with
    | .publish message => some [.setLatest message]
    | .clientRead conn n => some [.clientRead conn n]
  exec := latestExec

end PiWebrtc.Ipc
