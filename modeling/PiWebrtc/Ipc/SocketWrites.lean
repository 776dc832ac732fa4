import PiWebrtc.Ipc.UnixSocketServer

namespace PiWebrtc.Ipc

open Transition

/-!
# Writes to all clients

`Write` sends one message to every client, with as many calls of `send` as it takes; a client
to which a `send` fails is dropped.  `SendToAll` has `mutex_` for all of that, so writers wait
for each other; clients are accepted, read and leave meanwhile.

As in `PublishLatest`, `locked` tells whether a `SendToAll` has `mutex_`, and the sections of
the other threads wait for that.  A `send` goes to whatever its descriptor number names.
Nothing is published here, so `FlushLatest` sends nothing; `Stop` and the message callbacks are
left out.
-/

/-- A connection: the bytes that the server sent, and how many of them the client has read.
    The rest is history: how many messages were written before the client was registered, and
    whether a message could not be sent whole. -/
structure SocketStream where
  sent : List UInt8 := []
  read : ℕ := 0
  since : ℕ := 0
  cut : Bool := false
  deriving DecidableEq, Repr

/-- What the client has received. -/
def SocketStream.received (k : SocketStream) : List UInt8 := k.sent.take k.read

/-- The clients and the descriptor table of the kernel, the connections in the order of
    accepting, and, as history, the messages in the order in which their writers got
    `mutex_`. -/
structure WriteServer where
  clients : List Client := []
  table : ℕ → Option Holder := fun _ => none
  locked : Bool := false
  streams : List SocketStream := []
  written : List (List UInt8) := []

/-- The operations.  A `SendToAll` carries the clients that come next, and those that it has
    dropped. -/
inductive WriteOp where
  /-- `SendToAll`: `mutex_` is taken. -/
  | write (message : List UInt8)
  /-- `WriteAll`: one turn of the loop, with `sent` bytes sent before. -/
  | writeAll (message : List UInt8) (k : Client) (sent : ℕ) (rest stale : List Client)
  /-- `SendToAll`: `mutex_` is released. -/
  | unlock (stale : List Client)
  | shutdownStale (k : Client)
  | accept
  /-- `AcceptLoop`: the client is registered and its reader started, under `mutex_`. -/
  | register (k : Client)
  /-- `AcceptLoop`: `FlushLatest`. -/
  | flush
  /-- `HandleClient`: `read`. -/
  | read (k : Client)
  /-- `HandleClient`: the client is taken out, under `mutex_`. -/
  | leave (k : Client)
  /-- `HandleClient`: `close`. -/
  | close (k : Client)
  /-- The client reads `n` bytes. -/
  | clientRead (conn n : ℕ)
  /-- The rest of the process opens or closes a descriptor. -/
  | foreignOpen (fd : ℕ)
  | foreignClose (fd : ℕ)
  deriving DecidableEq, Repr

/-- How a system call ends; `order ks` is the order in which `clients_` is walked. -/
inductive WriteOutcome where
  | done
  | failed
  | interrupted
  | sent (n : ℕ)
  | accepted (fd : ℕ)
  | order (ks : List Client)
  deriving DecidableEq, Repr

/-- The calls from outside, and the clients' reads. -/
inductive WriteCall where
  | write (message : List UInt8)
  | clientRead (conn n : ℕ)
  | foreignOpen (fd : ℕ)
  | foreignClose (fd : ℕ)
  deriving DecidableEq, Repr

namespace WriteServer

/-- `send` took these bytes. -/
def send (r : WriteServer) (k : Client) (bytes : List UInt8) : WriteServer :=
  match r.table k.fd with
  | some (.client conn) =>
    { r with streams := r.streams.modify conn fun c => { c with sent := c.sent ++ bytes } }
  | _ => r

/-- The client is taken out of `clients_`, since a message could not be sent whole. -/
def drop (r : WriteServer) (k : Client) : WriteServer :=
  { r with
    clients := r.clients.erase k
    streams := r.streams.modify k.conn fun c => { c with cut := true } }

/-- `accept` returned `fd`. -/
def accept (r : WriteServer) (fd : ℕ) : WriteServer :=
  { r with
    table := Function.update r.table fd (some (.client r.streams.length))
    streams := r.streams ++ [{}] }

/-- The client gets its entry. -/
def register (r : WriteServer) (k : Client) : WriteServer :=
  { r with
    clients := k :: r.clients
    streams := r.streams.modify k.conn fun c => { c with since := r.written.length } }

/-- The client reads `n` bytes. -/
def clientRead (r : WriteServer) (conn n : ℕ) : WriteServer :=
  { r with streams := r.streams.modify conn fun c => { c with read := c.read + n } }

end WriteServer

/-- How `SendToAll` goes on. -/
def nextWrite (message : List UInt8) (rest stale : List Client) : WriteOp :=
  match rest with
  | [] => .unlock stale
  | k :: rest => .writeAll message k 0 rest stale

/-- Execute one operation. -/
def writeExec (op : WriteOp) (x : WriteOutcome) (s : Threads WriteServer WriteOp) :
    Option (Effect WriteServer WriteOp) :=
  let r := s.shared
  match op with
  | .write message =>
    match x with
    | .order ks =>
      if r.locked = false ∧ ks.Perm r.clients then
        some { shared := { r with locked := true, written := r.written ++ [message] }
               next := [nextWrite message ks []] }
      else none
    | _ => none
  | .writeAll message k sent rest stale =>
    if message.length ≤ sent then some ⟨r, [nextWrite message rest stale], []⟩
    else
      match x with
      | .sent n =>
        if 0 < n ∧ sent + n ≤ message.length ∧ r.table k.fd ≠ none then
          some { shared := r.send k ((message.drop sent).take n)
                 next := [.writeAll message k (sent + n) rest stale] }
        else none
      | .interrupted => some ⟨r, [.writeAll message k sent rest stale], []⟩
      | .failed => some ⟨r.drop k, [nextWrite message rest (stale ++ [k])], []⟩
      | _ => none
  | .unlock stale => some ⟨{ r with locked := false }, stale.map .shutdownStale, []⟩
  -- whatever a shutdown does to a connection shows in what its later sends return
  | .shutdownStale _ => some ⟨r, [], []⟩
  | .accept =>
    match x with
    | .accepted fd =>
      if r.table fd = none then some ⟨r.accept fd, [.register ⟨fd, r.streams.length⟩], []⟩
      else none
    | _ => some ⟨r, [.accept], []⟩
  -- to overwrite the entry of a running thread would end the process
  | .register k =>
    if r.locked = true ∨ (r.clients.any fun c => c.fd = k.fd) then none
    else some ⟨r.register k, [.flush], [[.read k]]⟩
  | .flush => if r.locked then none else some ⟨r, [.accept], []⟩
  | .read k => some ⟨r, if x = .done then [.read k] else [.leave k], []⟩
  -- the entry is found by its number, and is the reader's own
  | .leave k =>
    if r.locked then none
    else
      match r.clients.find? fun c => c.fd = k.fd with
      | none => some ⟨r, [.close k], []⟩
      | some c =>
        if c = k then some ⟨{ r with clients := r.clients.erase k }, [.close k], []⟩ else none
  | .close k => some ⟨{ r with table := Function.update r.table k.fd none }, [], []⟩
  | .clientRead conn n =>
    if (r.streams[conn]?.any fun c => c.read + n ≤ c.sent.length) then
      some ⟨r.clientRead conn n, [], []⟩
    else none
  | .foreignOpen fd =>
    if r.table fd = none then
      some ⟨{ r with table := Function.update r.table fd (some .foreign) }, [], []⟩
    else none
  | .foreignClose fd =>
    if r.table fd = some .foreign then
      some ⟨{ r with table := Function.update r.table fd none }, [], []⟩
    else none

/-- A server that was just started. -/
def writeCode : Code WriteServer WriteOp WriteOutcome WriteCall where
  init := { shared := {}, todo := [[.accept]] }
  entry call _ :=
    match call with
    | .write message => some [.write message]
    | .clientRead conn n => some [.clientRead conn n]
    | .foreignOpen fd => some [.foreignOpen fd]
    | .foreignClose fd => some [.foreignClose fd]
  exec := writeExec

end PiWebrtc.Ipc
