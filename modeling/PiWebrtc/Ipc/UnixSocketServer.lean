import PiWebrtc.Lib.Threads
import Mathlib.Logic.Function.Basic

namespace PiWebrtc.Ipc

open Transition

/-!
# The unix socket server

`UnixSocketServer` accepts clients on one thread, reads each of them on a thread of its own,
and sends to all of them from any thread.  Three paths drop a client: its reader when the
connection ends, `SendToAll` when a send fails, and `Stop`.

The operations below are the sections under `mutex_` and the system calls, in the order in
which the source makes them.  A descriptor number is what the kernel says it is: the model
keeps its table, in which other parts of the process open and close descriptors too.  The
server starts out just started.
-/

/-- A client as the server knows it: a descriptor number, and the connection (the position
    in the order of accepting) that it named when it was accepted. -/
structure Client where
  fd : ℕ
  conn : ℕ
  deriving DecidableEq, Repr

/-- What a descriptor number names: a connection of the server, or anything else. -/
inductive Holder where
  | client (conn : ℕ)
  | foreign
  deriving DecidableEq, Repr

/-- The system calls whose descriptors the server has to own. -/
inductive SysCallKind where
  | shutdown
  | close
  deriving DecidableEq, Repr

/-- A system call on the descriptor of a client; `hit` tells whether the number still named
    the client's connection. -/
structure SysCall where
  kind : SysCallKind
  client : Client
  hit : Bool
  deriving DecidableEq, Repr

/-- The fields of `UnixSocketServer` and the kernel's descriptor table.  The rest is
    history: the descriptors accepted, the connections that `SendToAll` dropped, the system
    calls, and how far `Stop` has come. -/
structure UnixSocketServer where
  running : Bool := true
  listening : Bool := true
  clients : List Client := []
  table : ℕ → Option Holder := fun _ => none
  accepted : List ℕ := []
  dropped : List ℕ := []
  calls : List SysCall := []
  acceptJoined : Bool := false
  swept : Bool := false
  stopped : Bool := false

/-- The atomic operations. -/
inductive ServerOp where
  /-- `AcceptLoop`: the condition of the loop. -/
  | acceptCheck
  /-- `AcceptLoop`: `accept`. -/
  | accept
  /-- `AcceptLoop`: register the client and start its reader, under `mutex_`. -/
  | register (k : Client)
  /-- `SendToAll`, under `mutex_`. -/
  | sendToAll
  /-- `SendToAll`: shut a dropped client down, after the section. -/
  | shutdownStale (k : Client)
  /-- `HandleClient`: the condition of the loop. -/
  | readCheck (k : Client)
  /-- `HandleClient`: `read`. -/
  | read (k : Client)
  /-- `HandleClient`: the message callbacks, under `mutex_`. -/
  | deliver (k : Client)
  /-- `HandleClient`: unregister, under `mutex_`. -/
  | leave (k : Client)
  /-- `HandleClient`: `close`. -/
  | close (k : Client)
  /-- `Stop`: clear `running_`. -/
  | stopFlag
  /-- `Stop`: shut the listening socket down and close it. -/
  | stopServer
  /-- `Stop`: join the accept thread. -/
  | joinAccept
  /-- `Stop`: shut all clients down and take them over, under `mutex_`. -/
  | sweep
  /-- `Stop`: join the reader of `k`, with the clients in `rest` to follow. -/
  | joinReader (k : Client) (rest : List Client)
  /-- `Stop`: close the descriptor of `k`. -/
  | closeClient (k : Client) (rest : List Client)
  | stopReturn
  /-- The rest of the process opens or closes a descriptor. -/
  | foreignOpen (fd : ℕ)
  | foreignClose (fd : ℕ)
  deriving DecidableEq, Repr

/-- What the kernel and the clients answer. -/
inductive ServerOutcome where
  | done
  | accepted (fd : ℕ)
  | failed
  | data
  | eof
  | failing (fds : List ℕ)
  deriving DecidableEq, Repr

/-- The descriptors to which the sends of one `SendToAll` fail. -/
def ServerOutcome.failingFds : ServerOutcome → List ℕ
  | .failing fds => fds
  | _ => []

/-- The calls that come in from other threads; `send` is `Write`, or `PublishLatest` once it
    has set the message. -/
inductive ServerCall where
  | send
  | stop
  | foreignOpen (fd : ℕ)
  | foreignClose (fd : ℕ)
  deriving DecidableEq, Repr

namespace ServerOp

/-- The operations of `AcceptLoop`, except for its `FlushLatest`, which always has the next
    `acceptCheck` behind it. -/
def inAcceptLoop : ServerOp → Bool
  | .acceptCheck => true
  | .accept => true
  | .register _ => true
  | _ => false

/-- The client that an operation of `HandleClient` serves. -/
def reader : ServerOp → Option Client
  | .readCheck k => some k
  | .read k => some k
  | .deliver k => some k
  | .leave k => some k
  | .close k => some k
  | _ => none

/-- The operations of `HandleClient` that still have a section under `mutex_` before them. -/
def beforeClose : ServerOp → Option Client
  | .readCheck k => some k
  | .read k => some k
  | .deliver k => some k
  | .leave k => some k
  | _ => none

/-- The operations of `Stop`. -/
def inStop : ServerOp → Bool
  | .stopFlag => true
  | .stopServer => true
  | .joinAccept => true
  | .sweep => true
  | .joinReader _ _ => true
  | .closeClient _ _ => true
  | .stopReturn => true
  | _ => false

end ServerOp

namespace UnixSocketServer

/-- The number still names the connection that it named when it was accepted. -/
def names (s : UnixSocketServer) (k : Client) : Bool := s.table k.fd = some (.client k.conn)

/-- `shutdown(fd)`. -/
def shutdown (s : UnixSocketServer) (k : Client) : UnixSocketServer :=
  { s with calls := s.calls ++ [⟨.shutdown, k, s.names k⟩] }

/-- `close(fd)`: whatever the number names is closed. -/
def close (s : UnixSocketServer) (k : Client) : UnixSocketServer :=
  { s with
    table := Function.update s.table k.fd none
    calls := s.calls ++ [⟨.close, k, s.names k⟩] }

/-- `accept` returned `fd`. -/
def accept (s : UnixSocketServer) (fd : ℕ) : UnixSocketServer :=
  { s with
    table := Function.update s.table fd (some (.client s.accepted.length))
    accepted := s.accepted ++ [fd] }

/-- The section of `SendToAll`: the clients to which the send fails are taken out. -/
def sendToAll (s : UnixSocketServer) (failing : List ℕ) : UnixSocketServer × List Client :=
  let stale := s.clients.filter fun k => k.fd ∈ failing
  ({ s with
      clients := s.clients.filter fun k => k.fd ∉ failing
      dropped := s.dropped ++ stale.map Client.conn }, stale)

/-- The section of `Stop`. -/
def sweep (s : UnixSocketServer) : UnixSocketServer :=
  { s with
    clients := []
    calls := s.calls ++ s.clients.map fun k => ⟨.shutdown, k, s.names k⟩
    swept := true }

end UnixSocketServer

/-- How `Stop` goes on with the clients it has taken over. -/
def reap : List Client → ServerOp
  | [] => .stopReturn
  | k :: rest => .joinReader k rest

/-- Execute one operation.  To register a client on a descriptor that still has an entry, or
    to erase the entry of another reader, would destroy a running `std::thread`, which ends
    the process. -/
def serverExec (op : ServerOp) (x : ServerOutcome) (s : Threads UnixSocketServer ServerOp) :
    Option (Effect UnixSocketServer ServerOp) :=
  let r := s.shared
  match op with
  | .acceptCheck => some ⟨r, if r.running then [.accept] else [], []⟩
  | .accept =>
    match x with
    | .accepted fd =>
      if r.listening = true ∧ r.table fd = none then
        some ⟨r.accept fd, [.register ⟨fd, r.accepted.length⟩], []⟩
      else none
    | _ => some ⟨r, [.acceptCheck], []⟩
  | .register k =>
    if r.clients.any fun c => c.fd = k.fd then none
    else some ⟨{ r with clients := k :: r.clients }, [.sendToAll, .acceptCheck], [[.readCheck k]]⟩
  | .sendToAll =>
    let (r, stale) := r.sendToAll x.failingFds
    some ⟨r, stale.map .shutdownStale, []⟩
  | .shutdownStale k => some ⟨r.shutdown k, [], []⟩
  -- the reader leaves its loop when `running_` is clear and when `read` fails
  | .readCheck k => some ⟨r, if r.running then [.read k] else [.leave k], []⟩
  | .read k => some ⟨r, if x = .data then [.deliver k] else [.leave k], []⟩
  | .deliver k => some ⟨r, [.readCheck k], []⟩
  -- the entry is found by its number, and is the reader's own
  | .leave k =>
    match r.clients.find? fun c => c.fd = k.fd with
    | none => some ⟨r, [.close k], []⟩
    | some c =>
      if c = k then some ⟨{ r with clients := r.clients.erase k }, [.close k], []⟩ else none
  | .close k => some ⟨r.close k, [], []⟩
  | .stopFlag => some ⟨{ r with running := false }, [.stopServer], []⟩
  | .stopServer => some ⟨{ r with listening := false }, [.joinAccept], []⟩
  -- the two joins block while the thread they wait for has anything left to do
  | .joinAccept =>
    if s.todo.flatten.any ServerOp.inAcceptLoop then none
    else some ⟨{ r with acceptJoined := true }, [.sweep], []⟩
  | .sweep => some ⟨r.sweep, [reap r.clients], []⟩
  | .joinReader k rest =>
    if s.todo.flatten.any fun op => op.reader = some k then none
    else some ⟨r, [.closeClient k rest], []⟩
  | .closeClient k rest => some ⟨r.close k, [reap rest], []⟩
  | .stopReturn => some ⟨{ r with stopped := true }, [], []⟩
  | .foreignOpen fd =>
    if r.table fd = none then
      some ⟨{ r with table := Function.update r.table fd (some .foreign) }, [], []⟩
    else none
  | .foreignClose fd =>
    if r.table fd = some .foreign then
      some ⟨{ r with table := Function.update r.table fd none }, [], []⟩
    else none

/-- The operations of a call.  `Stop` is not called while another call of it is in
    progress. -/
def serverEntry (c : ServerCall) (s : Threads UnixSocketServer ServerOp) :
    Option (List ServerOp) :=
  match c with
  | .send => some [.sendToAll]
  | .stop => if s.todo.flatten.any ServerOp.inStop then none else some [.stopFlag]
  | .foreignOpen fd => some [.foreignOpen fd]
  | .foreignClose fd => some [.foreignClose fd]

/-- A server that was just started. -/
def serverCode : Code UnixSocketServer ServerOp ServerOutcome ServerCall where
  init := { shared := {}, todo := [[.acceptCheck]] }
  entry := serverEntry
  exec := serverExec

end PiWebrtc.Ipc
