import PiWebrtc.DataChannel.RtcChannel
import Mathlib.Data.Finset.Insert
import Mathlib.Logic.Function.Basic

namespace PiWebrtc.DataChannel

/-!
# The receiving end: `IpcChannel`

An IPC channel relays what the peer sends to the local endpoints.  A payload that is too
large for one message comes as a stream and is put together in `assemblies_`; everything
else is passed on at once.  One packet is handled at a time, so a run is a list of received
packets; a run ends at an exception, which nothing on the way up catches.
-/

/-- `IpcEndpoint::kName`. -/
def IpcEndpoint.kName : String := ""

/-- The endpoints that are served. -/
structure EndpointRegistry where
  names : List String

/-- A payload being put together. -/
structure Assembly where
  buffer : StdString
  received : UInt64
  deriving DecidableEq

/-- The last sequence number accepted and when, in nanoseconds of the steady clock. -/
structure LastSequence where
  sequence : UInt64 := 0
  receivedAt : ℤ := 0
  deriving DecidableEq

/-- A call of `WriteToEndpoint`. -/
structure EndpointWrite where
  endpoint : String
  remoteId : String
  payload : StdString
  deriving DecidableEq

/-- A packet as it arrives: whom it is from, and what clock and allocator say then. -/
structure Received where
  packet : Packet
  remoteId : String
  now : ℤ
  heap : Heap

/-- The fields of `IpcChannel`; `written` is history. -/
structure IpcChannel where
  role : ChannelRole
  endpoints : Option EndpointRegistry
  assemblies : String → Option Assembly := fun _ => none
  lastSequence : String × String → LastSequence := fun _ => {}
  remoteIds : Finset String := ∅
  written : List EndpointWrite := []

namespace IpcChannel

/-- `Create`: nothing received yet. -/
def create (role : ChannelRole) (endpoints : Option EndpointRegistry) : IpcChannel :=
  { role, endpoints }

/-- A lossy sender silent this long is taken to have restarted its sequence. -/
def kSequenceResetGap : ℤ := 1000000000

/-- `AcceptSequence`. -/
def acceptSequence (ch : IpcChannel) (remoteId endpoint : String) (sequence : UInt64)
    (now : ℤ) : IpcChannel × Bool :=
  if ch.role ≠ .lossy ∨ sequence = 0 then (ch, true)
  else
    -- an entry that is not there yet is created with sequence 0
    let last := ch.lastSequence (remoteId, endpoint)
    if sequence ≤ last.sequence ∧ now - last.receivedAt < kSequenceResetGap then (ch, false)
    else
      ({ ch with lastSequence :=
          Function.update ch.lastSequence (remoteId, endpoint) ⟨sequence, now⟩ }, true)

/-- `WriteToEndpoint`. -/
def writeToEndpoint (ch : IpcChannel) (endpoint remoteId : String) (payload : StdString) :
    IpcChannel where
  role := ch.role
  endpoints := ch.endpoints
  assemblies := ch.assemblies
  lastSequence := ch.lastSequence
  remoteIds :=
    match ch.endpoints with
    | some registry =>
      if endpoint ∈ registry.names then insert remoteId ch.remoteIds else ch.remoteIds
    | none => ch.remoteIds
  written := ch.written ++ [⟨endpoint, remoteId, payload⟩]

/-- Set or erase the entry of a stream in `assemblies_`. -/
def setAssembly (ch : IpcChannel) (streamId : String) (a : Option Assembly) : IpcChannel :=
  { ch with assemblies := Function.update ch.assemblies streamId a }

/-- `OnStreamHeader`. -/
def onStreamHeader (heap : Heap) (ch : IpcChannel) (streamId : String) (header : StreamHeader) :
    Except StdException IpcChannel := do
  let buffer ← StdString.assign heap header.totalLength.toNat 0
  return ch.setAssembly streamId (some ⟨buffer, 0⟩)

/-- `OnStreamChunk`.  The sum in the guard is one of 64-bit numbers. -/
def onStreamChunk (heap : Heap) (ch : IpcChannel) (streamId : String) (chunk : StreamChunk) :
    Except StdException IpcChannel :=
  match ch.assemblies streamId with
  | none => return ch
  | some assembly =>
    -- the chunk overruns the declared length: the stream is given up
    if assembly.buffer.size < chunk.offset + chunk.data.size then
      return ch.setAssembly streamId none
    else do
      let buffer ←
        assembly.buffer.replace heap chunk.offset.toNat chunk.data.bytes.length chunk.data
      return ch.setAssembly streamId (some ⟨buffer, assembly.received + chunk.data.size⟩)

/-- What `OnStreamTrailer` takes out of an assembly. -/
def trailerBody (assembly : Assembly) (trailer : StreamTrailer) : StdString :=
  if trailer.reason ≠ "" then StdString.empty
  else if assembly.received ≠ assembly.buffer.size then StdString.empty
  else assembly.buffer

/-- `OnStreamTrailer`. -/
def onStreamTrailer (ch : IpcChannel) (streamId : String) (trailer : StreamTrailer)
    (remoteId : String) : IpcChannel :=
  match ch.assemblies streamId with
  | none => ch
  | some assembly =>
    let body := trailerBody assembly trailer
    let ch := ch.setAssembly streamId none
    if body.bytes = [] then ch else ch.writeToEndpoint IpcEndpoint.kName remoteId body

/-- `OnPacket`. -/
def onPacket (ch : IpcChannel) (r : Received) : Except StdException IpcChannel :=
  match r.packet.body with
  | .ipc endpoint sequence payload =>
    let (ch, accepted) := ch.acceptSequence r.remoteId endpoint sequence r.now
    if accepted then return ch.writeToEndpoint endpoint r.remoteId payload
    else return ch
  | .raw payload => return ch.writeToEndpoint IpcEndpoint.kName r.remoteId payload
  -- the locked sections of the three handlers are one step each
  | .stream streamId payload =>
    match payload with
    | .header header => ch.onStreamHeader r.heap streamId header
    | .chunk chunk => ch.onStreamChunk r.heap streamId chunk
    | .trailer trailer => return ch.onStreamTrailer streamId trailer r.remoteId
    | .notSet => return ch
  | .other => return ch

/-- Handle the packets one after another. -/
def receive (ch : IpcChannel) (packets : List Received) : Except StdException IpcChannel :=
  packets.foldlM onPacket ch

/-! ### What each part leaves alone -/

@[simp] theorem writeToEndpoint_assemblies (ch : IpcChannel) (endpoint remoteId : String)
    (payload : StdString) :
    (ch.writeToEndpoint endpoint remoteId payload).assemblies = ch.assemblies := rfl

@[simp] theorem writeToEndpoint_written (ch : IpcChannel) (endpoint remoteId : String)
    (payload : StdString) :
    (ch.writeToEndpoint endpoint remoteId payload).written =
      ch.written ++ [⟨endpoint, remoteId, payload⟩] := rfl

@[simp] theorem setAssembly_assemblies (ch : IpcChannel) (streamId : String)
    (a : Option Assembly) :
    (ch.setAssembly streamId a).assemblies = Function.update ch.assemblies streamId a := rfl

@[simp] theorem setAssembly_written (ch : IpcChannel) (streamId : String)
    (a : Option Assembly) : (ch.setAssembly streamId a).written = ch.written := rfl

@[simp] theorem acceptSequence_assemblies (ch : IpcChannel) (remoteId endpoint : String)
    (sequence : UInt64) (now : ℤ) :
    (ch.acceptSequence remoteId endpoint sequence now).1.assemblies = ch.assemblies := by
  unfold acceptSequence
  split
  · rfl
  · dsimp only
    split <;> rfl

theorem receive_cons_eq_ok {ch ch' : IpcChannel} {r : Received} {packets : List Received} :
    ch.receive (r :: packets) = .ok ch' ↔
      ∃ mid, ch.onPacket r = .ok mid ∧ mid.receive packets = .ok ch' := by
  rw [receive, List.foldlM_cons]
  cases h : ch.onPacket r with
  | error e => simp [bind, Except.bind]
  | ok mid => simp [bind, Except.bind, receive]

/-! ### A peer to try it on -/

/-- An allocator that never runs out. -/
def amplyHeap : Heap where
  grants n := n < 2 ^ 63
  grants_lt _ h := of_decide_eq_true h

/-- A packet of stream `"s"` from `"peer"`. -/
def fromPeer (p : StreamPayload) : Received :=
  ⟨⟨"", .stream "s" p⟩, "peer", 0, amplyHeap⟩

end IpcChannel

end PiWebrtc.DataChannel
