import PiWebrtc.DataChannel.Packet

namespace PiWebrtc.DataChannel

/-!
# The sending end of a stream

`RtcChannel::SendStream` splits a body across a header, chunks of at most
`kStreamChunkSize` bytes and a trailer that share one stream id.
-/

/-- `ChannelRole`: what a data channel is for. -/
inductive ChannelRole where
  | command
  | stream
  | lossy
  | reliable
  deriving DecidableEq, Repr

/-- Bulk content is split at this size. -/
def kStreamChunkSize : ℕ := 64 * 1024

/-- `SendStreamHeader`, for the id that `GenerateUuid` gave. -/
def sendStreamHeader (requestId streamId mimeType : String) (totalLength : UInt64) : Packet :=
  ⟨requestId, .stream streamId (.header ⟨mimeType, totalLength⟩)⟩

/-- `SendStreamChunk`. -/
def sendStreamChunk (streamId : String) (offset : ℕ) (data : StdString) : Packet :=
  ⟨"", .stream streamId (.chunk ⟨UInt64.ofNat offset, data⟩)⟩

/-- `SendStreamTrailer`. -/
def sendStreamTrailer (streamId reason : String) : Packet :=
  ⟨"", .stream streamId (.trailer ⟨reason⟩)⟩

/-- The bytes from `offset` on, at most `n` of them. -/
def StdString.slice (s : StdString) (offset n : ℕ) : StdString where
  bytes := (s.bytes.drop offset).take n
  length_lt := by
    have h := s.length_lt
    rw [List.length_take, List.length_drop]
    omega

/-- The loop of `SendStream`. -/
def sendStreamChunks (streamId : String) (data : StdString) (offset : ℕ) : List Packet :=
  if offset < data.bytes.length then
    let readSize := min kStreamChunkSize (data.bytes.length - offset)
    sendStreamChunk streamId offset (data.slice offset readSize) ::
      sendStreamChunks streamId data (offset + readSize)
  else []
termination_by data.bytes.length - offset
decreasing_by
  unfold kStreamChunkSize
  omega

/-- `SendStream` of a body in memory. -/
def sendStream (requestId streamId mimeType : String) (data : StdString) : List Packet :=
  sendStreamHeader requestId streamId mimeType data.size ::
    (sendStreamChunks streamId data 0 ++ [sendStreamTrailer streamId ""])

end PiWebrtc.DataChannel
