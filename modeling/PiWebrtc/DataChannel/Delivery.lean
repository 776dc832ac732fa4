import PiWebrtc.DataChannel.Reassembly

namespace PiWebrtc.DataChannel

open Scatter

/-!
# What reassembly delivers

`OnStreamTrailer` takes a stream for complete when `received` has reached the length of the
buffer.  A chunk that comes twice is counted twice, so the counter may get there while
bytes are missing: `delivery_sound_iff` says exactly when, and `delivery_sound_of_apart`
that chunks that share no position are safe.
-/

namespace IpcChannel

/-- A trailer that makes the channel write a payload writes an assembly that is what the
    packets say, once the counter has reached its length. -/
theorem delivery_assembled {role : ChannelRole} {endpoints : Option EndpointRegistry}
    {received : List Received} {ch ch' : IpcChannel} {r : Received} {id : String}
    {trailer : StreamTrailer} {w : EndpointWrite}
    (hrun : (create role endpoints).receive received = .ok ch)
    (hbody : r.packet.body = .stream id (.trailer trailer))
    (hstep : ch.onPacket r = .ok ch') (hw : ch'.written = ch.written ++ [w]) :
    ∃ s, Assembled s (viewOf id received) ∧ w.payload = s.buffer ∧
      s.received = s.buffer.size := by
  obtain ⟨a', out, hs, rfl⟩ := onPacket_stepped hbody hstep
  rw [settle_written] at hw
  cases hs with
  | ended _ _ hout =>
    cases out with
    | none => simp at hw
    | some body =>
      -- a trailer writes what was assembled, if the counter has reached the total
      obtain ⟨s, hsmem, rfl, hfull⟩ := hout body rfl
      obtain rfl : ⟨IpcEndpoint.kName, r.remoteId, s.buffer⟩ = w := by simpa using hw
      exact ⟨s, receive_assembled hrun id s hsmem, rfl, hfull⟩

/-- **Deliveries.** After any packets, let the trailer of stream `id` make the channel
    write a payload.  It has the length that the last header declared, and every byte of it
    was supplied by a chunk since, exactly when the bytes that were sent twice since are a
    multiple of `2 ^ 64`. -/
theorem delivery_sound_iff (role : ChannelRole) (endpoints : Option EndpointRegistry)
    (received : List Received) (ch ch' : IpcChannel) (r : Received) (id : String)
    (trailer : StreamTrailer) (w : EndpointWrite)
    (hrun : (create role endpoints).receive received = .ok ch)
    (hbody : r.packet.body = .stream id (.trailer trailer))
    (hstep : ch.onPacket r = .ok ch') (hw : ch'.written = ch.written ++ [w]) :
    (viewOf id received).Sound w.payload ↔ 2 ^ 64 ∣ (viewOf id received).repeatedBytes := by
  obtain ⟨s, hs, hpayload, hfull⟩ := delivery_assembled hrun hbody hstep hw
  rw [hpayload]
  exact hs.sound_iff hfull

/-- Chunks that share no position are put together soundly. -/
theorem delivery_sound_of_apart {role : ChannelRole} {endpoints : Option EndpointRegistry}
    {received : List Received} {ch ch' : IpcChannel} {r : Received} {id : String}
    {trailer : StreamTrailer} {w : EndpointWrite}
    (hrun : (create role endpoints).receive received = .ok ch)
    (hbody : r.packet.body = .stream id (.trailer trailer))
    (hstep : ch.onPacket r = .ok ch') (hw : ch'.written = ch.written ++ [w])
    (hapart : Apart (viewOf id received).pieces) : (viewOf id received).Sound w.payload := by
  obtain ⟨s, hs, hpayload, hfull⟩ := delivery_assembled hrun hbody hstep hw
  rw [hpayload, hs.sound_iff hfull, StreamView.repeatedBytes,
    (repeated_eq_zero_iff _).mpr hapart]
  exact dvd_zero _

/-- A header for two bytes and two chunks of one byte, the second at `offset`. -/
def twoBytes (offset : UInt64) : List Received :=
  [fromPeer (.header ⟨"", 2⟩), fromPeer (.chunk ⟨0, ⟨[1], by decide⟩⟩),
    fromPeer (.chunk ⟨offset, ⟨[2], by decide⟩⟩)]

theorem delivery_sound_iff_twoBytes :
    (viewOf "s" (twoBytes 1)).Sound ⟨[1, 2], by decide⟩ :=
  (delivery_sound_iff .reliable none (twoBytes 1) _ _ (fromPeer (.trailer ⟨""⟩)) "s" ⟨""⟩
    ⟨"", "peer", ⟨[1, 2], by decide⟩⟩ rfl rfl rfl rfl).mpr (by decide)

/-- The second chunk comes to the same place as the first: the counter reaches two, and
    the second byte is delivered although no chunk supplied it. -/
theorem not_delivery_sound_sentTwice :
    ∃ ch ch' : IpcChannel, (create .reliable none).receive (twoBytes 0) = .ok ch ∧
      ch.onPacket (fromPeer (.trailer ⟨""⟩)) = .ok ch' ∧
      ch'.written = ch.written ++ [⟨"", "peer", ⟨[2, 0], by decide⟩⟩] ∧
      ¬ (viewOf "s" (twoBytes 0)).Sound ⟨[2, 0], by decide⟩ := by
  refine ⟨_, _, rfl, rfl, rfl, fun h => ?_⟩
  obtain ⟨c, hc, hcell, -⟩ := h.supplied 1 0 rfl
  have hall : ∀ c ∈ (viewOf "s" (twoBytes 0)).chunks, 1 ∉ c.piece.cells := by decide
  exact hall c hc hcell

end IpcChannel

end PiWebrtc.DataChannel
