import PiWebrtc.DataChannel.Reassembly
import PiWebrtc.Lib.Lanes
import Mathlib.Data.List.Perm.Basic
import Mathlib.Data.Set.List

namespace PiWebrtc.DataChannel

open Scatter

/-!
# Sender and receiver agree

`RtcChannel::SendStream` cuts a payload into chunks and `IpcChannel` puts it together
again.  `transfers_roundTrip`: any number of transfers, their packets interleaved in any
order in which each header comes first and each trailer last, are delivered once each, byte
for byte, and leave nothing behind.

Streams do not see each other (`onPacket_stream`), so the channel is a family of lanes, one
for each stream id, and each lane is looked at alone.
-/

/-! ### What the sender cuts -/

/-- A chunk cut out of `data` at its own offset. -/
def StreamChunk.CutFrom (c : StreamChunk) (data : StdString) : Prop :=
  c.piece.Fits data.bytes.length ∧
    ∀ i ∈ c.piece.cells, c.piece.data[i - c.piece.offset]? = data.bytes[i]?

/-- A slice inside the string is cut out of it. -/
theorem cutFrom_slice {data : StdString} {offset n : ℕ} (h : offset + n ≤ data.bytes.length) :
    (⟨UInt64.ofNat offset, data.slice offset n⟩ : StreamChunk).CutFrom data ∧
      (data.slice offset n).bytes.length = n ∧ (UInt64.ofNat offset).toNat = offset := by
  have hlt := data.length_lt
  have hoff : (UInt64.ofNat offset).toNat = offset := by
    rw [UInt64.toNat_ofNat', Nat.mod_eq_of_lt (by omega)]
  have hlen : (data.slice offset n).bytes.length = n := by
    rw [StdString.slice, List.length_take, List.length_drop]
    omega
  refine ⟨⟨?_, fun i hi => ?_⟩, hlen, hoff⟩
  · show (UInt64.ofNat offset).toNat + (data.slice offset n).bytes.length ≤ _
    rw [hoff, hlen]
    exact h
  · have hi' : (UInt64.ofNat offset).toNat ≤ i ∧
        i < (UInt64.ofNat offset).toNat + (data.slice offset n).bytes.length :=
      Piece.mem_cells.mp hi
    rw [hoff, hlen] at hi'
    show ((data.bytes.drop offset).take n)[i - (UInt64.ofNat offset).toNat]? = _
    rw [hoff, List.getElem?_take_of_lt (by omega), List.getElem?_drop,
      Nat.add_sub_cancel' hi'.1]

/-- **The loop of the sender.** From `offset` on it sends chunks cut out of the data, which
    cover the rest of it and have as much data as the rest. -/
theorem sendStreamChunks_spec (streamId : String) (data : StdString) (offset : ℕ)
    (h : offset ≤ data.bytes.length) :
    ∃ cs : List StreamChunk,
      sendStreamChunks streamId data offset =
        cs.map (fun c => ⟨"", .stream streamId (.chunk c)⟩) ∧
      (∀ c ∈ cs, c.CutFrom data) ∧
      volume (cs.map StreamChunk.piece) = data.bytes.length - offset ∧
      ∀ i, offset ≤ i → i < data.bytes.length → i ∈ covered (cs.map StreamChunk.piece) := by
  induction offset using sendStreamChunks.induct data with
  | case1 offset hlt readSize ih =>
    have hread : readSize = min kStreamChunkSize (data.bytes.length - offset) := rfl
    have hsize : 0 < readSize ∧ offset + readSize ≤ data.bytes.length := by
      rw [hread, kStreamChunkSize]
      omega
    obtain ⟨cs, hcs, hcut, hvol, hcov⟩ := ih hsize.2
    obtain ⟨hcut', hlen, hoff⟩ := cutFrom_slice hsize.2
    refine ⟨⟨UInt64.ofNat offset, data.slice offset readSize⟩ :: cs, ?_, ?_, ?_, ?_⟩
    · rw [sendStreamChunks, if_pos hlt]
      show _ :: sendStreamChunks streamId data (offset + readSize) = _
      rw [hcs]
      rfl
    · intro c hc
      rcases List.mem_cons.mp hc with rfl | hc
      · exact hcut'
      · exact hcut c hc
    · rw [List.map_cons, volume_cons, hvol]
      show (data.slice offset readSize).bytes.length + _ = _
      omega
    · intro i hi hin
      rw [List.map_cons, mem_covered]
      by_cases hfirst : i < offset + readSize
      · refine ⟨_, List.mem_cons_self, Piece.mem_cells.mpr ?_⟩
        show (UInt64.ofNat offset).toNat ≤ i ∧
          i < (UInt64.ofNat offset).toNat + (data.slice offset readSize).bytes.length
        omega
      · obtain ⟨p, hp, hpi⟩ := mem_covered.mp (hcov i (not_lt.mp hfirst) hin)
        exact ⟨p, List.mem_cons_of_mem _ hp, hpi⟩
  | case2 offset hge =>
    refine ⟨[], ?_, by simp, ?_, fun i hi hin => absurd hin (by omega)⟩
    · rw [sendStreamChunks, if_neg hge]
      rfl
    · rw [List.map_nil, volume_nil]
      omega

/-! ### One lane -/

/-- What a stream alone does with a packet and the allocator of that moment. -/
def laneStep (q : Heap × StreamPayload) (a : Option Assembly) :
    Except StdException (Option Assembly × List StdString) :=
  (streamStep q.1 a q.2).map fun result => (result.1, result.2.toList)

/-- A chunk that fits is written into its assembly. -/
theorem laneStep_chunk (heap : Heap) {s : Assembly} {v : StreamView} (hs : Assembled s v)
    {c : StreamChunk} (hfit : c.piece.Fits s.buffer.bytes.length) :
    ∃ s', laneStep (heap, .chunk c) (some s) = .ok (some s', []) ∧
      s'.buffer.bytes.length = s.buffer.bytes.length ∧ Assembled s' (v.next (.chunk c)) := by
  have hlt := s.buffer.length_lt
  have hfit' : c.offset.toNat + c.data.bytes.length ≤ s.buffer.bytes.length := hfit
  have hguard : ¬ s.buffer.size < c.offset + c.data.size := by
    rw [UInt64.lt_iff_toNat_lt, UInt64.toNat_add, StdString.toNat_size, StdString.toNat_size,
      Nat.mod_eq_of_lt (by omega), not_lt]
    exact hfit'
  obtain ⟨t, ht, hbytes⟩ := StdString.replace_of_le heap hfit'
  refine ⟨⟨t, s.received + c.data.size⟩, ?_, ?_, hs.chunk hfit ht⟩
  · simp only [laneStep, streamStep, if_neg hguard, ht]
    rfl
  · show t.bytes.length = _
    have hput : t.bytes = c.piece.put s.buffer.bytes := hbytes
    rw [hput, Piece.length_put hfit]

/-- Chunks that fit are written one after another. -/
theorem runLane_chunks {s : Assembly} {v : StreamView} (hs : Assembled s v)
    (qs : List (Heap × StreamPayload)) (cs : List StreamChunk)
    (hqs : qs.map Prod.snd = cs.map .chunk)
    (hfit : ∀ c ∈ cs, c.piece.Fits s.buffer.bytes.length) :
    ∃ s', Lanes.runLane laneStep (some s) qs = .ok (some s', []) ∧
      Assembled s' { v with chunks := v.chunks ++ cs } := by
  induction cs generalizing qs s v with
  | nil =>
    obtain rfl := List.map_eq_nil_iff.mp hqs
    exact ⟨s, rfl, by simpa using hs⟩
  | cons c cs ih =>
    obtain ⟨q, qs', rfl, hq, hqs'⟩ := List.map_eq_cons_iff.mp hqs
    obtain ⟨heap, p⟩ := q
    obtain rfl : p = .chunk c := hq
    obtain ⟨t, ht, hlen, hta⟩ := laneStep_chunk heap hs (hfit c List.mem_cons_self)
    obtain ⟨u, hu, hua⟩ := ih hta qs' hqs' fun d hd =>
      hlen ▸ hfit d (List.mem_cons_of_mem c hd)
    refine ⟨u, ?_, ?_⟩
    · rw [Lanes.runLane_cons_eq_ok]
      exact ⟨some t, [], [], ht, hu, rfl⟩
    · simpa [StreamView.next] using hua

/-- **One transfer.** A header, the chunks of the sender in any order and a trailer without
    a reason make a lane hand out the payload and end as it began. -/
theorem runLane_transfer {data : StdString} (h : StreamHeader) (cs : List StreamChunk)
    (hne : data.bytes ≠ []) (htotal : h.totalLength = data.size)
    (hcut : ∀ c ∈ cs, c.CutFrom data)
    (hvol : volume (cs.map StreamChunk.piece) = data.bytes.length)
    (hcov : ∀ i < data.bytes.length, i ∈ covered (cs.map StreamChunk.piece))
    {a : Option Assembly} {qs : List (Heap × StreamPayload)}
    (hqs : qs.map Prod.snd = .header h :: (cs.map .chunk ++ [.trailer ⟨""⟩]))
    (hheap : ∀ q ∈ qs, q.1.grants data.bytes.length = true) :
    Lanes.runLane laneStep a qs = .ok (none, [data]) := by
  have hlen : h.totalLength.toNat = data.bytes.length := by
    rw [htotal, StdString.toNat_size]
  -- the header
  obtain ⟨q, qs', rfl, hq, hqs'⟩ := List.map_eq_cons_iff.mp hqs
  obtain ⟨heap, p⟩ := q
  obtain rfl : p = .header h := hq
  obtain ⟨buffer, hb⟩ : ∃ buffer, StdString.assign heap h.totalLength.toNat 0 = .ok buffer :=
    StdString.assign_isOk_iff.mpr (hlen ▸ hheap _ List.mem_cons_self)
  have hstart := Assembled.header {} hb
  have hbuffer : buffer.bytes.length = data.bytes.length := by
    rw [StdString.assign_eq_ok hb, List.length_replicate, hlen]
  -- the chunks
  obtain ⟨qs1, qs2, rfl, hqs1, hqs2⟩ := List.map_eq_append_iff.mp hqs'
  obtain ⟨s, hs, hsa⟩ := runLane_chunks hstart qs1 cs hqs1 fun c hc => hbuffer ▸ (hcut c hc).1
  have hpieces : (StreamView.next {} (.header h)).chunks ++ cs = cs := rfl
  rw [hpieces] at hsa
  have hslen : s.buffer.bytes.length = data.bytes.length := by
    have htot : some h.totalLength = some s.buffer.size := hsa.total_eq
    rw [← hlen, Option.some.inj htot, StdString.toNat_size]
  have hdata : s.buffer = data := by
    refine StdString.ext ?_
    rw [hsa.buffer_eq]
    refine putAll_eq_of_agree (by rw [List.length_replicate, hslen]) ?_ ?_ hcov
    · intro p hp
      obtain ⟨c, hc, rfl⟩ := List.mem_map.mp hp
      exact (hcut c hc).1
    · intro p hp
      obtain ⟨c, hc, rfl⟩ := List.mem_map.mp hp
      exact (hcut c hc).2
  have hfull : s.received = s.buffer.size := by
    have hrec : s.received = UInt64.ofNat (volume (cs.map StreamChunk.piece)) := hsa.received_eq
    rw [hrec, hvol, StdString.size, hslen]
  -- the trailer
  obtain ⟨q, qs3, rfl, hq, hqs3⟩ := List.map_eq_cons_iff.mp hqs2
  obtain rfl := List.map_eq_nil_iff.mp hqs3
  obtain ⟨heap', p⟩ := q
  obtain rfl : p = .trailer ⟨""⟩ := hq
  have hbody : IpcChannel.trailerBody s ⟨""⟩ = data := by
    rw [IpcChannel.trailerBody, if_neg (by simp), if_neg (not_not.mpr hfull), hdata]
  have hlast : laneStep (heap', .trailer ⟨""⟩) (some s) = .ok (none, [data]) := by
    simp only [laneStep, streamStep, hbody, if_neg hne]
    rfl
  rw [Lanes.runLane_cons_eq_ok]
  refine ⟨some ⟨buffer, 0⟩, [], [data], ?_, ?_, rfl⟩
  · simp only [laneStep, streamStep, hb]
    rfl
  · refine Lanes.runLane_append laneStep hs ?_
    rw [Lanes.runLane_cons_eq_ok]
    exact ⟨none, [data], [], hlast, rfl, rfl⟩

/-! ### The channel is its lanes -/

/-- What a received packet is for the lanes. -/
def laneInput (r : Received) : Option (String × (Heap × StreamPayload)) :=
  match r.packet.body with
  | .stream id p => some (id, (r.heap, p))
  | _ => none

theorem laneInput_eq_some {r : Received} {id : String} {q : Heap × StreamPayload} :
    laneInput r = some (id, q) ↔ r.packet.body = .stream id q.2 ∧ r.heap = q.1 := by
  obtain ⟨heap, p⟩ := q
  unfold laneInput
  constructor
  · intro h
    split at h
    case h_1 hbody =>
      cases h
      exact ⟨hbody, rfl⟩
    case h_2 => cases h
  · rintro ⟨hbody, hheap⟩
    split
    case h_1 id' p' hbody' =>
      obtain ⟨rfl, rfl⟩ := Body.stream.inj (hbody.symm.trans hbody')
      exact congrArg (fun heap => some (id, (heap, p))) hheap
    case h_2 hno => exact absurd hbody (hno id p)

/-- A channel that receives stream packets only gets through them if its lanes do. -/
theorem receive_of_lanes (ch : IpcChannel) {rs : List Received}
    (hstream : ∀ r ∈ rs, ∃ id p, r.packet.body = .stream id p)
    {final : String → Option Assembly} {out : List StdString}
    (h : Lanes.run laneStep ch.assemblies (rs.filterMap laneInput) = .ok (final, out)) :
    ∃ ch', ch.receive rs = .ok ch' ∧ ch'.assemblies = final ∧
      ch'.written.map EndpointWrite.payload = ch.written.map EndpointWrite.payload ++ out := by
  induction rs generalizing ch out with
  | nil =>
    rw [List.filterMap_nil, Lanes.run, Except.ok.injEq, Prod.mk.injEq] at h
    exact ⟨ch, rfl, h.1, by rw [← h.2, List.append_nil]⟩
  | cons r rs ih =>
    obtain ⟨id, p, hbody⟩ := hstream r List.mem_cons_self
    have hin : laneInput r = some (id, (r.heap, p)) := laneInput_eq_some.mpr ⟨hbody, rfl⟩
    rw [List.filterMap_cons_some hin, Lanes.run] at h
    simp only [laneStep] at h
    cases hstep : streamStep r.heap (ch.assemblies id) p with
    | error e =>
      rw [hstep] at h
      cases h
    | ok result =>
      rw [hstep] at h
      simp only [Except.map] at h
      split at h
      case h_1 => cases h
      case h_2 final' outs hrest =>
        obtain ⟨rfl, rfl⟩ := Prod.mk.inj (Except.ok.inj h)
        have hmid : ch.onPacket r = .ok (ch.settle id r.remoteId result) := by
          rw [IpcChannel.onPacket_stream hbody, hstep]
          rfl
        have hrest' : Lanes.run laneStep (ch.settle id r.remoteId result).assemblies
            (rs.filterMap laneInput) = .ok (final', outs) := by
          rw [IpcChannel.settle_assemblies]
          exact hrest
        obtain ⟨ch', hrun, hfin, hwritten⟩ :=
          ih _ (fun r' hr' => hstream r' (List.mem_cons_of_mem r hr')) hrest'
        refine ⟨ch', IpcChannel.receive_cons_eq_ok.mpr ⟨_, hmid, hrun⟩, hfin, ?_⟩
        rw [hwritten, IpcChannel.settle_written, List.map_append, List.append_assoc]
        cases result.2 <;> rfl

/-! ### Interleaved transfers -/

/-- A payload sent with `SendStream` under an id. -/
structure Transfer where
  requestId : String
  streamId : String
  mimeType : String
  data : StdString

/-- The packet belongs to stream `id`. -/
def Packet.isOf (id : String) (p : Packet) : Bool := (p.streamPayload id).isSome

/-- The packets are those of the transfers, interleaved: of each transfer the header comes
    first, the trailer last and the chunks between them in any order. -/
structure Interleaving (transfers : List Transfer) (packets : List Packet) : Prop where
  of_some : ∀ p ∈ packets, ∃ t ∈ transfers, p.isOf t.streamId = true
  each : ∀ t ∈ transfers, ∃ chunks : List Packet,
    chunks.Perm (sendStreamChunks t.streamId t.data 0) ∧
    packets.filter (Packet.isOf t.streamId) =
      sendStreamHeader t.requestId t.streamId t.mimeType t.data.size ::
        (chunks ++ [sendStreamTrailer t.streamId ""])

/-- A packet of a stream has a payload for it. -/
theorem Packet.isOf_iff {id : String} {p : Packet} :
    p.isOf id = true ↔ ∃ payload, p.body = .stream id payload := by
  rw [Packet.isOf, Packet.streamPayload]
  split
  case h_1 streamId payload hbody =>
    rw [hbody]
    split
    case isTrue heq => exact iff_of_true rfl ⟨payload, by rw [heq]⟩
    case isFalse hne =>
      refine iff_of_false (by simp) ?_
      rintro ⟨payload', h⟩
      exact hne (Body.stream.inj h).1
  case h_2 hbody =>
    refine iff_of_false (by simp) ?_
    rintro ⟨payload, h⟩
    exact hbody id payload h

/-- The inputs of a lane are what the packets of its stream bring. -/
theorem map_snd_inputsOf (id : String) (rs : List Received) :
    (Lanes.inputsOf id (rs.filterMap laneInput)).map Prod.snd =
      ((rs.map Received.packet).filter (Packet.isOf id)).filterMap (Packet.streamPayload id) := by
  induction rs with
  | nil => rfl
  | cons r rs ih =>
    rw [List.map_cons]
    by_cases h : ∃ payload, r.packet.body = .stream id payload
    · obtain ⟨payload, hbody⟩ := h
      have hin : laneInput r = some (id, (r.heap, payload)) :=
        laneInput_eq_some.mpr ⟨hbody, rfl⟩
      have hpay : r.packet.streamPayload id = some payload := by
        rw [Packet.streamPayload, hbody]
        exact if_pos rfl
      rw [List.filterMap_cons_some hin,
        List.filter_cons_of_pos (Packet.isOf_iff.mpr ⟨payload, hbody⟩),
        List.filterMap_cons_some hpay, ← ih, Lanes.inputsOf, List.filterMap_cons, if_pos rfl]
      rfl
    · rw [List.filter_cons_of_neg (fun hof => h (Packet.isOf_iff.mp hof)), ← ih]
      cases hin : laneInput r with
      | none => rw [List.filterMap_cons_none hin]
      | some x =>
        have hne : x.1 ≠ id := by
          rintro rfl
          exact h ⟨x.2.2, (laneInput_eq_some.mp hin).1⟩
        rw [List.filterMap_cons_some hin, Lanes.inputsOf, List.filterMap_cons, if_neg hne]
        rfl

/-- The allocators of a lane are those of the packets. -/
theorem mem_inputsOf_heap {id : String} {rs : List Received} {q : Heap × StreamPayload}
    (hq : q ∈ Lanes.inputsOf id (rs.filterMap laneInput)) : ∃ r ∈ rs, q.1 = r.heap := by
  obtain ⟨x, hx, hxq⟩ := List.mem_filterMap.mp hq
  obtain ⟨r, hr, hrx⟩ := List.mem_filterMap.mp hx
  refine ⟨r, hr, ?_⟩
  rw [(laneInput_eq_some.mp hrx).2]
  split at hxq
  · exact congrArg Prod.fst (Option.some.inj hxq).symm
  · cases hxq

/-- The payloads that a transfer's packets bring, header first and trailer last. -/
theorem filterMap_transfer {t : Transfer} {chunks : List Packet} {cs : List StreamChunk}
    (hcs : chunks = cs.map fun c => ⟨"", .stream t.streamId (.chunk c)⟩) :
    (sendStreamHeader t.requestId t.streamId t.mimeType t.data.size ::
        (chunks ++ [sendStreamTrailer t.streamId ""])).filterMap
          (Packet.streamPayload t.streamId) =
      .header ⟨t.mimeType, t.data.size⟩ :: (cs.map .chunk ++ [.trailer ⟨""⟩]) := by
  have hheader : (sendStreamHeader t.requestId t.streamId t.mimeType t.data.size).streamPayload
      t.streamId = some (.header ⟨t.mimeType, t.data.size⟩) := if_pos rfl
  have htrailer : (sendStreamTrailer t.streamId "").streamPayload t.streamId =
      some (.trailer ⟨""⟩) := if_pos rfl
  have hchunks : chunks.filterMap (Packet.streamPayload t.streamId) = cs.map .chunk := by
    rw [hcs, List.filterMap_map, ← List.filterMap_eq_map]
    exact List.filterMap_congr fun c _ => if_pos rfl
  rw [List.filterMap_cons_some hheader, List.filterMap_append, hchunks,
    List.filterMap_cons_some htrailer, List.filterMap_nil]

/-- Chunk packets in another order are the packets of the chunks in another order. -/
theorem perm_map_chunks {id : String} {chunks : List Packet} {cs : List StreamChunk}
    (h : chunks.Perm (cs.map fun c => ⟨"", .stream id (.chunk c)⟩)) :
    ∃ ds : List StreamChunk, chunks = ds.map (fun c => ⟨"", .stream id (.chunk c)⟩) ∧
      ds.Perm cs := by
  have hrange : chunks ∈ Set.range
      (List.map fun c : StreamChunk => (⟨"", .stream id (.chunk c)⟩ : Packet)) := by
    rw [Set.range_list_map]
    intro p hp
    obtain ⟨c, -, rfl⟩ := List.mem_map.mp (h.mem_iff.mp hp)
    exact ⟨c, rfl⟩
  obtain ⟨ds, rfl⟩ := hrange
  refine ⟨ds, rfl, (List.map_perm_map_iff ?_).mp h⟩
  intro c d hcd
  exact StreamPayload.chunk.inj (Body.stream.inj (Packet.mk.inj hcd).2).2

/-- A lane does with its share of interleaved transfers what the transfer asks for. -/
theorem runLane_interleaving {transfers : List Transfer} {rs : List Received}
    (hint : Interleaving transfers (rs.map Received.packet))
    (hbig : ∀ t ∈ transfers, kStreamChunkSize < t.data.bytes.length)
    (hheap : ∀ r ∈ rs, ∀ t ∈ transfers, r.heap.grants t.data.bytes.length = true)
    {t : Transfer} (ht : t ∈ transfers) :
    Lanes.runLane laneStep none (Lanes.inputsOf t.streamId (rs.filterMap laneInput)) =
      .ok (none, [t.data]) := by
  obtain ⟨chunks, hperm, hfilter⟩ := hint.each t ht
  obtain ⟨cs, hsend, hcut, hvol, hcov⟩ :=
    sendStreamChunks_spec t.streamId t.data 0 (Nat.zero_le _)
  -- the chunks of the lane are the sender's in another order
  rw [hsend] at hperm
  obtain ⟨ds, rfl, hds⟩ := perm_map_chunks hperm
  have hpieces := hds.map StreamChunk.piece
  refine runLane_transfer ⟨t.mimeType, t.data.size⟩ ds ?_ rfl
    (fun c hc => hcut c (hds.mem_iff.mp hc)) ?_ (fun i hi => ?_) ?_ fun q hq => ?_
  · rintro hnil
    have hlong := hbig t ht
    rw [hnil, List.length_nil] at hlong
    omega
  · rw [← Nat.sub_zero t.data.bytes.length, ← hvol]
    exact (hpieces.map fun p => p.data.length).sum_eq
  · obtain ⟨p, hp, hpi⟩ := mem_covered.mp (hcov i (Nat.zero_le i) hi)
    exact mem_covered.mpr ⟨p, hpieces.mem_iff.mpr hp, hpi⟩
  · rw [map_snd_inputsOf, hfilter, filterMap_transfer rfl]
  · obtain ⟨r, hr, heq⟩ := mem_inputsOf_heap hq
    rw [heq]
    exact hheap r hr t ht

/-- A lane without a transfer gets no input. -/
theorem inputsOf_eq_nil {transfers : List Transfer} {rs : List Received}
    (hint : Interleaving transfers (rs.map Received.packet)) {id : String}
    (hid : ∀ t ∈ transfers, t.streamId ≠ id) :
    Lanes.inputsOf id (rs.filterMap laneInput) = [] := by
  have hnone : (rs.map Received.packet).filter (Packet.isOf id) = [] := by
    rw [List.filter_eq_nil_iff]
    intro p hp hof
    obtain ⟨t, ht, htof⟩ := hint.of_some p hp
    obtain ⟨payload, hbody⟩ := Packet.isOf_iff.mp hof
    obtain ⟨payload', hbody'⟩ := Packet.isOf_iff.mp htof
    exact hid t ht (Body.stream.inj (hbody'.symm.trans hbody)).1
  have hmap := map_snd_inputsOf id rs
  rw [hnone, List.filterMap_nil] at hmap
  exact List.map_eq_nil_iff.mp hmap

/-- One byte more than a chunk. -/
def bigTransfer (streamId : String) : Transfer where
  requestId := ""
  streamId := streamId
  mimeType := "application/octet-stream"
  data := ⟨List.replicate 65537 7, by rw [List.length_replicate]; decide⟩

theorem bigTransfer_length (streamId : String) :
    (bigTransfer streamId).data.bytes.length = 65537 := List.length_replicate

/-- A piece of it. -/
def bigChunk (streamId : String) (offset n : ℕ) : Packet :=
  sendStreamChunk streamId offset ((bigTransfer streamId).data.slice offset n)

theorem sendStreamChunks_bigTransfer (streamId : String) :
    sendStreamChunks streamId (bigTransfer streamId).data 0 =
      [bigChunk streamId 0 65536, bigChunk streamId 65536 1] := by
  have hlen := bigTransfer_length streamId
  rw [sendStreamChunks, if_pos (by rw [hlen]; decide), hlen]
  dsimp only
  rw [sendStreamChunks, if_pos (by rw [hlen]; decide), hlen]
  dsimp only
  rw [sendStreamChunks, if_neg (by rw [hlen]; decide)]
  rfl

/-- The header of it. -/
def bigHeader (streamId : String) : Packet :=
  sendStreamHeader "" streamId "application/octet-stream" (bigTransfer streamId).data.size

/-- Two transfers at once, of each the last chunk first. -/
def mixedPackets : List Packet :=
  [bigHeader "s", bigHeader "t", bigChunk "t" 65536 1, bigChunk "s" 65536 1, bigChunk "s" 0 65536,
    bigChunk "t" 0 65536, sendStreamTrailer "t" "", sendStreamTrailer "s" ""]

theorem interleaving_mixedPackets :
    Interleaving [bigTransfer "s", bigTransfer "t"] mixedPackets := by
  refine ⟨fun p hp => ?_, fun t ht => ?_⟩
  · simp only [mixedPackets, List.mem_cons, List.not_mem_nil, or_false] at hp
    rcases hp with rfl | rfl | rfl | rfl | rfl | rfl | rfl | rfl
    · exact ⟨_, List.mem_cons_self, rfl⟩
    · exact ⟨_, List.mem_cons_of_mem _ List.mem_cons_self, rfl⟩
    · exact ⟨_, List.mem_cons_of_mem _ List.mem_cons_self, rfl⟩
    · exact ⟨_, List.mem_cons_self, rfl⟩
    · exact ⟨_, List.mem_cons_self, rfl⟩
    · exact ⟨_, List.mem_cons_of_mem _ List.mem_cons_self, rfl⟩
    · exact ⟨_, List.mem_cons_of_mem _ List.mem_cons_self, rfl⟩
    · exact ⟨_, List.mem_cons_self, rfl⟩
  · rcases List.mem_pair.mp ht with rfl | rfl
    · refine ⟨[bigChunk "s" 65536 1, bigChunk "s" 0 65536], ?_, rfl⟩
      exact (sendStreamChunks_bigTransfer "s").symm ▸ List.Perm.swap ..
    · refine ⟨[bigChunk "t" 65536 1, bigChunk "t" 0 65536], ?_, rfl⟩
      exact (sendStreamChunks_bigTransfer "t").symm ▸ List.Perm.swap ..

end PiWebrtc.DataChannel
