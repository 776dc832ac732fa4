import PiWebrtc.DataChannel.Reassembly

namespace PiWebrtc.DataChannel

open Scatter

/-!
# The bounds of a chunk

The guard of `OnStreamChunk` adds an offset that the peer chose to a size, modulo `2 ^ 64`.
A sum that wraps around passes it, and `replace` then throws; a header for more than the
allocator grants throws in `assign`.  `handledSafely_iff` says that these are the only ways
in which a stream packet is not handled as it should be, whatever is being assembled.
-/

namespace IpcChannel

/-- A stream packet is handled as it should be: no exception, no other stream touched, and
    a chunk either lies inside the buffer and is written there, or costs its own stream the
    assembly. -/
def HandledSafely (ch : IpcChannel) (r : Received) (id : String) (p : StreamPayload) : Prop :=
  ∃ ch', ch.onPacket r = .ok ch' ∧
    (∀ other, other ≠ id → ch'.assemblies other = ch.assemblies other) ∧
    ∀ c s, p = .chunk c → ch.assemblies id = some s →
      (¬ c.piece.Fits s.buffer.bytes.length ∧ ch'.assemblies id = none) ∨
      (c.piece.Fits s.buffer.bytes.length ∧
        ∃ s', ch'.assemblies id = some s' ∧ s'.buffer.bytes = c.piece.put s.buffer.bytes)

/-- The condition: the allocator grants the total of a header, and the end of a chunk of a
    known stream, taken modulo `2 ^ 64`, wraps around only if what remains still lies
    behind the buffer. -/
def Harmless (ch : IpcChannel) (heap : Heap) (id : String) : StreamPayload → Prop
  | .header h => heap.grants h.totalLength.toNat = true
  | .chunk c => ∀ s ∈ ch.assemblies id,
      c.offset.toNat + c.data.bytes.length < 2 ^ 64 ∨
      s.buffer.bytes.length < c.offset.toNat + c.data.bytes.length - 2 ^ 64
  | .trailer _ => True
  | .notSet => True

/-- The end of a chunk as the guard computes it. -/
theorem toNat_offset_add_size (c : StreamChunk) :
    (c.offset + c.data.size).toNat =
      if c.offset.toNat + c.data.bytes.length < 2 ^ 64 then
        c.offset.toNat + c.data.bytes.length
      else c.offset.toNat + c.data.bytes.length - 2 ^ 64 := by
  have h1 := c.offset.toNat_lt
  have h2 := c.data.length_lt
  rw [UInt64.toNat_add, StdString.toNat_size]
  split
  case isTrue h => exact Nat.mod_eq_of_lt h
  case isFalse h =>
    rw [Nat.mod_eq_sub_mod (not_lt.mp h)]
    exact Nat.mod_eq_of_lt (by omega)

variable {ch : IpcChannel} {r : Received} {id : String}

/-- A packet that only sets its own stream's assembly leaves the others alone. -/
theorem settle_other (ch : IpcChannel) (id remoteId : String)
    (result : Option Assembly × Option StdString) {other : String} (h : other ≠ id) :
    (ch.settle id remoteId result).assemblies other = ch.assemblies other := by
  rw [settle_assemblies, Function.update_of_ne h]

/-- A header is handled safely if the allocator grants its total. -/
theorem handledSafely_header_iff {h : StreamHeader}
    (hbody : r.packet.body = .stream id (.header h)) :
    HandledSafely ch r id (.header h) ↔ Harmless ch r.heap id (.header h) := by
  constructor
  · rintro ⟨ch', hok, -⟩
    obtain ⟨a', out, hs, -⟩ := onPacket_stepped hbody hok
    cases hs with
    | opened _ buffer hb => exact StdString.assign_isOk_iff.mp ⟨buffer, hb⟩
  · intro hgrant
    obtain ⟨buffer, hb⟩ := StdString.assign_isOk_iff.mpr hgrant
    refine ⟨ch.settle id r.remoteId (some ⟨buffer, 0⟩, none), ?_,
      fun other hne => settle_other ch id r.remoteId _ hne, by rintro c s ⟨⟩⟩
    rw [onPacket_stream hbody, streamStep, hb]
    rfl

/-- A chunk is handled safely unless its end wraps around into the buffer. -/
theorem handledSafely_chunk_iff {c : StreamChunk}
    (hbody : r.packet.body = .stream id (.chunk c)) :
    HandledSafely ch r id (.chunk c) ↔ Harmless ch r.heap id (.chunk c) := by
  have hpkt : ch.onPacket r = _ := onPacket_stream hbody
  cases ha : ch.assemblies id with
  | none =>
    -- a chunk of an unknown stream changes nothing
    have hsafe : HandledSafely ch r id (.chunk c) := by
      refine ⟨ch.settle id r.remoteId (none, none), ?_,
        fun other hne => settle_other ch id r.remoteId _ hne, ?_⟩
      · rw [hpkt, ha]
        rfl
      · intro c' s _ hs
        rw [ha] at hs
        cases hs
    have hharm : Harmless ch r.heap id (.chunk c) := by
      intro s hs
      rw [ha] at hs
      cases hs
    exact iff_of_true hsafe hharm
  | some s =>
    have hL := s.buffer.length_lt
    have hd := c.data.length_lt
    have hend := toNat_offset_add_size c
    rw [ha] at hpkt
    simp only [streamStep] at hpkt
    by_cases hguard : s.buffer.size < c.offset + c.data.size
    · -- the guard sees the overrun: the stream loses its assembly
      rw [if_pos hguard] at hpkt
      rw [UInt64.lt_iff_toNat_lt, StdString.toNat_size, hend] at hguard
      have hfit : ¬ c.piece.Fits s.buffer.bytes.length := by
        show ¬ c.offset.toNat + c.data.bytes.length ≤ _
        split at hguard <;> omega
      have hsafe : HandledSafely ch r id (.chunk c) := by
        refine ⟨_, hpkt, fun other hne => settle_other ch id r.remoteId _ hne, ?_⟩
        rintro c' s' ⟨⟩ hs'
        obtain rfl : s = s' := Option.some.inj (ha.symm.trans hs')
        exact .inl ⟨hfit, by rw [settle_assemblies, Function.update_self]⟩
      have hharm : Harmless ch r.heap id (.chunk c) := by
        intro s' hs'
        obtain rfl : s = s' := Option.some.inj (ha.symm.trans hs')
        split at hguard
        · exact .inl ‹_›
        · exact .inr hguard
      exact iff_of_true hsafe hharm
    · rw [if_neg hguard] at hpkt
      rw [UInt64.lt_iff_toNat_lt, StdString.toNat_size, hend, not_lt] at hguard
      by_cases hwrap : c.offset.toNat + c.data.bytes.length < 2 ^ 64
      · -- no wrap-around: the chunk fits
        rw [if_pos hwrap] at hguard
        obtain ⟨t, ht, hbytes⟩ := StdString.replace_of_le r.heap hguard
        rw [ht] at hpkt
        have hsafe : HandledSafely ch r id (.chunk c) := by
          refine ⟨_, hpkt, fun other hne => settle_other ch id r.remoteId _ hne, ?_⟩
          rintro c' s' ⟨⟩ hs'
          obtain rfl : s = s' := Option.some.inj (ha.symm.trans hs')
          exact .inr ⟨hguard, ⟨t, s.received + c.data.size⟩,
            by rw [settle_assemblies, Function.update_self], hbytes⟩
        exact iff_of_true hsafe fun _ _ => .inl hwrap
      · -- the sum wrapped around, so the offset is far behind the buffer
        rw [if_neg hwrap] at hguard
        rw [StdString.replace_of_lt (by omega)] at hpkt
        refine iff_of_false ?_ ?_
        · rintro ⟨ch', hok, -⟩
          rw [hpkt] at hok
          cases hok
        · intro hharm
          rcases hharm s ha with h | h <;> omega

/-- **Bounds.** Whatever is being assembled, a stream packet is handled as it should be
    exactly when it is harmless. -/
theorem handledSafely_iff (ch : IpcChannel) (requestId id remoteId : String)
    (p : StreamPayload) (now : ℤ) (heap : Heap) :
    HandledSafely ch ⟨⟨requestId, .stream id p⟩, remoteId, now, heap⟩ id p ↔
      Harmless ch heap id p := by
  cases p with
  | header h => exact handledSafely_header_iff rfl
  | chunk c => exact handledSafely_chunk_iff rfl
  | trailer t =>
    refine iff_of_true ?_ trivial
    obtain ⟨result, hresult⟩ : ∃ result, streamStep heap (ch.assemblies id) (.trailer t) =
        .ok result := by
      simp only [streamStep]
      split <;> exact ⟨_, rfl⟩
    refine ⟨ch.settle id remoteId result, ?_,
      fun other hne => settle_other ch id remoteId _ hne, by rintro c s ⟨⟩⟩
    rw [onPacket_stream rfl, hresult]
    rfl
  | notSet =>
    refine iff_of_true ⟨ch, rfl, fun _ _ => rfl, ?_⟩ trivial
    rintro c s ⟨⟩

/-- The largest 64-bit number. -/
def maxUInt64 : UInt64 := 0xFFFFFFFFFFFFFFFF

/-- The largest offset, after a header for two bytes: the sum wraps around to zero.  And
    the largest total. -/
theorem not_handledSafely_wrapped :
    ∃ ch : IpcChannel, (create .reliable none).receive [fromPeer (.header ⟨"", 2⟩)] = .ok ch ∧
      ¬ HandledSafely ch (fromPeer (.chunk ⟨maxUInt64, ⟨[1], by decide⟩⟩)) "s"
        (.chunk ⟨maxUInt64, ⟨[1], by decide⟩⟩) ∧
      ¬ HandledSafely ch (fromPeer (.header ⟨"", maxUInt64⟩)) "s" (.header ⟨"", maxUInt64⟩) := by
  refine ⟨_, rfl, fun h => ?_, fun h => ?_⟩
  · have hharm := (handledSafely_chunk_iff (r := fromPeer _) rfl).mp h
    rcases hharm _ rfl with h | h
    · exact absurd h (by decide)
    · exact absurd h (by decide)
  · have hgrant : amplyHeap.grants maxUInt64.toNat = true :=
      (handledSafely_header_iff (r := fromPeer _) rfl).mp h
    exact absurd hgrant (by decide)

end IpcChannel

end PiWebrtc.DataChannel
