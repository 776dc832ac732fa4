import PiWebrtc.DataChannel.IpcChannel
import PiWebrtc.Lib.Scatter

namespace PiWebrtc.DataChannel

open Scatter

/-!
# Reassembly refines what the packets say

A stream is known by what its packets say: the total of its last header and the chunks
since (`StreamView`).  The assembly of a stream refines it (`Assembled`): the buffer is the
chunks written over zeros, and `received` is what they have together, modulo `2 ^ 64`.

* `onPacket_stream` — a packet acts on the assembly of its own stream and on nothing else,
  as if that stream were alone.
* `receive_assembled` — after any packets, every assembly is what the packets of its stream
  say.
* `Assembled.sound_iff` — what the counter `received` says about the bytes of the buffer.
-/

/-! ### One stream alone -/

/-- What a packet of a stream makes of its assembly, and the payload that it hands out. -/
def streamStep (heap : Heap) (a : Option Assembly) :
    StreamPayload → Except StdException (Option Assembly × Option StdString)
  | .header header => do
    let buffer ← StdString.assign heap header.totalLength.toNat 0
    return (some ⟨buffer, 0⟩, none)
  | .chunk chunk =>
    match a with
    | none => return (none, none)
    | some assembly =>
      if assembly.buffer.size < chunk.offset + chunk.data.size then return (none, none)
      else do
        let buffer ←
          assembly.buffer.replace heap chunk.offset.toNat chunk.data.bytes.length chunk.data
        return (some ⟨buffer, assembly.received + chunk.data.size⟩, none)
  | .trailer trailer =>
    match a with
    | none => return (none, none)
    | some assembly =>
      let body := IpcChannel.trailerBody assembly trailer
      return (none, if body.bytes = [] then none else some body)
  | .notSet => return (a, none)

namespace IpcChannel

/-- Give a stream its new assembly and write what it hands out. -/
def settle (ch : IpcChannel) (streamId remoteId : String)
    (result : Option Assembly × Option StdString) : IpcChannel :=
  let ch := ch.setAssembly streamId result.1
  match result.2 with
  | some body => ch.writeToEndpoint IpcEndpoint.kName remoteId body
  | none => ch

theorem setAssembly_self {ch : IpcChannel} {streamId : String} {a : Option Assembly}
    (h : ch.assemblies streamId = a) : ch.setAssembly streamId a = ch := by
  rw [setAssembly, ← h, Function.update_eq_self]

/-- **Isolation.** A stream packet acts on its own stream as if that were alone. -/
theorem onPacket_stream {ch : IpcChannel} {r : Received} {id : String} {p : StreamPayload}
    (hbody : r.packet.body = .stream id p) :
    ch.onPacket r =
      (streamStep r.heap (ch.assemblies id) p).map (ch.settle id r.remoteId) := by
  rw [onPacket, hbody]
  cases p with
  | header header =>
    simp only [onStreamHeader, streamStep]
    cases StdString.assign r.heap header.totalLength.toNat 0 <;> rfl
  | chunk chunk =>
    simp only [onStreamChunk, streamStep]
    cases ha : ch.assemblies id with
    | none => exact congrArg Except.ok (setAssembly_self ha).symm
    | some assembly =>
      dsimp only
      split
      case isTrue => rfl
      case isFalse =>
        cases assembly.buffer.replace r.heap chunk.offset.toNat chunk.data.bytes.length
          chunk.data <;> rfl
  | trailer trailer =>
    simp only [onStreamTrailer, streamStep]
    cases ha : ch.assemblies id with
    | none => exact congrArg Except.ok (setAssembly_self ha).symm
    | some assembly =>
      dsimp only
      split <;> rfl
  | notSet => exact congrArg Except.ok (setAssembly_self rfl).symm

/-- A packet without a stream leaves every assembly alone. -/
theorem onPacket_other {ch ch' : IpcChannel} {r : Received}
    (hbody : ∀ id p, r.packet.body ≠ .stream id p) (h : ch.onPacket r = .ok ch') :
    ch'.assemblies = ch.assemblies := by
  rw [onPacket] at h
  split at h
  case h_1 endpoint sequence payload _ =>
    have hacc := acceptSequence_assemblies ch r.remoteId endpoint sequence r.now
    split at h
    case h_1 mid accepted hmid =>
      rw [hmid] at hacc
      split at h
      · obtain rfl := Except.ok.inj h
        exact hacc
      · obtain rfl := Except.ok.inj h
        exact hacc
  case h_2 =>
    obtain rfl := Except.ok.inj h
    rfl
  case h_3 id p hs => exact absurd hs (hbody id p)
  case h_4 =>
    obtain rfl := Except.ok.inj h
    rfl

end IpcChannel

/-! ### What the packets say -/

/-- The chunk as a piece of the buffer. -/
def StreamChunk.piece (c : StreamChunk) : Piece UInt8 := ⟨c.offset.toNat, c.data.bytes⟩

/-- The chunk has byte `b` for position `i`. -/
def StreamChunk.Supplies (c : StreamChunk) (i : ℕ) (b : UInt8) : Prop :=
  i ∈ c.piece.cells ∧ c.data.bytes[i - c.offset.toNat]? = some b

/-- What is known of a stream: the total of its last header, and the chunks since. -/
structure StreamView where
  total : Option UInt64 := none
  chunks : List StreamChunk := []

namespace StreamView

/-- One more packet of the stream. -/
def next (v : StreamView) : StreamPayload → StreamView
  | .header h => ⟨some h.totalLength, []⟩
  | .chunk c => { v with chunks := v.chunks ++ [c] }
  | .trailer _ => v
  | .notSet => v

/-- The chunks as pieces. -/
def pieces (v : StreamView) : List (Piece UInt8) := v.chunks.map StreamChunk.piece

/-- How many bytes went to positions that another chunk since the header supplies too. -/
def repeatedBytes (v : StreamView) : ℕ := repeated v.pieces

/-- What is to hold of a payload delivered for the stream. -/
structure Sound (v : StreamView) (payload : StdString) : Prop where
  length_eq : ∃ total ∈ v.total, payload.bytes.length = total.toNat
  supplied : ∀ i b, payload.bytes[i]? = some b → ∃ c ∈ v.chunks, c.Supplies i b

end StreamView

/-- What the packets received so far say about stream `id`. -/
def viewOf (id : String) (received : List Received) : StreamView :=
  (received.filterMap fun r => r.packet.streamPayload id).foldl StreamView.next {}

/-! ### The assembly refines it -/

/-- An assembly is what the packets say. -/
structure Assembled (a : Assembly) (v : StreamView) : Prop where
  total_eq : v.total = some a.buffer.size
  fits : ∀ p ∈ v.pieces, p.Fits a.buffer.bytes.length
  buffer_eq : a.buffer.bytes = putAll (List.replicate a.buffer.bytes.length 0) v.pieces
  received_eq : a.received = UInt64.ofNat (volume v.pieces)

namespace Assembled

/-- After its header. -/
theorem header {heap : Heap} {h : StreamHeader} {buffer : StdString} (v : StreamView)
    (hb : StdString.assign heap h.totalLength.toNat 0 = .ok buffer) :
    Assembled ⟨buffer, 0⟩ (v.next (.header h)) := by
  have hbytes := StdString.assign_eq_ok hb
  have hlen : buffer.bytes.length = h.totalLength.toNat := by
    rw [hbytes, List.length_replicate]
  refine ⟨?_, by simp [StreamView.next, StreamView.pieces], ?_, rfl⟩
  · show some h.totalLength = some buffer.size
    rw [StdString.size, hlen, UInt64.ofNat_toNat]
  · show buffer.bytes = List.replicate buffer.bytes.length 0
    rw [hlen, hbytes]

/-- One more chunk that fits. -/
theorem chunk {heap : Heap} {a : Assembly} {v : StreamView} (ha : Assembled a v)
    {c : StreamChunk} (hfit : c.piece.Fits a.buffer.bytes.length) {buffer : StdString}
    (hb : a.buffer.replace heap c.offset.toNat c.data.bytes.length c.data = .ok buffer) :
    Assembled ⟨buffer, a.received + c.data.size⟩ (v.next (.chunk c)) := by
  obtain ⟨t, ht, hbytes⟩ := StdString.replace_of_le heap hfit
  obtain rfl : t = buffer := Except.ok.inj (ht.symm.trans hb)
  have hput : t.bytes = c.piece.put a.buffer.bytes := hbytes
  have hlen : t.bytes.length = a.buffer.bytes.length := hput ▸ Piece.length_put hfit
  have hpieces : (v.next (.chunk c)).pieces = v.pieces ++ [c.piece] := by
    simp [StreamView.next, StreamView.pieces]
  refine ⟨?_, ?_, ?_, ?_⟩
  · show v.total = some t.size
    rw [ha.total_eq, StdString.size, StdString.size, hlen]
  · intro p hp
    rw [hpieces, List.mem_append, List.mem_singleton] at hp
    show p.Fits t.bytes.length
    rw [hlen]
    rcases hp with hp | rfl
    · exact ha.fits p hp
    · exact hfit
  · show t.bytes = putAll (List.replicate t.bytes.length 0) _
    rw [hpieces, putAll_append, putAll_singleton, hlen, ← ha.buffer_eq, hput]
  · show a.received + c.data.size = _
    rw [hpieces, volume_append, ha.received_eq, StdString.size, UInt64.ofNat_add]
    simp [StreamChunk.piece, volume]

/-- The guard of `OnStreamChunk`, when the replacement goes through: the chunk fits. -/
theorem fits_of_replace {heap : Heap} {a : Assembly} {c : StreamChunk} {buffer : StdString}
    (hguard : ¬ a.buffer.size < c.offset + c.data.size)
    (hb : a.buffer.replace heap c.offset.toNat c.data.bytes.length c.data = .ok buffer) :
    c.piece.Fits a.buffer.bytes.length := by
  have hpos : c.offset.toNat ≤ a.buffer.bytes.length := by
    by_contra hlt
    rw [StdString.replace_of_lt (not_le.mp hlt)] at hb
    cases hb
  have h1 := a.buffer.length_lt
  have h2 := c.data.length_lt
  -- an offset inside the buffer is too small for the sum to wrap around
  rw [UInt64.lt_iff_toNat_lt, UInt64.toNat_add, StdString.toNat_size, StdString.toNat_size,
    Nat.mod_eq_of_lt (by omega), not_lt] at hguard
  exact hguard

/-- **The counter and the coverage.** When the counter has reached the length of the
    buffer, every byte of it was supplied exactly when what was sent twice is a multiple of
    `2 ^ 64`. -/
theorem sound_iff {a : Assembly} {v : StreamView} (ha : Assembled a v)
    (hfull : a.received = a.buffer.size) :
    v.Sound a.buffer ↔ 2 ^ 64 ∣ v.repeatedBytes := by
  have hlt := a.buffer.length_lt
  have hmod : volume v.pieces ≡ a.buffer.bytes.length [MOD 2 ^ 64] := by
    have heq : (UInt64.ofNat (volume v.pieces)).toNat = a.buffer.bytes.length := by
      rw [← ha.received_eq, hfull, StdString.toNat_size]
    rw [UInt64.toNat_ofNat'] at heq
    rw [Nat.ModEq, heq, Nat.mod_eq_of_lt (by omega)]
  rw [StreamView.repeatedBytes, ← covers_iff_dvd_repeated (by omega) ha.fits hmod]
  constructor
  · intro h i hi
    obtain ⟨c, hc, hcell, -⟩ := h.supplied i _ (List.getElem?_eq_getElem hi)
    exact mem_covered.mpr ⟨c.piece, List.mem_map_of_mem hc, hcell⟩
  · intro hcov
    refine ⟨⟨_, ha.total_eq, (StdString.toNat_size _).symm⟩, fun i b hb => ?_⟩
    have hi : i < a.buffer.bytes.length := by
      by_contra hge
      rw [List.getElem?_eq_none (not_lt.mp hge)] at hb
      cases hb
    obtain ⟨p, hp, hpi, hval⟩ := getElem?_putAll List.length_replicate ha.fits (hcov i hi)
    obtain ⟨c, hc, rfl⟩ := List.mem_map.mp hp
    rw [← ha.buffer_eq, hb] at hval
    exact ⟨c, hc, hpi, hval.symm⟩

end Assembled

/-! ### Every run keeps the refinement -/

/-- What a packet can do to its stream without an exception. -/
inductive StreamStepped (heap : Heap) (a : Option Assembly) :
    StreamPayload → Option Assembly → Option StdString → Prop where
  | opened (header : StreamHeader) (buffer : StdString)
      (hb : StdString.assign heap header.totalLength.toNat 0 = .ok buffer) :
      StreamStepped heap a (.header header) (some ⟨buffer, 0⟩) none
  | written (chunk : StreamChunk) (s : Assembly) (buffer : StdString) (hs : a = some s)
      (hguard : ¬ s.buffer.size < chunk.offset + chunk.data.size)
      (hb : s.buffer.replace heap chunk.offset.toNat chunk.data.bytes.length chunk.data =
        .ok buffer) :
      StreamStepped heap a (.chunk chunk) (some ⟨buffer, s.received + chunk.data.size⟩) none
  | dropped (chunk : StreamChunk) : StreamStepped heap a (.chunk chunk) none none
  | ended (trailer : StreamTrailer) (out : Option StdString)
      (hout : ∀ body ∈ out, ∃ s ∈ a, body = s.buffer ∧ s.received = s.buffer.size) :
      StreamStepped heap a (.trailer trailer) none out
  | ignored : StreamStepped heap a .notSet a none

/-- What is left of an assembly when the trailer hands out a body. -/
theorem trailerBody_cases (s : Assembly) (t : StreamTrailer) :
    (IpcChannel.trailerBody s t).bytes = [] ∨
      IpcChannel.trailerBody s t = s.buffer ∧ s.received = s.buffer.size := by
  unfold IpcChannel.trailerBody
  split
  case isTrue => exact .inl rfl
  case isFalse =>
    split
    case isTrue => exact .inl rfl
    case isFalse hfull => exact .inr ⟨rfl, not_not.mp hfull⟩

/-- **Inversion of a step.** -/
theorem streamStep_stepped {heap : Heap} {a a' : Option Assembly} {p : StreamPayload}
    {out : Option StdString} (h : streamStep heap a p = .ok (a', out)) :
    StreamStepped heap a p a' out := by
  cases p with
  | header header =>
    simp only [streamStep] at h
    cases hb : StdString.assign heap header.totalLength.toNat 0 with
    | error e =>
      rw [hb] at h
      cases h
    | ok buffer =>
      rw [hb] at h
      cases h
      exact .opened header buffer hb
  | chunk chunk =>
    cases a with
    | none =>
      cases h
      exact .dropped chunk
    | some s =>
      simp only [streamStep] at h
      split at h
      case isTrue =>
        cases h
        exact .dropped chunk
      case isFalse hguard =>
        cases hb : s.buffer.replace heap chunk.offset.toNat chunk.data.bytes.length
            chunk.data with
        | error e =>
          rw [hb] at h
          cases h
        | ok buffer =>
          rw [hb] at h
          cases h
          exact .written chunk s buffer rfl hguard hb
  | trailer trailer =>
    cases a with
    | none =>
      cases h
      exact .ended trailer none (by simp)
    | some s =>
      cases h
      refine .ended trailer _ fun body hbody => ⟨s, rfl, ?_⟩
      split at hbody
      case isTrue => cases hbody
      case isFalse hne =>
        cases hbody
        exact (trailerBody_cases s trailer).resolve_left hne
  | notSet =>
    cases h
    exact .ignored

/-- **Step.** A packet keeps its stream's assembly what the packets say. -/
theorem StreamStepped.assembled {heap : Heap} {a a' : Option Assembly} {v : StreamView}
    {p : StreamPayload} {out : Option StdString} (h : StreamStepped heap a p a' out)
    (ha : ∀ s ∈ a, Assembled s v) : ∀ s ∈ a', Assembled s (v.next p) := by
  cases h with
  | opened header buffer hb =>
    rintro s ⟨⟩
    exact Assembled.header v hb
  | written chunk s buffer hs hguard hb =>
    rintro t ⟨⟩
    exact (ha s hs).chunk (Assembled.fits_of_replace hguard hb) hb
  | dropped chunk => rintro s ⟨⟩
  | ended trailer out hout => rintro s ⟨⟩
  | ignored => exact ha

namespace IpcChannel

@[simp] theorem settle_assemblies (ch : IpcChannel) (id remoteId : String)
    (result : Option Assembly × Option StdString) :
    (ch.settle id remoteId result).assemblies =
      Function.update ch.assemblies id result.1 := by
  unfold settle
  split <;> simp

theorem settle_written (ch : IpcChannel) (id remoteId : String)
    (result : Option Assembly × Option StdString) :
    (ch.settle id remoteId result).written =
      ch.written ++ (result.2.map fun body => ⟨IpcEndpoint.kName, remoteId, body⟩).toList := by
  unfold settle
  split
  case h_1 body h => simp [h]
  case h_2 h => simp [h]

/-- A stream packet that is handled without an exception has stepped its stream. -/
theorem onPacket_stepped {ch ch' : IpcChannel} {r : Received} {id : String} {p : StreamPayload}
    (hbody : r.packet.body = .stream id p) (h : ch.onPacket r = .ok ch') :
    ∃ a' out, StreamStepped r.heap (ch.assemblies id) p a' out ∧
      ch' = ch.settle id r.remoteId (a', out) := by
  rw [onPacket_stream hbody] at h
  cases hstep : streamStep r.heap (ch.assemblies id) p with
  | error e =>
    rw [hstep] at h
    cases h
  | ok result =>
    rw [hstep] at h
    exact ⟨result.1, result.2, streamStep_stepped hstep, (Except.ok.inj h).symm⟩

/-- **Step of the channel.** -/
theorem onPacket_assembled {ch ch' : IpcChannel} {r : Received} {id : String} {v : StreamView}
    (hv : ∀ s ∈ ch.assemblies id, Assembled s v) (h : ch.onPacket r = .ok ch') :
    ∀ s ∈ ch'.assemblies id, Assembled s ((r.packet.streamPayload id).elim v v.next) := by
  unfold Packet.streamPayload
  split
  case h_1 streamId p hbody =>
    obtain ⟨a', out, hstep, rfl⟩ := onPacket_stepped hbody h
    rw [settle_assemblies]
    split
    case isTrue heq =>
      subst heq
      rw [Function.update_self]
      exact hstep.assembled hv
    case isFalse hne =>
      rw [Function.update_of_ne (Ne.symm hne)]
      exact hv
  case h_2 hbody =>
    rw [onPacket_other hbody h]
    exact hv

/-- **Run.** After any packets, every assembly is what the packets of its stream say. -/
theorem receive_assembled {role : ChannelRole} {endpoints : Option EndpointRegistry}
    {received : List Received} {ch : IpcChannel}
    (h : (create role endpoints).receive received = .ok ch) (id : String) :
    ∀ s ∈ ch.assemblies id, Assembled s (viewOf id received) := by
  suffices hgen : ∀ (rs : List Received) (start : IpcChannel) (v : StreamView),
      (∀ s ∈ start.assemblies id, Assembled s v) → start.receive rs = .ok ch →
      ∀ s ∈ ch.assemblies id, Assembled s
        ((rs.filterMap fun r => r.packet.streamPayload id).foldl StreamView.next v) by
    exact hgen received _ {} (by rintro s ⟨⟩) h
  intro rs
  induction rs with
  | nil =>
    intro start v hv hrun
    cases hrun
    exact hv
  | cons r rs ih =>
    intro start v hv hrun
    obtain ⟨mid, hmid, hrest⟩ := receive_cons_eq_ok.mp hrun
    have hstep := ih mid _ (onPacket_assembled hv hmid) hrest
    rw [List.filterMap_cons]
    cases hp : r.packet.streamPayload id <;> simpa [hp] using hstep

end IpcChannel

end PiWebrtc.DataChannel
