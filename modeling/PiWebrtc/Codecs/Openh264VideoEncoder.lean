import PiWebrtc.Lib.Machine
import PiWebrtc.Lib.Raster
import Mathlib.Data.List.TakeWhile

namespace PiWebrtc.Codecs

open Transition Raster

/-!
# Frames from OpenH264

`SendFrame` copies the NAL units of all layers into one buffer of their size, and tells WebRTC
the temporal layer of the frame and whether a receiver may switch up to that layer with it
(`base_layer_sync`), which it keeps track of with one number.

* `copyBitstream_eq` — the buffer holds the NAL units, all of them, in order, and nothing is
  written beside it.
* `baseLayerSync_iff` — a frame is marked exactly if, since the last one of the base layer, none
  of its layer or one below came, so that it depends on the base layer alone.
-/

/-! ### The bitstream -/

/-- `SLayerBSInfo`: the lengths of the NAL units and the memory that they lie in. -/
structure LayerBSInfo where
  temporalId : ℕ
  nalLengthInByte : List ℕ
  bsBuf : List UInt8
  deriving DecidableEq, Repr

/-- `layer_len`. -/
def LayerBSInfo.length (layer : LayerBSInfo) : ℕ := layer.nalLengthInByte.sum

/-- `BitstreamSize`. -/
def bitstreamSize (layers : List LayerBSInfo) : ℕ := (layers.map LayerBSInfo.length).sum

/-- `CopyBitstream`, from byte `offset` of the buffer on; `none` if it reaches outside of some
    memory. -/
def copyBitstream (layers : List LayerBSInfo) (dst : List UInt8) (offset : ℕ) :
    Option (List UInt8) :=
  match layers with
  | [] => some dst
  | layer :: layers =>
    (memcpy dst offset layer.bsBuf 0 layer.length).bind fun dst =>
      copyBitstream layers dst (offset + layer.length)

/-- The layer holds these NAL units, one behind the other. -/
def LayerBSInfo.Holds (layer : LayerBSInfo) (nals : List (List UInt8)) : Prop :=
  layer.nalLengthInByte = nals.map List.length ∧ nals.flatten <+: layer.bsBuf

theorem LayerBSInfo.Holds.length {layer : LayerBSInfo} {nals : List (List UInt8)}
    (h : layer.Holds nals) : layer.length = nals.flatten.length := by
  rw [LayerBSInfo.length, h.1, List.length_flatten]

theorem memcpy_append {before dst src : List UInt8} {n : ℕ} (hdst : n ≤ dst.length)
    (hsrc : n ≤ src.length) :
    memcpy (before ++ dst) before.length src 0 n = some (before ++ src.take n ++ dst.drop n) := by
  have hi : before.length + n ≤ (before ++ dst).length := by
    rw [List.length_append]
    omega
  have hj : 0 + n ≤ src.length := by omega
  obtain ⟨d, hcopy, hlength, hnew, hold⟩ := memcpy_spec (before ++ dst) src hi hj
  rw [hcopy]
  congr 1
  refine List.ext_getElem? fun k => ?_
  have htake : (src.take n).length = n := List.length_take_of_le hsrc
  rcases Nat.lt_or_ge k before.length with hk | hk
  · rw [hold k (.inl hk), List.append_assoc, List.getElem?_append_left hk,
      List.getElem?_append_left hk]
  rcases Nat.lt_or_ge k (before.length + n) with hk' | hk'
  · obtain ⟨i, rfl⟩ := Nat.exists_eq_add_of_le hk
    rw [hnew i (by omega), Nat.zero_add, List.append_assoc, List.getElem?_append_right hk,
      List.getElem?_append_left (by omega), Nat.add_sub_cancel_left,
      List.getElem?_take_of_lt (by omega)]
  · rw [hold k (.inr hk'), List.getElem?_append_right hk,
      List.getElem?_append_right (by rw [List.length_append]; omega), List.length_append, htake,
      List.getElem?_drop]
    congr 1
    omega

/-- What the buffer holds when the layers were copied behind what it held. -/
theorem copyBitstream_append {layers : List LayerBSInfo} {nals : List (List (List UInt8))}
    (h : List.Forall₂ LayerBSInfo.Holds layers nals) {before dst : List UInt8}
    (hdst : dst.length = bitstreamSize layers) :
    copyBitstream layers (before ++ dst) before.length =
      some (before ++ (nals.map List.flatten).flatten) := by
  induction h generalizing before dst with
  | nil =>
    obtain rfl := List.eq_nil_of_length_eq_zero hdst
    rfl
  | @cons layer units layers nals hlayer _ ih =>
    have hlength := hlayer.length
    rw [bitstreamSize, List.map_cons, List.sum_cons] at hdst
    have hsrc : layer.length ≤ layer.bsBuf.length := hlength ▸ hlayer.2.length_le
    have htake : layer.bsBuf.take layer.length = units.flatten := by
      rw [hlength]
      exact (List.prefix_iff_eq_take.mp hlayer.2).symm
    rw [copyBitstream, memcpy_append (by omega) hsrc, Option.bind_some, htake]
    have hnext : before.length + layer.length = (before ++ units.flatten).length := by
      rw [List.length_append, hlength]
    have hrest : (dst.drop layer.length).length = bitstreamSize layers := by
      rw [List.length_drop, bitstreamSize]
      omega
    rw [hnext, ih hrest, List.map_cons, List.flatten_cons, List.append_assoc]

/-- **The bitstream is complete.** A buffer of the size that is asked for is filled with the NAL
    units of all layers, in order. -/
theorem copyBitstream_eq (layers : List LayerBSInfo) (nals : List (List (List UInt8)))
    (h : List.Forall₂ LayerBSInfo.Holds layers nals) (dst : List UInt8)
    (hdst : dst.length = bitstreamSize layers) :
    copyBitstream layers dst 0 = some nals.flatten.flatten := by
  have hcopy := @copyBitstream_append layers nals h [] dst hdst
  rw [List.nil_append, List.nil_append] at hcopy
  rw [List.flatten_flatten]
  exact hcopy

/-- A frame of one layer with two NAL units, in a memory that is longer. -/
theorem copyBitstream_eq_oneLayer :
    copyBitstream [⟨0, [2, 1], [7, 8, 5, 9]⟩] [0, 0, 0] 0 = some [7, 8, 5] :=
  copyBitstream_eq [⟨0, [2, 1], [7, 8, 5, 9]⟩] [[[7, 8], [5]]]
    (.cons ⟨rfl, [9], rfl⟩ .nil) [0, 0, 0] rfl

/-! ### The temporal layers -/

/-- What WebRTC is told of a frame; `temporalIdx` is none without layers. -/
structure H264Info where
  temporalIdx : Option ℕ
  idrFrame : Bool
  baseLayerSync : Bool
  deriving DecidableEq, Repr

/-- A frame that was sent: its temporal layer, and what WebRTC was told. -/
structure SentFrame where
  temporalId : ℕ
  info : H264Info
  deriving DecidableEq, Repr

/-- The encoder, and, as history, the frames that were sent since `InitEncode`. -/
structure Openh264VideoEncoder where
  numTemporalLayers : ℕ := 1
  tl0syncLimit : ℕ := 1
  sent : List SentFrame := []
  deriving DecidableEq, Repr

inductive Openh264Event where
  /-- `InitEncode`, with the numbers of layers of the codec and of its first stream. -/
  | initEncode (h264Layers streamLayers : ℕ)
  | sendFrame (temporalId : ℕ) (idr : Bool)
  deriving DecidableEq, Repr

namespace Openh264VideoEncoder

/-- `InitEncode`. -/
def initEncode (h264Layers streamLayers : ℕ) : Openh264VideoEncoder :=
  let layers := max 1 (max h264Layers streamLayers)
  { numTemporalLayers := layers, tl0syncLimit := layers }

/-- `SendFrame`. -/
def sendFrame (s : Openh264VideoEncoder) (temporalId : ℕ) (idr : Bool) : Openh264VideoEncoder :=
  if 1 < s.numTemporalLayers then
    let sync := decide (0 < temporalId ∧ temporalId < s.tl0syncLimit)
    let limit := if sync then temporalId else s.tl0syncLimit
    { s with
      tl0syncLimit := if temporalId = 0 then s.numTemporalLayers else limit
      sent := s.sent ++ [⟨temporalId, some temporalId, idr, sync⟩] }
  else { s with sent := s.sent ++ [⟨temporalId, none, idr, false⟩] }

/-- One event. -/
def step (s : Openh264VideoEncoder) : Openh264Event → Openh264VideoEncoder
  | .initEncode h264Layers streamLayers => initEncode h264Layers streamLayers
  | .sendFrame temporalId idr => s.sendFrame temporalId idr

end Openh264VideoEncoder

/-- An encoder that was created, over all sequences of events. -/
def openh264VideoEncoder : Machine Openh264VideoEncoder Openh264Event where
  init := {}
  step s a := some (s.step a)

/-- The frames after the last one of the base layer. -/
def sinceBaseLayer (sent : List SentFrame) : List SentFrame :=
  sent.reverse.takeWhile fun f => f.temporalId ≠ 0

/-- A frame depends on the base layer alone: there are several layers, its layer is one of them
    above the base layer, and no frame of its layer or one below came since. -/
def SyncsToBase (layers : ℕ) (sent : List SentFrame) (temporalId : ℕ) : Prop :=
  1 < layers ∧ 0 < temporalId ∧ temporalId < layers ∧
    ∀ f ∈ sinceBaseLayer sent, temporalId < f.temporalId

/-- What is asked for: every frame has its layer, and is marked if it syncs. -/
def SyncMarked (s : Openh264VideoEncoder) : Prop :=
  ∀ before f after, s.sent = before ++ f :: after →
    f.info.temporalIdx = (if 1 < s.numTemporalLayers then some f.temporalId else none) ∧
    (f.info.baseLayerSync = true ↔ SyncsToBase s.numTemporalLayers before f.temporalId)

/-- **The invariant.** The limit is the lowest layer above the base since the last base frame. -/
structure SyncLimit (s : Openh264VideoEncoder) : Prop where
  lt_iff : ∀ t, t < s.tl0syncLimit ↔
    t < s.numTemporalLayers ∧ ∀ f ∈ sinceBaseLayer s.sent, t < f.temporalId
  marked : SyncMarked s

theorem sinceBaseLayer_append (sent : List SentFrame) (f : SentFrame) :
    sinceBaseLayer (sent ++ [f]) =
      if f.temporalId = 0 then [] else f :: sinceBaseLayer sent := by
  rw [sinceBaseLayer, List.reverse_append, List.reverse_singleton, List.singleton_append]
  by_cases hbase : f.temporalId = 0
  · rw [if_pos hbase, List.takeWhile_cons_of_neg (by simp [hbase])]
  · rw [if_neg hbase, List.takeWhile_cons_of_pos (by simp [hbase]), sinceBaseLayer]

theorem pos_of_mem_sinceBaseLayer {sent : List SentFrame} {f : SentFrame}
    (h : f ∈ sinceBaseLayer sent) : 0 < f.temporalId := by
  have hne := List.mem_takeWhile_imp h
  exact Nat.pos_of_ne_zero (of_decide_eq_true hne)

/-- What was marked stays so; only the last frame is to be looked at. -/
theorem syncMarked_append {s s' : Openh264VideoEncoder} {f : SentFrame} (h : SyncMarked s)
    (hlayers : s'.numTemporalLayers = s.numTemporalLayers) (hsent : s'.sent = s.sent ++ [f])
    (hidx : f.info.temporalIdx = if 1 < s.numTemporalLayers then some f.temporalId else none)
    (hsync : f.info.baseLayerSync = true ↔
      SyncsToBase s.numTemporalLayers s.sent f.temporalId) : SyncMarked s' := by
  intro before g after hsplit
  rw [hlayers]
  rw [hsent] at hsplit
  rcases List.eq_nil_or_concat after with rfl | ⟨after, last, rfl⟩
  · obtain ⟨rfl, hlast⟩ := List.append_inj' hsplit rfl
    obtain rfl := List.singleton_inj.mp hlast
    exact ⟨hidx, hsync⟩
  · rw [List.concat_eq_append, ← List.cons_append, ← List.append_assoc] at hsplit
    exact h before g after (List.append_inj' hsplit rfl).1

theorem SyncLimit.sendFrame {s : Openh264VideoEncoder} (h : SyncLimit s) (temporalId : ℕ)
    (idr : Bool) : SyncLimit (s.sendFrame temporalId idr) := by
  unfold Openh264VideoEncoder.sendFrame
  split
  case isTrue hlayers =>
    have hsync : decide (0 < temporalId ∧ temporalId < s.tl0syncLimit) = true ↔
        SyncsToBase s.numTemporalLayers s.sent temporalId := by
      rw [decide_eq_true_iff, h.lt_iff]
      exact (and_iff_right hlayers).symm
    refine ⟨fun t => ?_, syncMarked_append h.marked rfl rfl (if_pos hlayers).symm hsync⟩
    dsimp only
    rw [sinceBaseLayer_append]
    by_cases hbase : temporalId = 0
    · rw [if_pos hbase, if_pos hbase]
      exact (and_iff_left (fun _ hf => absurd hf List.not_mem_nil)).symm
    · rw [if_neg hbase, if_neg hbase, List.forall_mem_cons]
      have hpos := Nat.pos_of_ne_zero hbase
      by_cases hlower : temporalId < s.tl0syncLimit
      · -- the frame has the lowest layer now
        rw [if_pos (decide_eq_true ⟨hpos, hlower⟩)]
        obtain ⟨hlt, hall⟩ := (h.lt_iff temporalId).mp hlower
        exact ⟨fun ht => ⟨ht.trans hlt, ht, fun f hf => ht.trans (hall f hf)⟩, fun ht => ht.2.1⟩
      · rw [if_neg fun hyes => hlower (of_decide_eq_true hyes).2, h.lt_iff]
        refine and_congr_right fun hlt => (and_iff_right_of_imp fun hall => ?_).symm
        exact ((h.lt_iff t).mpr ⟨hlt, hall⟩).trans_le (Nat.le_of_not_lt hlower)
  case isFalse hlayers =>
    have hnot : ∀ sent id, ¬ SyncsToBase s.numTemporalLayers sent id := fun _ _ h => hlayers h.1
    refine ⟨fun t => ?_, syncMarked_append h.marked rfl rfl (if_neg hlayers).symm
      (iff_of_false Bool.false_ne_true (hnot _ _))⟩
    -- there is only the base layer
    have hall : ∀ sent, t < s.numTemporalLayers → ∀ f ∈ sinceBaseLayer sent, t < f.temporalId :=
      fun sent ht f hf => (by omega : t = 0) ▸ pos_of_mem_sinceBaseLayer hf
    exact (h.lt_iff t).trans ⟨fun ht => ⟨ht.1, hall _ ht.1⟩, fun ht => ⟨ht.1, hall _ ht.1⟩⟩

/-- **Frames are marked for switching up, exactly.** In every run, each frame that was sent since
    `InitEncode` has its temporal layer, if there are several, and is marked exactly if it is
    above the base layer and no frame of its layer or a lower one came since the last base
    frame. -/
theorem baseLayerSync_iff (as : List Openh264Event) (s : Openh264VideoEncoder)
    (hrun : openh264VideoEncoder.run as = some s) : SyncMarked s := by
  have hnone : ∀ layers, SyncLimit
      { numTemporalLayers := layers, tl0syncLimit := layers : Openh264VideoEncoder } := by
    refine fun layers => ⟨fun t => (and_iff_left fun _ hf => ?_).symm, fun before f after h => ?_⟩
    · exact absurd hf List.not_mem_nil
    · exact absurd h (List.append_ne_nil_of_right_ne_nil _ (List.cons_ne_nil _ _)).symm
  refine (Machine.run_invariant (P := SyncLimit) (hnone 1) ?_ hrun).marked
  intro s a s' h hs
  obtain rfl := Option.some.inj hs
  cases a with
  | initEncode h264Layers streamLayers => exact hnone _
  | sendFrame temporalId idr => exact h.sendFrame temporalId idr

/-- Three layers: only the first frame of the second layer syncs, and the one below it. -/
def threeLayers : List Openh264Event :=
  [.initEncode 3 1, .sendFrame 0 true, .sendFrame 2 false, .sendFrame 1 false, .sendFrame 2 false]

theorem baseLayerSync_iff_threeLayers :
    SyncMarked
      { numTemporalLayers := 3, tl0syncLimit := 1
        sent := [⟨0, some 0, true, false⟩, ⟨2, some 2, false, true⟩, ⟨1, some 1, false, true⟩,
          ⟨2, some 2, false, false⟩] } :=
  baseLayerSync_iff threeLayers _ rfl

end PiWebrtc.Codecs
