import Mathlib.Order.Interval.Finset.Nat
import PiWebrtc.Common.SideTable

namespace PiWebrtc.Rtc

open PiWebrtc.Common Transition

/-!
# Frames that the encoder queue drops

`MarkCapture` numbers the frames that are delivered, and `TracingVideoEncoder` adds up the gaps in
the numbers of the ones that reach `Encode`.  The numbers have 32 bits, and 0 means both that a
frame is unknown and that there was none yet; but a number is 0 again after a wrap.

* `gap_eq` — the gap between two numbers, across the wrap;
* `lookupCapture_eq` — a frame is found as long as no later one was marked in its slot;
* `queueDrop_iff` — in which runs all drops are counted.
-/

/-! ### The source -/

/-- The part of the latency tracer that numbers the frames. -/
structure CaptureTracer where
  captureSeq : UInt32 := 0
  captureTable : SideTable := {}

/-- `MarkCapture`. -/
def CaptureTracer.markCapture (t : CaptureTracer) (timestampUs sensorUs : ℤ) : CaptureTracer :=
  let seq := t.captureSeq + 1
  ⟨seq, t.captureTable.mark timestampUs sensorUs seq⟩

/-- `LookupCapture`. -/
def CaptureTracer.lookupCapture (t : CaptureTracer) (timestampUs : ℤ) : CaptureInfo :=
  t.captureTable.lookup timestampUs

def kMaxPlausibleGap : UInt32 := 1000

/-- `TracingVideoEncoder`, with what it has added to `encoder_queue_drop`. -/
structure TracingVideoEncoder where
  lastCaptureSeq : UInt32 := 0
  encoderQueueDrop : ℕ := 0
  deriving DecidableEq

/-- `Encode`, with what was stashed for the frame, while the tracer is enabled. -/
def TracingVideoEncoder.encode (e : TracingVideoEncoder) (capture : CaptureInfo) :
    TracingVideoEncoder :=
  if capture.seq ≠ 0 then
    let gap := capture.seq - e.lastCaptureSeq - 1
    { lastCaptureSeq := capture.seq
      encoderQueueDrop :=
        if e.lastCaptureSeq ≠ 0 ∧ gap ≠ 0 ∧ gap < kMaxPlausibleGap then
          e.encoderQueueDrop + gap.toNat
        else e.encoderQueueDrop }
  else e

/-! ### Runs -/

/-- A frame that was captured, with its number among all of them. -/
structure CapturedFrame where
  number : ℕ
  timestampUs : ℤ
  sensorUs : ℤ
  deriving DecidableEq

/-- The tracer and an encoder.  History: how many frames were numbered, the ones that may reach the
    encoder, and the numbers of the ones that did, the last one first. -/
structure TracedFrames where
  tracer : CaptureTracer
  encoder : TracingVideoEncoder := {}
  captured : ℕ
  frames : List CapturedFrame := []
  encoded : List ℕ := []

inductive FrameEvent
  | capture (timestampUs sensorUs : ℤ)
  | encode (f : CapturedFrame)
  deriving DecidableEq

/-- The frames reach the encoder in order, and fewer than 1000 are missing between two that do. -/
def InOrder (encoded : List ℕ) (n : ℕ) : Prop :=
  ∀ p ∈ encoded.head?, p < n ∧ n - p - 1 < 1000

/-- No later frame was marked in the slot of a frame. -/
def NotEvicted (frames : List CapturedFrame) (f : CapturedFrame) : Prop :=
  ∀ g ∈ frames, f.number < g.number → slotOf f.timestampUs ≠ slotOf g.timestampUs

instance (encoded : List ℕ) (n : ℕ) : Decidable (InOrder encoded n) :=
  inferInstanceAs (Decidable (∀ p ∈ encoded.head?, _ ∧ _))

instance (frames : List CapturedFrame) (f : CapturedFrame) : Decidable (NotEvicted frames f) :=
  List.decidableBAll _ frames

def TracedFrames.step (s : TracedFrames) : FrameEvent → Option TracedFrames
  | .capture timestampUs sensorUs => some { s with
      tracer := s.tracer.markCapture timestampUs sensorUs
      captured := s.captured + 1
      frames := ⟨s.captured + 1, timestampUs, sensorUs⟩ :: s.frames }
  | .encode f =>
    if f ∈ s.frames ∧ InOrder s.encoded f.number ∧ NotEvicted s.frames f then
      some { s with
        encoder := s.encoder.encode (s.tracer.lookupCapture f.timestampUs)
        encoded := f.number :: s.encoded }
    else none

/-- Every run of an encoder that is created when `base` frames were numbered, whatever these have
    left in the side table. -/
def tracedFrames (base : ℕ) (table : SideTable) : Machine TracedFrames FrameEvent where
  init := { tracer := ⟨.ofNat base, table⟩, captured := base }
  step := TracedFrames.step

/-- The frames that did not reach the encoder, between the first one and the last one that did. -/
def TracedFrames.missing (s : TracedFrames) : Finset ℕ :=
  (Finset.range (s.captured + 1)).filter fun n =>
    (∃ p ∈ s.encoded, p < n) ∧ (∃ q ∈ s.encoded, n < q) ∧ n ∉ s.encoded

/-- **All drops are counted.** -/
def DropsCounted (s : TracedFrames) : Prop := s.encoder.encoderQueueDrop = s.missing.card

/-- The number of a frame as the tracer has it. -/
def seqOf (n : ℕ) : UInt32 := .ofNat n

/-- A frame with the number 0 follows the one before it directly; and one that follows such a frame
    does so directly too, and that was the first one of all. -/
def ZerosAdjacent (s : TracedFrames) : FrameEvent → Prop
  | .capture _ _ => True
  | .encode f =>
    match s.encoded with
    | [] => True
    | p :: before => (seqOf f.number = 0 → f.number = p + 1) ∧
        (seqOf p = 0 → f.number = p + 1 ∧ before = [])

/-! ### Numbers with 32 bits -/

section Numbers

variable {n p : ℕ}

theorem toNat_seqOf (n : ℕ) : (seqOf n).toNat = n % 2 ^ 32 := UInt32.toNat_ofNat'

theorem seqOf_eq_zero_iff : seqOf n = 0 ↔ n % 2 ^ 32 = 0 := by
  rw [← UInt32.toNat_inj, toNat_seqOf]
  rfl

theorem seqOf_succ (n : ℕ) : seqOf n + 1 = seqOf (n + 1) := by
  rw [← UInt32.toNat_inj, UInt32.toNat_add, toNat_seqOf, toNat_seqOf, UInt32.toNat_one,
    Nat.mod_add_mod]

/-- **The gap between two numbers**, across the wrap. -/
theorem gap_eq (h : p < n) : (seqOf n - seqOf p - 1).toNat = (n - p - 1) % 2 ^ 32 := by
  rw [UInt32.toNat_sub, UInt32.toNat_sub, toNat_seqOf, toNat_seqOf, UInt32.toNat_one]
  omega

/-- Numbers that are zero are far apart. -/
theorem seqOf_ne_zero_of_near (h : p < n) (hnear : n - p - 1 < 1000) (hn : seqOf n = 0) :
    seqOf p ≠ 0 := by
  rw [seqOf_eq_zero_iff] at hn
  rw [Ne, seqOf_eq_zero_iff]
  omega

/-- What the encoder makes of a frame after one that it knows. -/
theorem encode_eq {e : TracingVideoEncoder} {sensorUs : ℤ} (h : p < n)
    (hfar : n - p - 1 < 2 ^ 32) (hn : seqOf n ≠ 0) (hp : seqOf p ≠ 0)
    (hlast : e.lastCaptureSeq = seqOf p) :
    e.encode ⟨sensorUs, seqOf n⟩ =
      ⟨seqOf n, e.encoderQueueDrop + if n - p - 1 < 1000 then n - p - 1 else 0⟩ := by
  have hgap := gap_eq h
  rw [Nat.mod_eq_of_lt hfar] at hgap
  have hlt : seqOf n - seqOf p - 1 < kMaxPlausibleGap ↔ n - p - 1 < 1000 := by
    rw [UInt32.lt_iff_toNat_lt, hgap]
    rfl
  have hzero : seqOf n - seqOf p - 1 = 0 ↔ n - p - 1 = 0 := by
    rw [← UInt32.toNat_inj, hgap]
    rfl
  rw [TracingVideoEncoder.encode, if_pos hn, hlast]
  simp only [ne_eq, hp, not_false_eq_true, true_and, hlt, hzero, hgap]
  split_ifs <;> first | rfl | (congr 1; omega)

/-- What it makes of the first one. -/
theorem encode_eq_first {e : TracingVideoEncoder} {sensorUs : ℤ} (hn : seqOf n ≠ 0)
    (hlast : e.lastCaptureSeq = 0) :
    e.encode ⟨sensorUs, seqOf n⟩ = ⟨seqOf n, e.encoderQueueDrop⟩ := by
  rw [TracingVideoEncoder.encode, if_pos hn, hlast]
  simp

/-- A frame with the number 0 is not known. -/
theorem encode_eq_zero {e : TracingVideoEncoder} {sensorUs : ℤ} (hn : seqOf n = 0) :
    e.encode ⟨sensorUs, seqOf n⟩ = e := by
  rw [TracingVideoEncoder.encode, hn]
  exact if_neg (not_not.mpr rfl)

end Numbers

/-! ### The invariant -/

/-- What the encoder remembers: the number of the frame before, or none if that one has the number
    0 and was the first one. -/
def Remembers (last : UInt32) : List ℕ → Prop
  | [] => last = 0
  | p :: before => if seqOf p = 0 then last = (before.head?.map seqOf).getD 0 else last = seqOf p

/-- A frame with the number 0 follows the one before it directly. -/
def ZeroFollows : List ℕ → Prop
  | p :: p' :: _ => seqOf p = 0 → p = p' + 1
  | _ => True

structure TraceInv (s : TracedFrames) : Prop where
  seq_eq : s.tracer.captureSeq = seqOf s.captured
  frames_le : ∀ f ∈ s.frames, f.number ≤ s.captured
  found : ∀ f ∈ s.frames, NotEvicted s.frames f →
    s.tracer.lookupCapture f.timestampUs = ⟨f.sensorUs, seqOf f.number⟩
  encoded_le : ∀ n ∈ s.encoded, n ≤ s.captured
  sorted : s.encoded.Pairwise (· > ·)
  remembers : Remembers s.encoder.lastCaptureSeq s.encoded
  zeroFollows : ZeroFollows s.encoded

section Runs

variable {s s' : TracedFrames}

/-- **A frame is found** as long as no later one was marked in its slot. -/
theorem lookupCapture_mark {t : CaptureTracer} {captured : ℕ} (hseq : t.captureSeq = seqOf captured)
    {frames : List CapturedFrame} (hle : ∀ f ∈ frames, f.number ≤ captured)
    (hfound : ∀ f ∈ frames, NotEvicted frames f →
      t.lookupCapture f.timestampUs = ⟨f.sensorUs, seqOf f.number⟩) (timestampUs sensorUs : ℤ) :
    ∀ f ∈ ⟨captured + 1, timestampUs, sensorUs⟩ :: frames,
      NotEvicted (⟨captured + 1, timestampUs, sensorUs⟩ :: frames) f →
      (t.markCapture timestampUs sensorUs).lookupCapture f.timestampUs =
        ⟨f.sensorUs, seqOf f.number⟩ := by
  intro f hf hnot
  rcases List.mem_cons.mp hf with rfl | hf
  · rw [CaptureTracer.lookupCapture, CaptureTracer.markCapture]
    show (t.captureTable.mark timestampUs sensorUs (t.captureSeq + 1)).lookup timestampUs = _
    rw [SideTable.lookup_mark_self, hseq, seqOf_succ]
  · have hslot := hnot _ List.mem_cons_self (Nat.lt_succ_of_le (hle f hf))
    rw [CaptureTracer.lookupCapture, CaptureTracer.markCapture]
    show (t.captureTable.mark timestampUs sensorUs (t.captureSeq + 1)).lookup f.timestampUs = _
    rw [SideTable.lookup_mark_of_ne hslot]
    exact hfound f hf fun g hg => hnot g (List.mem_cons_of_mem _ hg)

theorem step_capture {timestampUs sensorUs : ℤ}
    (h : s.step (.capture timestampUs sensorUs) = some s') :
    s'.encoder = s.encoder ∧ s'.encoded = s.encoded ∧ s'.captured = s.captured + 1 := by
  obtain rfl := Option.some.inj h
  exact ⟨rfl, rfl, rfl⟩

theorem step_encode {f : CapturedFrame} (h : s.step (.encode f) = some s') :
    (f ∈ s.frames ∧ InOrder s.encoded f.number ∧ NotEvicted s.frames f) ∧ s' = { s with
      encoder := s.encoder.encode (s.tracer.lookupCapture f.timestampUs)
      encoded := f.number :: s.encoded } := by
  rw [TracedFrames.step] at h
  split_ifs at h with hf
  exact ⟨hf, (Option.some.inj h).symm⟩

/-! ### The missing frames -/

theorem mem_missing_iff (hle : ∀ n ∈ s.encoded, n ≤ s.captured) {n : ℕ} :
    n ∈ s.missing ↔ (∃ p ∈ s.encoded, p < n) ∧ (∃ q ∈ s.encoded, n < q) ∧ n ∉ s.encoded := by
  rw [TracedFrames.missing, Finset.mem_filter, Finset.mem_range, and_iff_right_iff_imp]
  rintro ⟨-, ⟨q, hq, hlt⟩, -⟩
  have hq' := hle q hq
  omega

/-- Nothing is missing before the second frame is encoded. -/
theorem missing_eq_empty (hle : ∀ n ∈ s.encoded, n ≤ s.captured) (hlen : s.encoded.length ≤ 1) :
    s.missing = ∅ := by
  rw [Finset.eq_empty_iff_forall_notMem]
  intro n hn
  obtain ⟨⟨p, hp, hpn⟩, ⟨q, hq, hnq⟩, -⟩ := (mem_missing_iff hle).mp hn
  obtain ⟨a, ha⟩ : ∃ a, s.encoded ⊆ [a] := by
    match s.encoded, hlen with
    | [], _ => exact ⟨0, nofun⟩
    | [a], _ => exact ⟨a, fun _ h => h⟩
  have hpa := List.mem_singleton.mp (ha hp)
  have hqa := List.mem_singleton.mp (ha hq)
  omega

/-- What is missing after one more frame: what was missing before, and the frames between. -/
theorem missing_eq_union {p n : ℕ} {before : List ℕ} (hle : ∀ n ∈ s.encoded, n ≤ s.captured)
    (hs : s.encoded = p :: before) (hs' : s'.encoded = n :: p :: before)
    (hcap : s'.captured = s.captured) (hn : n ≤ s.captured) (hpn : p < n)
    (hmax : ∀ q ∈ p :: before, q ≤ p) : s'.missing = s.missing ∪ Finset.Ioo p n := by
  have hle' : ∀ q ∈ s'.encoded, q ≤ s'.captured := by
    intro q hq
    rw [hs'] at hq
    rw [hcap]
    rcases List.mem_cons.mp hq with rfl | hq
    · exact hn
    · exact hle q (hs ▸ hq)
  ext m
  rw [Finset.mem_union, Finset.mem_Ioo, mem_missing_iff hle, mem_missing_iff hle', hs, hs']
  constructor
  · rintro ⟨⟨a, ha, ham⟩, ⟨b, hb, hmb⟩, hm⟩
    have hmp : m ≠ p := fun h => hm (h ▸ List.mem_cons_of_mem n List.mem_cons_self)
    rcases Nat.lt_or_gt_of_ne hmp with hlt | hgt
    · refine .inl ⟨⟨a, ?_, ham⟩, ⟨p, List.mem_cons_self, hlt⟩,
        fun h => hm (List.mem_cons_of_mem n h)⟩
      exact (List.mem_cons.mp ha).resolve_left (by omega)
    · refine .inr ⟨hgt, ?_⟩
      rcases List.mem_cons.mp hb with rfl | hb
      · exact hmb
      · have hbp := hmax b hb
        omega
  · rintro (⟨⟨a, ha, ham⟩, ⟨b, hb, hmb⟩, hm⟩ | ⟨hpm, hmn⟩)
    · have hbp := hmax b hb
      refine ⟨⟨a, List.mem_cons_of_mem n ha, ham⟩, ⟨b, List.mem_cons_of_mem n hb, hmb⟩, fun h => ?_⟩
      rcases List.mem_cons.mp h with heq | h
      · omega
      · exact hm h
    · refine ⟨⟨p, List.mem_cons_of_mem n List.mem_cons_self, hpm⟩, ⟨n, List.mem_cons_self, hmn⟩,
        fun h => ?_⟩
      rcases List.mem_cons.mp h with heq | h
      · omega
      · have hmp := hmax m h
        omega

/-- **The frames between are added.** -/
theorem card_missing {p n : ℕ} {before : List ℕ} (hle : ∀ n ∈ s.encoded, n ≤ s.captured)
    (hs : s.encoded = p :: before) (hs' : s'.encoded = n :: p :: before)
    (hcap : s'.captured = s.captured) (hn : n ≤ s.captured) (hpn : p < n)
    (hsorted : s.encoded.Pairwise (· > ·)) :
    s'.missing.card = s.missing.card + (n - p - 1) := by
  have hmax : ∀ q ∈ p :: before, q ≤ p := by
    intro q hq
    rw [hs] at hsorted
    rcases List.mem_cons.mp hq with rfl | hq
    · exact le_rfl
    · exact (List.rel_of_pairwise_cons hsorted hq).le
  have hdisjoint : Disjoint s.missing (Finset.Ioo p n) := by
    refine Finset.disjoint_left.mpr fun m hm hmem => ?_
    obtain ⟨-, ⟨q, hq, hmq⟩, -⟩ := (mem_missing_iff hle).mp hm
    have hqp := hmax q (hs ▸ hq)
    have hpm := (Finset.mem_Ioo.mp hmem).1
    omega
  rw [missing_eq_union hle hs hs' hcap hn hpn hmax, Finset.card_union_of_disjoint hdisjoint,
    Nat.card_Ioo]

theorem missing_eq (hle : ∀ n ∈ s.encoded, n ≤ s.captured) (hencoded : s'.encoded = s.encoded)
    (hcap : s.captured ≤ s'.captured) : s'.missing = s.missing := by
  ext m
  rw [mem_missing_iff hle, mem_missing_iff (by
    intro n hn
    exact (hle n (hencoded ▸ hn)).trans hcap), hencoded]

/-! ### Steps -/

/-- **When a step keeps the count right.** -/
theorem dropsCounted_step_iff (s : TracedFrames) (a : FrameEvent) (s' : TracedFrames)
    (h : TraceInv s) (hcount : DropsCounted s) (hstep : s.step a = some s') :
    DropsCounted s' ↔ ZerosAdjacent s a := by
  cases a with
  | capture timestampUs sensorUs =>
    obtain ⟨hencoder, hencoded, hcap⟩ := step_capture hstep
    refine iff_of_true ?_ trivial
    rw [DropsCounted, hencoder, missing_eq h.encoded_le hencoded (by omega)]
    exact hcount
  | encode f =>
    obtain ⟨⟨hf, hin, hnot⟩, heq⟩ := step_encode hstep
    have hencoder : s'.encoder = s.encoder.encode ⟨f.sensorUs, seqOf f.number⟩ := by
      rw [heq, ← h.found f hf hnot]
    have hencoded : s'.encoded = f.number :: s.encoded := by rw [heq]
    have hcap : s'.captured = s.captured := by rw [heq]
    have hn := h.frames_le f hf
    have hremembers := h.remembers
    rw [DropsCounted] at hcount
    rw [DropsCounted, hencoder, ZerosAdjacent]
    cases henc : s.encoded with
    | nil =>
      -- the first frame only tells where to count from
      rw [henc] at hremembers hencoded
      refine iff_of_true ?_ trivial
      have hempty : s.missing = ∅ :=
        missing_eq_empty h.encoded_le (by rw [henc]; exact Nat.zero_le 1)
      have hempty' : s'.missing = ∅ := by
        refine missing_eq_empty (fun n hmem => ?_) (by rw [hencoded]; exact le_rfl)
        rw [hencoded] at hmem
        rw [hcap, List.mem_singleton.mp hmem]
        exact hn
      rw [hempty] at hcount
      rw [hempty']
      by_cases hzero : seqOf f.number = 0
      · rw [encode_eq_zero hzero]
        exact hcount
      · rw [encode_eq_first hzero hremembers]
        exact hcount
    | cons p before =>
      obtain ⟨hpn, hnear⟩ := hin p (by rw [henc]; rfl)
      rw [henc] at hremembers hencoded
      rw [card_missing h.encoded_le henc hencoded hcap hn hpn h.sorted, ← hcount]
      by_cases hzero : seqOf f.number = 0
      · -- the frame is not known, and nothing is counted
        have hp := seqOf_ne_zero_of_near hpn hnear hzero
        rw [encode_eq_zero hzero]
        simp only [hzero, hp, false_implies, and_true, true_implies]
        omega
      by_cases hp : seqOf p = 0
      · rw [Remembers, if_pos hp] at hremembers
        simp only [hzero, hp, false_implies, true_and, true_implies]
        cases before with
        | nil =>
          rw [encode_eq_first hzero hremembers]
          simp only [and_true]
          omega
        | cons p' before =>
          -- the frame before counts as missing, or the gap is too large now
          have hp' := h.zeroFollows
          rw [henc] at hp'
          have hnext := hp' hp
          have hknown : seqOf p' ≠ 0 :=
            seqOf_ne_zero_of_near (n := p) (by omega) (by omega) hp
          rw [encode_eq (p := p') (by omega) (by omega) hzero hknown hremembers]
          simp only [reduceCtorEq, and_false, iff_false]
          split_ifs <;> omega
      · rw [Remembers, if_neg hp] at hremembers
        rw [encode_eq hpn (by omega) hzero hp hremembers, if_pos hnear]
        simp only [hzero, hp, false_implies, and_self]

theorem lastCaptureSeq_encode (e : TracingVideoEncoder) {capture : CaptureInfo}
    (h : capture.seq ≠ 0) : (e.encode capture).lastCaptureSeq = capture.seq := by
  rw [TracingVideoEncoder.encode, if_pos h]

theorem traceInv_init (base : ℕ) (table : SideTable) : TraceInv (tracedFrames base table).init :=
  ⟨rfl, nofun, nofun, nofun, List.Pairwise.nil, rfl, trivial⟩

theorem traceInv_step (s : TracedFrames) (a : FrameEvent) (s' : TracedFrames)
    (h : TraceInv s) (hcount : DropsCounted s) (hstep : s.step a = some s')
    (hcount' : DropsCounted s') : TraceInv s' := by
  have hzeros := (dropsCounted_step_iff s a s' h hcount hstep).mp hcount'
  cases a with
  | capture timestampUs sensorUs =>
    obtain rfl := Option.some.inj hstep
    refine ⟨?_, fun f hf => ?_, lookupCapture_mark h.seq_eq h.frames_le h.found _ _,
      fun n hn => (h.encoded_le n hn).trans (Nat.le_succ _), h.sorted, h.remembers, h.zeroFollows⟩
    · show s.tracer.captureSeq + 1 = _
      rw [h.seq_eq, seqOf_succ]
    · rcases List.mem_cons.mp hf with rfl | hf
      · exact le_rfl
      · exact (h.frames_le f hf).trans (Nat.le_succ _)
  | encode f =>
    obtain ⟨⟨hf, hin, hnot⟩, rfl⟩ := step_encode hstep
    have hremembers := h.remembers
    have hsorted := h.sorted
    have hcapture := h.found f hf hnot
    refine ⟨h.seq_eq, h.frames_le, h.found, fun n hn => ?_, ?_, ?_, ?_⟩
    · rcases List.mem_cons.mp hn with rfl | hn
      · exact h.frames_le f hf
      · exact h.encoded_le n hn
    · refine List.pairwise_cons.mpr ⟨fun q hq => ?_, hsorted⟩
      obtain ⟨p, before, henc⟩ := List.exists_cons_of_ne_nil (List.ne_nil_of_mem hq)
      have hpn := (hin p (by rw [henc]; rfl)).1
      rw [henc] at hq hsorted
      rcases List.mem_cons.mp hq with rfl | hq
      · exact hpn
      · exact (List.rel_of_pairwise_cons hsorted hq).trans hpn
    · rw [Remembers, hcapture]
      split_ifs with hzero
      · rw [encode_eq_zero hzero]
        cases henc : s.encoded with
        | nil =>
          rw [henc] at hremembers
          exact hremembers
        | cons p before =>
          obtain ⟨hpn, hnear⟩ := hin p (by rw [henc]; rfl)
          rw [henc, Remembers, if_neg (seqOf_ne_zero_of_near hpn hnear hzero)] at hremembers
          exact hremembers
      · exact lastCaptureSeq_encode _ hzero
    · rw [ZerosAdjacent] at hzeros
      cases henc : s.encoded with
      | nil => trivial
      | cons p before =>
        rw [henc] at hzeros
        exact hzeros.1

end Runs

/-- **In which runs all drops are counted.** -/
theorem queueDrop_iff (base : ℕ) (table : SideTable) (as : List FrameEvent) (s : TracedFrames)
    (hrun : (tracedFrames base table).run as = some s) :
    (tracedFrames base table).Always DropsCounted (tracedFrames base table).init as ↔
      (tracedFrames base table).Guarded ZerosAdjacent (tracedFrames base table).init as := by
  refine Machine.always_iff_guarded traceInv_step dropsCounted_step_iff (traceInv_init base table)
    ?_ hrun
  show 0 = (TracedFrames.missing _).card
  rw [missing_eq_empty (traceInv_init base table).encoded_le (Nat.zero_le 1), Finset.card_empty]

/-- The last frame before the wrap, the one with the number 0 and the one after it all reach the
    encoder. -/
def acrossTheWrap : List FrameEvent :=
  [.capture 1 7, .encode ⟨2 ^ 32 - 1, 1, 7⟩, .capture 2 8, .encode ⟨2 ^ 32, 2, 8⟩,
    .capture 3 9, .encode ⟨2 ^ 32 + 1, 3, 9⟩]

/-- Between three frames in a row none is missing. -/
theorem missing_of_consecutive {s : TracedFrames} {n : ℕ} (h : s.encoded = [n + 2, n + 1, n]) :
    s.missing = ∅ := by
  rw [TracedFrames.missing, h, Finset.filter_eq_empty_iff]
  rintro m - ⟨⟨p, hp, hpm⟩, ⟨q, hq, hmq⟩, hm⟩
  simp only [List.mem_cons, List.not_mem_nil, or_false] at hp hq hm
  omega

/-- One of them is counted as dropped. -/
theorem not_dropsCounted_acrossTheWrap :
    ∃ s, (tracedFrames (2 ^ 32 - 2) {}).run acrossTheWrap = some s ∧ ¬ DropsCounted s := by
  refine ⟨_, rfl, fun h => ?_⟩
  rw [DropsCounted, missing_of_consecutive (n := 2 ^ 32 - 1) rfl] at h
  exact absurd h (by decide)

instance (s : TracedFrames) : DecidablePred (ZerosAdjacent s)
  | .capture _ _ => .isTrue trivial
  | .encode f =>
    match h : s.encoded with
    | [] => .isTrue (by rw [ZerosAdjacent, h]; trivial)
    | p :: before => decidable_of_iff ((seqOf f.number = 0 → f.number = p + 1) ∧
        (seqOf p = 0 → f.number = p + 1 ∧ before = [])) (by rw [ZerosAdjacent, h])

/-- The frame with the number 0 does not reach it. -/
def zeroMissing : List FrameEvent :=
  [.capture 1 7, .encode ⟨2 ^ 32 - 1, 1, 7⟩, .capture 2 8, .capture 3 9,
    .encode ⟨2 ^ 32 + 1, 3, 9⟩]

theorem queueDrop_iff_zeroMissing : (tracedFrames (2 ^ 32 - 2) {}).Always DropsCounted
    (tracedFrames (2 ^ 32 - 2) {}).init zeroMissing :=
  (queueDrop_iff (2 ^ 32 - 2) {} zeroMissing _ rfl).mpr (by decide)

end PiWebrtc.Rtc
