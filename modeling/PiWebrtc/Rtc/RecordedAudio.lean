import PiWebrtc.Lib.Machine
import PiWebrtc.Lib.Rounding
import PiWebrtc.Rtc.CFloat

namespace PiWebrtc.Rtc

open Transition Rounding

/-!
# The microphone's samples on their way to WebRTC

`AlsaCapturer` turns integer samples into `float`s, and `AudioDeviceBridge::OnAudioBuffer` turns
`float`s into the 16-bit samples of WebRTC, in a buffer that it keeps from one call to the next.

* `recorded_eq` — in every run of calls and buffers, what WebRTC gets are the buffers that came
  while it was recording, each sample for itself; no conversion is undefined, and nothing of an
  earlier buffer is left in a later one.
* `alsaPcm_eq` — a 16-bit sample comes out nearer to zero by one, unless it is zero; and so does a
  32-bit one of the same loudness.

A buffer is handled in one step.
-/

namespace CFloat

/-- The product with `32767.0f`. -/
def scale : CFloat → CFloat
  | finite q => finite (single (q * 32767))
  | f => f

/-- `static_cast<int16_t>`, undefined where the value does not fit. -/
def toInt16 : CFloat → Option ℤ
  | finite q => castInt (-32768) 32767 q
  | _ => none

/-- What `OnAudioBuffer` makes of a sample. -/
def toPcm (f : CFloat) : Option ℤ := ((finite (-1)).max ((finite 1).min f)).scale.toInt16

end CFloat

/-! ### `AlsaCapturer` -/

/-- The samples that were read, in the format that the device has. -/
inductive RawSamples where
  | float32 (samples : List CFloat)
  | s32 (samples : List ℤ)
  | s16 (samples : List ℤ)
  deriving DecidableEq, Repr

/-- What `CaptureSamples` hands on. -/
def captureSamples : RawSamples → List CFloat
  | .float32 samples => samples
  | .s32 samples => samples.map fun val : ℤ => .finite (single (single val * (1 / 2147483648)))
  | .s16 samples => samples.map fun val : ℤ => .finite (single (single val * (1 / 32768)))

/-! ### `AudioDeviceBridge` -/

/-- `AudioBuffer`; `start` is null only if it is empty. -/
structure CapturedBuffer where
  samples : List CFloat
  channels : ℕ
  deriving DecidableEq, Repr

/-- The arguments of `RecordedDataIsAvailable`. -/
structure RecordedData where
  samples : List ℤ
  frames : ℕ
  channels : ℕ
  sampleRate : ℕ
  deriving DecidableEq, Repr

/-- What WebRTC's calls and `SetCapturer` have set. -/
structure RecordingGates where
  initialized : Bool := false
  recording : Bool := false
  transport : Bool := false
  subscribed : Bool := false
  sampleRate : ℕ := 48000
  deriving DecidableEq, Repr

/-- The recording side of the bridge, and the calls of `RecordedDataIsAvailable` as history. -/
structure RecordingBridge extends RecordingGates where
  pcmBuf : List ℤ := []
  calls : List RecordedData := []
  deriving DecidableEq, Repr

/-- The calls of the bridge. -/
inductive RecordingEvent where
  | setCapturer (capturer : Option (ℕ × ℕ))
  | registerAudioCallback (transport : Bool)
  | initDevice
  | terminate
  | startRecording
  | stopRecording
  | onAudioBuffer (buf : CapturedBuffer)
  deriving DecidableEq, Repr

/-- `resize`. -/
def resizePcm (pcmBuf : List ℤ) (size : ℕ) : List ℤ :=
  pcmBuf.take size ++ List.replicate (size - pcmBuf.length) 0

/-- The loop of `OnAudioBuffer` from sample `i` on. -/
def convertFrom (pcmBuf : List ℤ) (i : ℕ) : List CFloat → Option (List ℤ)
  | [] => some pcmBuf
  | f :: rest => f.toPcm.bind fun val => convertFrom (pcmBuf.set i val) (i + 1) rest

namespace RecordingBridge

/-- The samples are converted in `pcmBuf` and handed on. -/
def deliver (s : RecordingBridge) (buf : CapturedBuffer) (pcmBuf : List ℤ) :
    Option RecordingBridge :=
  (convertFrom pcmBuf 0 buf.samples).map fun pcmBuf =>
    { s with
      pcmBuf := pcmBuf
      calls := s.calls ++
        [⟨pcmBuf.take (buf.samples.length / buf.channels * buf.channels),
          buf.samples.length / buf.channels, buf.channels, s.sampleRate⟩] }

/-- `OnAudioBuffer`; `none` if a conversion is undefined. -/
def onAudioBuffer (s : RecordingBridge) (buf : CapturedBuffer) : Option RecordingBridge :=
  if !s.subscribed || !s.initialized || !s.recording then some s
  else if !s.transport then some s
  else if buf.channels = 0 ∨ buf.samples.length = 0 then some s
  else if buf.samples.length % buf.channels ≠ 0 then some s
  else if s.pcmBuf.length < buf.samples.length then
    s.deliver buf (resizePcm s.pcmBuf buf.samples.length)
  else s.deliver buf s.pcmBuf

end RecordingBridge

/-- `AudioCapturer::frames_per_chunk`. -/
def framesPerChunk (sampleRate : ℕ) : ℕ := sampleRate * 10 / 1000

/-- A call; a buffer is passed on to `OnAudioBuffer` as long as the subscription is kept. -/
def recordingStep (s : RecordingBridge) : RecordingEvent → Option RecordingBridge
  | .setCapturer (some (channels, sampleRate)) =>
    some { s with
      sampleRate := sampleRate
      pcmBuf := resizePcm s.pcmBuf (framesPerChunk sampleRate * channels)
      subscribed := true }
  | .setCapturer none => some { s with subscribed := false }
  | .registerAudioCallback transport => some { s with transport := transport }
  | .initDevice => some { s with initialized := true }
  | .terminate => some { s with subscribed := false, transport := false, initialized := false }
  | .startRecording => some { s with recording := true }
  | .stopRecording => some { s with recording := false }
  | .onAudioBuffer buf => s.onAudioBuffer buf

def recordingBridge : Machine RecordingBridge RecordingEvent where
  init := {}
  step := recordingStep

/-! ### What WebRTC gets -/

/-- A sample as a number between -1 and 1. -/
def CFloat.unit : CFloat → ℚ
  | .nan => 1
  | .infinite negative => if negative then -1 else 1
  | .finite q => Max.max (-1) (Min.min 1 q)

/-- The 16-bit sample of a number between -1 and 1. -/
def pcmOf (q : ℚ) : ℤ := truncate (single (q * 32767))

/-- The 16-bit sample. -/
def CFloat.pcm (f : CFloat) : ℤ := pcmOf f.unit

/-- What is recorded of a buffer. -/
def RecordingGates.recorded (g : RecordingGates) (buf : CapturedBuffer) : List RecordedData :=
  if g.subscribed && g.initialized && g.recording && g.transport &&
      decide (buf.channels ≠ 0 ∧ buf.samples ≠ [] ∧ buf.channels ∣ buf.samples.length) then
    [⟨buf.samples.map CFloat.pcm, buf.samples.length / buf.channels, buf.channels, g.sampleRate⟩]
  else []

/-- What a call sets. -/
def RecordingGates.next (g : RecordingGates) : RecordingEvent → RecordingGates
  | .setCapturer (some (_, sampleRate)) => { g with sampleRate := sampleRate, subscribed := true }
  | .setCapturer none => { g with subscribed := false }
  | .registerAudioCallback transport => { g with transport := transport }
  | .initDevice => { g with initialized := true }
  | .terminate => { g with subscribed := false, transport := false, initialized := false }
  | .startRecording => { g with recording := true }
  | .stopRecording => { g with recording := false }
  | .onAudioBuffer _ => g

/-- What is recorded in a run. -/
def recordedFrom : RecordingGates → List RecordingEvent → List RecordedData
  | _, [] => []
  | g, .onAudioBuffer buf :: es => g.recorded buf ++ recordedFrom g es
  | g, e :: es => recordedFrom (g.next e) es

section Samples

variable {f g : CFloat} {q : ℚ} {v : ℤ}

theorem CFloat.unit_mem (f : CFloat) : -1 ≤ f.unit ∧ f.unit ≤ 1 := by
  cases f with
  | nan => exact ⟨by norm_num [unit], by norm_num [unit]⟩
  | infinite negative => cases negative <;> exact ⟨by norm_num [unit], by norm_num [unit]⟩
  | finite q => exact ⟨le_max_left _ _, max_le (by norm_num) (min_le_left _ _)⟩

theorem CFloat.unit_of_mem (hlo : -1 ≤ q) (hhi : q ≤ 1) : (finite q).unit = q := by
  rw [unit, min_eq_right hhi, max_eq_right hlo]

/-- The clamp of `OnAudioBuffer`; what is not a number becomes the largest one. -/
theorem CFloat.clamp_eq (f : CFloat) : (finite (-1)).max ((finite 1).min f) = finite f.unit := by
  cases f with
  | nan => rfl
  | infinite negative => cases negative <;> rfl
  | finite q =>
    have hmin : (finite 1).min (finite q) = finite (Min.min 1 q) := by
      rw [CFloat.min, lt]
      obtain hlt | hle := lt_or_ge q 1
      · rw [if_pos (decide_eq_true hlt), min_eq_right hlt.le]
      · rw [if_neg (by rw [decide_eq_false hle.not_gt]; exact Bool.false_ne_true), min_eq_left hle]
    rw [hmin, CFloat.max, lt, unit]
    obtain hlt | hle := lt_or_ge (-1) (Min.min 1 q)
    · rw [if_pos (decide_eq_true hlt), max_eq_right hlt.le]
    · rw [if_neg (by rw [decide_eq_false hle.not_gt]; exact Bool.false_ne_true), max_eq_left hle]

theorem scaled_mem (hlo : -1 ≤ q) (hhi : q ≤ 1) :
    -32767 ≤ single (q * 32767) ∧ single (q * 32767) ≤ 32767 := by
  constructor
  · have hle : ((-32767 : ℤ) : ℚ) ≤ q * 32767 := by
      push_cast
      linarith
    exact_mod_cast le_single (by decide) hle
  · have hle : q * 32767 ≤ ((32767 : ℤ) : ℚ) := by
      push_cast
      linarith
    exact_mod_cast single_le (by decide) hle

/-- **The conversion is always defined.** -/
theorem CFloat.toPcm_eq (f : CFloat) : f.toPcm = some f.pcm := by
  obtain ⟨hlo, hhi⟩ := f.unit_mem
  obtain ⟨hlo, hhi⟩ := scaled_mem hlo hhi
  rw [toPcm, clamp_eq]
  show castInt (-32768) 32767 (single (f.unit * 32767)) = some f.pcm
  rw [castInt_eq_some_iff]
  refine ⟨?_, ?_, rfl⟩
  · push_cast
    linarith
  · push_cast
    linarith

/-- The conversion is the same on both sides of zero. -/
theorem pcmOf_neg (q : ℚ) : pcmOf (-q) = -pcmOf q := by
  rw [pcmOf, neg_mul, single_neg, truncate_neg, pcmOf]

/-- A positive sample of 16 bits: its product with `32767.0f` is rounded, but not to the next
    integer. -/
theorem pcmOf_of_pos (hpos : 0 < v) (hle : v ≤ 32768) : pcmOf (v * 2 ^ (-15 : ℤ)) = v - 1 := by
  have hv : (0 : ℚ) < v := by exact_mod_cast hpos
  have hle' : (v : ℚ) ≤ 32768 := by exact_mod_cast hle
  have hpow : (2 : ℚ) ^ (-15 : ℤ) = 1 / 32768 := by norm_num
  have hscaled : single (v * 2 ^ (-15 : ℤ) * 32767) = single (v * 32767) / 32768 := by
    rw [mul_right_comm, single_mul_zpow, hpow, mul_one_div]
  have hlo : ((v - 1 : ℤ) : ℚ) * 32768 ≤ single (v * 32767) := by
    have hshort : |v - 1| < 16777216 := by
      rw [abs_of_nonneg (by omega)]
      omega
    have hmono : single ((v - 1 : ℤ) * 2 ^ (15 : ℤ)) ≤ single (v * 32767) := by
      refine single_mono ?_
      push_cast
      linarith
    rw [single_mul_zpow, single_intCast hshort] at hmono
    norm_num at hmono ⊢
    exact hmono
  have hhi : single (v * 32767) < v * 32768 := by
    calc single (v * 32767) ≤ v * 32767 * (1 + 1 / 2 ^ 24) :=
          single_le_of_nonneg (by positivity)
      _ < v * 32768 := by linarith
  rw [pcmOf, hscaled]
  have hupper : truncate (single (v * 32767) / 32768) < v := by
    rw [truncate_lt_iff hpos, div_lt_iff₀ (by norm_num)]
    exact hhi
  have hlower : v - 1 ≤ truncate (single (v * 32767) / 32768) :=
    le_truncate (by rw [le_div_iff₀ (by norm_num)]; exact hlo)
  omega

/-- **A sample of 16 bits** comes out nearer to zero by one. -/
theorem pcmOf_eq (hv : |v| ≤ 32768) : pcmOf (v * 2 ^ (-15 : ℤ)) = v - v.sign := by
  obtain hlt | rfl | hgt := lt_trichotomy v 0
  · rw [abs_of_neg hlt] at hv
    have hneg := pcmOf_of_pos (neg_pos.mpr hlt) hv
    rw [Int.cast_neg, neg_mul, pcmOf_neg] at hneg
    rw [Int.sign_eq_neg_one_of_neg hlt]
    omega
  · have hneg := pcmOf_neg 0
    rw [neg_zero] at hneg
    rw [Int.cast_zero, zero_mul, Int.sign_zero]
    omega
  · rw [abs_of_pos hgt] at hv
    rw [pcmOf_of_pos hgt hv, Int.sign_eq_one_of_pos hgt]

theorem abs_le_of_short (hlo : -32768 ≤ v) (hhi : v ≤ 32767) : |v| ≤ 32768 :=
  abs_le.mpr ⟨hlo, by omega⟩

/-- The `float` of a 16-bit sample is exact. -/
theorem pcm_s16 (hlo : -32768 ≤ v) (hhi : v ≤ 32767) :
    (CFloat.finite (single (single v * (1 / 32768)))).pcm = v - v.sign := by
  have habs := abs_le_of_short hlo hhi
  have hshort : |v| < 16777216 := lt_of_le_of_lt habs (by norm_num)
  have hpow : (1 / 32768 : ℚ) = 2 ^ (-15 : ℤ) := by norm_num
  have hexact : single (single v * (1 / 32768)) = v * 2 ^ (-15 : ℤ) := by
    rw [hpow, single_mul_zpow, single_intCast hshort, single_intCast hshort]
  have hlo' : (-32768 : ℚ) ≤ v := by exact_mod_cast hlo
  have hhi' : (v : ℚ) ≤ 32767 := by exact_mod_cast hhi
  rw [hexact, CFloat.pcm, CFloat.unit_of_mem, pcmOf_eq habs]
  · rw [← hpow]
    linarith
  · rw [← hpow]
    linarith

/-- A 32-bit sample of the same loudness has the same `float`. -/
theorem s32_eq_s16 (hlo : -32768 ≤ v) (hhi : v ≤ 32767) :
    single (single (v * 65536 : ℤ) * (1 / 2147483648)) = single (single v * (1 / 32768)) := by
  have hshort : |v| < 16777216 := lt_of_le_of_lt (abs_le_of_short hlo hhi) (by norm_num)
  have hlong : ((v * 65536 : ℤ) : ℚ) = v * 2 ^ (16 : ℤ) := by
    push_cast
    norm_num
  rw [hlong, single_mul_zpow, single_intCast hshort, mul_assoc]
  norm_num

end Samples

/-! ### The buffer of the bridge -/

section Convert

variable {pcmBuf : List ℤ} {s : RecordingBridge}

theorem length_resizePcm (pcmBuf : List ℤ) (size : ℕ) : (resizePcm pcmBuf size).length = size := by
  rw [resizePcm, List.length_append, List.length_take, List.length_replicate]
  omega

/-- The loop overwrites the buffer from sample `i` on. -/
theorem convertFrom_eq (i : ℕ) (samples : List CFloat)
    (hroom : i + samples.length ≤ pcmBuf.length) :
    ∃ pcmBuf', convertFrom pcmBuf i samples = some pcmBuf' ∧ pcmBuf'.length = pcmBuf.length ∧
      pcmBuf'.take (i + samples.length) = pcmBuf.take i ++ samples.map CFloat.pcm := by
  induction samples generalizing pcmBuf i with
  | nil => exact ⟨pcmBuf, rfl, rfl, (List.append_nil _).symm⟩
  | cons f samples ih =>
    rw [List.length_cons] at hroom
    obtain ⟨pcmBuf', heq, hlength, htake⟩ := @ih (pcmBuf.set i f.pcm) (i + 1)
      (by rw [List.length_set]; omega)
    refine ⟨pcmBuf', ?_, hlength.trans List.length_set, ?_⟩
    · rw [convertFrom, f.toPcm_eq, Option.bind_some, heq]
    · rw [List.length_cons, ← Nat.add_assoc, Nat.add_right_comm, htake, List.map_cons,
        List.take_add_one, List.take_set_of_le (Nat.le_refl i), List.getElem?_set_self (by omega),
        List.append_assoc]
      rfl

/-- The conditions of `OnAudioBuffer`. -/
structure RecordingGates.Accepts (g : RecordingGates) (buf : CapturedBuffer) : Prop where
  subscribed : g.subscribed = true
  initialized : g.initialized = true
  recording : g.recording = true
  transport : g.transport = true
  channels : buf.channels ≠ 0
  samples : buf.samples ≠ []
  whole : buf.channels ∣ buf.samples.length

theorem recorded_cases (g : RecordingGates) (buf : CapturedBuffer) :
    g.Accepts buf ∧ g.recorded buf = [⟨buf.samples.map CFloat.pcm,
        buf.samples.length / buf.channels, buf.channels, g.sampleRate⟩] ∨
      ¬ g.Accepts buf ∧ g.recorded buf = [] := by
  unfold RecordingGates.recorded
  split_ifs with h
  · simp only [Bool.and_eq_true, decide_eq_true_eq] at h
    obtain ⟨⟨⟨⟨hsub, hinit⟩, hrec⟩, htransport⟩, hchannels, hsamples, hdvd⟩ := h
    exact .inl ⟨⟨hsub, hinit, hrec, htransport, hchannels, hsamples, hdvd⟩, rfl⟩
  · refine .inr ⟨fun ha => h ?_, rfl⟩
    rw [ha.subscribed, ha.initialized, ha.recording, ha.transport]
    exact decide_eq_true ⟨ha.channels, ha.samples, ha.whole⟩

/-- Nothing of an earlier buffer is handed on. -/
theorem deliver_eq (s : RecordingBridge) (buf : CapturedBuffer)
    (hdvd : buf.channels ∣ buf.samples.length) (hroom : buf.samples.length ≤ pcmBuf.length) :
    ∃ pcmBuf', s.deliver buf pcmBuf = some { s with
      pcmBuf := pcmBuf'
      calls := s.calls ++ [⟨buf.samples.map CFloat.pcm, buf.samples.length / buf.channels,
        buf.channels, s.sampleRate⟩] } := by
  obtain ⟨pcmBuf', heq, -, htake⟩ := convertFrom_eq 0 buf.samples
    ((Nat.zero_add _).le.trans hroom)
  rw [Nat.zero_add, List.take_zero, List.nil_append] at htake
  refine ⟨pcmBuf', ?_⟩
  rw [RecordingBridge.deliver, heq, Option.map_some, Nat.div_mul_cancel hdvd, htake]

/-- **One buffer.** It is handed on whole, or not at all. -/
theorem onAudioBuffer_eq (s : RecordingBridge) (buf : CapturedBuffer) :
    ∃ pcmBuf, s.onAudioBuffer buf =
      some { s with pcmBuf := pcmBuf, calls := s.calls ++ s.recorded buf } := by
  rcases recorded_cases s.toRecordingGates buf with ⟨ha, hrecorded⟩ | ⟨hskip, hnone⟩
  · unfold RecordingBridge.onAudioBuffer
    rw [hrecorded, ha.subscribed, ha.initialized, ha.recording, ha.transport,
      if_neg (by decide), if_neg (by decide),
      if_neg (not_or.mpr ⟨ha.channels, fun h => ha.samples (List.length_eq_zero_iff.mp h)⟩),
      if_neg (not_not.mpr (Nat.mod_eq_zero_of_dvd ha.whole))]
    split_ifs with hshort
    · exact deliver_eq s buf ha.whole (length_resizePcm _ _).ge
    · exact deliver_eq s buf ha.whole (Nat.le_of_not_lt hshort)
  · refine ⟨s.pcmBuf, ?_⟩
    unfold RecordingBridge.onAudioBuffer
    rw [hnone, List.append_nil]
    split_ifs with hgates htransport hempty hdvd
    any_goals rfl
    all_goals
      refine absurd ?_ hskip
      simp only [Bool.or_eq_true, Bool.not_eq_true', not_or, Bool.not_eq_false] at hgates htransport
      obtain ⟨⟨hsub, hinit⟩, hrec⟩ := hgates
      obtain ⟨hchannels, hlength⟩ := not_or.mp hempty
      exact ⟨hsub, hinit, hrec, htransport, hchannels,
        fun h => hlength (List.length_eq_zero_iff.mpr h),
        Nat.dvd_of_mod_eq_zero (not_not.mp hdvd)⟩

/-- What a call sets does not depend on the buffer. -/
theorem recordingStep_eq (s : RecordingBridge) (e : RecordingEvent) :
    ∃ s', recordingStep s e = some s' ∧ s'.toRecordingGates = s.toRecordingGates.next e ∧
      s'.calls = s.calls ++ (match e with
        | .onAudioBuffer buf => s.recorded buf
        | _ => []) := by
  cases e with
  | onAudioBuffer buf =>
    obtain ⟨pcmBuf, heq⟩ := onAudioBuffer_eq s buf
    exact ⟨_, heq, rfl, rfl⟩
  | setCapturer capturer =>
    cases capturer with
    | none => exact ⟨_, rfl, rfl, (List.append_nil _).symm⟩
    | some capturer => exact ⟨_, rfl, rfl, (List.append_nil _).symm⟩
  | registerAudioCallback transport => exact ⟨_, rfl, rfl, (List.append_nil _).symm⟩
  | initDevice => exact ⟨_, rfl, rfl, (List.append_nil _).symm⟩
  | terminate => exact ⟨_, rfl, rfl, (List.append_nil _).symm⟩
  | startRecording => exact ⟨_, rfl, rfl, (List.append_nil _).symm⟩
  | stopRecording => exact ⟨_, rfl, rfl, (List.append_nil _).symm⟩

theorem recordedFrom_cons (g : RecordingGates) (e : RecordingEvent) (es : List RecordingEvent) :
    recordedFrom g (e :: es) = (match e with
      | .onAudioBuffer buf => g.recorded buf
      | _ => []) ++ recordedFrom (g.next e) es := by
  cases e <;> rfl

theorem recorded_of_runFrom (s : RecordingBridge) (es : List RecordingEvent) :
    ∃ s', recordingBridge.runFrom s es = some s' ∧
      s'.calls = s.calls ++ recordedFrom s.toRecordingGates es := by
  induction es generalizing s with
  | nil => exact ⟨s, rfl, (List.append_nil _).symm⟩
  | cons e es ih =>
    obtain ⟨t, hstep, hgates, hcalls⟩ := recordingStep_eq s e
    obtain ⟨s', hrun, hrest⟩ := ih t
    refine ⟨s', recordingBridge.runFrom_cons_eq_some.mpr ⟨t, hstep, hrun⟩, ?_⟩
    rw [hrest, hcalls, hgates, recordedFrom_cons, List.append_assoc]

end Convert

/-- **What WebRTC gets.** In every run, no conversion is undefined, and the calls of WebRTC are
    those of the buffers that came while it was recording, sample for sample. -/
theorem recorded_eq (es : List RecordingEvent) :
    ∃ s, recordingBridge.run es = some s ∧ s.calls = recordedFrom {} es := by
  obtain ⟨s, hrun, hcalls⟩ := recorded_of_runFrom {} es
  exact ⟨s, hrun, hcalls⟩

/-! ### From ALSA to WebRTC -/

/-- **What becomes of a sample from ALSA**: each one that is not zero comes out nearer to zero by
    one, whether the device gives 16 bits, or 32 of which the first 16 are the same and the others
    zero. -/
theorem alsaPcm_eq (samples : List ℤ) (hshort : ∀ v ∈ samples, -32768 ≤ v ∧ v ≤ 32767) :
    (captureSamples (.s16 samples)).map CFloat.toPcm =
        samples.map (fun v => some (v - v.sign)) ∧
      (captureSamples (.s32 (samples.map (· * 65536)))).map CFloat.toPcm =
        samples.map (fun v => some (v - v.sign)) := by
  rw [captureSamples, captureSamples, List.map_map, List.map_map, List.map_map]
  constructor
  · refine List.map_congr_left fun v hv => ?_
    obtain ⟨hlo, hhi⟩ := hshort v hv
    exact (CFloat.toPcm_eq _).trans (congrArg some (pcm_s16 hlo hhi))
  · refine List.map_congr_left fun v hv => ?_
    obtain ⟨hlo, hhi⟩ := hshort v hv
    show (CFloat.finite (single (single (v * 65536 : ℤ) * (1 / 2147483648)))).toPcm = _
    rw [s32_eq_s16 hlo hhi, CFloat.toPcm_eq, pcm_s16 hlo hhi]

/-- The loudest sample below zero is the only one that becomes one of 32767. -/
theorem alsaPcm_eq_loud :
    (captureSamples (.s16 [-32768, 0, 32767])).map CFloat.toPcm =
      [some (-32767), some 0, some 32766] :=
  (alsaPcm_eq [-32768, 0, 32767] (by decide)).1

end PiWebrtc.Rtc
