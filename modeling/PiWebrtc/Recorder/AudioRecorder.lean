import PiWebrtc.Lib.Machine
import PiWebrtc.Lib.Raster

namespace PiWebrtc.Recorder

open Transition

/-!
# The audio recorder

The capturer hands over interleaved buffers; `OnBuffer` deals the samples out to one plane for
each channel of the recorder and appends the planes to a FIFO, from which the worker takes
frames of the size that the encoder wants.  The buffers and the frames have different sizes, and
`OnStart` empties the FIFO for the next file.

* `onBuffer_eq` — what `OnBuffer` appends, for buffers of any number of channels, when it appends
  nothing, and when it writes past the samples that it asked for in a plane.
* `audioExact_iff` — nothing is lost, repeated or moved on the way to the encoder, exactly if
  each call of `Encode` still finds a whole frame; and that it does if no file is started in the
  middle of one.

The encoder and the muxer are left out: a frame counts as encoded once it was read.
-/

/-- `AudioBuffer`: interleaved samples, and of how many channels. -/
structure AudioBuffer (α : Type*) where
  data : List α
  channels : ℕ
  deriving DecidableEq, Repr

variable {α : Type*}

namespace AudioBuffer

/-- `samples_per_channel`. -/
def samplesPerChannel (buffer : AudioBuffer α) : ℕ := buffer.data.length / buffer.channels

/-- What is recorded at time `t`: for each channel of the recorder the sample of that channel,
    or silence if the buffer has no such channel. -/
def sample (silence : α) (channels : ℕ) (buffer : AudioBuffer α) (t : ℕ) : List α :=
  (List.range channels).map fun c =>
    if c < buffer.channels then buffer.data.getD (t * buffer.channels + c) silence else silence

/-- What is recorded of a buffer. -/
def samples (silence : α) (channels : ℕ) (buffer : AudioBuffer α) : List (List α) :=
  (List.range buffer.samplesPerChannel).map (buffer.sample silence channels)

end AudioBuffer

/-! ### Dealing out the samples -/

/-- Sample `i` of the buffer is written to its plane; `none` if that is past the samples that
    were asked for, behind which the allocator may leave room. -/
def writeSample (buffer : AudioBuffer α) (planes : List (List α)) (i : ℕ) :
    Option (List (List α)) :=
  match planes[i % buffer.channels]? with
  | none => some planes
  | some plane =>
    (Raster.memcpy plane (i / buffer.channels) buffer.data i 1).map fun plane =>
      planes.set (i % buffer.channels) plane

/-- The loop of `OnBuffer`, up to the first `n` samples, on planes that are silent at first. -/
def convertSamples (silence : α) (channels : ℕ) (buffer : AudioBuffer α) :
    ℕ → Option (List (List α))
  | 0 => some (List.replicate channels (List.replicate buffer.samplesPerChannel silence))
  | n + 1 => (convertSamples silence channels buffer n).bind fun planes =>
      writeSample buffer planes n

/-- The first `n` samples of all planes, as they lie in the FIFO. -/
def columns (silence : α) (planes : List (List α)) (n : ℕ) : List (List α) :=
  (List.range n).map fun t => planes.map fun plane => plane.getD t silence

/-- How the calls of libav in `OnBuffer` end. -/
inductive BufferOutcome where
  | stored
  /-- There is no memory for the planes. -/
  | notAllocated
  /-- The FIFO cannot be made larger; nothing is written to it then. -/
  | notWritten
  deriving DecidableEq, Repr

/-- `av_samples_alloc_array_and_samples`, which refuses planes without samples. -/
def BufferOutcome.allocates (outcome : BufferOutcome) (samplesPerChannel : ℕ) : Bool :=
  0 < samplesPerChannel && outcome != .notAllocated

/-- What `OnBuffer` writes to the FIFO. -/
def onBuffer (silence : α) (channels : ℕ) (outcome : BufferOutcome) (buffer : AudioBuffer α) :
    Option (List (List α)) :=
  if outcome.allocates buffer.samplesPerChannel then
    (convertSamples silence channels buffer buffer.data.length).map fun planes =>
      if outcome = .notWritten then [] else columns silence planes buffer.samplesPerChannel
  else some []

section Convert

variable {silence : α} {channels : ℕ} {buffer : AudioBuffer α}

/-- What the planes hold when the first `n` samples have been dealt out. -/
structure Dealt (silence : α) (channels : ℕ) (buffer : AudioBuffer α) (n : ℕ)
    (planes : List (List α)) : Prop where
  length : planes.length = channels
  plane : ∀ c < channels, ∃ plane, planes[c]? = some plane ∧
    plane.length = buffer.samplesPerChannel ∧ ∀ t < buffer.samplesPerChannel, plane[t]? =
      some (if c < buffer.channels ∧ t * buffer.channels + c < n then
        buffer.data.getD (t * buffer.channels + c) silence else silence)

theorem dealt_zero : Dealt silence channels buffer 0
    (List.replicate channels (List.replicate buffer.samplesPerChannel silence)) where
  length := List.length_replicate
  plane c hc := by
    refine ⟨_, List.getElem?_replicate_of_lt hc, List.length_replicate, fun t ht => ?_⟩
    rw [List.getElem?_replicate_of_lt ht, if_neg fun h => absurd h.2 (Nat.not_lt_zero _)]

/-- The place of a sample gives its number back. -/
theorem place_eq_iff {t c n : ℕ} (hchannels : 0 < buffer.channels) (hc : c < buffer.channels) :
    t * buffer.channels + c = n ↔ t = n / buffer.channels ∧ c = n % buffer.channels := by
  constructor
  · rintro rfl
    rw [Nat.mul_comm, Nat.mul_add_div hchannels, Nat.mul_add_mod, Nat.div_eq_of_lt hc,
      Nat.mod_eq_of_lt hc]
    exact ⟨rfl, rfl⟩
  · rintro ⟨rfl, rfl⟩
    exact Nat.div_add_mod' _ _

/-- A sample that goes to no plane of the recorder. -/
theorem Dealt.skip {n : ℕ} {planes : List (List α)} (h : Dealt silence channels buffer n planes)
    (hchannels : 0 < buffer.channels) (hskip : channels ≤ n % buffer.channels) :
    Dealt silence channels buffer (n + 1) planes := by
  refine ⟨h.length, fun c hc => ?_⟩
  obtain ⟨plane, hplane, hlength, hvalue⟩ := h.plane c hc
  refine ⟨plane, hplane, hlength, fun t ht => ?_⟩
  rw [hvalue t ht]
  have hsame : (c < buffer.channels ∧ t * buffer.channels + c < n) ↔
      (c < buffer.channels ∧ t * buffer.channels + c < n + 1) := by
    refine and_congr_right fun hc' => ?_
    rw [Nat.lt_succ_iff_lt_or_eq, or_iff_left]
    rw [place_eq_iff hchannels hc']
    exact fun heq => absurd (heq.2 ▸ hc) (Nat.not_lt_of_ge hskip)
  rw [if_congr hsame rfl rfl]

/-- A sample that is written to its plane. -/
theorem Dealt.write {n : ℕ} {planes : List (List α)} (h : Dealt silence channels buffer n planes)
    (hchannels : 0 < buffer.channels) (hn : n < buffer.data.length)
    (hin : n / buffer.channels < buffer.samplesPerChannel) (hc : n % buffer.channels < channels) :
    ∃ planes', writeSample buffer planes n = some planes' ∧
      Dealt silence channels buffer (n + 1) planes' := by
  obtain ⟨plane, hplane, hlength, hvalue⟩ := h.plane _ hc
  have hplace : n / buffer.channels + 1 ≤ plane.length := hlength ▸ Nat.succ_le_of_lt hin
  have hread : n + 1 ≤ buffer.data.length := hn
  obtain ⟨plane', hcopy, hlength', hnew, hold⟩ :=
    Raster.memcpy_spec plane buffer.data hplace hread
  refine ⟨planes.set (n % buffer.channels) plane', ?_, ?_, fun c hc' => ?_⟩
  · rw [writeSample, hplane]
    show (Raster.memcpy plane (n / buffer.channels) buffer.data n 1).map _ = _
    rw [hcopy, Option.map_some]
  · rw [List.length_set, h.length]
  · by_cases hsame : c = n % buffer.channels
    · subst hsame
      refine ⟨plane', ?_, hlength'.trans hlength, fun t ht => ?_⟩
      · rw [List.getElem?_set_self (h.length ▸ hc)]
      have hc'' := Nat.mod_lt n hchannels
      by_cases hplace : t = n / buffer.channels
      · -- the sample that was just written
        have heq := (place_eq_iff hchannels hc'').mpr ⟨hplace, rfl⟩
        have hnew' := hnew 0 Nat.zero_lt_one
        rw [Nat.add_zero, Nat.add_zero, ← hplace] at hnew'
        rw [hnew', if_pos ⟨hc'', heq.trans_lt (Nat.lt_succ_self n)⟩, heq,
          List.getElem?_eq_getElem hn, List.getD_eq_getElem?_getD, List.getElem?_eq_getElem hn,
          Option.getD_some]
      · have hne : t * buffer.channels + n % buffer.channels ≠ n :=
          fun heq => hplace ((place_eq_iff hchannels hc'').mp heq).1
        rw [hold t (by omega), hvalue t ht]
        have hiff : t * buffer.channels + n % buffer.channels < n ↔
            t * buffer.channels + n % buffer.channels < n + 1 := by omega
        rw [if_congr (and_congr_right fun _ => hiff) rfl rfl]
    · obtain ⟨other, hother, hlen, hval⟩ := h.plane c hc'
      refine ⟨other, ?_, hlen, fun t ht => ?_⟩
      · rw [List.getElem?_set_ne (Ne.symm hsame), hother]
      rw [hval t ht]
      have hiff : (c < buffer.channels ∧ t * buffer.channels + c < n) ↔
          (c < buffer.channels ∧ t * buffer.channels + c < n + 1) := by
        refine and_congr_right fun hc'' => ?_
        rw [Nat.lt_succ_iff_lt_or_eq, or_iff_left]
        exact fun heq => hsame ((place_eq_iff hchannels hc'').mp heq).2
      rw [if_congr hiff rfl rfl]

/-- As long as the samples are those of whole columns, they can be dealt out. -/
theorem dealt_of_le (hchannels : 0 < buffer.channels) {n : ℕ}
    (hn : n ≤ buffer.samplesPerChannel * buffer.channels) :
    ∃ planes, convertSamples silence channels buffer n = some planes ∧
      Dealt silence channels buffer n planes := by
  induction n with
  | zero => exact ⟨_, rfl, dealt_zero⟩
  | succ n ih =>
    obtain ⟨planes, hplanes, h⟩ := ih (Nat.le_of_succ_le hn)
    have hstep : convertSamples silence channels buffer (n + 1) = writeSample buffer planes n := by
      rw [convertSamples, hplanes, Option.bind_some]
    rw [hstep]
    by_cases hc : n % buffer.channels < channels
    · have hdata : n < buffer.data.length :=
        (Nat.lt_of_succ_le hn).trans_le (Nat.div_mul_le_self _ _)
      exact h.write hchannels hdata ((Nat.div_lt_iff_lt_mul hchannels).mpr hn) hc
    · have hnone : planes[n % buffer.channels]? = none :=
        List.getElem?_eq_none (h.length ▸ Nat.le_of_not_lt hc)
      refine ⟨planes, ?_, h.skip hchannels (Nat.le_of_not_lt hc)⟩
      rw [writeSample, hnone]

/-- What lies in the FIFO when all samples were dealt out. -/
theorem Dealt.columns {planes : List (List α)}
    (h : Dealt silence channels buffer (buffer.samplesPerChannel * buffer.channels) planes) :
    columns silence planes buffer.samplesPerChannel = buffer.samples silence channels := by
  refine List.map_congr_left fun t ht => ?_
  have ht := List.mem_range.mp ht
  refine List.ext_getElem? fun c => ?_
  rw [List.getElem?_map, AudioBuffer.sample, List.getElem?_map]
  by_cases hc : c < channels
  · obtain ⟨plane, hplane, -, hvalue⟩ := h.plane c hc
    rw [hplane, List.getElem?_range hc, Option.map_some, Option.map_some,
      List.getD_eq_getElem?_getD, hvalue t ht, Option.getD_some]
    have hlast : c < buffer.channels →
        t * buffer.channels + c < buffer.samplesPerChannel * buffer.channels := by
      intro hc'
      have hrow : (t + 1) * buffer.channels ≤ buffer.samplesPerChannel * buffer.channels :=
        Nat.mul_le_mul_right _ ht
      rw [Nat.add_mul, Nat.one_mul] at hrow
      omega
    rw [if_congr (and_iff_left_of_imp hlast) rfl rfl]
  · rw [List.getElem?_eq_none (h.length ▸ Nat.le_of_not_lt hc),
      List.getElem?_eq_none (List.length_range.trans_le (Nat.le_of_not_lt hc))]
    rfl

/-- Once a sample went past the end, it did. -/
theorem convertSamples_none {n m : ℕ} (hnone : convertSamples silence channels buffer n = none)
    (hle : n ≤ m) : convertSamples silence channels buffer m = none := by
  induction m, hle using Nat.le_induction with
  | base => exact hnone
  | succ m _ ih => rw [convertSamples, ih, Option.bind_none]

/-- The first sample of a column that is not whole goes past the end of the first plane. -/
theorem convertSamples_half (hchannels : 0 < buffer.channels) (hrecorder : 0 < channels) :
    convertSamples silence channels buffer
      (buffer.samplesPerChannel * buffer.channels + 1) = none := by
  obtain ⟨planes, hplanes, h⟩ := @dealt_of_le α silence channels buffer hchannels _ le_rfl
  obtain ⟨plane, hplane, hlength, -⟩ := h.plane 0 hrecorder
  rw [convertSamples, hplanes, Option.bind_some, writeSample, Nat.mul_mod_left, hplane,
    Nat.mul_div_cancel _ hchannels]
  show Option.map _ (Raster.memcpy _ _ _ _ _) = none
  rw [Raster.memcpy, if_neg, Option.map_none]
  rintro ⟨hin, -⟩
  rw [hlength] at hin
  exact absurd hin (Nat.not_succ_le_self _)

end Convert

/-- The planes are allocated unless there is not even one column of samples, or no memory. -/
theorem allocates_eq_true_iff {outcome : BufferOutcome} {buffer : AudioBuffer α}
    (hchannels : 0 < buffer.channels) :
    outcome.allocates buffer.samplesPerChannel = true ↔
      buffer.channels ≤ buffer.data.length ∧ outcome ≠ .notAllocated := by
  rw [BufferOutcome.allocates, Bool.and_eq_true, decide_eq_true_iff, bne_iff_ne,
    AudioBuffer.samplesPerChannel, Nat.div_pos_iff, and_iff_right hchannels]

/-- **What a buffer comes to.** For any number of channels, `OnBuffer` appends the samples of the
    recorder's channels in order, silence for those that the buffer does not have, and nothing if
    the planes are not allocated or the FIFO does not take them; it writes past the samples that it
    asked for exactly if the planes are allocated and the buffer does not end with a whole
    column. -/
theorem onBuffer_eq (silence : α) (channels : ℕ) (outcome : BufferOutcome) (buffer : AudioBuffer α)
    (hchannels : 0 < buffer.channels) (hrecorder : 0 < channels) :
    onBuffer silence channels outcome buffer =
      if outcome = .notAllocated ∨ buffer.data.length < buffer.channels then some []
      else if buffer.channels ∣ buffer.data.length then
        some (if outcome = .notWritten then [] else buffer.samples silence channels)
      else none := by
  by_cases hallocated : outcome.allocates buffer.samplesPerChannel = true
  · obtain ⟨hle, hne⟩ := (allocates_eq_true_iff hchannels).mp hallocated
    rw [onBuffer, if_pos hallocated, if_neg (not_or.mpr ⟨hne, Nat.not_lt_of_ge hle⟩)]
    by_cases hwhole : buffer.channels ∣ buffer.data.length
    · have hlength : buffer.samplesPerChannel * buffer.channels = buffer.data.length :=
        Nat.div_mul_cancel hwhole
      obtain ⟨planes, hplanes, h⟩ := @dealt_of_le α silence channels buffer hchannels _ le_rfl
      rw [if_pos hwhole, ← hlength, hplanes, Option.map_some, h.columns]
    · rw [if_neg hwhole, Option.map_eq_none_iff]
      refine convertSamples_none (convertSamples_half hchannels hrecorder) ?_
      refine Nat.succ_le_of_lt ((Nat.div_mul_le_self _ _).lt_of_ne fun heq => hwhole ?_)
      exact Dvd.intro_left _ heq
  · have hnot := mt (allocates_eq_true_iff hchannels).mpr hallocated
    rw [onBuffer, if_neg hallocated, if_pos]
    rw [not_and_or, not_not, Nat.not_le] at hnot
    exact hnot.symm

/-- A mono buffer leaves the second channel silent. -/
theorem onBuffer_eq_mono : onBuffer 0 2 .stored ⟨[5, 6, 7], 1⟩ =
    some ((⟨[5, 6, 7], 1⟩ : AudioBuffer ℕ).samples 0 2) :=
  onBuffer_eq 0 2 .stored ⟨[5, 6, 7], 1⟩ (by decide) (by decide)

/-! ### The FIFO and the worker -/

/-- What the worker does next. -/
inductive AudioWorker where
  /-- `ConsumeBuffer`, which looks for a whole frame. -/
  | consumeBuffer
  | encode
  deriving DecidableEq, Repr

/-- The recorder: the FIFO, the frame that is read into, and the worker, if there is one.  Then,
    as history since the last `OnStart`, what was written to the FIFO, and the frames that were
    encoded with their timestamps. -/
structure AudioRecorder (α : Type*) where
  fifo : List (List α) := []
  frameCount : ℕ := 0
  frame : List (List α)
  worker : Option AudioWorker := none
  input : List (List α) := []
  encoded : List (ℕ × List (List α)) := []
  deriving DecidableEq, Repr

/-- The steps of the capturer's thread, of the worker, and of those who start and stop. -/
inductive AudioEvent (α : Type*) where
  | onBuffer (buffer : AudioBuffer α) (outcome : BufferOutcome)
  | consumeBuffer
  | encode
  | onStart
  /-- A new worker takes the place of the old one. -/
  | start
  | stop
  deriving DecidableEq, Repr

namespace AudioRecorder

/-- `Encode`, up to `avcodec_send_frame`: the frame keeps what it held if the FIFO has not
    enough. -/
def encode (frameSize : ℕ) (s : AudioRecorder α) : AudioRecorder α :=
  let frame := if s.fifo.length < frameSize then s.frame else s.fifo.take frameSize
  { s with
    fifo := if s.fifo.length < frameSize then s.fifo else s.fifo.drop frameSize
    frame := frame
    frameCount := s.frameCount + 1
    worker := some .consumeBuffer
    encoded := s.encoded ++ [(s.frameCount * frameSize, frame)] }

/-- One step, for a recorder with `channels` channels and frames of `frameSize` samples. -/
def step (silence : α) (channels frameSize : ℕ) (s : AudioRecorder α) :
    AudioEvent α → Option (AudioRecorder α)
  | .onBuffer buffer outcome =>
    (Recorder.onBuffer silence channels outcome buffer).map fun samples =>
      { s with fifo := s.fifo ++ samples, input := s.input ++ samples }
  | .consumeBuffer =>
    if s.worker = some .consumeBuffer then
      if s.fifo.length < frameSize then some s else some { s with worker := some .encode }
    else none
  | .encode => if s.worker = some .encode then some (s.encode frameSize) else none
  | .onStart => some { s with frameCount := 0, fifo := [], input := [], encoded := [] }
  -- the old worker comes to the end of its call first
  | .start =>
    if s.worker = some .encode then none else some { s with worker := some .consumeBuffer }
  | .stop => if s.worker = some .encode then none else some { s with worker := none }

end AudioRecorder

/-- A recorder with some frame in its memory, and all orders of steps. -/
def audioRecorder (silence : α) (channels : ℕ) (frame : List (List α)) :
    Machine (AudioRecorder α) (AudioEvent α) where
  init := { frame := frame }
  step := AudioRecorder.step silence channels frame.length

/-- The timestamps of a file: each frame begins where the one before it ends. -/
def timestamps (frameSize n : ℕ) : List ℕ := (List.range n).map fun k => k * frameSize

/-- What is asked for: the frames that were encoded, and then the FIFO, are what was recorded;
    all frames are whole, and their timestamps leave no gap. -/
structure AudioExact (frameSize : ℕ) (s : AudioRecorder α) : Prop where
  samples : (s.encoded.map Prod.snd).flatten ++ s.fifo = s.input
  whole : ∀ x ∈ s.encoded, x.2.length = frameSize
  stamps : s.encoded.map Prod.fst = timestamps frameSize s.encoded.length

/-- The condition: `Encode` still finds a whole frame. -/
def FindsFrame (frameSize : ℕ) (s : AudioRecorder α) : AudioEvent α → Prop
  | .encode => s.worker = some .encode → frameSize ≤ s.fifo.length
  | _ => True

/-- No file is started between the look for a frame and `Encode`. -/
def NoStartBetween (s : AudioRecorder α) : AudioEvent α → Prop
  | .onStart => s.worker ≠ some .encode
  | _ => True

instance (s : AudioRecorder α) : ∀ a, Decidable (NoStartBetween s a)
  | .onStart => inferInstanceAs (Decidable (¬ _))
  | .onBuffer .. | .consumeBuffer | .encode | .start | .stop => isTrue trivial

section Steps

variable {silence : α} {channels frameSize : ℕ} {s s' : AudioRecorder α}

/-- What the frame and the counter say in every run. -/
structure FrameCounted (frameSize : ℕ) (s : AudioRecorder α) : Prop where
  frame : s.frame.length = frameSize
  count : s.frameCount = s.encoded.length

/-- The steps, by what they come to. -/
inductive AudioStep (silence : α) (channels frameSize : ℕ) (s : AudioRecorder α) :
    AudioEvent α → AudioRecorder α → Prop
  | recorded {buffer : AudioBuffer α} {outcome : BufferOutcome} (samples : List (List α)) :
      AudioStep silence channels frameSize s (.onBuffer buffer outcome)
        { s with fifo := s.fifo ++ samples, input := s.input ++ samples }
  | short : AudioStep silence channels frameSize s .consumeBuffer s
  | found (hworker : s.worker = some .consumeBuffer) (hfound : frameSize ≤ s.fifo.length) :
      AudioStep silence channels frameSize s .consumeBuffer { s with worker := some .encode }
  | encoded (hworker : s.worker = some .encode) :
      AudioStep silence channels frameSize s .encode (s.encode frameSize)
  | emptied : AudioStep silence channels frameSize s .onStart
      { s with frameCount := 0, fifo := [], input := [], encoded := [] }
  | started (hworker : s.worker ≠ some .encode) :
      AudioStep silence channels frameSize s .start { s with worker := some .consumeBuffer }
  | stopped (hworker : s.worker ≠ some .encode) :
      AudioStep silence channels frameSize s .stop { s with worker := none }

theorem audioStep_of_step {a : AudioEvent α}
    (h : s.step silence channels frameSize a = some s') :
    AudioStep silence channels frameSize s a s' := by
  cases a with
  | onBuffer buffer outcome =>
    obtain ⟨samples, -, rfl⟩ := Option.map_eq_some_iff.mp h
    exact .recorded samples
  | consumeBuffer =>
    rw [AudioRecorder.step, Option.ite_none_right_eq_some] at h
    obtain ⟨hworker, h⟩ := h
    split at h
    · obtain rfl := Option.some.inj h
      exact .short
    case isFalse hfound =>
      obtain rfl := Option.some.inj h
      exact .found hworker (Nat.le_of_not_lt hfound)
  | encode =>
    rw [AudioRecorder.step, Option.ite_none_right_eq_some] at h
    obtain rfl := Option.some.inj h.2
    exact .encoded h.1
  | onStart =>
    obtain rfl := Option.some.inj h
    exact .emptied
  | start =>
    rw [AudioRecorder.step, Option.ite_none_left_eq_some] at h
    obtain rfl := Option.some.inj h.2
    exact .started h.1
  | stop =>
    rw [AudioRecorder.step, Option.ite_none_left_eq_some] at h
    obtain rfl := Option.some.inj h.2
    exact .stopped h.1

theorem FrameCounted.step {a : AudioEvent α} (h : FrameCounted frameSize s)
    (hs : AudioStep silence channels frameSize s a s') : FrameCounted frameSize s' := by
  cases hs with
  | recorded | short | found | started | stopped => exact ⟨h.frame, h.count⟩
  | emptied => exact ⟨h.frame, rfl⟩
  | encoded =>
    refine ⟨?_, ?_⟩
    · show (if s.fifo.length < frameSize then s.frame else s.fifo.take frameSize).length = frameSize
      split
      · exact h.frame
      case isFalse henough => exact List.length_take_of_le (Nat.le_of_not_lt henough)
    · show s.frameCount + 1 = (s.encoded ++ [_]).length
      rw [List.length_append, List.length_singleton, h.count]

/-- A whole frame moves from the FIFO to the encoder. -/
theorem AudioExact.encode (h : AudioExact frameSize s) (hcount : FrameCounted frameSize s)
    (hfound : frameSize ≤ s.fifo.length) : AudioExact frameSize (s.encode frameSize) := by
  have hnot : ¬ s.fifo.length < frameSize := Nat.not_lt_of_ge hfound
  have hencoded : (s.encode frameSize).encoded =
      s.encoded ++ [(s.frameCount * frameSize, s.fifo.take frameSize)] := by
    simp only [AudioRecorder.encode, if_neg hnot]
  have hfifo : (s.encode frameSize).fifo = s.fifo.drop frameSize := by
    simp only [AudioRecorder.encode, if_neg hnot]
  refine ⟨?_, fun x hx => ?_, ?_⟩
  · have hinput : (s.encode frameSize).input = s.input := rfl
    rw [hencoded, hfifo, hinput, List.map_append, List.flatten_append, List.map_singleton,
      List.flatten_singleton, List.append_assoc, List.take_append_drop]
    exact h.samples
  · rw [hencoded] at hx
    rcases List.mem_append.mp hx with hx | hx
    · exact h.whole x hx
    · rw [List.mem_singleton.mp hx]
      exact List.length_take_of_le hfound
  · rw [hencoded, List.map_append, h.stamps, List.length_append, List.length_singleton, timestamps,
      timestamps, List.range_succ, List.map_append, List.map_singleton, List.map_singleton,
      hcount.count]

/-- A frame that is not whole is one too many. -/
theorem not_audioExact_encode (h : AudioExact frameSize s) (hcount : FrameCounted frameSize s)
    (hshort : s.fifo.length < frameSize) : ¬ AudioExact frameSize (s.encode frameSize) := by
  intro h'
  have hsamples := congrArg List.length h'.samples
  have hbefore := congrArg List.length h.samples
  have hencoded : (s.encode frameSize).encoded =
      s.encoded ++ [(s.frameCount * frameSize, s.frame)] := by
    simp only [AudioRecorder.encode, if_pos hshort]
  have hfifo : (s.encode frameSize).fifo = s.fifo := by
    simp only [AudioRecorder.encode, if_pos hshort]
  have hinput : (s.encode frameSize).input = s.input := rfl
  rw [hencoded, hfifo, hinput, List.map_append, List.flatten_append, List.map_singleton,
    List.flatten_singleton, List.length_append, List.length_append, hcount.frame] at hsamples
  rw [List.length_append] at hbefore
  omega

/-- **A step** of a recorder that has recorded all. -/
theorem audioExact_step {a : AudioEvent α} (h : AudioExact frameSize s)
    (hcount : FrameCounted frameSize s) (hs : AudioStep silence channels frameSize s a s') :
    AudioExact frameSize s' ↔ FindsFrame frameSize s a := by
  cases hs with
  | recorded samples =>
    refine iff_of_true ⟨?_, h.whole, h.stamps⟩ trivial
    rw [← List.append_assoc, h.samples]
  | short | found | started | stopped => exact iff_of_true ⟨h.samples, h.whole, h.stamps⟩ trivial
  | emptied => exact iff_of_true ⟨rfl, nofun, rfl⟩ trivial
  | encoded hworker =>
    refine ⟨fun h' _ => ?_, fun hfound => h.encode hcount (hfound hworker)⟩
    exact Nat.le_of_not_lt fun hshort => not_audioExact_encode h hcount hshort h'

/-- What the worker has found stays there. -/
def KeepsFound (frameSize : ℕ) (s : AudioRecorder α) : Prop :=
  s.worker = some .encode → frameSize ≤ s.fifo.length

theorem KeepsFound.step {a : AudioEvent α} (h : KeepsFound frameSize s) (ha : NoStartBetween s a)
    (hs : AudioStep silence channels frameSize s a s') : KeepsFound frameSize s' := by
  cases hs with
  | recorded samples =>
    intro hworker
    rw [List.length_append]
    exact (h hworker).trans (Nat.le_add_right _ _)
  | short => exact h
  | found _ hfound => exact fun _ => hfound
  | encoded => rintro ⟨⟩
  | emptied => exact fun hworker => absurd hworker ha
  | started => rintro ⟨⟩
  | stopped => rintro ⟨⟩

end Steps

/-! ### All orders of steps -/

section Runs

variable {silence : α} {channels : ℕ} {frame : List (List α)}

/-- Files that are started between two frames leave what the worker has found. -/
theorem findsFrame_of_noStartBetween {s : AudioRecorder α} {as : List (AudioEvent α)}
    (h : KeepsFound frame.length s)
    (hg : (audioRecorder silence channels frame).Guarded NoStartBetween s as) :
    (audioRecorder silence channels frame).Guarded (FindsFrame frame.length) s as := by
  refine Machine.Guarded.imp (I := KeepsFound frame.length) ?_ ?_ h hg
  · exact fun _ _ _ h ha hs => h.step ha (audioStep_of_step hs)
  · intro s a h _
    cases a with
    | encode => exact h
    | onBuffer | consumeBuffer | onStart | start | stop => trivial

/-- **The audio is recorded exactly.** In every order of steps, the frames that were encoded since
    the file was started and what is left in the FIFO are what was recorded since, without gap
    or repetition, exactly if `Encode` always finds the frame it was called for; and it does if
    no file is started in between. -/
theorem audioExact_iff (silence : α) (channels : ℕ) (frame : List (List α))
    (as : List (AudioEvent α)) (s : AudioRecorder α)
    (hrun : (audioRecorder silence channels frame).run as = some s) :
    ((audioRecorder silence channels frame).Always (AudioExact frame.length)
        (audioRecorder silence channels frame).init as ↔
      (audioRecorder silence channels frame).Guarded (FindsFrame frame.length)
        (audioRecorder silence channels frame).init as) ∧
    ((audioRecorder silence channels frame).Guarded NoStartBetween
        (audioRecorder silence channels frame).init as →
      (audioRecorder silence channels frame).Guarded (FindsFrame frame.length)
        (audioRecorder silence channels frame).init as) := by
  refine ⟨?_, findsFrame_of_noStartBetween fun hworker => nomatch hworker⟩
  refine Machine.always_iff_guarded (I := FrameCounted frame.length) ?_ ?_ ⟨rfl, rfl⟩
    ⟨rfl, nofun, rfl⟩ hrun
  · intro s a s' hcount _ hs _
    exact hcount.step (audioStep_of_step hs)
  · intro s a s' hcount h hs
    exact audioExact_step h hcount (audioStep_of_step hs)

/-- Two buffers of two samples each and one that is lost, a frame of three, and the next file. -/
def twoBuffers : List (AudioEvent ℕ) :=
  [.onStart, .start, .onBuffer ⟨[1, 2, 3, 4], 2⟩ .stored, .consumeBuffer,
    .onBuffer ⟨[9, 9], 2⟩ .notWritten, .onBuffer ⟨[5, 6, 7, 8], 2⟩ .stored, .consumeBuffer, .encode,
    .stop, .onStart, .start, .consumeBuffer]

theorem audioExact_iff_twoBuffers :
    (audioRecorder 0 2 [[0, 0], [0, 0], [0, 0]]).Always (AudioExact 3)
      (audioRecorder 0 2 [[0, 0], [0, 0], [0, 0]]).init twoBuffers :=
  have h := audioExact_iff 0 2 [[0, 0], [0, 0], [0, 0]] twoBuffers _ rfl
  h.1.mpr (h.2 (by decide))

end Runs

end PiWebrtc.Recorder
