import PiWebrtc.Recorder.RecorderManager

namespace PiWebrtc.Recorder

open RecorderManager

/-!
# The packet a file starts with

`WriteIntoFile` holds a new container's header back until a keyframe comes, since a player
needs one to start and, for AV1, the muxer needs its sequence header as extradata.  It asks
for the key flag alone, and the packets of the audio encoder have that flag too.
`startsOnKeyframe_iff` gives the exact condition: the packet that the header waited for is
one of the video stream.
-/

/-- A call of `WriteIntoFile`: the packet, what `is_recording_` is when it is looked at, and
    what `avformat_write_header` answers if it is called. -/
structure WriteCall where
  pkt : AVPacket
  recording : Bool
  outcome : RecorderOutcome
  deriving DecidableEq, Repr

namespace RecorderManager

def writeCall (r : RecorderManager) (c : WriteCall) : RecorderManager :=
  { r with isRecording := c.recording }.writeIntoFile c.pkt c.outcome

/-- The calls in the order in which they take `ctx_mux`. -/
def writeCalls (r : RecorderManager) (calls : List WriteCall) : RecorderManager :=
  calls.foldl writeCall r

end RecorderManager

/-- After the calls `before`, the call `c` writes the header. -/
def WritesHeader (r : RecorderManager) (before : List WriteCall) (c : WriteCall) : Prop :=
  (r.writeCalls before).headerWritten = false ∧
    (r.writeCalls (before ++ [c])).headerWritten = true

/-- A packet of the stream is written. -/
def ContextEvent.isFrameOf (stream : ℕ) : ContextEvent → Bool
  | .frame _ pkt => pkt.streamIndex = stream
  | _ => false

/-- The container of `r` starts on a keyframe of the stream `video`: its header is written
    only at one, with the keyframe as extradata of an AV1 stream already, and the first packet of
    the stream that is written is one. -/
structure StartsOnKeyframe (video : ℕ) (r : RecorderManager) (calls : List WriteCall) :
    Prop where
  header_at_keyframe : ∀ before c after, calls = before ++ c :: after → WritesHeader r before c →
    c.pkt.streamIndex = video ∧ c.pkt.key = true
  extradata_set : ∀ before c after, calls = before ++ c :: after → WritesHeader r before c →
    ∃ ctx st, (r.writeCalls (before ++ [c])).fmtCtx = some ctx ∧ ctx.streams[video]? = some st ∧
      (r.writeCalls (before ++ [c])).headerStreams = ctx.streams ∧
      (st.codec = .av1 → st.extradata = c.pkt.data)
  first_is_key : ∀ id pkt,
    ((r.writeCalls calls).log.drop r.log.length).find? (·.isFrameOf video) = some (.frame id pkt) →
      pkt.key = true

/-- The call gets as far as the header of a container that has none yet. -/
def WriteCall.opens (c : WriteCall) : Bool := c.recording && c.pkt.key

/-- The first packet that gets as far as the header is one of the stream `video`, or the
    header cannot be written. -/
def OpenedByVideo (video : ℕ) (calls : List WriteCall) : Prop :=
  ∀ c ∈ calls.find? WriteCall.opens, c.outcome = .headerFailed ∨ c.pkt.streamIndex = video

instance (video : ℕ) (calls : List WriteCall) : Decidable (OpenedByVideo video calls) :=
  inferInstanceAs (Decidable (∀ c ∈ calls.find? WriteCall.opens,
    c.outcome = .headerFailed ∨ c.pkt.streamIndex = video))

/-! ### The three states of a container -/

/-- The container waits for its keyframe. -/
structure Waiting (ctx : AVFormatContext) (log : List ContextEvent) (r : RecorderManager) :
    Prop where
  ctx_open : r.fmtCtx = some ctx
  no_header : r.headerWritten = false
  log_eq : r.log = log

/-- The container's header could not be written. -/
structure GivenUp (log : List ContextEvent) (r : RecorderManager) : Prop where
  no_ctx : r.fmtCtx = none
  no_header : r.headerWritten = false
  log_eq : r.log = log

/-- The container has its header, and `log` is what was written up to now or earlier. -/
structure Written (ctx : AVFormatContext) (log : List ContextEvent) (r : RecorderManager) :
    Prop where
  ctx_open : r.fmtCtx = some ctx
  header : r.headerWritten = true
  streams : r.headerStreams = ctx.streams
  log_starts : log <+: r.log

variable {ctx : AVFormatContext} {log : List ContextEvent} {r : RecorderManager}
  {c : WriteCall} {calls : List WriteCall} {video : ℕ}

theorem Waiting.writeCall (h : Waiting ctx log r) (hc : c.opens = false) :
    Waiting ctx log (r.writeCall c) := by
  rw [WriteCall.opens, Bool.and_eq_false_iff] at hc
  have hsame : r.writeCall c = { r with isRecording := c.recording } := by
    rw [RecorderManager.writeCall, RecorderManager.writeIntoFile]
    rcases hc with hc | hc <;> simp [h.ctx_open, h.no_header, hc]
  rw [hsame]
  exact ⟨h.ctx_open, h.no_header, h.log_eq⟩

theorem Waiting.writeCall_failed (h : Waiting ctx log r) (hc : c.opens = true)
    (hfail : c.outcome = .headerFailed) :
    GivenUp (log ++ [.closed ctx.id false]) (r.writeCall c) := by
  obtain ⟨hrec, hkey⟩ := (Bool.and_eq_true_iff (x := c.recording)).mp hc
  have hnext : r.writeCall c =
      { r with
        isRecording := c.recording, fmtCtx := none, log := r.log ++ [.closed ctx.id false] } := by
    simp [RecorderManager.writeCall, RecorderManager.writeIntoFile, h.ctx_open, h.no_header, hrec,
      hkey, hfail]
  rw [hnext]
  exact ⟨rfl, h.no_header, by rw [h.log_eq]⟩

/-- Writing a packet only adds to the log. -/
theorem Written.writeFrame (h : Written ctx log r) (pkt : AVPacket) :
    Written ctx log (r.writeFrame ctx pkt) := by
  rw [RecorderManager.writeFrame]
  split
  · exact ⟨h.ctx_open, h.header, h.streams, h.log_starts.trans (List.prefix_append _ _)⟩
  · exact h

/-- The header is written, and then the packet that it waited for. -/
theorem Waiting.writeCall_eq (h : Waiting ctx log r) (hc : c.opens = true)
    (hok : c.outcome ≠ .headerFailed) :
    ∃ r', Written (setExtradata ctx c.pkt) (log ++ [.header ctx.id]) r' ∧
      r'.log = log ++ [.header ctx.id] ∧
      r.writeCall c = r'.writeFrame (setExtradata ctx c.pkt) c.pkt := by
  obtain ⟨hrec, hkey⟩ := (Bool.and_eq_true_iff (x := c.recording)).mp hc
  have hlog : r.log ++ [.header ctx.id] = log ++ [.header ctx.id] := by rw [h.log_eq]
  refine ⟨{ r with
    fmtCtx := some (setExtradata ctx c.pkt), headerWritten := true, isRecording := c.recording
    log := r.log ++ [.header ctx.id], headerStreams := (setExtradata ctx c.pkt).streams },
    ⟨rfl, rfl, rfl, hlog ▸ List.prefix_rfl⟩, hlog, ?_⟩
  simp only [RecorderManager.writeCall, RecorderManager.writeIntoFile, h.ctx_open, h.no_header,
    hrec, hkey, hok]
  rfl

theorem Waiting.writeCall_header (h : Waiting ctx log r) (hc : c.opens = true)
    (hok : c.outcome ≠ .headerFailed) :
    Written (setExtradata ctx c.pkt) (log ++ [.header ctx.id]) (r.writeCall c) := by
  obtain ⟨r', hwritten, -, heq⟩ := h.writeCall_eq hc hok
  exact heq ▸ hwritten.writeFrame c.pkt

/-- The packet that the header waited for is the first one that is written. -/
theorem Waiting.writeCall_opens (h : Waiting ctx log r) (hc : c.opens = true)
    (hok : c.outcome ≠ .headerFailed) (hstream : c.pkt.streamIndex < ctx.streams.length) :
    Written (setExtradata ctx c.pkt) (log ++ [.header ctx.id, .frame ctx.id c.pkt])
      (r.writeCall c) := by
  obtain ⟨r', hwritten, hlog, heq⟩ := h.writeCall_eq hc hok
  have hstream' : c.pkt.streamIndex < (setExtradata ctx c.pkt).streams.length := by
    simpa [setExtradata] using hstream
  rw [heq, RecorderManager.writeFrame, if_pos hstream']
  exact ⟨hwritten.ctx_open, hwritten.header, hwritten.streams, by simp [hlog, setExtradata]⟩

theorem GivenUp.writeCall (h : GivenUp log r) (c : WriteCall) : GivenUp log (r.writeCall c) := by
  have hsame : r.writeCall c = { r with isRecording := c.recording } := by
    simp [RecorderManager.writeCall, RecorderManager.writeIntoFile, h.no_ctx]
  rw [hsame]
  exact ⟨h.no_ctx, h.no_header, h.log_eq⟩

theorem Written.writeCall (h : Written ctx log r) (c : WriteCall) :
    Written ctx log (r.writeCall c) := by
  have hwritten : Written ctx log { r with isRecording := c.recording } :=
    ⟨h.ctx_open, h.header, h.streams, h.log_starts⟩
  have hnext : r.writeCall c =
      if !c.recording then { r with isRecording := c.recording }
      else { r with isRecording := c.recording }.writeFrame ctx c.pkt := by
    simp [RecorderManager.writeCall, RecorderManager.writeIntoFile, h.ctx_open, h.header]
  rw [hnext]
  split
  · exact hwritten
  · exact hwritten.writeFrame c.pkt

theorem Waiting.writeCalls (h : Waiting ctx log r) (hcalls : ∀ c ∈ calls, c.opens = false) :
    Waiting ctx log (r.writeCalls calls) := by
  induction calls generalizing r with
  | nil => exact h
  | cons c calls ih =>
    rw [List.forall_mem_cons] at hcalls
    exact ih (h.writeCall hcalls.1) hcalls.2

theorem GivenUp.writeCalls (h : GivenUp log r) (calls : List WriteCall) :
    GivenUp log (r.writeCalls calls) := by
  induction calls generalizing r with
  | nil => exact h
  | cons c calls ih => exact ih (h.writeCall c)

theorem Written.writeCalls (h : Written ctx log r) (calls : List WriteCall) :
    Written ctx log (r.writeCalls calls) := by
  induction calls generalizing r with
  | nil => exact h
  | cons c calls ih => exact ih (h.writeCall c)

theorem writeCalls_append (r : RecorderManager) (before after : List WriteCall) :
    r.writeCalls (before ++ after) = (r.writeCalls before).writeCalls after := List.foldl_append

/-! ### The call that writes the header -/

/-- The header is written at the first packet that gets as far, if it can be written. -/
theorem Waiting.writesHeader_iff (h : Waiting ctx log r) (before after : List WriteCall)
    (c : WriteCall) :
    WritesHeader r before c ↔
      (before ++ c :: after).find? WriteCall.opens = some c ∧
        (∀ b ∈ before, b.opens = false) ∧ c.outcome ≠ .headerFailed := by
  rw [WritesHeader, writeCalls_append]
  cases hfind : before.find? WriteCall.opens with
  | none =>
    have hbefore : ∀ b ∈ before, b.opens = false := by simpa using hfind
    have hwait := h.writeCalls hbefore
    rw [List.find?_append, hfind, Option.none_or]
    cases hc : c.opens with
    | false =>
      have hnext : ((r.writeCalls before).writeCall c).headerWritten = false :=
        (hwait.writeCall hc).no_header
      refine iff_of_false (fun hw => Bool.false_ne_true (hnext.symm.trans hw.2)) fun hf => ?_
      rw [List.find?_cons_of_neg (by simp [hc])] at hf
      rw [List.find?_some hf.1] at hc
      cases hc
    | true =>
      rw [List.find?_cons_of_pos hc]
      by_cases hfail : c.outcome = .headerFailed
      · have hnext : ((r.writeCalls before).writeCall c).headerWritten = false :=
          (hwait.writeCall_failed hc hfail).no_header
        exact iff_of_false (fun hw => Bool.false_ne_true (hnext.symm.trans hw.2))
          fun hf => hf.2.2 hfail
      · exact iff_of_true ⟨hwait.no_header, (hwait.writeCall_header hc hfail).header⟩
          ⟨rfl, hbefore, hfail⟩
  | some b =>
    -- an earlier packet got as far, and the container is settled since
    obtain ⟨hb, before', between, rfl, hbefore⟩ := List.find?_eq_some_iff_append.mp hfind
    have hwait := h.writeCalls (fun a ha => by simpa using hbefore a ha)
    refine iff_of_false ?_ fun hf => ?_
    · rintro ⟨hno, hyes⟩
      rw [writeCalls_append] at hno hyes
      by_cases hfail : b.outcome = .headerFailed
      · have hup := ((hwait.writeCall_failed hb hfail).writeCalls between).writeCalls [c]
        exact Bool.false_ne_true (hup.no_header.symm.trans hyes)
      · have hwritten := (hwait.writeCall_header hb hfail).writeCalls between
        exact Bool.false_ne_true (hno.symm.trans hwritten.header)
    · rw [hf.2.1 b (by simp)] at hb
      cases hb

/-- **A file starts on a keyframe, exactly.** Whatever packets come in for a container that
    was just opened and has a video stream, it starts on a keyframe of that stream exactly if
    the first packet with the key flag that comes in while recording is one of the stream,
    unless the header cannot be written at all. -/
theorem startsOnKeyframe_iff (args : RecorderArgs) (r : RecorderManager) (video : ℕ)
    (hcontainer : args.recordType ≠ .snapshot) (hvideo : video < args.streams.length)
    (calls : List WriteCall) :
    StartsOnKeyframe video (r.openContext args .done).1 calls ↔ OpenedByVideo video calls := by
  set opened := (r.openContext args .done).1
  have hwait : Waiting ⟨r.nextCtx, args.streams⟩ opened.log opened := by
    constructor <;> simp [opened, RecorderManager.openContext, hcontainer]
  constructor
  · intro hstarts c hc
    obtain ⟨-, before, after, rfl, hbefore⟩ := List.find?_eq_some_iff_append.mp hc
    by_cases hfail : c.outcome = .headerFailed
    · exact .inl hfail
    · have hwrites := (hwait.writesHeader_iff before after c).mpr
        ⟨hc, fun b hb => by simpa using hbefore b hb, hfail⟩
      exact .inr (hstarts.header_at_keyframe before c after rfl hwrites).1
  · intro hopened
    have hat : ∀ before c after, calls = before ++ c :: after → WritesHeader opened before c →
        c.opens = true ∧ c.pkt.streamIndex = video ∧ (∀ b ∈ before, b.opens = false) ∧
          c.outcome ≠ .headerFailed := by
      rintro before c after rfl hwrites
      obtain ⟨hfind, hbefore, hok⟩ := (hwait.writesHeader_iff before after c).mp hwrites
      exact ⟨List.find?_some hfind, (hopened c hfind).resolve_left hok, hbefore, hok⟩
    refine ⟨fun before c after heq hwrites => ?_, fun before c after heq hwrites => ?_, ?_⟩
    · obtain ⟨hc, hstream, -⟩ := hat before c after heq hwrites
      exact ⟨hstream, (Bool.and_eq_true_iff.mp hc).2⟩
    · obtain ⟨hc, hstream, hbefore, hok⟩ := hat before c after heq hwrites
      have hwritten := (hwait.writeCalls hbefore).writeCall_header hc hok
      have hst : (setExtradata ⟨r.nextCtx, args.streams⟩ c.pkt).streams[video]? =
          (args.streams[video]?).map fun st =>
            if st.codec = .av1 then { st with extradata := c.pkt.data } else st := by
        rw [setExtradata, hstream, List.getElem?_modify_eq]
        rfl
      rw [List.getElem?_eq_getElem hvideo] at hst
      rw [writeCalls_append]
      refine ⟨_, _, hwritten.ctx_open, hst, hwritten.streams, ?_⟩
      dsimp only
      split
      case isTrue => exact fun _ => rfl
      case isFalse h => exact fun hav1 => absurd hav1 h
    · intro id pkt hfirst
      cases hfind : calls.find? WriteCall.opens with
      | none =>
        -- the container waits to the end, and nothing is written
        have hwait' : Waiting ⟨r.nextCtx, args.streams⟩ opened.log (opened.writeCalls calls) :=
          hwait.writeCalls (by simpa using hfind)
        rw [hwait'.log_eq, List.drop_length] at hfirst
        cases hfirst
      | some c =>
        obtain ⟨hc, before, after, rfl, hbefore⟩ := List.find?_eq_some_iff_append.mp hfind
        have hwait' : Waiting ⟨r.nextCtx, args.streams⟩ opened.log (opened.writeCalls before) :=
          hwait.writeCalls fun b hb => by simpa using hbefore b hb
        rw [writeCalls_append] at hfirst
        by_cases hfail : c.outcome = .headerFailed
        · have hlog := ((hwait'.writeCall_failed hc hfail).writeCalls after).log_eq
          have hnone : ([.closed r.nextCtx false] : List ContextEvent).find?
              (·.isFrameOf video) = none := rfl
          rw [show ((opened.writeCalls before).writeCalls (c :: after)).log = _ from hlog,
            List.drop_left, hnone] at hfirst
          cases hfirst
        · have hstream := (hopened c hfind).resolve_left hfail
          obtain ⟨rest, hlog⟩ := ((hwait'.writeCall_opens hc hfail
            (hstream ▸ hvideo)).writeCalls after).log_starts
          rw [show ((opened.writeCalls before).writeCalls (c :: after)).log = _ from hlog.symm,
            List.append_assoc, List.drop_left] at hfirst
          simp only [List.cons_append, List.nil_append, ContextEvent.isFrameOf,
            List.find?_cons, hstream, decide_true, Option.some.injEq,
            ContextEvent.frame.injEq] at hfirst
          rw [← hfirst.2]
          exact (Bool.and_eq_true_iff.mp hc).2

/-- A recorder of an AV1 stream and an audio stream. -/
def videoAndAudio : RecorderArgs where
  recordType := .video
  autoStart := true
  fileDuration := 60
  streams := [⟨.av1, []⟩, ⟨.other, []⟩]

/-- A video packet that depends on an earlier one, then a video keyframe, then an audio
    packet. -/
def videoFirst : List WriteCall :=
  [⟨⟨0, false, [7]⟩, true, .done⟩, ⟨⟨0, true, [8, 9]⟩, true, .done⟩, ⟨⟨1, true, [1]⟩, true, .done⟩]

theorem startsOnKeyframe_iff_videoFirst :
    StartsOnKeyframe 0 (RecorderManager.openContext videoAndAudio {} .done).1 videoFirst :=
  (startsOnKeyframe_iff videoAndAudio {} 0 (by decide) (by decide) videoFirst).mpr (by decide)

/-- The same packets, but the audio packet comes first. -/
def audioFirst : List WriteCall :=
  [⟨⟨1, true, [1]⟩, true, .done⟩, ⟨⟨0, false, [7]⟩, true, .done⟩, ⟨⟨0, true, [8, 9]⟩, true, .done⟩]

/-- The header is written at the audio packet, the file's first video packet is no keyframe,
    and the AV1 stream is left without extradata. -/
theorem not_startsOnKeyframe_audioFirst :
    let opened := (RecorderManager.openContext videoAndAudio {} .done).1
    ¬ StartsOnKeyframe 0 opened audioFirst ∧
      (opened.writeCalls audioFirst).log.drop 1 = [.header 0, .frame 0 ⟨1, true, [1]⟩,
        .frame 0 ⟨0, false, [7]⟩, .frame 0 ⟨0, true, [8, 9]⟩] ∧
      (opened.writeCalls audioFirst).fmtCtx = some ⟨0, [⟨.av1, []⟩, ⟨.other, []⟩]⟩ := by
  refine ⟨fun h => ?_, rfl, rfl⟩
  have hkey : false = true := h.first_is_key 0 ⟨0, false, [7]⟩ rfl
  cases hkey

end PiWebrtc.Recorder
