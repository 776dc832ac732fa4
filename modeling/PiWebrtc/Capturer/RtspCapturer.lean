import PiWebrtc.Lib.Machine
import Mathlib.Data.List.TakeWhile

namespace PiWebrtc.Capturer

open Transition

/-!
# The connections of the RTSP capturer

The worker of `RtspCapturer` reads packets from the open context, and reconnects once a read has
failed. A context that is open is a connection here: what was opened, the packets that came from
it and the frames that were passed downstream. A connection that was closed stays in `past`.

* `passed_eq_framesOf` — a connection passes every packet of its stream from the first keyframe
  on, the first one behind the parameter sets.
* `startsOnKeyframe` — so what a decoder sees of a connection starts on a keyframe.

`stopping_` is set by another thread. `ReadPacket` looks at it when it starts and after the wait
in front of a reconnect; a call during which it is set does what a call before or after does.
The libav calls are answers of the environment.
-/

/-! ### Streams and packets -/

inductive AVCodecID where
  | h264
  | hevc
  | mjpeg
  | other
deriving DecidableEq, Repr

/-- The pixel formats that a stream can have. -/
inductive Fourcc where
  | h264
  | hevc
  | mjpeg
deriving DecidableEq, Repr

/-- `none` is the format 0 of a codec that is not supported. -/
def toFourcc : AVCodecID → Option Fourcc
  | .h264 => some .h264
  | .hevc => some .hevc
  | .mjpeg => some .mjpeg
  | .other => none

/-- The data begins with a start code. -/
def isAnnexB : List UInt8 → Bool
  | 0 :: 0 :: 1 :: _ => true
  | 0 :: 0 :: 0 :: 1 :: _ => true
  | _ => false

structure AVCodecParameters where
  codecId : AVCodecID
  width : ℤ
  height : ℤ
  extradata : List UInt8
deriving DecidableEq, Repr

structure AVPacket where
  streamIndex : ℤ
  keyframe : Bool
  data : List UInt8
deriving DecidableEq, Repr

structure StreamInfo where
  format : Option Fourcc := none
  width : ℤ := 0
  height : ℤ := 0
  parameterSets : List UInt8 := []
deriving DecidableEq, Repr

/-- A frame buffer: the flag is `V4L2_BUF_FLAG_KEYFRAME`. -/
structure Frame where
  width : ℤ
  height : ℤ
  format : Option Fourcc
  data : List UInt8
  keyframeFlag : Bool
deriving DecidableEq, Repr

/-! ### The capturer -/

/-- An open context: the stream that was found in it, the packets that were read from it and the
    frames that were made of them. -/
structure Connection where
  streamIndex : ℤ
  codecpar : AVCodecParameters
  packets : List AVPacket := []
  passed : List (AVPacket × Frame) := []
deriving DecidableEq, Repr

/-- The parameter sets of a connection, if it has Annex B ones. -/
def Connection.parameterSets (c : Connection) : List UInt8 :=
  if isAnnexB c.codecpar.extradata then c.codecpar.extradata else []

inductive Phase where
  | initializing
  | running
  | destroyed
  | exited
deriving DecidableEq, Repr

structure State where
  stream : StreamInfo := {}
  hasDecoder : Bool := false
  hasFirstKeyframe : Bool := false
  retrying : Bool := false
  streamIndex : ℤ := -1
  fmtCtx : Option Connection := none
  stopping : Bool := false
  phase : Phase := .initializing
  past : List Connection := []
deriving DecidableEq, Repr

/-- Every connection there was, from the first to the one that is open. -/
def State.connections (s : State) : List Connection := s.past ++ s.fmtCtx.toList

/-- How the libav calls in `Open` come out. -/
inductive OpenAnswer where
  | outOfMemory
  | inputFailed
  | noVideoStream
  | stream (index : ℤ) (codecpar : AVCodecParameters)
deriving DecidableEq, Repr

namespace State

def close (s : State) : State :=
  { s with fmtCtx := none, hasFirstKeyframe := false, past := s.connections }

/-- The `fail` of `Open`. -/
def fail (s : State) : State := { s with retrying := true }.close

/-- `Open`, with the stream information where it succeeds. -/
def openStream (s : State) : OpenAnswer → State × Option StreamInfo
  | .outOfMemory => (s.fail, none)
  | .inputFailed => (s.fail, none)
  | .noVideoStream => (s.fail, none)
  | .stream index codecpar =>
    if codecpar.width ≤ 0 ∨ codecpar.height ≤ 0 then
      ({ s with streamIndex := index }.fail, none)
    else
      let connection : Connection := { streamIndex := index, codecpar := codecpar }
      ({ s with streamIndex := index, retrying := false, fmtCtx := some connection },
        some {
          format := toFourcc codecpar.codecId
          width := codecpar.width
          height := codecpar.height
          parameterSets := connection.parameterSets })

/-- One round of the loop of `Initialize`, and `CreateDecoder` after the last one. -/
def initializeRound (s : State) (answer : OpenAnswer) (decoder : Bool) : State :=
  match s.openStream answer with
  | (s, none) => s
  | (s, some info) =>
    let s := { s with stream := info }
    match info.format with
    | none => { s with phase := .exited }
    | some format =>
      if !decoder && format != .mjpeg then { s with phase := .exited }
      else { s with hasDecoder := decoder, phase := .running }

def reconnect (s : State) (answer : OpenAnswer) : State :=
  match s.openStream answer with
  | (s, none) => s
  | (s, some info) =>
    -- downstream was built for the size and the codec of the first stream
    if info.format ≠ s.stream.format ∨ info.width ≠ s.stream.width ∨
        info.height ≠ s.stream.height then
      { s with phase := .exited }
    else
      { s with stream := { s.stream with parameterSets := info.parameterSets } }

/-- `prepend`: the parameter sets go in front of the next frame. -/
def prepends (s : State) : Bool := !s.hasFirstKeyframe && !s.stream.parameterSets.isEmpty

/-- The frame buffer of a packet: a copy where the parameter sets go in front of it or where
    there is no decoder to copy it, else the packet's own data with its flags. -/
def frameOf (s : State) (p : AVPacket) : Frame :=
  if s.hasDecoder && !s.prepends then
    ⟨s.stream.width, s.stream.height, s.stream.format, p.data, p.keyframe⟩
  else
    ⟨s.stream.width, s.stream.height, s.stream.format,
      (if s.prepends then s.stream.parameterSets else []) ++ p.data, false⟩

/-- The end of `ReadPacket`, for a packet that was read from an open context. -/
def onPacket (s : State) (c : Connection) (p : AVPacket) : State :=
  let c := { c with packets := c.packets ++ [p] }
  if p.streamIndex ≠ s.streamIndex then { s with fmtCtx := some c }
  else if !s.hasFirstKeyframe && !p.keyframe then { s with fmtCtx := some c }
  else
    { s with
      hasFirstKeyframe := true
      fmtCtx := some { c with passed := c.passed ++ [(p, s.frameOf p)] } }

/-- `ReadPacket`, with the answers to the call it comes to: of `Open`, or of `av_read_frame`,
    where `none` is an error. -/
def readPacket (s : State) (opened : OpenAnswer) (read : Option AVPacket) : State :=
  if s.stopping then s
  else
    match s.fmtCtx with
    | none => s.reconnect opened
    | some c =>
      match read with
      | none => s.close
      | some p => s.onPacket c p

end State

inductive Action where
  | initializeRound (answer : OpenAnswer) (decoder : Bool)
  | readPacket (opened : OpenAnswer) (read : Option AVPacket)
  /-- The destructor sets `stopping_`. -/
  | stop
  /-- The worker has ended, and the destructor closes the context. -/
  | destroy
deriving DecidableEq, Repr

def step (s : State) : Action → Option State
  | .initializeRound answer decoder =>
    if s.phase = .initializing then some (s.initializeRound answer decoder) else none
  | .readPacket opened read =>
    if s.phase = .running then some (s.readPacket opened read) else none
  | .stop => if s.phase = .running then some { s with stopping := true } else none
  | .destroy =>
    if s.phase = .running ∧ s.stopping = true then
      some { s.close with hasDecoder := false, phase := .destroyed }
    else
      none

/-- `RtspCapturer`, from its constructor on. -/
def capturer : Machine State Action where
  init := {}
  step := step

/-! ### What a connection passes -/

/-- The frames of a stream: every packet from the first keyframe on, that one behind the
    parameter sets. -/
def framesOf (sets : List UInt8) (packets : List AVPacket) : List (AVPacket × List UInt8) :=
  match packets.dropWhile fun p => !p.keyframe with
  | [] => []
  | p :: later => (p, sets ++ p.data) :: later.map fun q => (q, q.data)

theorem framesOf_eq_nil_iff {sets : List UInt8} {packets : List AVPacket} :
    framesOf sets packets = [] ↔ ∀ p ∈ packets, p.keyframe = false := by
  unfold framesOf
  constructor
  · intro h
    split at h
    · rename_i hdrop
      intro p hp
      have hnot := List.dropWhile_eq_nil_iff.mp hdrop p hp
      rwa [Bool.not_eq_true'] at hnot
    · exact nomatch h
  · intro h
    have hdrop : packets.dropWhile (fun p => !p.keyframe) = [] := by
      rw [List.dropWhile_eq_nil_iff]
      intro p hp
      rw [h p hp, Bool.not_false]
    rw [hdrop]

/-- Before the first keyframe a packet is dropped, unless it is one. -/
theorem framesOf_append_of_nil {sets : List UInt8} {packets : List AVPacket}
    (h : framesOf sets packets = []) (p : AVPacket) :
    framesOf sets (packets ++ [p]) = if p.keyframe then [(p, sets ++ p.data)] else [] := by
  have hdrop : (packets ++ [p]).dropWhile (fun p => !p.keyframe) =
      [p].dropWhile fun p => !p.keyframe := by
    refine List.dropWhile_append_of_pos fun q hq => ?_
    rw [framesOf_eq_nil_iff.mp h q hq, Bool.not_false]
  unfold framesOf
  rw [hdrop]
  cases hp : p.keyframe with
  | false => rw [List.dropWhile_cons_of_pos (by rw [hp]; rfl), List.dropWhile_nil]; rfl
  | true => rw [List.dropWhile_cons_of_neg (by rw [hp]; exact Bool.false_ne_true)]; rfl

/-- After it every packet is a frame as it is. -/
theorem framesOf_append_of_ne_nil {sets : List UInt8} {packets : List AVPacket}
    (h : framesOf sets packets ≠ []) (p : AVPacket) :
    framesOf sets (packets ++ [p]) = framesOf sets packets ++ [(p, p.data)] := by
  have hdrop : packets.dropWhile (fun p => !p.keyframe) ≠ [] := by
    intro hdrop
    refine h ?_
    unfold framesOf
    rw [hdrop]
  unfold framesOf
  rw [List.dropWhile_append, if_neg (by rwa [List.isEmpty_iff])]
  obtain ⟨q, later, heq⟩ := List.exists_cons_of_ne_nil hdrop
  rw [heq, List.cons_append]
  dsimp only
  rw [List.map_append, List.map_singleton, List.cons_append]

namespace Connection

/-- The packets of the stream that was opened. -/
def streamPackets (c : Connection) : List AVPacket :=
  c.packets.filter fun p => p.streamIndex = c.streamIndex

/-- The connection has passed the frames of its stream and no others. -/
def Passes (c : Connection) : Prop :=
  c.passed.map (fun f => (f.1, f.2.data)) = framesOf c.parameterSets c.streamPackets

/-- The first frame is made from a keyframe packet and carries the parameter sets, every frame is
    made from a packet of the connection, and no later one has anything in front of it. -/
structure StartsOnKeyframe (c : Connection) : Prop where
  first_keyframe : ∀ f ∈ c.passed.head?, f.1.keyframe = true
  first_prefixed : ∀ f ∈ c.passed.head?, f.2.data = c.parameterSets ++ f.1.data
  later_plain : ∀ f ∈ c.passed.tail, f.2.data = f.1.data
  own : ∀ f ∈ c.passed, f.1 ∈ c.streamPackets

end Connection

theorem Connection.startsOnKeyframe_of_passes {c : Connection} (h : c.Passes) :
    c.StartsOnKeyframe := by
  unfold Connection.Passes framesOf at h
  cases hdrop : c.streamPackets.dropWhile (fun p => !p.keyframe) with
  | nil =>
    rw [hdrop] at h
    have hnil : c.passed = [] := List.map_eq_nil_iff.mp h
    constructor <;> intro f hf <;> rw [hnil] at hf <;> exact nomatch hf
  | cons p later =>
    rw [hdrop] at h
    have hkey : p.keyframe = true := by
      have hhead := List.head_dropWhile_not (fun p : AVPacket => !p.keyframe)
        (by rw [hdrop]; exact List.cons_ne_nil p later)
      simp only [hdrop, List.head_cons, Bool.not_eq_false'] at hhead
      exact hhead
    have hmem : ∀ q ∈ p :: later, q ∈ c.streamPackets := by
      intro q hq
      rw [← hdrop] at hq
      exact (List.dropWhile_sublist _).subset hq
    cases hpassed : c.passed with
    | nil =>
      rw [hpassed] at h
      exact nomatch h
    | cons first rest =>
      rw [hpassed, List.map_cons, List.cons.injEq, Prod.mk.injEq] at h
      obtain ⟨⟨hp, hdata⟩, hrest⟩ := h
      have hlater : ∀ f ∈ rest, f.2.data = f.1.data ∧ f.1 ∈ later := by
        intro f hf
        have hf' : (f.1, f.2.data) ∈ later.map fun q => (q, q.data) := by
          rw [← hrest]
          exact List.mem_map_of_mem hf
        obtain ⟨q, hq, heq⟩ := List.mem_map.mp hf'
        obtain ⟨rfl, hdata⟩ := Prod.mk.inj heq
        exact ⟨hdata.symm, hq⟩
      refine ⟨?_, ?_, ?_, ?_⟩
      · intro f hf
        obtain rfl : first = f := Option.some.inj (by rwa [hpassed] at hf)
        rw [hp]
        exact hkey
      · intro f hf
        obtain rfl : first = f := Option.some.inj (by rwa [hpassed] at hf)
        rw [hp]
        exact hdata
      · intro f hf
        rw [hpassed] at hf
        exact (hlater f hf).1
      · intro f hf
        rw [hpassed] at hf
        obtain rfl | hf := List.mem_cons.mp hf
        · exact hmem _ (hp ▸ List.mem_cons_self)
        · exact hmem _ (List.mem_cons_of_mem p (hlater f hf).2)

/-! ### Every run -/

/-- The gate is shut while no context is open, and open exactly once the connection has passed a
    frame; the stored parameter sets are the ones of the connection. -/
structure Inv (s : State) : Prop where
  opening : s.phase = .initializing → s.fmtCtx = none
  closed : s.fmtCtx = none → s.hasFirstKeyframe = false
  current : ∀ c, s.fmtCtx = some c → s.phase = .running →
    c.streamIndex = s.streamIndex ∧ c.parameterSets = s.stream.parameterSets
  gate : ∀ c, s.fmtCtx = some c → (s.hasFirstKeyframe = true ↔ c.passed ≠ [])
  passes : ∀ c ∈ s.connections, c.Passes

/-- A connection that has passed nothing and got nothing. -/
theorem Connection.passes_fresh (index : ℤ) (codecpar : AVCodecParameters) :
    Connection.Passes { streamIndex := index, codecpar := codecpar } := rfl

namespace State

theorem inv_of_closed {s : State} (hctx : s.fmtCtx = none) (hgate : s.hasFirstKeyframe = false)
    (hpast : ∀ c ∈ s.past, c.Passes) : Inv s where
  opening _ := hctx
  closed _ := hgate
  current c hc := by rw [hctx] at hc; exact nomatch hc
  gate c hc := by rw [hctx] at hc; exact nomatch hc
  passes := by
    intro c hc
    rw [connections, hctx, Option.toList_none, List.append_nil] at hc
    exact hpast c hc

/-- What `Open` does: it closes, or it leaves a new connection whose parameter sets it reports. -/
theorem openStream_cases {s t : State} {answer : OpenAnswer} {info : Option StreamInfo}
    (h : s.openStream answer = (t, info)) :
    (info = none ∧ t.fmtCtx = none ∧ t.hasFirstKeyframe = false ∧ t.past = s.connections) ∨
      ∃ c i, info = some i ∧ t.fmtCtx = some c ∧ c.passed = [] ∧ c.Passes ∧
        c.streamIndex = t.streamIndex ∧ i.parameterSets = c.parameterSets ∧
          t.hasFirstKeyframe = s.hasFirstKeyframe ∧ t.past = s.past ∧ t.stream = s.stream ∧
            t.phase = s.phase := by
  cases answer with
  | stream index codecpar =>
    unfold openStream at h
    dsimp only at h
    split_ifs at h with hsize
    · obtain ⟨rfl, rfl⟩ := Prod.mk.inj h
      exact Or.inl ⟨rfl, rfl, rfl, rfl⟩
    · obtain ⟨rfl, rfl⟩ := Prod.mk.inj h
      exact Or.inr ⟨_, _, rfl, rfl, rfl, Connection.passes_fresh index codecpar, rfl, rfl, rfl,
        rfl, rfl, rfl⟩
  | outOfMemory | inputFailed | noVideoStream =>
    obtain ⟨rfl, rfl⟩ := Prod.mk.inj h
    exact Or.inl ⟨rfl, rfl, rfl, rfl⟩

/-- A new connection behind a shut gate. -/
theorem inv_of_opened {s : State} {c : Connection} (hphase : s.phase ≠ .initializing)
    (hctx : s.fmtCtx = some c) (hgate : s.hasFirstKeyframe = false) (hpassed : c.passed = [])
    (hcurrent : s.phase = .running →
      c.streamIndex = s.streamIndex ∧ c.parameterSets = s.stream.parameterSets)
    (hpast : ∀ c ∈ s.past, c.Passes) (hc : c.Passes) : Inv s where
  opening h := absurd h hphase
  closed h := by rw [hctx] at h; exact nomatch h
  current c' hc' := by
    obtain rfl := Option.some.inj (hctx.symm.trans hc')
    exact hcurrent
  gate c' hc' := by
    obtain rfl := Option.some.inj (hctx.symm.trans hc')
    rw [hgate, hpassed]
    exact ⟨fun h => (nomatch h), fun h => absurd rfl h⟩
  passes := by
    intro c' hc'
    rw [connections, hctx, Option.toList_some, List.mem_append, List.mem_singleton] at hc'
    obtain hc' | rfl := hc'
    · exact hpast c' hc'
    · exact hc

theorem passes_past {s : State} (h : Inv s) : ∀ c ∈ s.past, c.Passes :=
  fun c hc => h.passes c (List.mem_append_left _ hc)

theorem inv_close {s : State} (h : Inv s) : Inv s.close :=
  inv_of_closed rfl rfl h.passes

theorem inv_initializeRound {s : State} (h : Inv s) (hphase : s.phase = .initializing)
    (answer : OpenAnswer) (decoder : Bool) : Inv (s.initializeRound answer decoder) := by
  have hclosed := h.closed (h.opening hphase)
  unfold initializeRound
  rcases hopen : s.openStream answer with ⟨t, info⟩
  obtain ⟨rfl, hctx, hgate, hpast⟩ |
    ⟨c, i, rfl, hctx, hpassed, hfresh, hindex, hsets, hgate, hpast, -, -⟩ :=
      openStream_cases hopen
  · exact inv_of_closed hctx hgate (hpast ▸ h.passes)
  · rw [hclosed] at hgate
    dsimp only
    split
    · exact inv_of_opened (by exact nofun) hctx hgate hpassed (by exact nofun)
        (hpast ▸ passes_past h) hfresh
    · split_ifs
      · exact inv_of_opened (by exact nofun) hctx hgate hpassed (by exact nofun)
          (hpast ▸ passes_past h) hfresh
      · exact inv_of_opened (by exact nofun) hctx hgate hpassed (fun _ => ⟨hindex, hsets.symm⟩)
          (hpast ▸ passes_past h) hfresh

theorem inv_reconnect {s : State} (h : Inv s) (hphase : s.phase = .running)
    (hctx : s.fmtCtx = none) (answer : OpenAnswer) : Inv (s.reconnect answer) := by
  have hclosed := h.closed hctx
  unfold reconnect
  rcases hopen : s.openStream answer with ⟨t, info⟩
  obtain ⟨rfl, hctx, hgate, hpast⟩ |
    ⟨c, i, rfl, hctx, hpassed, hfresh, hindex, hsets, hgate, hpast, -, hphase'⟩ :=
      openStream_cases hopen
  · exact inv_of_closed hctx hgate (hpast ▸ h.passes)
  · rw [hclosed] at hgate
    rw [hphase] at hphase'
    dsimp only
    split_ifs
    · exact inv_of_opened (by exact nofun) hctx hgate hpassed (by exact nofun)
        (hpast ▸ passes_past h) hfresh
    · exact inv_of_opened (by dsimp only; rw [hphase']; exact nofun) hctx hgate hpassed
        (fun _ => ⟨hindex, hsets.symm⟩) (hpast ▸ passes_past h) hfresh

theorem frameOf_data (s : State) (p : AVPacket) :
    (s.frameOf p).data = (if s.prepends then s.stream.parameterSets else []) ++ p.data := by
  unfold frameOf
  split_ifs with hown hpre hpre
  · rw [hpre, Bool.not_true, Bool.and_false] at hown
    exact nomatch hown
  · rfl
  · rfl
  · rfl

/-- Behind an open gate a frame is the packet. -/
theorem frameOf_data_of_gate {s : State} (h : s.hasFirstKeyframe = true) (p : AVPacket) :
    (s.frameOf p).data = p.data := by
  rw [frameOf_data, prepends, h, Bool.not_true, Bool.false_and, if_neg Bool.false_ne_true,
    List.nil_append]

/-- The first frame of a connection has the parameter sets in front of it. -/
theorem frameOf_data_of_shut {s : State} (h : s.hasFirstKeyframe = false) (p : AVPacket) :
    (s.frameOf p).data = s.stream.parameterSets ++ p.data := by
  rw [frameOf_data, prepends, h, Bool.not_false, Bool.true_and]
  cases s.stream.parameterSets <;> rfl

theorem streamPackets_append (c : Connection) (p : AVPacket) :
    { c with packets := c.packets ++ [p] }.streamPackets =
      c.streamPackets ++ if p.streamIndex = c.streamIndex then [p] else [] := by
  unfold Connection.streamPackets
  rw [List.filter_append, List.filter_singleton]
  dsimp only
  split_ifs with h
  · rw [decide_eq_true h, cond_true]
  · rw [decide_eq_false h, cond_false]

/-- A packet that is not passed keeps what the connection passes. -/
theorem passes_of_dropped {c : Connection} {p : AVPacket} (h : c.Passes)
    (hdrop : p.streamIndex ≠ c.streamIndex ∨ c.passed = [] ∧ p.keyframe = false) :
    { c with packets := c.packets ++ [p] }.Passes := by
  unfold Connection.Passes at h ⊢
  change c.passed.map _ = framesOf c.parameterSets
    ({ c with packets := c.packets ++ [p] } : Connection).streamPackets
  rw [streamPackets_append, h]
  split_ifs with hindex
  · obtain hne | ⟨hnil, hkey⟩ := hdrop
    · exact absurd hindex hne
    · rw [hnil, List.map_nil] at h
      rw [framesOf_append_of_nil h.symm, hkey, if_neg Bool.false_ne_true, ← h]
  · rw [List.append_nil]

theorem passes_of_passed {s : State} {c : Connection} {p : AVPacket} (h : Inv s)
    (hphase : s.phase = .running) (hctx : s.fmtCtx = some c)
    (hindex : p.streamIndex = s.streamIndex)
    (hkey : s.hasFirstKeyframe = true ∨ p.keyframe = true) :
    Connection.Passes
      { c with packets := c.packets ++ [p], passed := c.passed ++ [(p, s.frameOf p)] } := by
  obtain ⟨hcurrent, hsets⟩ := h.current c hctx hphase
  have hpasses := h.passes c
    (List.mem_append_right _ (by rw [hctx]; exact List.mem_singleton_self c))
  have hgate := h.gate c hctx
  have hpackets := streamPackets_append c p
  rw [if_pos (hindex.trans hcurrent.symm)] at hpackets
  unfold Connection.Passes at hpasses ⊢
  change (c.passed ++ [(p, s.frameOf p)]).map _ = framesOf c.parameterSets
    ({ c with packets := c.packets ++ [p] } : Connection).streamPackets
  rw [hpackets, List.map_append, hpasses, List.map_singleton]
  cases hfirst : s.hasFirstKeyframe with
  | true =>
    have hne : framesOf c.parameterSets c.streamPackets ≠ [] := by
      rw [← hpasses]
      exact fun hnil => hgate.mp hfirst (List.map_eq_nil_iff.mp hnil)
    rw [framesOf_append_of_ne_nil hne, frameOf_data_of_gate hfirst]
  | false =>
    have hnil : framesOf c.parameterSets c.streamPackets = [] := by
      rw [← hpasses, List.map_eq_nil_iff]
      by_contra hne
      rw [hgate.mpr hne] at hfirst
      exact nomatch hfirst
    have hp : p.keyframe = true := hkey.resolve_left (by rw [hfirst]; exact Bool.false_ne_true)
    rw [framesOf_append_of_nil hnil, hnil, List.nil_append, frameOf_data_of_shut hfirst, hsets, hp,
      if_pos rfl]

/-- A packet keeps the invariant if the connection it leaves passes its frames. -/
theorem inv_of_updated {s : State} {c c' : Connection} {gate : Bool} (h : Inv s)
    (hphase : s.phase = .running) (hctx : s.fmtCtx = some c)
    (hsame : c'.streamIndex = c.streamIndex ∧ c'.codecpar = c.codecpar)
    (hgate : gate = true ↔ c'.passed ≠ []) (hpasses : c'.Passes) :
    Inv { s with fmtCtx := some c', hasFirstKeyframe := gate } where
  opening hp := by rw [hphase] at hp; exact nomatch hp
  closed hc := nomatch hc
  current c'' hc'' _ := by
    obtain rfl := Option.some.inj hc''
    obtain ⟨hindex, hsets⟩ := h.current c hctx hphase
    refine ⟨hsame.1.trans hindex, ?_⟩
    rw [← hsets, Connection.parameterSets, hsame.2, Connection.parameterSets]
  gate c'' hc'' := by
    obtain rfl := Option.some.inj hc''
    exact hgate
  passes := by
    intro c'' hc''
    obtain hc'' | hc'' := List.mem_append.mp hc''
    · exact passes_past h c'' hc''
    · obtain rfl := List.mem_singleton.mp hc''
      exact hpasses

theorem inv_onPacket {s : State} {c : Connection} (h : Inv s) (hphase : s.phase = .running)
    (hctx : s.fmtCtx = some c) (p : AVPacket) : Inv (s.onPacket c p) := by
  have hpasses := h.passes c
    (List.mem_append_right _ (by rw [hctx]; exact List.mem_singleton_self c))
  have hgate := h.gate c hctx
  unfold onPacket
  dsimp only
  split_ifs with hindex hdropped
  · have hdrop : p.streamIndex ≠ c.streamIndex := by
      rwa [(h.current c hctx hphase).1]
    exact inv_of_updated h hphase hctx ⟨rfl, rfl⟩ hgate (passes_of_dropped hpasses (Or.inl hdrop))
  · rw [Bool.and_eq_true, Bool.not_eq_true', Bool.not_eq_true'] at hdropped
    have hnil : c.passed = [] := by
      by_contra hne
      rw [hgate.mpr hne] at hdropped
      exact nomatch hdropped.1
    exact inv_of_updated h hphase hctx ⟨rfl, rfl⟩ hgate
      (passes_of_dropped hpasses (Or.inr ⟨hnil, hdropped.2⟩))
  · have hkey : s.hasFirstKeyframe = true ∨ p.keyframe = true := by
      rw [Bool.and_eq_true, Bool.not_eq_true', Bool.not_eq_true', not_and_or, Bool.not_eq_false,
        Bool.not_eq_false] at hdropped
      exact hdropped
    refine inv_of_updated h hphase hctx ⟨rfl, rfl⟩ ?_
      (passes_of_passed h hphase hctx (not_not.mp hindex) hkey)
    exact ⟨fun _ => List.append_ne_nil_of_right_ne_nil _ (List.cons_ne_nil _ _), fun _ => rfl⟩

theorem inv_readPacket {s : State} (h : Inv s) (hphase : s.phase = .running)
    (opened : OpenAnswer) (read : Option AVPacket) : Inv (s.readPacket opened read) := by
  unfold readPacket
  split_ifs
  · exact h
  · cases hctx : s.fmtCtx with
    | none => exact inv_reconnect h hphase hctx opened
    | some c =>
      cases read with
      | none => exact inv_close h
      | some p => exact inv_onPacket h hphase hctx p

end State

/-- What one step keeps. -/
theorem inv_step {s t : State} {a : Action} (h : Inv s) (hstep : step s a = some t) : Inv t := by
  cases a with
  | initializeRound answer decoder =>
    unfold step at hstep
    dsimp only at hstep
    split_ifs at hstep with hphase
    obtain rfl := Option.some.inj hstep
    exact State.inv_initializeRound h hphase answer decoder
  | readPacket opened read =>
    unfold step at hstep
    dsimp only at hstep
    split_ifs at hstep with hphase
    obtain rfl := Option.some.inj hstep
    exact State.inv_readPacket h hphase opened read
  | stop =>
    unfold step at hstep
    dsimp only at hstep
    split_ifs at hstep with hphase
    obtain rfl := Option.some.inj hstep
    exact ⟨h.opening, h.closed, h.current, h.gate, h.passes⟩
  | destroy =>
    unfold step at hstep
    dsimp only at hstep
    split_ifs at hstep with hphase
    obtain rfl := Option.some.inj hstep
    exact State.inv_of_closed rfl rfl h.passes

theorem inv_run {s : State} {acts : List Action} (hrun : capturer.run acts = some s) : Inv s :=
  Machine.run_invariant (M := capturer) (State.inv_of_closed rfl rfl (by exact nofun))
    (fun _ _ _ h hstep => inv_step h hstep) hrun

/-- **In every run each connection passes every packet of its stream from the first keyframe on**,
    that one behind the parameter sets of the connection. -/
theorem passed_eq_framesOf {s : State} {acts : List Action} (hrun : capturer.run acts = some s) :
    ∀ c ∈ s.connections,
      c.passed.map (fun f => (f.1, f.2.data)) = framesOf c.parameterSets c.streamPackets :=
  (inv_run hrun).passes

/-- **In every run what a connection passes starts on a keyframe.** -/
theorem startsOnKeyframe {s : State} {acts : List Action} (hrun : capturer.run acts = some s) :
    ∀ c ∈ s.connections, c.StartsOnKeyframe := by
  intro c hc
  exact Connection.startsOnKeyframe_of_passes ((inv_run hrun).passes c hc)

/-- A connection that is lost after two frames, a reconnect that fails, and one that finds other
    parameter sets. -/
def lostAndFound : List Action :=
  [.initializeRound (.stream 0 ⟨.h264, 640, 480, [0, 0, 1, 7]⟩) true,
    .readPacket .inputFailed (some ⟨0, false, [2]⟩),
    .readPacket .inputFailed (some ⟨0, true, [5]⟩),
    .readPacket .inputFailed (some ⟨0, false, [3]⟩),
    .readPacket .inputFailed none,
    .readPacket .noVideoStream none,
    .readPacket (.stream 1 ⟨.h264, 640, 480, [0, 0, 1, 8]⟩) none,
    .readPacket .inputFailed (some ⟨1, false, [4]⟩),
    .readPacket .inputFailed (some ⟨1, true, [6]⟩)]

theorem startsOnKeyframe_lostAndFound :
    ∃ s, capturer.run lostAndFound = some s ∧
      s.connections.map (fun c => c.passed.map fun f => f.2.data) =
        [[[0, 0, 1, 7, 5], [3]], [[0, 0, 1, 8, 6]]] ∧
      ∀ c ∈ s.connections, c.StartsOnKeyframe :=
  ⟨_, rfl, by decide, @startsOnKeyframe _ lostAndFound rfl⟩

end PiWebrtc.Capturer
