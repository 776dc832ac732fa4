import PiWebrtc.Parser.LivekitUrl
import PiWebrtc.Parser.CameraControls
import Mathlib.Data.List.DropRight
import Mathlib.Data.List.Dedup

namespace PiWebrtc.Parser

open Decimal Signaling

/-!
# What `ParseArgs` makes of the options

When the options were read, `ParseArgs` checks them one after the other and ends the program at the
first one that is wrong; on the way it brings them into the form that the rest of the program
counts on.

* `joinRooms_cases` — the loop over the rooms of `--cloudflare-room`.
* `parseArgs_cases` — which options are accepted, and what holds of them afterwards: they are
  accepted exactly if each of them is, and then they are well formed.

The text of the help and the default bitrates are left out.
-/

/-- What depends on the build, on the C++ library and on WebRTC: the scalability modes that it
    knows, and `VideoPlayoutDelay::kMax` in milliseconds. -/
structure Build where
  useLibcameraCapture : Bool
  useLibargusCapture : Bool
  jetsonPlatform : Bool
  rpiPlatform : Bool
  floats : FloatReaders
  knownScalabilityMode : String → Bool
  kMaxPlayoutDelayMs : ℕ

/-- `CameraSource`. -/
inductive CameraSource where
  | libCamera
  | libArgus
  | v4l2
  | rtsp
  deriving DecidableEq, Repr

/-- The pixel formats of a camera. -/
inductive CameraFormat where
  | mjpeg
  | h264
  | yuv420
  | yuyv
  | nv12
  deriving DecidableEq, Repr

/-- The fields of `Args` that are checked or set. -/
structure Args where
  scalabilityMode : String := ""
  width : ℤ := 640
  height : ℤ := 480
  subWidth : ℤ := 0
  subHeight : ℤ := 0
  numStreams : ℤ := 1
  recordSource : String := "main"
  webrtcSource : String := "main"
  recordStreamIdx : ℤ := 0
  liveStreamIdx : ℤ := 0
  uid : List Char := []
  apiUrl : List Char := []
  apiKey : List Char := []
  useCloudflare : Bool := false
  cloudflareRooms : List (List Char) := []
  useMqtt : Bool := false
  mqttHost : String := "localhost"
  useLivekit : Bool := false
  livekitUrl : List Char := []
  livekitRoom : String := ""
  livekit : Option LivekitUrl := none
  stunUrl : List Char := "stun:stun.l.google.com:19302".toList
  turnUrl : List Char := []
  recordPath : List Char := []
  controls : Controls := {}
  enableGamepad : Bool := false
  enableIpc : Bool := false
  jpegQuality : ℤ := 30
  latencyTraceInterval : ℤ := 5
  minPlayoutDelayMs : ℤ := 0
  maxPlayoutDelayMs : ℤ := -1
  recordTypeStr : String := "both"
  recordModeStr : String := "both"
  recordType : ℤ := -1
  recordMode : ℤ := -1
  recordOndemandPath : List Char := []
  camera : List Char := "libcamera:0".toList
  cameraSource : CameraSource := .libCamera
  cameraId : ℕ := 0
  v4l2Format : String := "i420"
  format : Option CameraFormat := none
  deriving DecidableEq

/-! ### The checks -/

def v4l2FmtTable : List (String × CameraFormat) :=
  [("mjpeg", .mjpeg), ("h264", .h264), ("i420", .yuv420), ("yuyv", .yuyv)]

def recordTypeTable : List (String × ℤ) := [("both", -1), ("video", 0), ("snapshot", 1)]

def recordModeTable : List (String × ℤ) := [("both", -1), ("background", 0), ("on-demand", 1)]

def streamSourceTable : List (String × ℤ) := [("main", 0), ("sub", 1)]

def kMaxCloudflareRooms : ℕ := 4

/-- `IsWorkerId`. -/
def isWorkerId (id : List Char) : Bool :=
  if id.isEmpty || 64 < id.length || !(id.head?.any Char.isAlphanum) then false
  else id.all fun c => c.isAlphanum || c = '.' || c = '_' || c = '-'

/-- `std::clamp`. -/
def clamp (v lo hi : ℤ) : ℤ := if v < lo then lo else if hi < v then hi else v

namespace Args

def checkScalabilityMode (build : Build) (args : Args) : Except String Args :=
  if args.scalabilityMode ≠ "" ∧ ¬ build.knownScalabilityMode args.scalabilityMode then
    .error ("Unknown --scalability-mode: " ++ args.scalabilityMode)
  else .ok args

/-- The main stream and the sub stream, and who reads from which. -/
def setStreams (args : Args) : Except String Args :=
  if 0 < args.subHeight ∧ 0 < args.subWidth then
    let args :=
      if args.width < args.subWidth ∨ args.height < args.subHeight then
        { args with subWidth := args.width, subHeight := args.height }
      else args
    let args := { args with numStreams := args.numStreams + 1 }
    (parseEnum streamSourceTable args.recordSource).bind fun recordStreamIdx =>
      (parseEnum streamSourceTable args.webrtcSource).bind fun liveStreamIdx =>
        .ok { args with recordStreamIdx := recordStreamIdx, liveStreamIdx := liveStreamIdx }
  else
    (parseEnum streamSourceTable args.recordSource).bind fun _ =>
      (parseEnum streamSourceTable args.webrtcSource).bind fun _ =>
        .ok { args with recordStreamIdx := 0, liveStreamIdx := 0 }

def checkUid (args : Args) : Except String Args :=
  if args.uid = [] then .error "--uid is required." else .ok args

/-- The url without the slashes at its end: `while (back() == '/') pop_back()`. -/
def stripSlashes (url : List Char) : List Char := url.rdropWhile (· = '/')

/-- `--api-url` and `--api-key`. -/
def checkApi (args : Args) : Except String Args :=
  let args := { args with apiUrl := stripSlashes args.apiUrl }
  if args.apiUrl = [] then
    if args.apiKey ≠ [] then .error "--api-key needs --api-url." else .ok args
  else if ¬ "https://".toList <+: args.apiUrl ∧ ¬ "http://".toList <+: args.apiUrl then
    .error "--api-url must be a full url, e.g. https://api.mazupo.com/sfu."
  else if args.apiKey = [] then .error "--api-key is required when --api-url is specified."
  else .ok args

/-- The loop over the rooms, with those that were taken before. -/
def joinRooms (rooms : List (List Char)) : List (List Char) → Except String (List (List Char))
  | [] => .ok rooms
  | room :: rest =>
    if ¬ isWorkerId room then
      .error ("Invalid --cloudflare-room \"" ++ String.ofList room ++
        "\": use 1 to 64 letters, digits, '.', '_' or '-', and start with a letter or digit.")
    else if room ∈ rooms then joinRooms rooms rest
    else joinRooms (rooms ++ [room]) rest

/-- `--use-cloudflare`. -/
def checkCloudflare (args : Args) : Except String Args :=
  if args.useCloudflare then
    if args.apiUrl = [] then
      .error "--api-url is required when --use-cloudflare is specified."
    else if ¬ isWorkerId args.uid then
      .error ("With --use-cloudflare, --uid must be 1 to 64 letters, digits, '.', '_' " ++
        "or '-', and start with a letter or digit.")
    else
      (joinRooms [] args.cloudflareRooms).bind fun rooms =>
        if rooms = [] then
          .error "--cloudflare-room is required when --use-cloudflare is specified."
        else if kMaxCloudflareRooms < rooms.length then
          .error ("A device can join up to " ++ toString kMaxCloudflareRooms ++ " rooms; got " ++
            toString rooms.length ++ " --cloudflare-room options.")
        else .ok { args with cloudflareRooms := rooms }
  else .ok args

/-- `--use-mqtt`. -/
def checkMqtt (args : Args) : Except String Args :=
  if args.useMqtt ∧ args.mqttHost = "" then
    .error "--mqtt-host is required when --use-mqtt is specified."
  else .ok args

/-- `--use-livekit`. -/
def checkLivekit (args : Args) : Except String Args :=
  if args.useLivekit then
    if args.livekitUrl = [] then
      .error "--livekit-url is required when --use-livekit is specified."
    else
      match parseWsUrl args.livekitUrl with
      | .error reason =>
        .error ("Invalid --livekit-url \"" ++ String.ofList args.livekitUrl ++ "\": " ++ reason)
      | .ok livekit =>
        if args.livekitRoom = "" then
          .error "--livekit-room is required when --use-livekit is specified."
        else .ok { args with livekit := some livekit }
  else .ok args

/-- `--stun-url` and `--turn-url`. -/
def checkIceUrls (args : Args) : Except String Args :=
  if args.stunUrl ≠ [] ∧ args.stunUrl.take 4 ≠ "stun".toList then
    .error "Stun url should not be empty and start with \"stun:\""
  else if args.turnUrl ≠ [] ∧ args.turnUrl.take 4 ≠ "turn".toList then
    .error "Turn url should start with \"turn:\""
  else .ok args

/-- A directory's path ends with a slash. -/
def endSlash (path : List Char) : List Char :=
  if path ≠ [] ∧ path.getLast? ≠ some '/' then path ++ ['/'] else path

/-- `--record-path`. -/
def setRecordPath (args : Args) : Except String Args :=
  if args.recordPath ≠ [] ∧ args.recordPath.head? ≠ some '/' then
    .error "The file path needs to start with a \"/\" character"
  else .ok { args with recordPath := endSlash args.recordPath }

/-- The controls of libcamera. -/
def setCameraControls (build : Build) (args : Args) : Except String Args :=
  if build.useLibcameraCapture then
    (setControls build.floats args.controls).bind fun controls =>
      .ok { args with controls := controls }
  else .ok args

/-- The options with a range. -/
def clampValues (build : Build) (args : Args) : Args :=
  let args := { args with
    enableIpc := args.enableIpc || args.enableGamepad
    jpegQuality := clamp args.jpegQuality 0 100
    latencyTraceInterval := clamp args.latencyTraceInterval 1 3600 }
  if 0 ≤ args.maxPlayoutDelayMs then
    let args := { args with
      maxPlayoutDelayMs := clamp args.maxPlayoutDelayMs 0 build.kMaxPlayoutDelayMs }
    { args with
      minPlayoutDelayMs := clamp args.minPlayoutDelayMs 0 args.maxPlayoutDelayMs }
  else args

/-- What is recorded, when, and where to on demand. -/
def setRecord (args : Args) : Except String Args :=
  (parseEnum recordTypeTable args.recordTypeStr).bind fun recordType =>
    (parseEnum recordModeTable args.recordModeStr).bind fun recordMode =>
      let path :=
        if recordMode ≠ 0 ∧ args.recordOndemandPath = [] ∧ args.recordPath ≠ [] then
          args.recordPath ++ "on-demand/".toList
        else args.recordOndemandPath
      .ok { args with
        recordType := recordType
        recordMode := recordMode
        recordOndemandPath := endSlash path }

/-- The camera of a type, with the text of its number. -/
def setCamera (build : Build) (args : Args) (type id : List Char) : Except String Args :=
  match stoi id with
  | .error _ => .error ("Invalid camera ID: " ++ String.ofList id)
  | .ok n =>
    let args := { args with cameraId := (n % 2 ^ 32).toNat }
    if type = "libcamera".toList then
      if build.useLibcameraCapture then
        .ok { args with cameraSource := .libCamera, format := some .yuv420 }
      else if build.jetsonPlatform then
        .error "Jetson does not support libcamera. Use v4l2:<id> instead."
      else .error "libcamera is not supported on this platform."
    else if type = "libargus".toList then
      if build.useLibargusCapture then
        .ok { args with cameraSource := .libArgus, format := some .nv12 }
      else if build.rpiPlatform then
        .error "Raspberry Pi does not support libargus. Use v4l2:<id> instead."
      else .error "libargus is not supported on this platform."
    else if type = "v4l2".toList then
      (parseEnum v4l2FmtTable args.v4l2Format).bind fun format =>
        .ok { args with cameraSource := .v4l2, format := some format }
    else
      .error ("Unknown camera type: " ++ String.ofList type ++
        ". Expected 'libcamera', 'libargus', 'v4l2' or an rtsp:// URL")

/-- `ParseDevice`. -/
def parseDevice (build : Build) (args : Args) : Except String Args :=
  if "rtsp://".toList <+: args.camera ∨ "rtsps://".toList <+: args.camera then
    .ok { args with cameraSource := .rtsp }
  else if ':' ∈ args.camera then
    args.setCamera build (args.camera.takeWhile (· ≠ ':')) (args.camera.dropWhile (· ≠ ':')).tail
  else
    .error ("Invalid camera string: " ++ String.ofList args.camera ++
      ". Expected format: libcamera:<id> or v4l2:<id>")

end Args

/-- `ParseArgs` after the options were read. -/
def parseArgs (build : Build) (args : Args) : Except String Args := do
  let args ← args.checkScalabilityMode build
  let args ← args.setStreams
  let args ← args.checkUid
  let args ← args.checkApi
  let args ← args.checkCloudflare
  let args ← args.checkMqtt
  let args ← args.checkLivekit
  let args ← args.checkIceUrls
  let args ← args.setRecordPath
  let args ← args.setCameraControls build
  let args ← (args.clampValues build).setRecord
  args.parseDevice build

/-! ### What is accepted -/

/-- A sub stream was asked for. -/
abbrev HasSubStream (args : Args) : Prop := 0 < args.subHeight ∧ 0 < args.subWidth

/-- What `setStreams` makes of `args`. -/
def StreamsSet (args args' : Args) : Prop :=
  ∃ subWidth subHeight numStreams recordStreamIdx liveStreamIdx,
    args' = { args with
      subWidth := subWidth, subHeight := subHeight, numStreams := numStreams,
      recordStreamIdx := recordStreamIdx, liveStreamIdx := liveStreamIdx } ∧
    (numStreams = args.numStreams + if HasSubStream args then 1 else 0) ∧
    (recordStreamIdx = if HasSubStream args ∧ args.recordSource = "sub" then 1 else 0) ∧
    (liveStreamIdx = if HasSubStream args ∧ args.webrtcSource = "sub" then 1 else 0) ∧
    (HasSubStream args → subWidth ≤ args.width ∧ subHeight ≤ args.height)

/-- The types of cameras of a build. -/
def CameraType (build : Build) (args : Args) (type : List Char) : Prop :=
  type = "libcamera".toList ∧ build.useLibcameraCapture = true ∨
    type = "libargus".toList ∧ build.useLibargusCapture = true ∨
    type = "v4l2".toList ∧ args.v4l2Format ∈ v4l2FmtTable.map Prod.fst

/-- A camera that the build has. -/
def CameraAccepted (build : Build) (args : Args) : Prop :=
  "rtsp://".toList <+: args.camera ∨ "rtsps://".toList <+: args.camera ∨
    ∃ type id n, args.camera = type ++ ':' :: id ∧ ':' ∉ type ∧ stoi id = .ok n ∧
      CameraType build args type

/-- The conditions on `--api-url` and `--api-key`. -/
def ApiAccepted (args : Args) : Prop :=
  Args.stripSlashes args.apiUrl = [] ∧ args.apiKey = [] ∨
    ("https://".toList <+: Args.stripSlashes args.apiUrl ∨
      "http://".toList <+: Args.stripSlashes args.apiUrl) ∧ args.apiKey ≠ []

/-- The conditions of `--use-cloudflare`. -/
def CloudflareAccepted (args : Args) : Prop :=
  args.useCloudflare = true → args.apiUrl ≠ [] ∧ isWorkerId args.uid = true ∧
    (∀ room ∈ args.cloudflareRooms, isWorkerId room = true) ∧ args.cloudflareRooms ≠ [] ∧
    args.cloudflareRooms.dedup.length ≤ kMaxCloudflareRooms

/-- The rooms that are joined, from those that were given. -/
structure JoinedRooms (given rooms : List (List Char)) : Prop where
  nodup : rooms.Nodup
  ne_nil : rooms ≠ []
  length_le : rooms.length ≤ kMaxCloudflareRooms
  sublist : List.Sublist rooms given
  mem_iff : ∀ room, room ∈ rooms ↔ room ∈ given
  workerId : ∀ room ∈ rooms, isWorkerId room = true

/-- **The options are right.** -/
structure Acceptable (build : Build) (args : Args) : Prop where
  scalabilityMode : args.scalabilityMode = "" ∨
    build.knownScalabilityMode args.scalabilityMode = true
  recordSource : args.recordSource ∈ streamSourceTable.map Prod.fst
  webrtcSource : args.webrtcSource ∈ streamSourceTable.map Prod.fst
  uid : args.uid ≠ []
  api : ApiAccepted args
  cloudflare : CloudflareAccepted { args with apiUrl := Args.stripSlashes args.apiUrl }
  mqtt : args.useMqtt = true → args.mqttHost ≠ ""
  livekit : args.useLivekit = true → args.livekitUrl ≠ [] ∧
    (∃ u, parseWsUrl args.livekitUrl = .ok u) ∧ args.livekitRoom ≠ ""
  stunUrl : args.stunUrl = [] ∨ "stun".toList <+: args.stunUrl
  turnUrl : args.turnUrl = [] ∨ "turn".toList <+: args.turnUrl
  recordPath : args.recordPath = [] ∨ args.recordPath.head? = some '/'
  controls : build.useLibcameraCapture = true → ControlsAcceptable build.floats args.controls
  recordType : args.recordTypeStr ∈ recordTypeTable.map Prod.fst
  recordMode : args.recordModeStr ∈ recordModeTable.map Prod.fst
  camera : CameraAccepted build args

/-- **What the rest of the program counts on**, of the options `args'` that were accepted as
    `args`. -/
structure WellFormed (build : Build) (args args' : Args) : Prop where
  numStreams : args'.numStreams = args.numStreams + if HasSubStream args then 1 else 0
  recordStreamIdx : args'.recordStreamIdx =
    if HasSubStream args ∧ args.recordSource = "sub" then 1 else 0
  liveStreamIdx : args'.liveStreamIdx =
    if HasSubStream args ∧ args.webrtcSource = "sub" then 1 else 0
  subStream : HasSubStream args → args'.subWidth ≤ args'.width ∧ args'.subHeight ≤ args'.height
  apiUrl : args'.apiUrl.getLast? ≠ some '/'
  apiKey : args'.apiUrl = [] ↔ args'.apiKey = []
  rooms : args'.useCloudflare = true → JoinedRooms args.cloudflareRooms args'.cloudflareRooms
  livekit : args'.useLivekit = true →
    ∃ u, args'.livekit = some u ∧ parseWsUrl args.livekitUrl = .ok u
  recordPath : args'.recordPath = [] ∨
    args'.recordPath.head? = some '/' ∧ args'.recordPath.getLast? = some '/'
  recordOndemandPath : args'.recordOndemandPath = [] ∨
    args'.recordOndemandPath.getLast? = some '/'
  onDemand : args'.recordMode ≠ 0 → args'.recordPath ≠ [] → args'.recordOndemandPath ≠ []
  controls : build.useLibcameraCapture = true →
    ControlsSet build.floats args.controls args'.controls
  enableIpc : args'.enableGamepad = true → args'.enableIpc = true
  jpegQuality : 0 ≤ args'.jpegQuality ∧ args'.jpegQuality ≤ 100
  latencyTraceInterval : 1 ≤ args'.latencyTraceInterval ∧ args'.latencyTraceInterval ≤ 3600
  playoutDelay : 0 ≤ args'.maxPlayoutDelayMs → 0 ≤ args'.minPlayoutDelayMs ∧
    args'.minPlayoutDelayMs ≤ args'.maxPlayoutDelayMs ∧
    args'.maxPlayoutDelayMs ≤ build.kMaxPlayoutDelayMs
  rtsp : args'.cameraSource = .rtsp ↔
    "rtsp://".toList <+: args.camera ∨ "rtsps://".toList <+: args.camera

section Checks

/-- Two texts that are looked up one after the other. -/
theorem parseEnum_pair {α β γ : Type} (ta : List (String × α)) (tb : List (String × β))
    (a b : String) (f : α → β → γ) :
    Checked ((parseEnum ta a).bind fun x => (parseEnum tb b).bind fun y => .ok (f x y))
      (a ∈ ta.map Prod.fst ∧ b ∈ tb.map Prod.fst)
      fun r => ∃ x y, (a, x) ∈ ta ∧ (b, y) ∈ tb ∧ r = f x y := by
  refine Checked.bind (parseEnum_cases ta a) ?_
  intro x hx
  exact (parseEnum_cases tb b).map (f x) fun y hy => ⟨x, y, hx, hy, rfl⟩

theorem checkScalabilityMode_cases (build : Build) (args : Args) :
    Checked (args.checkScalabilityMode build)
      (args.scalabilityMode = "" ∨ build.knownScalabilityMode args.scalabilityMode = true)
      (· = args) := by
  unfold Args.checkScalabilityMode
  split_ifs with h
  · exact .inr ⟨not_or.mpr h, _, rfl⟩
  · exact .inl ⟨or_iff_not_imp_left.mpr fun hne => not_not.mp fun hknown => h ⟨hne, hknown⟩, _, rfl,
      rfl⟩

/-- The stream that a consumer reads from. -/
theorem streamIdx_eq {str : String} {idx : ℤ} (h : (str, idx) ∈ streamSourceTable) :
    idx = if str = "sub" then 1 else 0 := by
  rcases List.mem_cons.mp h with heq | h
  · cases heq
    rfl
  · cases List.mem_singleton.mp h
    rfl

/-- What `setStreams` sets when there is a sub stream. -/
theorem subStream_cases {args : Args} (hsub : HasSubStream args) (w h : ℤ)
    (hw : w ≤ args.width) (hh : h ≤ args.height) :
    Checked
      ((parseEnum streamSourceTable args.recordSource).bind fun recordStreamIdx =>
        (parseEnum streamSourceTable args.webrtcSource).bind fun liveStreamIdx =>
          .ok { args with
            subWidth := w, subHeight := h, numStreams := args.numStreams + 1,
            recordStreamIdx := recordStreamIdx, liveStreamIdx := liveStreamIdx })
      (args.recordSource ∈ streamSourceTable.map Prod.fst ∧
        args.webrtcSource ∈ streamSourceTable.map Prod.fst)
      (StreamsSet args) := by
  refine (parseEnum_pair streamSourceTable streamSourceTable args.recordSource args.webrtcSource
    _).mono ?_
  rintro _ ⟨r, l, hr, hl, rfl⟩
  refine ⟨_, _, _, _, _, rfl, ?_, ?_, ?_, fun _ => ⟨hw, hh⟩⟩
  · rw [if_pos hsub]
  · rw [streamIdx_eq hr]
    exact if_congr (and_iff_right hsub).symm rfl rfl
  · rw [streamIdx_eq hl]
    exact if_congr (and_iff_right hsub).symm rfl rfl

/-- The consumers read from the streams that they asked for. -/
theorem setStreams_cases (args : Args) :
    Checked args.setStreams (args.recordSource ∈ streamSourceTable.map Prod.fst ∧
        args.webrtcSource ∈ streamSourceTable.map Prod.fst) (StreamsSet args) := by
  unfold Args.setStreams
  dsimp only
  split_ifs with hsub hbig
  · exact subStream_cases hsub _ _ (le_refl _) (le_refl _)
  · exact subStream_cases hsub _ _ (Int.not_lt.mp fun h => hbig (.inl h))
      (Int.not_lt.mp fun h => hbig (.inr h))
  · refine (parseEnum_pair streamSourceTable streamSourceTable args.recordSource args.webrtcSource
      fun _ _ => ({ args with recordStreamIdx := 0, liveStreamIdx := 0 } : Args)).mono ?_
    rintro _ ⟨-, -, -, -, rfl⟩
    refine ⟨_, _, _, _, _, rfl, ?_, ?_, ?_, fun h => absurd h hsub⟩
    · rw [if_neg hsub, add_zero]
    · rw [if_neg fun h => hsub h.1]
    · rw [if_neg fun h => hsub h.1]

/-- The first room of each name is joined. -/
theorem joinRooms_cases (taken rooms : List (List Char)) :
    (∀ room ∈ rooms, isWorkerId room = true) ∧
        (∃ added, Args.joinRooms taken rooms = .ok (taken ++ added) ∧ List.Sublist added rooms ∧
          added.Nodup ∧ ∀ room, room ∈ added ↔ room ∈ rooms ∧ room ∉ taken) ∨
      ¬ (∀ room ∈ rooms, isWorkerId room = true) ∧ ∃ e, Args.joinRooms taken rooms = .error e := by
  induction rooms generalizing taken with
  | nil =>
    refine .inl ⟨fun room hroom => absurd hroom List.not_mem_nil, [], ?_, .slnil, List.nodup_nil,
      fun room => ⟨fun h => absurd h List.not_mem_nil, fun h => absurd h.1 List.not_mem_nil⟩⟩
    rw [List.append_nil]
    rfl
  | cons room rest ih =>
    unfold Args.joinRooms
    split_ifs with hid hmem
    · -- a room that was joined before
      rcases ih taken with ⟨hall, added, heq, hsub, hnodup, hiff⟩ | ⟨hall, e, heq⟩
      · refine .inl ⟨List.forall_mem_cons.mpr ⟨hid, hall⟩, added, heq, hsub.cons room, hnodup,
          fun r => ?_⟩
        rw [hiff, List.mem_cons]
        refine ⟨fun h => ⟨.inr h.1, h.2⟩, fun h => ⟨h.1.resolve_left fun heq => ?_, h.2⟩⟩
        exact h.2 (heq ▸ hmem)
      · exact .inr ⟨fun h => hall (List.forall_mem_cons.mp h).2, e, heq⟩
    · -- a new room
      rcases ih (taken ++ [room]) with ⟨hall, added, heq, hsub, hnodup, hiff⟩ | ⟨hall, e, heq⟩
      · refine .inl ⟨List.forall_mem_cons.mpr ⟨hid, hall⟩, room :: added, ?_, hsub.cons_cons room,
          ?_, fun r => ?_⟩
        · rw [heq, List.append_assoc, List.singleton_append]
        · refine List.nodup_cons.mpr ⟨fun h => ?_, hnodup⟩
          exact ((hiff room).mp h).2 (List.mem_append_right _ (List.mem_singleton.mpr rfl))
        · rw [List.mem_cons, hiff, List.mem_cons, List.mem_append, List.mem_singleton, not_or]
          constructor
          · rintro (rfl | ⟨hr, hnot, -⟩)
            · exact ⟨.inl rfl, hmem⟩
            · exact ⟨.inr hr, hnot⟩
          · rintro ⟨rfl | hr, hnot⟩
            · exact .inl rfl
            · exact or_iff_not_imp_left.mpr fun hne => ⟨hr, hnot, hne⟩
      · exact .inr ⟨fun h => hall (List.forall_mem_cons.mp h).2, e, heq⟩
    · exact .inr ⟨fun h => hid (List.forall_mem_cons.mp h).1, _, rfl⟩

example : Args.joinRooms [] [['a'], ['b', '-'], ['a']] = .ok [['a'], ['b', '-']] := by
  rfl

theorem checkUid_cases (args : Args) :
    Checked args.checkUid (args.uid ≠ []) (· = args) := by
  unfold Args.checkUid
  split_ifs with h
  · exact .inr ⟨not_not.mpr h, _, rfl⟩
  · exact .inl ⟨h, _, rfl, rfl⟩

theorem last_stripSlashes (url : List Char) : (Args.stripSlashes url).getLast? ≠ some '/' := by
  intro hlast
  have hne : Args.stripSlashes url ≠ [] := by
    intro hnil
    rw [hnil] at hlast
    cases hlast
  rw [List.getLast?_eq_some_getLast hne, Option.some.injEq] at hlast
  exact List.rdropWhile_last_not (· = '/') url hne (decide_eq_true hlast)

theorem checkApi_cases (args : Args) :
    Checked args.checkApi (ApiAccepted args) fun args' =>
      args' = { args with apiUrl := Args.stripSlashes args.apiUrl } ∧
        (Args.stripSlashes args.apiUrl = [] ↔ args.apiKey = []) := by
  unfold Args.checkApi ApiAccepted
  dsimp only
  split_ifs with hnil hkey hscheme hkey
  · refine .inr ⟨?_, _, rfl⟩
    rintro (⟨-, hnokey⟩ | ⟨hfull, -⟩)
    · exact hkey hnokey
    · rw [hnil] at hfull
      rcases hfull with h | h <;> cases List.prefix_nil.mp h
  · exact .inl ⟨.inl ⟨hnil, not_not.mp hkey⟩, _, rfl, rfl, iff_of_true hnil (not_not.mp hkey)⟩
  · exact .inr ⟨fun h => h.elim (fun h => hnil h.1) fun h => h.1.elim hscheme.1 hscheme.2, _, rfl⟩
  · exact .inr ⟨fun h => h.elim (fun h => hnil h.1) fun h => h.2 hkey, _, rfl⟩
  · exact .inl ⟨.inr ⟨or_iff_not_and_not.mpr hscheme, hkey⟩, _, rfl, rfl, iff_of_false hnil hkey⟩

theorem checkCloudflare_cases (args : Args) :
    Checked args.checkCloudflare (CloudflareAccepted args) fun args' =>
      ∃ rooms, args' = { args with cloudflareRooms := rooms } ∧
        (args.useCloudflare = true → JoinedRooms args.cloudflareRooms rooms) := by
  unfold Args.checkCloudflare CloudflareAccepted
  split_ifs with huse hurl hid
  · exact .inr ⟨fun h => (h huse).1 hurl, _, rfl⟩
  · rcases joinRooms_cases [] args.cloudflareRooms with
      ⟨hall, added, heq, hsub, hnodup, hiff⟩ | ⟨hall, e, heq⟩
    · have hmem : ∀ room, room ∈ added ↔ room ∈ args.cloudflareRooms := fun room =>
        (hiff room).trans (and_iff_left List.not_mem_nil)
      have hlength : added.length = args.cloudflareRooms.dedup.length := by
        refine List.Perm.length_eq ((List.perm_ext_iff_of_nodup hnodup (List.nodup_dedup _)).mpr ?_)
        exact fun room => (hmem room).trans List.mem_dedup.symm
      have hnil : added = [] ↔ args.cloudflareRooms = [] := by
        rw [List.eq_nil_iff_forall_not_mem, List.eq_nil_iff_forall_not_mem]
        exact forall_congr' fun room => not_congr (hmem room)
      rw [heq, List.nil_append]
      -- the number of rooms that are joined is the number of names that were given
      show Checked (if added = [] then _ else _) _ _
      split_ifs with hempty hmany
      · exact .inr ⟨fun h => (h huse).2.2.2.1 (hnil.mp hempty), _, rfl⟩
      · rw [hlength] at hmany
        exact .inr ⟨fun h => absurd hmany (Nat.not_lt.mpr (h huse).2.2.2.2), _, rfl⟩
      · have hle := Nat.le_of_not_lt hmany
        refine .inl ⟨fun _ => ⟨hurl, hid, hall, fun h => hempty (hnil.mpr h), hlength ▸ hle⟩,
          _, rfl, added, rfl, fun _ => ⟨hnodup, hempty, hle, hsub, hmem, fun room hroom => ?_⟩⟩
        exact hall room ((hmem room).mp hroom)
    · refine .inr ⟨fun h => hall (h huse).2.2.1, e, ?_⟩
      rw [heq]
      rfl
  · exact .inr ⟨fun h => hid (h huse).2.1, _, rfl⟩
  · exact .inl ⟨fun h => absurd h huse, _, rfl, args.cloudflareRooms, rfl, fun h => absurd h huse⟩

theorem checkMqtt_cases (args : Args) :
    Checked args.checkMqtt (args.useMqtt = true → args.mqttHost ≠ "") (· = args) := by
  unfold Args.checkMqtt
  split_ifs with h
  · exact .inr ⟨fun himp => himp h.1 h.2, _, rfl⟩
  · exact .inl ⟨fun huse hhost => h ⟨huse, hhost⟩, _, rfl, rfl⟩

/-- The conditions of `--use-livekit`. -/
theorem checkLivekit_cases (args : Args) :
    Checked args.checkLivekit (args.useLivekit = true → args.livekitUrl ≠ [] ∧
        (∃ u, parseWsUrl args.livekitUrl = .ok u) ∧ args.livekitRoom ≠ "")
      fun args' => ∃ livekit, args' = { args with livekit := livekit } ∧
        (args.useLivekit = true → ∃ u, livekit = some u ∧ parseWsUrl args.livekitUrl = .ok u) := by
  unfold Args.checkLivekit
  cases hparse : parseWsUrl args.livekitUrl with
  | error reason =>
    dsimp only
    split_ifs with huse hurl
    · exact .inr ⟨fun h => (h huse).1 hurl, _, rfl⟩
    · refine .inr ⟨fun h => ?_, _, rfl⟩
      obtain ⟨u, hu⟩ := (h huse).2.1
      cases hu
    · exact .inl ⟨fun h => absurd h huse, _, rfl, args.livekit, rfl, fun h => absurd h huse⟩
  | ok u =>
    dsimp only
    split_ifs with huse hurl hroom
    · exact .inr ⟨fun h => (h huse).1 hurl, _, rfl⟩
    · exact .inr ⟨fun h => (h huse).2.2 hroom, _, rfl⟩
    · exact .inl ⟨fun _ => ⟨hurl, ⟨u, rfl⟩, hroom⟩, _, rfl, some u, rfl, fun _ => ⟨u, rfl, rfl⟩⟩
    · exact .inl ⟨fun h => absurd h huse, _, rfl, args.livekit, rfl, fun h => absurd h huse⟩

/-- The first four characters of an url. -/
theorem take_ne_iff {url scheme : List Char} (hlength : scheme.length = 4) :
    ¬ (url ≠ [] ∧ url.take 4 ≠ scheme) ↔ url = [] ∨ scheme <+: url := by
  rw [List.prefix_iff_eq_take, hlength, not_and_or, not_not, not_not, @eq_comm _ scheme]

theorem checkIceUrls_cases (args : Args) :
    Checked args.checkIceUrls ((args.stunUrl = [] ∨ "stun".toList <+: args.stunUrl) ∧
      (args.turnUrl = [] ∨ "turn".toList <+: args.turnUrl)) (· = args) := by
  rw [← @take_ne_iff _ "stun".toList rfl, ← @take_ne_iff _ "turn".toList rfl]
  unfold Args.checkIceUrls
  split_ifs with hstun hturn
  · exact .inr ⟨fun h => h.1 hstun, _, rfl⟩
  · exact .inr ⟨fun h => h.2 hturn, _, rfl⟩
  · exact .inl ⟨⟨hstun, hturn⟩, _, rfl, rfl⟩

/-- A directory's path. -/
theorem endSlash_cases (path : List Char) :
    path = [] ∧ Args.endSlash path = [] ∨
      path ≠ [] ∧ (Args.endSlash path).head? = path.head? ∧
        (Args.endSlash path).getLast? = some '/' := by
  unfold Args.endSlash
  split_ifs with h
  · refine .inr ⟨h.1, ?_, ?_⟩
    · rw [List.head?_append_of_ne_nil _ h.1]
    · rw [List.getLast?_concat]
  · by_cases hnil : path = []
    · exact .inl ⟨hnil, hnil⟩
    · exact .inr ⟨hnil, rfl, not_not.mp fun hlast => h ⟨hnil, hlast⟩⟩

theorem endSlash_eq_nil_iff {path : List Char} : Args.endSlash path = [] ↔ path = [] := by
  rcases endSlash_cases path with ⟨hpath, hnil⟩ | ⟨hpath, -, hlast⟩
  · exact iff_of_true hnil hpath
  · refine iff_of_false (fun hnil => ?_) hpath
    rw [hnil] at hlast
    cases hlast

theorem setRecordPath_cases (args : Args) :
    Checked args.setRecordPath (args.recordPath = [] ∨ args.recordPath.head? = some '/')
      fun args' => args' = { args with recordPath := Args.endSlash args.recordPath } ∧
        (Args.endSlash args.recordPath = [] ∨
          (Args.endSlash args.recordPath).head? = some '/' ∧
            (Args.endSlash args.recordPath).getLast? = some '/') := by
  unfold Args.setRecordPath
  split_ifs with h
  · exact .inr ⟨not_or.mpr h, _, rfl⟩
  · have hpath : args.recordPath = [] ∨ args.recordPath.head? = some '/' :=
      or_iff_not_and_not.mpr h
    refine .inl ⟨hpath, _, rfl, rfl, ?_⟩
    rcases endSlash_cases args.recordPath with ⟨-, hnil⟩ | ⟨hne, hhead, hlast⟩
    · exact .inl hnil
    · exact .inr ⟨hhead.trans (hpath.resolve_left hne), hlast⟩

theorem setCameraControls_cases (build : Build) (args : Args) :
    Checked (args.setCameraControls build)
      (build.useLibcameraCapture = true → ControlsAcceptable build.floats args.controls)
      fun args' => ∃ controls, args' = { args with controls := controls } ∧
        (build.useLibcameraCapture = true →
          ControlsSet build.floats args.controls controls) := by
  unfold Args.setCameraControls
  split_ifs with hbuild
  · have hset := (setControls_cases build.floats args.controls).congr
      ⟨fun h _ => h, fun h => h hbuild⟩
    exact hset.map _ fun controls hcontrols => ⟨controls, rfl, fun _ => hcontrols⟩
  · exact .inl ⟨fun h => absurd h hbuild, _, rfl, _, rfl, fun h => absurd h hbuild⟩

theorem clamp_mem {v lo hi : ℤ} (h : lo ≤ hi) : lo ≤ clamp v lo hi ∧ clamp v lo hi ≤ hi := by
  unfold clamp
  split_ifs <;> omega

/-- The options with a range are in it. -/
theorem clampValues_cases (build : Build) (args : Args) :
    ∃ enableIpc jpegQuality interval minDelay maxDelay,
      args.clampValues build = { args with
        enableIpc := enableIpc, jpegQuality := jpegQuality, latencyTraceInterval := interval,
        minPlayoutDelayMs := minDelay, maxPlayoutDelayMs := maxDelay } ∧
      (args.enableGamepad = true → enableIpc = true) ∧
      (0 ≤ jpegQuality ∧ jpegQuality ≤ 100) ∧ (1 ≤ interval ∧ interval ≤ 3600) ∧
      (0 ≤ maxDelay →
        0 ≤ minDelay ∧ minDelay ≤ maxDelay ∧ maxDelay ≤ build.kMaxPlayoutDelayMs) := by
  have hipc : args.enableGamepad = true → (args.enableIpc || args.enableGamepad) = true := by
    intro h
    rw [h, Bool.or_true]
  unfold Args.clampValues
  dsimp only
  split_ifs with hdelay
  · refine ⟨_, _, _, _, _, rfl, hipc, clamp_mem (by decide), clamp_mem (by decide), fun _ => ?_⟩
    obtain ⟨hlo, hhi⟩ := @clamp_mem args.maxPlayoutDelayMs 0 build.kMaxPlayoutDelayMs
      (Int.natCast_nonneg _)
    obtain ⟨hlo', hhi'⟩ := @clamp_mem args.minPlayoutDelayMs 0 _ hlo
    exact ⟨hlo', hhi', hhi⟩
  · exact ⟨_, _, _, _, _, rfl, hipc, clamp_mem (by decide), clamp_mem (by decide),
      fun h => absurd h hdelay⟩

/-- On-demand recordings have a directory. -/
theorem setRecord_cases (args : Args) :
    Checked args.setRecord (args.recordTypeStr ∈ recordTypeTable.map Prod.fst ∧
        args.recordModeStr ∈ recordModeTable.map Prod.fst) fun args' =>
      ∃ recordType recordMode path,
        args' = { args with
          recordType := recordType, recordMode := recordMode, recordOndemandPath := path } ∧
        (path = [] ∨ path.getLast? = some '/') ∧
        (recordMode ≠ 0 → args.recordPath ≠ [] → path ≠ []) := by
  unfold Args.setRecord
  refine (parseEnum_pair recordTypeTable recordModeTable args.recordTypeStr args.recordModeStr
    _).mono ?_
  rintro _ ⟨recordType, recordMode, -, -, rfl⟩
  refine ⟨recordType, recordMode, _, rfl, ?_, ?_⟩
  · rcases endSlash_cases _ with ⟨-, hnil⟩ | ⟨-, -, hlast⟩
    · exact .inl hnil
    · exact .inr hlast
  · intro hmode hpath hnil
    rw [endSlash_eq_nil_iff] at hnil
    split_ifs at hnil with h
    · exact hpath (List.append_eq_nil_iff.mp hnil).1
    · exact h ⟨hmode, hnil, hpath⟩

/-- The type and the number of a camera are what stands on both sides of the first colon. -/
theorem camera_split {camera type id : List Char} (h : camera = type ++ ':' :: id)
    (htype : ':' ∉ type) :
    camera.takeWhile (· ≠ ':') = type ∧ (camera.dropWhile (· ≠ ':')).tail = id := by
  have hne : ∀ c ∈ type, decide (c ≠ ':') = true := fun c hc =>
    decide_eq_true fun heq : c = ':' => htype (heq ▸ hc)
  rw [h, List.takeWhile_append_of_pos hne, List.dropWhile_append_of_pos hne]
  exact ⟨List.append_nil _, rfl⟩

theorem camera_eq {camera : List Char} (hcolon : ':' ∈ camera) :
    camera = camera.takeWhile (· ≠ ':') ++ ':' :: (camera.dropWhile (· ≠ ':')).tail ∧
      ':' ∉ camera.takeWhile (· ≠ ':') := by
  obtain ⟨rest, hrest⟩ := exists_dropWhile_ne hcolon
  constructor
  · rw [hrest, List.tail_cons, ← hrest, List.takeWhile_append_dropWhile]
  · intro hmem
    have hc := List.mem_takeWhile_imp hmem
    exact absurd rfl (of_decide_eq_true hc)

/-- A camera of one of the types. -/
theorem setCamera_cases (build : Build) (args : Args) (type id : List Char) :
    Checked (args.setCamera build type id) ((∃ n, stoi id = .ok n) ∧ CameraType build args type)
      fun args' => ∃ cameraSource cameraId format,
        args' = { args with
          cameraSource := cameraSource, cameraId := cameraId, format := format } ∧
        cameraSource ≠ .rtsp := by
  unfold Args.setCamera
  cases hstoi : stoi id with
  | error e =>
    refine .inr ⟨?_, _, rfl⟩
    rintro ⟨⟨n, hn⟩, -⟩
    cases hn
  | ok n =>
    dsimp only
    -- the types exclude each other; each is refused where the build does not have it
    by_cases hlibcamera : type = "libcamera".toList
    · rw [if_pos hlibcamera]
      split_ifs with hbuild
      · exact .inl ⟨⟨⟨n, rfl⟩, .inl ⟨hlibcamera, hbuild⟩⟩, _, rfl, _, _, _, rfl, by rintro ⟨⟩⟩
      all_goals
        refine .inr ⟨?_, _, rfl⟩
        rintro ⟨-, ⟨-, h⟩ | ⟨h, -⟩ | ⟨h, -⟩⟩
        · exact hbuild h
        · exact absurd (hlibcamera.symm.trans h) (by decide)
        · exact absurd (hlibcamera.symm.trans h) (by decide)
    rw [if_neg hlibcamera]
    by_cases hlibargus : type = "libargus".toList
    · rw [if_pos hlibargus]
      split_ifs with hbuild
      · exact .inl ⟨⟨⟨n, rfl⟩, .inr (.inl ⟨hlibargus, hbuild⟩)⟩, _, rfl, _, _, _, rfl, by rintro ⟨⟩⟩
      all_goals
        refine .inr ⟨?_, _, rfl⟩
        rintro ⟨-, ⟨h, -⟩ | ⟨-, h⟩ | ⟨h, -⟩⟩
        · exact hlibcamera h
        · exact hbuild h
        · exact absurd (hlibargus.symm.trans h) (by decide)
    rw [if_neg hlibargus]
    by_cases hv4l2 : type = "v4l2".toList
    · rw [if_pos hv4l2]
      rcases parseEnum_cases v4l2FmtTable args.v4l2Format with
        ⟨hmem, format, heq, -⟩ | ⟨hmem, e, heq⟩
      · rw [heq]
        exact .inl ⟨⟨⟨n, rfl⟩, .inr (.inr ⟨hv4l2, hmem⟩)⟩, _, rfl, _, _, _, rfl, by rintro ⟨⟩⟩
      · rw [heq]
        refine .inr ⟨?_, e, rfl⟩
        rintro ⟨-, ⟨h, -⟩ | ⟨h, -⟩ | ⟨-, h⟩⟩
        · exact hlibcamera h
        · exact hlibargus h
        · exact hmem h
    · rw [if_neg hv4l2]
      refine .inr ⟨?_, _, rfl⟩
      rintro ⟨-, ⟨h, -⟩ | ⟨h, -⟩ | ⟨h, -⟩⟩
      · exact hlibcamera h
      · exact hlibargus h
      · exact hv4l2 h

/-- The camera that is used. -/
theorem parseDevice_cases (build : Build) (args : Args) :
    Checked (args.parseDevice build) (CameraAccepted build args) fun args' =>
      ∃ cameraSource cameraId format,
        args' = { args with
          cameraSource := cameraSource, cameraId := cameraId, format := format } ∧
        (cameraSource = .rtsp ↔
          "rtsp://".toList <+: args.camera ∨ "rtsps://".toList <+: args.camera) := by
  unfold Args.parseDevice CameraAccepted
  split_ifs with hrtsp hcolon
  · exact .inl ⟨hrtsp.elim .inl fun h => .inr (.inl h), _, rfl, .rtsp, args.cameraId, args.format,
      rfl, iff_of_true rfl hrtsp⟩
  · -- however the camera is split at a colon behind its type, that is the first one
    obtain ⟨hcamera, htype⟩ := camera_eq hcolon
    rcases setCamera_cases build args (args.camera.takeWhile (· ≠ ':'))
      (args.camera.dropWhile (· ≠ ':')).tail with
      ⟨⟨⟨n, hn⟩, haccepted⟩, _, heq, source, cameraId, format, rfl, hsource⟩ | ⟨hrejected, e, heq⟩
    · exact .inl ⟨.inr (.inr ⟨_, _, n, hcamera, htype, hn, haccepted⟩), _, heq, source, cameraId,
        format, rfl, iff_of_false hsource hrtsp⟩
    · refine .inr ⟨?_, e, heq⟩
      rintro (h | h | ⟨type, id, n, hcamera', htype', hn, haccepted⟩)
      · exact hrtsp (.inl h)
      · exact hrtsp (.inr h)
      · obtain ⟨rfl, rfl⟩ := camera_split hcamera' htype'
        exact hrejected ⟨⟨n, hn⟩, haccepted⟩
  · refine .inr ⟨?_, _, rfl⟩
    rintro (h | h | ⟨type, id, n, heq, -⟩)
    · exact hrtsp (.inl h)
    · exact hrtsp (.inr h)
    · rw [heq] at hcolon
      exact hcolon (List.mem_append_right _ (List.mem_cons_self ..))

/-- What is set last: the options with a range, the recording and the camera. -/
theorem setLast_cases (build : Build) (args : Args) :
    Checked ((args.clampValues build).setRecord >>= fun args => args.parseDevice build)
      ((args.recordTypeStr ∈ recordTypeTable.map Prod.fst ∧
        args.recordModeStr ∈ recordModeTable.map Prod.fst) ∧ CameraAccepted build args)
      fun args' => ∃ enableIpc jpegQuality interval minDelay maxDelay recordType recordMode path
          cameraSource cameraId format,
        args' = { args with
          enableIpc := enableIpc, jpegQuality := jpegQuality, latencyTraceInterval := interval,
          minPlayoutDelayMs := minDelay, maxPlayoutDelayMs := maxDelay,
          recordType := recordType, recordMode := recordMode, recordOndemandPath := path,
          cameraSource := cameraSource, cameraId := cameraId, format := format } ∧
        (args.enableGamepad = true → enableIpc = true) ∧
        (0 ≤ jpegQuality ∧ jpegQuality ≤ 100) ∧ (1 ≤ interval ∧ interval ≤ 3600) ∧
        (0 ≤ maxDelay →
          0 ≤ minDelay ∧ minDelay ≤ maxDelay ∧ maxDelay ≤ build.kMaxPlayoutDelayMs) ∧
        (path = [] ∨ path.getLast? = some '/') ∧
        (recordMode ≠ 0 → args.recordPath ≠ [] → path ≠ []) ∧
        (cameraSource = .rtsp ↔
          "rtsp://".toList <+: args.camera ∨ "rtsps://".toList <+: args.camera) := by
  obtain ⟨enableIpc, jpegQuality, interval, minDelay, maxDelay, heq, hipc, hjpeg, hinterval,
    hdelay⟩ := clampValues_cases build args
  rw [heq]
  refine (setRecord_cases _).bind ?_
  rintro _ ⟨recordType, recordMode, path, rfl, hlast, hondemand⟩
  refine (parseDevice_cases build _).mono ?_
  rintro _ ⟨cameraSource, cameraId, format, rfl, hrtsp⟩
  exact ⟨enableIpc, jpegQuality, interval, minDelay, maxDelay, recordType, recordMode, path,
    cameraSource, cameraId, format, rfl, hipc, hjpeg, hinterval, hdelay, hlast, hondemand, hrtsp⟩

end Checks

/-- The checks, one after the other. -/
theorem parseArgs_checked (build : Build) (args : Args) :
    Checked (parseArgs build args)
      ((args.scalabilityMode = "" ∨ build.knownScalabilityMode args.scalabilityMode = true) ∧
        (args.recordSource ∈ streamSourceTable.map Prod.fst ∧
          args.webrtcSource ∈ streamSourceTable.map Prod.fst) ∧
        args.uid ≠ [] ∧ ApiAccepted args ∧
        CloudflareAccepted { args with apiUrl := Args.stripSlashes args.apiUrl } ∧
        (args.useMqtt = true → args.mqttHost ≠ "") ∧
        (args.useLivekit = true → args.livekitUrl ≠ [] ∧
          (∃ u, parseWsUrl args.livekitUrl = .ok u) ∧ args.livekitRoom ≠ "") ∧
        ((args.stunUrl = [] ∨ "stun".toList <+: args.stunUrl) ∧
          (args.turnUrl = [] ∨ "turn".toList <+: args.turnUrl)) ∧
        (args.recordPath = [] ∨ args.recordPath.head? = some '/') ∧
        (build.useLibcameraCapture = true → ControlsAcceptable build.floats args.controls) ∧
        (args.recordTypeStr ∈ recordTypeTable.map Prod.fst ∧
          args.recordModeStr ∈ recordModeTable.map Prod.fst) ∧ CameraAccepted build args)
      (WellFormed build args) := by
  -- a check sees what the earlier ones have set, and nothing that it reads was set by them but the
  -- url of the API
  refine (checkScalabilityMode_cases build args).bind ?_
  rintro _ rfl
  refine (setStreams_cases _).bind ?_
  rintro _ ⟨subWidth, subHeight, numStreams, recordIdx, liveIdx, rfl, hnum, hrecord, hlive, hsub⟩
  refine (checkUid_cases _).bind ?_
  rintro _ rfl
  refine (checkApi_cases _).bind ?_
  rintro _ ⟨rfl, hkey⟩
  refine (checkCloudflare_cases _).bind ?_
  rintro _ ⟨rooms, rfl, hrooms⟩
  refine (checkMqtt_cases _).bind ?_
  rintro _ rfl
  refine (checkLivekit_cases _).bind ?_
  rintro _ ⟨livekit, rfl, hlivekit⟩
  refine (checkIceUrls_cases _).bind ?_
  rintro _ rfl
  refine (setRecordPath_cases _).bind ?_
  rintro _ ⟨rfl, hpath⟩
  refine (setCameraControls_cases build _).bind ?_
  rintro _ ⟨controls, rfl, hcontrols⟩
  refine (setLast_cases build _).mono ?_
  rintro _ ⟨enableIpc, jpegQuality, interval, minDelay, maxDelay, recordType, recordMode, path,
    cameraSource, cameraId, format, rfl, hipc, hjpeg, hinterval, hdelay, hlast, hondemand, hrtsp⟩
  exact {
    numStreams := hnum
    recordStreamIdx := hrecord
    liveStreamIdx := hlive
    subStream := hsub
    apiUrl := last_stripSlashes _
    apiKey := hkey
    rooms := hrooms
    livekit := hlivekit
    recordPath := hpath
    recordOndemandPath := hlast
    onDemand := hondemand
    controls := hcontrols
    enableIpc := hipc
    jpegQuality := hjpeg
    latencyTraceInterval := hinterval
    playoutDelay := hdelay
    rtsp := hrtsp }

end PiWebrtc.Parser
