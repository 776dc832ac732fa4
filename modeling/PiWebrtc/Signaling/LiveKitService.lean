import PiWebrtc.Signaling.MqttMessages

namespace PiWebrtc.Signaling

open PiWebrtc.Rtc Document

/-!
# A message of the LiveKit server

The messages are objects with an `action` and a `message`, and the message of some actions is
again a JSON text.  `LiveKitService::OnMessage` catches the exception of the outer parser and
no other one.  It holds its publisher and its subscriber directly.
-/

/-- `webrtc::PeerConnectionInterface::IceServer`. -/
structure IceServer where
  urls : List String
  username : String
  password : String
  deriving DecidableEq, Repr

/-- One of the two peers of the service. -/
structure SfuPeer extends MediaPeer where
  isPublisher : Bool
  iceServer : IceServer

/-- The members of `LiveKitService` that its messages read or change: the options, whether
    there is a conductor, the two peers, what was written, and whether the socket was closed. -/
structure LiveKitService where
  uid : String
  noAudio : Bool := false
  conductor : Bool := true
  pubPeer : Option SfuPeer := none
  subPeer : Option SfuPeer := none
  written : List (String × String) := []
  disconnected : Bool := false

namespace LiveKitService

variable (lib : SdpParser) (parse : String → Option Json) (takes : IceCandidate → Bool)

/-- The members that a `join` reads. -/
def readJoin (message : String) : Option IceServer :=
  (parse message).bind fun j =>
  (j.stringsMember "urls").bind fun urls =>
  (j.stringMember "username").bind fun username =>
  (j.stringMember "credential").map fun password => ⟨urls, username, password⟩

/-- The members that `OnRemoteIce` reads: the target, and the candidate in its own text. -/
def readTrickle (message : String) : Option (String × IceCandidate) :=
  (parse message).bind fun j =>
  (j.stringMember "target").bind fun target =>
  (j.stringMember "candidateInit").bind fun candidateInit =>
  (readIce parse candidateInit).map fun ice => (target, ice)

/-- A new peer for the SFU, with its tracks. -/
def newPeer (server : IceServer) (isPublisher : Bool) : SfuPeer :=
  { backend := .liveKit, hasCandidatesInSdp := false, senders := true, isPublisher
    iceServer := server }

/-- The action `join`, when its message was read.  `pub` and `sub` tell which of the peers the
    conductor could create. -/
def join (s : LiveKitService) (server : IceServer) (pub sub : Bool) : Ending × LiveKitService :=
  let s := { s with
    pubPeer := if pub then some (newPeer server true) else none
    subPeer := if sub then some (newPeer server false) else none
    written := s.written ++ ("addVideoTrack", s.uid) ::
      (if s.noAudio then [] else [("addAudioTrack", s.uid)]) }
  match s.pubPeer with
  | some p =>
    (.returned, { s with pubPeer := some { p with toRtcPeer := p.toRtcPeer.createOffer } })
  | none => (.nullDereference, s)

/-- `SetRemoteIce` of one of the two peers. -/
def trickle (peer : Option SfuPeer) (ice : IceCandidate) : Ending × Option SfuPeer :=
  match peer with
  | some p => (.returned, some { p with toMediaPeer := p.toMediaPeer.setRemoteIce takes ice })
  | none => (.nullDereference, none)

/-- `OnRemoteIce`. -/
def onRemoteIce (s : LiveKitService) (message : String) : Ending × LiveKitService :=
  match readTrickle parse message with
  | none => (.threw, s)
  | some (target, ice) =>
    if target = "PUBLISHER" then
      ((trickle takes s.pubPeer ice).1, { s with pubPeer := (trickle takes s.pubPeer ice).2 })
    else if target = "SUBSCRIBER" then
      ((trickle takes s.subPeer ice).1, { s with subPeer := (trickle takes s.subPeer ice).2 })
    else (.returned, s)

/-- `SetRemoteSdp` of one of the two peers. -/
def describe (p : SfuPeer) (sdp sdpType : String) (applied : Bool) : SfuPeer :=
  { p with toMediaPeer := p.toMediaPeer.setRemoteSdp lib sdp sdpType applied }

/-- What `OnMessage` does once it has read the action and the message. -/
def act (s : LiveKitService) (action message : String) (pub sub applied : Bool) :
    Ending × LiveKitService :=
  if action = "join" then
    if s.conductor = false then (.returned, s)
    else
      match readJoin parse message with
      | none => (.threw, s)
      | some server => s.join server pub sub
  else if action = "offer" ∧ s.subPeer.isSome then
    (.returned,
      { s with subPeer := s.subPeer.map fun p => describe lib p message "offer" applied })
  else if action = "answer" ∧ s.pubPeer.isSome then
    (.returned,
      { s with pubPeer := s.pubPeer.map fun p => describe lib p message "answer" applied })
  else if action = "trickle" then s.onRemoteIce parse takes message
  else if action = "leave" then (.returned, { s with disconnected := true })
  else (.returned, s)

/-- `OnMessage`. -/
def onMessage (s : LiveKitService) (req : String) (pub sub applied : Bool) :
    Ending × LiveKitService :=
  match parse req with
  -- the exception of this parser is caught
  | none => (.returned, s)
  | some j =>
    match j.stringMember "action", j.stringMember "message" with
    | some action, some message => s.act lib parse takes action message pub sub applied
    | _, _ => (.threw, s)

/-! ### What the texts should be -/

/-- What the message of a `join` should be. -/
def JoinShape (message : String) : Prop :=
  ∃ j, parse message = some j ∧ j.HasStrings "urls" ∧ j.HasString "username" ∧
    j.HasString "credential"

/-- What the message of a `trickle` should be; `shape` is what its candidate should be. -/
def TrickleShape (shape : String → Prop) (message : String) : Prop :=
  ∃ j candidateInit, parse message = some j ∧ j.HasString "target" ∧
    j.Has "candidateInit" (.str candidateInit) ∧ shape candidateInit

/-- A message is as it should be. -/
def MessageShape (action message : String) : Prop :=
  (action = "join" → JoinShape parse message) ∧
    (action = "trickle" → TrickleShape parse (IceShape parse) message)

/-- A request is as it should be. -/
def RequestShape (req : String) : Prop :=
  ∃ j action message, parse req = some j ∧ j.Has "action" (.str action) ∧
    j.Has "message" (.str message) ∧ MessageShape parse action message

variable {parse}

theorem readJoin_isSome {message : String} :
    (readJoin parse message).isSome = true ↔ JoinShape parse message := by
  rw [readJoin, JoinShape]
  cases parse message with
  | none => simp
  | some j =>
    simp [← Json.stringMember_isSome, ← Json.stringsMember_isSome, Option.isSome_iff_exists,
      Option.bind_eq_some_iff]

theorem readTrickle_isSome {message : String} :
    (readTrickle parse message).isSome = true ↔
      TrickleShape parse (IceShape parse) message ∨
        TrickleShape parse (BoolIceShape parse) message := by
  have hshape : TrickleShape parse (IceShape parse) message ∨
        TrickleShape parse (BoolIceShape parse) message ↔
      TrickleShape parse (fun text => (readIce parse text).isSome = true) message := by
    simp only [TrickleShape, readIce_isSome]
    grind
  rw [hshape, readTrickle, TrickleShape]
  cases parse message with
  | none => simp
  | some j =>
    rw [Option.bind_some, Option.isSome_iff_exists]
    constructor
    · rintro ⟨r, h⟩
      obtain ⟨target, htarget, h⟩ := Option.bind_eq_some_iff.mp h
      obtain ⟨text, htext, h⟩ := Option.bind_eq_some_iff.mp h
      obtain ⟨ice, hice, -⟩ := Option.map_eq_some_iff.mp h
      exact ⟨j, text, rfl, ⟨target, Json.stringMember_eq_some.mp htarget⟩,
        Json.stringMember_eq_some.mp htext, Option.isSome_iff_exists.mpr ⟨ice, hice⟩⟩
    · rintro ⟨_, text, ⟨⟩, ⟨target, htarget⟩, htext, hread⟩
      obtain ⟨ice, hice⟩ := Option.isSome_iff_exists.mp hread
      refine ⟨(target, ice), ?_⟩
      simp [Json.stringMember_eq_some.mpr htarget, Json.stringMember_eq_some.mpr htext, hice]

end LiveKitService

end PiWebrtc.Signaling
