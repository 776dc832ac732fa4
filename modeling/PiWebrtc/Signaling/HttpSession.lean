import PiWebrtc.Signaling.PeerRegistry
import PiWebrtc.Signaling.WhepService

namespace PiWebrtc.Signaling

open Transition

/-!
# One HTTP session of the WHEP server

A session reads one request and sends one response.  Most requests are answered at once; a
POST and an ICE restart wait for the local description of a peer.  The peer's callback posts
a task with it, and the answer timer stands by in case none comes.  Whichever comes second
finds `responded_` set.

* `oneResponse_noOrphan` — no session sends two responses, and the peer of a POST is named in
  the 201 that was sent or is out of the registry when the session ends.
* `answered` — a session that has read its request does not end without its response.

The io_context has one thread, so a request, a posted task and a handler each run as a whole;
the peer's callback, the expiry of peers and the cleaner come in between at any time.  A
session lives on as long as one of its handlers or posted tasks holds it.  A response counts
as sent when it is handed to `async_write`.

Header fields that every response carries are left out, and so is what a peer does with the
descriptions and candidates it is given.
-/

/-! ### Requests and responses -/

/-- The methods that the sessions tell apart. -/
inductive HttpMethod where
  | options
  | get
  | head
  | post
  | patch
  | delete
  | other
  deriving DecidableEq, Repr

/-- A request: beside what a PATCH is checked by, its method and its target, and whether it
    has an `Access-Control-Request-Private-Network` field. -/
structure HttpRequest extends PatchRequest where
  method : HttpMethod
  target : String
  privateNetwork : Bool := false
  deriving DecidableEq, Repr

/-- `WhepTarget`: the endpoint of a stream, or a session. -/
inductive WhepTarget where
  | invalid
  | endpoint (stream : String)
  | session (peerId : String)
  deriving DecidableEq, Repr

/-- The segments of a target that are not empty, without its query. -/
def targetSegments (target : String) : List String :=
  (((target.toList.takeWhile fun c => c ≠ '?').splitOn '/').filter fun s => s ≠ []).map .ofList

/-- `WhepTarget::Parse`. -/
def WhepTarget.parse (target : String) : WhepTarget :=
  match targetSegments target with
  | [] => .endpoint ""
  | [segment] => if segment ≠ "sessions" then .endpoint segment else .invalid
  | [segment, peerId] => if segment = "sessions" then .session peerId else .invalid
  | _ => .invalid

/-- A response with the header fields of its own. -/
structure HttpResponse extends WhepResponse where
  fields : List (String × String) := []
  deriving DecidableEq, Repr

/-- The `Location` of a session. -/
def locationOf (peerId : String) : String := "/" ++ "sessions" ++ "/" ++ peerId

/-- The `Location` of a 201 leads to the peer's session. -/
theorem parse_locationOf {peerId : String} (hne : peerId ≠ "") (hslash : '/' ∉ peerId.toList)
    (hquery : '?' ∉ peerId.toList) : WhepTarget.parse (locationOf peerId) = .session peerId := by
  have hlist : (locationOf peerId).toList
      = '/' :: ("sessions".toList ++ '/' :: peerId.toList) := by
    simp [locationOf]
  have hwhole : (locationOf peerId).toList.takeWhile (fun c => c ≠ '?')
      = '/' :: ("sessions".toList ++ '/' :: peerId.toList) := by
    rw [hlist, List.takeWhile_eq_self_iff]
    intro c hc
    have hc' : c = '/' ∨ c ∈ "sessions".toList ∨ c = '/' ∨ c ∈ peerId.toList := by
      simpa only [List.mem_cons, List.mem_append] using hc
    have hsessions : '?' ∉ "sessions".toList := by decide
    rcases hc' with rfl | hc | rfl | hc
    · decide
    · simpa using fun h : c = '?' => hsessions (h ▸ hc)
    · decide
    · simpa using fun h : c = '?' => hquery (h ▸ hc)
  have hsplit : ('/' :: ("sessions".toList ++ '/' :: peerId.toList)).splitOn '/'
      = [[], "sessions".toList, peerId.toList] := by
    rw [List.splitOn_cons_eq_if_modifyHead, if_pos (by decide),
      List.splitOn_append_cons_self_of_not_mem (by decide), List.splitOn_eq_singleton hslash]
  have hsegments : targetSegments (locationOf peerId) = ["sessions", peerId] := by
    have hid : peerId.toList ≠ [] := fun h => hne (String.toList_eq_nil_iff.mp h)
    unfold targetSegments
    rw [hwhole, hsplit]
    simp [hid]
  simp [WhepTarget.parse, hsegments]

/-- `RespondCreated`. -/
def respondCreated (peerId sdp : String) : HttpResponse where
  status := 201
  contentType := some "application/sdp"
  etag := if entityTagOf sdp = "" then none else some (entityTagOf sdp)
  body := sdp
  fields := [("Location", locationOf peerId)]

/-- `RespondMethodNotAllowed`. -/
def respondMethodNotAllowed (target : WhepTarget) : HttpResponse where
  status := 405
  contentType := some "text/plain"
  body := "This method is not allowed on this path."
  fields := [("Allow",
    match target with
    | .session _ => "OPTIONS, GET, HEAD, PATCH, DELETE"
    | _ => "OPTIONS, GET, HEAD, POST")]

/-- `HandleOptionsRequest`. -/
def respondOptions (target : WhepTarget) (privateNetwork : Bool) : HttpResponse where
  status := 200
  fields :=
    [("Access-Control-Allow-Methods", "OPTIONS, GET, HEAD, POST, PATCH, DELETE"),
     ("Access-Control-Allow-Headers", "Content-Type, Authorization, If-Match"),
     ("Access-Control-Max-Age", "86400")] ++
    (match target with
    | .endpoint _ => [("Accept-Post", "application/sdp")]
    | _ => []) ++
    if privateNetwork then [("Access-Control-Allow-Private-Network", "true")] else []

/-- The answer to GET and HEAD on an endpoint. -/
def respondEndpoint : HttpResponse where
  status := 200
  contentType := some "application/sdp"
  fields := [("Link", "<urn:ietf:params:whep>; rel=\"profile\"")]

/-! ### The session -/

/-- What the sessions share: the ids of the peers, which `GenerateUuid` keeps apart, and the
    conductor, if there is one, with whether it has a video track. -/
structure WhepHost where
  idOf : ℕ → String
  idOf_injective : Function.Injective idOf
  conductor : Option Bool

/-- `ResolveStream`. -/
def WhepHost.resolveStream (host : WhepHost) (stream : String) : Option String :=
  match host.conductor with
  | none => none
  | some videoTrack => if stream = "" ∧ videoTrack then some "" else none

/-- The two callbacks that `AwaitLocalSdp` is given: those of a POST, which created a peer,
    and those of an ICE restart. -/
inductive Awaited where
  | created (p : ℕ)
  | restarted
  deriving DecidableEq, Repr

/-- The peer that waits for its 201. -/
def Awaited.peer : Awaited → Option ℕ
  | .created p => some p
  | .restarted => none

/-- `answer_timer_`: nobody waits for it, its wait is pending, or the wait's handler is
    queued, with or without `operation_aborted`. -/
inductive AnswerTimer where
  | idle
  | pending (awaited : Awaited)
  | queued (awaited : Awaited) (aborted : Bool)
  deriving DecidableEq, Repr

/-- `cancel()`: it does not reach a handler that is queued already. -/
def AnswerTimer.cancel : AnswerTimer → AnswerTimer
  | .pending awaited => .queued awaited true
  | timer => timer

/-- Where a session is with its request. -/
inductive RequestPhase where
  | reading
  | failed
  | handled
  deriving DecidableEq, Repr

/-- The service's registry with the peers that have expired and the number of the next peer,
    and one session: its callback at a peer, the tasks posted by that callback, and the
    number of writes that go on.  `sent` and `created` are history. -/
structure HttpSession where
  registry : PeerRegistry := {}
  expired : List ℕ := []
  nextPeer : ℕ := 0
  phase : RequestPhase := .reading
  responded : Bool := false
  timer : AnswerTimer := .idle
  callback : Option Awaited := none
  posts : List (Awaited × String) := []
  writes : ℕ := 0
  sent : List HttpResponse := []
  created : Option ℕ := none
  deriving DecidableEq, Repr

namespace HttpSession

/-- Nothing holds the session any more. -/
def ended (s : HttpSession) : Bool :=
  s.phase ≠ .reading ∧ s.timer = .idle ∧ s.posts = [] ∧ s.writes = 0

/-- `Send`. -/
def send (s : HttpSession) (res : HttpResponse) : HttpSession :=
  { s with
    responded := true
    timer := s.timer.cancel
    sent := s.sent ++ [res]
    writes := s.writes + 1 }

/-- `RespondError`. -/
def respondError (s : HttpSession) (status : ℕ) (message : String) : HttpSession :=
  s.send { Signaling.respondError status message with }

/-- The peer of an id in the registry's map. -/
def findPeer (s : HttpSession) (host : WhepHost) (peerId : String) : Option ℕ :=
  s.registry.peers.find? fun p => host.idOf p = peerId

/-- `GetPeer`. -/
def getPeer (s : HttpSession) (host : WhepHost) (peerId : String) : Option ℕ :=
  (s.findPeer host peerId).bind (s.registry.get (· ∈ s.expired))

/-- `RemovePeer`; a peer that was in the map is terminated. -/
def removePeer (s : HttpSession) (host : WhepHost) (peerId : String) : HttpSession :=
  match s.findPeer host peerId with
  | none => s
  | some p => { s with registry := s.registry.remove p, expired := p :: s.expired }

/-- `AwaitLocalSdp`. -/
def awaitLocalSdp (s : HttpSession) (awaited : Awaited) : HttpSession :=
  { s with callback := some awaited, timer := .pending awaited }

/-- `HandlePostRequest`; `made` tells whether the conductor makes a peer connection. -/
def handlePost (s : HttpSession) (host : WhepHost) (req : HttpRequest) (made : Bool) :
    HttpSession :=
  if mediaTypeOf req.contentType ≠ "application/sdp" then
    s.respondError 415 "The offer must be sent with Content-Type `application/sdp`."
  else if host.conductor = none ∨ made = false then
    s.respondError 500 "Failed to create the peer connection."
  else
    { s with
      registry := s.registry.add s.nextPeer
      nextPeer := s.nextPeer + 1
      created := some s.nextPeer }.awaitLocalSdp (.created s.nextPeer)

/-- `HandlePatchRequest`; `localSdp` is the peer's local description, and `restarted` the
    result of `RestartIce`. -/
def handlePatch (s : HttpSession) (req : HttpRequest) (localSdp : String) (restarted : Bool) :
    HttpSession :=
  match checkPatch req.toPatchRequest localSdp with
  | .respond res => s.send { res with }
  | .trickle _ => s.send { status := 204 }
  | .restart _ =>
    if restarted then s.awaitLocalSdp .restarted
    else (s.awaitLocalSdp .restarted).respondError 422 "The ICE restart failed."

/-- `HandleDeleteRequest`. -/
def handleDelete (s : HttpSession) (host : WhepHost) (peerId : String) : HttpSession :=
  (s.removePeer host peerId).send { status := 200 }

/-- `HandleEndpointRequest`. -/
def handleEndpoint (s : HttpSession) (host : WhepHost) (req : HttpRequest) (stream : String)
    (made : Bool) : HttpSession :=
  match host.resolveStream stream with
  | none => s.respondError 404 "No camera is published at this path."
  | some _ =>
    match req.method with
    | .post => s.handlePost host req made
    | .get | .head => s.send respondEndpoint
    | _ => s.send (respondMethodNotAllowed (.endpoint stream))

/-- `HandleSessionRequest`. -/
def handleSession (s : HttpSession) (host : WhepHost) (req : HttpRequest) (peerId : String)
    (localSdp : String) (restarted : Bool) : HttpSession :=
  match s.getPeer host peerId with
  | none => s.respondError 404 "The WHEP session does not exist."
  | some _ =>
    match req.method with
    | .patch => s.handlePatch req localSdp restarted
    | .delete => s.handleDelete host peerId
    | .get | .head => s.send { status := 204 }
    | _ => s.send (respondMethodNotAllowed (.session peerId))

/-- `HandleRequest`. -/
def handleRequest (s : HttpSession) (host : WhepHost) (req : HttpRequest) (made : Bool)
    (localSdp : String) (restarted : Bool) : HttpSession :=
  let target := WhepTarget.parse req.target
  let s := { s with phase := .handled }
  if req.method = .options then s.send (respondOptions target req.privateNetwork)
  else
    match target with
    | .endpoint stream => s.handleEndpoint host req stream made
    | .session peerId => s.handleSession host req peerId localSdp restarted
    | .invalid => s.respondError 404 "No WHEP resource at this path."

/-- The peer's callback: a session that has ended is not reached. -/
def onLocalSdp (s : HttpSession) (sdp : String) : HttpSession :=
  match s.callback with
  | none => s
  | some awaited => if s.ended then s else { s with posts := s.posts ++ [(awaited, sdp)] }

/-- The posted task: `on_sdp`. -/
def onPost (s : HttpSession) (host : WhepHost) (awaited : Awaited) (sdp : String) :
    HttpSession :=
  if s.responded then s
  else
    match awaited with
    | .created p => s.send (respondCreated (host.idOf p) sdp)
    | .restarted => s.send { respondIceRestarted sdp with }

/-- The timer's handler: `on_timeout`. -/
def onTimer (s : HttpSession) (host : WhepHost) (awaited : Awaited) (aborted : Bool) :
    HttpSession :=
  if aborted || s.responded then s
  else
    match awaited with
    | .created p =>
      (s.removePeer host (host.idOf p)).respondError 503
        "Timed out creating the SDP answer for this offer."
    | .restarted =>
      s.respondError 503 "Timed out creating the answer for this ICE restart."

end HttpSession

/-- What happens: the request is read or cannot be read, the peer emits its local description
    or loses the session's callback, a posted task runs, the timer expires and its handler
    runs, a write is over, a peer expires, the cleaner sweeps, and other sessions add and
    remove peers. -/
inductive SessionEvent where
  | request (req : HttpRequest) (made : Bool) (localSdp : String) (restarted : Bool)
  | readError
  | localSdp (sdp : String)
  | callbackLost
  | post (i : ℕ)
  | timerExpires
  | timerHandler
  | written
  | expire (p : ℕ)
  | sweep
  | add
  | remove (p : ℕ)
  deriving DecidableEq, Repr

/-- One event. -/
def HttpSession.step (host : WhepHost) (s : HttpSession) : SessionEvent → Option HttpSession
  | .request req made localSdp restarted =>
    if s.phase = .reading then some (s.handleRequest host req made localSdp restarted) else none
  | .readError => if s.phase = .reading then some { s with phase := .failed } else none
  | .localSdp sdp => some (s.onLocalSdp sdp)
  -- the peer gives its callback to another session, or is destroyed
  | .callbackLost => some { s with callback := none }
  | .post i =>
    (s.posts[i]?).map fun post =>
      { s with posts := s.posts.eraseIdx i }.onPost host post.1 post.2
  | .timerExpires =>
    match s.timer with
    | .pending awaited => some { s with timer := .queued awaited false }
    | _ => none
  | .timerHandler =>
    match s.timer with
    | .queued awaited aborted => some ({ s with timer := .idle }.onTimer host awaited aborted)
    | _ => none
  | .written => if 0 < s.writes then some { s with writes := s.writes - 1 } else none
  | .expire p => some { s with expired := p :: s.expired }
  | .sweep => some { s with registry := s.registry.sweep (· ∈ s.expired) }
  | .add => some { s with registry := s.registry.add s.nextPeer, nextPeer := s.nextPeer + 1 }
  | .remove p => some { s with registry := s.registry.remove p, expired := p :: s.expired }

/-- A session that begins to read, among any peers of other sessions, and all orders of
    events. -/
def httpSession (host : WhepHost) : Machine HttpSession SessionEvent where
  init := {}
  step := HttpSession.step host

/-! ### One response -/

/-- The 201 of peer `p` is among the responses that were sent. -/
def HttpSession.Named (host : WhepHost) (s : HttpSession) (p : ℕ) : Prop :=
  ∃ res ∈ s.sent, res.status = 201 ∧ ("Location", locationOf (host.idOf p)) ∈ res.fields

/-- What is asked for: at most one response, and when the session has ended, the peer that
    it created is named in a 201 or is not in the registry. -/
def OneResponseNoOrphan (host : WhepHost) (s : HttpSession) : Prop :=
  s.sent.length ≤ 1 ∧
    (s.ended = true → ∀ p, s.created = some p → s.Named host p ∨ p ∉ s.registry.peers)

/-- The timer will call `on_timeout` unless the session has responded by then. -/
def AnswerTimer.Armed (awaited : Awaited) (timer : AnswerTimer) : Prop :=
  timer = .pending awaited ∨ timer = .queued awaited false

/-- Whoever may still respond knows the peer that was created. -/
structure Bound (s : HttpSession) : Prop where
  callback : ∀ awaited, s.callback = some awaited → awaited.peer = s.created
  posted : ∀ post ∈ s.posts, post.1.peer = s.created
  waiting : ∀ awaited, s.timer.Armed awaited → awaited.peer = s.created
  fresh : ∀ p, s.created = some p → p < s.nextPeer

/-- A request is being handled, or its answer is still to come. -/
structure Unanswered (s : HttpSession) : Prop extends Bound s where
  handled : s.phase = .handled
  silent : s.responded = false
  unsent : s.sent = []

/-- **The invariant.** `responded_` tells whether the one response was sent.  Until then the
    timer is armed, once the request is handled; afterwards the fate of the peer is
    settled. -/
structure SessionInv (host : WhepHost) (s : HttpSession) : Prop extends Bound s where
  one : s.sent.length = s.responded.toNat
  reading : s.phase ≠ .handled → s.created = none ∧ s.responded = false ∧ s.callback = none ∧
    s.posts = [] ∧ s.timer = .idle
  armed : s.phase = .handled → s.responded = false →
    ∃ awaited, awaited.peer = s.created ∧ s.timer.Armed awaited
  settled : s.responded = true → ∀ p, s.created = some p →
    s.Named host p ∨ p ∉ s.registry.peers

theorem AnswerTimer.Armed.of_cancel {timer : AnswerTimer} {awaited : Awaited}
    (h : timer.cancel.Armed awaited) : timer.Armed awaited := by
  cases timer with
  | idle => exact h
  | pending a => rcases h with h | h <;> cases h
  | queued a aborted => exact h

namespace Unanswered

variable {host : WhepHost} {s : HttpSession}

/-- The one response: where it does not name the peer, that is out of the registry. -/
theorem send (h : Unanswered s) {res : HttpResponse}
    (hfate : ∀ p, s.created = some p →
      res.status = 201 ∧ ("Location", locationOf (host.idOf p)) ∈ res.fields ∨
        p ∉ s.registry.peers) : SessionInv host (s.send res) where
  callback := h.callback
  posted := h.posted
  waiting awaited ha := h.waiting awaited ha.of_cancel
  fresh := h.fresh
  one := by simp [HttpSession.send, h.unsent]
  reading hphase := absurd h.handled hphase
  armed _ hsilent := by cases hsilent
  settled _ p hp := by
    refine (hfate p hp).imp_left fun hres => ?_
    exact ⟨res, by simp [HttpSession.send], hres⟩

/-- A response of a session that created no peer. -/
theorem send_of_none (h : Unanswered s) (hnone : s.created = none) (res : HttpResponse) :
    SessionInv host (s.send res) := by
  refine h.send fun p hp => ?_
  rw [hnone] at hp
  cases hp

/-- `AwaitLocalSdp`: the peer's callback and the timer take over. -/
theorem awaitLocalSdp (h : Unanswered s) {awaited : Awaited} (ha : awaited.peer = s.created) :
    Unanswered (s.awaitLocalSdp awaited) where
  callback a hcall := by
    obtain rfl : awaited = a := Option.some.inj hcall
    exact ha
  posted := h.posted
  waiting a harmed := by
    rcases harmed with harmed | harmed
    · cases harmed
      exact ha
    · cases harmed
  fresh := h.fresh
  handled := h.handled
  silent := h.silent
  unsent := h.unsent

/-- With an armed timer the session may go on. -/
theorem inv (h : Unanswered s) {awaited : Awaited} (harmed : s.timer.Armed awaited) :
    SessionInv host s where
  toBound := h.toBound
  one := by simp [h.unsent, h.silent]
  reading hphase := absurd h.handled hphase
  armed _ _ := ⟨awaited, h.waiting awaited harmed, harmed⟩
  settled hresp := by
    rw [h.silent] at hresp
    cases hresp

/-- `RemovePeer` leaves the session itself as it is. -/
theorem removePeer (h : Unanswered s) (host : WhepHost) (peerId : String) :
    Unanswered (s.removePeer host peerId) := by
  unfold HttpSession.removePeer
  split
  · exact h
  · exact ⟨⟨h.callback, h.posted, h.waiting, h.fresh⟩, h.handled, h.silent, h.unsent⟩

end Unanswered

@[simp] theorem HttpSession.removePeer_created (s : HttpSession) (host : WhepHost)
    (peerId : String) : (s.removePeer host peerId).created = s.created := by
  unfold HttpSession.removePeer
  split <;> rfl

/-- `RemovePeer` leaves no peer of this id. -/
theorem HttpSession.not_mem_removePeer (s : HttpSession) (host : WhepHost) (p : ℕ) :
    p ∉ (s.removePeer host (host.idOf p)).registry.peers := by
  unfold HttpSession.removePeer
  split
  case h_1 hnone =>
    intro hp
    simpa using List.find?_eq_none.mp hnone p hp
  case h_2 q hq =>
    -- ids are distinct, so the peer that was found is `p`
    have hid : host.idOf q = host.idOf p := by simpa using List.find?_some hq
    obtain rfl : q = p := host.idOf_injective hid
    simp [PeerRegistry.remove]

namespace SessionInv

variable {host : WhepHost} {s : HttpSession}

theorem init : SessionInv host (httpSession host).init where
  callback awaited h := by cases h
  posted post h := by cases h
  waiting awaited h := by rcases h with h | h <;> cases h
  fresh p h := by cases h
  one := rfl
  reading _ := ⟨rfl, rfl, rfl, rfl, rfl⟩
  armed h := by cases h
  settled h := by cases h

theorem unsent (h : SessionInv host s) (hsilent : s.responded = false) : s.sent = [] := by
  have hlen := h.one
  rw [hsilent] at hlen
  exact List.length_eq_zero_iff.mp hlen

/-- What a posted task or a handler finds when nothing has been sent. -/
theorem unanswered (h : SessionInv host s) (hphase : s.phase = .handled)
    (hsilent : s.responded = false) : Unanswered s where
  toBound := h.toBound
  handled := hphase
  silent := hsilent
  unsent := h.unsent hsilent

/-- Other sessions and the cleaner take peers out of the registry, or add new ones. -/
theorem registry (h : SessionInv host s) {r : PeerRegistry} {expired : List ℕ} {n : ℕ}
    (hpeers : ∀ p, s.created = some p → p ∈ r.peers → p ∈ s.registry.peers)
    (hnext : s.nextPeer ≤ n) :
    SessionInv host { s with registry := r, expired := expired, nextPeer := n } where
  callback := h.callback
  posted := h.posted
  waiting := h.waiting
  fresh p hp := (h.fresh p hp).trans_le hnext
  one := h.one
  reading := h.reading
  armed := h.armed
  settled hresp p hp := (h.settled hresp p hp).imp_right fun hout hin => hout (hpeers p hp hin)

end SessionInv

/-! ### The request -/

/-- The request has just been read. -/
structure Opening (s : HttpSession) : Prop extends Unanswered s where
  uncreated : s.created = none
  unposted : s.posts = []

namespace Opening

variable {host : WhepHost} {s : HttpSession}

theorem send (h : Opening s) (res : HttpResponse) : SessionInv host (s.send res) :=
  h.toUnanswered.send_of_none h.uncreated res

theorem awaitRestart (h : Opening s) : Unanswered (s.awaitLocalSdp .restarted) :=
  h.toUnanswered.awaitLocalSdp h.uncreated.symm

theorem handlePost (h : Opening s) (req : HttpRequest) (made : Bool) :
    SessionInv host (s.handlePost host req made) := by
  unfold HttpSession.handlePost
  split
  · exact h.send _
  · split
    · exact h.send _
    · -- the new peer is known to the callback and to the timer
      refine Unanswered.inv ⟨⟨?_, ?_, ?_, ?_⟩, h.handled, h.silent, h.unsent⟩ (.inl rfl)
      · intro awaited hcall
        obtain rfl : Awaited.created s.nextPeer = awaited := Option.some.inj hcall
        rfl
      · intro post hpost
        have hpost' : post ∈ s.posts := hpost
        rw [h.unposted] at hpost'
        cases hpost'
      · rintro awaited (harmed | harmed)
        · cases harmed
          rfl
        · cases harmed
      · intro p hp
        obtain rfl : s.nextPeer = p := Option.some.inj hp
        exact Nat.lt_succ_self _

theorem handlePatch (h : Opening s) (req : HttpRequest) (localSdp : String) (restarted : Bool) :
    SessionInv host (s.handlePatch req localSdp restarted) := by
  unfold HttpSession.handlePatch
  split
  · exact h.send _
  · exact h.send _
  · split
    · exact h.awaitRestart.inv (.inl rfl)
    · -- the failed restart is answered over the callback and the timer it leaves behind
      exact h.awaitRestart.send_of_none h.uncreated _

theorem handleDelete (h : Opening s) (peerId : String) :
    SessionInv host (s.handleDelete host peerId) := by
  refine (h.toUnanswered.removePeer host peerId).send_of_none ?_ _
  rw [HttpSession.removePeer_created]
  exact h.uncreated

theorem handleEndpoint (h : Opening s) (req : HttpRequest) (stream : String) (made : Bool) :
    SessionInv host (s.handleEndpoint host req stream made) := by
  unfold HttpSession.handleEndpoint
  split
  · exact h.send _
  · split
    · exact h.handlePost req made
    all_goals exact h.send _

theorem handleSession (h : Opening s) (req : HttpRequest) (peerId localSdp : String)
    (restarted : Bool) : SessionInv host (s.handleSession host req peerId localSdp restarted) := by
  unfold HttpSession.handleSession
  split
  · exact h.send _
  · split
    · exact h.handlePatch req localSdp restarted
    · exact h.handleDelete peerId
    all_goals exact h.send _

end Opening

namespace SessionInv

variable {host : WhepHost} {s : HttpSession}

/-- `HandleRequest` responds, or leaves an armed timer. -/
theorem handleRequest (h : SessionInv host s) (hphase : s.phase = .reading) (req : HttpRequest)
    (made : Bool) (localSdp : String) (restarted : Bool) :
    SessionInv host (s.handleRequest host req made localSdp restarted) := by
  obtain ⟨hcreated, hsilent, -, hposts, -⟩ := h.reading (by rw [hphase]; decide)
  have hopen : Opening { s with phase := .handled } :=
    { callback := h.callback
      posted := h.posted
      waiting := h.waiting
      fresh := h.fresh
      handled := rfl
      silent := hsilent
      unsent := h.unsent hsilent
      uncreated := hcreated
      unposted := hposts }
  unfold HttpSession.handleRequest
  split
  · exact hopen.send _
  · cases WhepTarget.parse req.target with
    | invalid => exact hopen.send _
    | endpoint stream => exact hopen.handleEndpoint req stream made
    | session peerId => exact hopen.handleSession req peerId localSdp restarted

theorem handled_of_callback (h : SessionInv host s) {awaited : Awaited}
    (hcall : s.callback = some awaited) : s.phase = .handled := by
  by_contra hphase
  rw [(h.reading hphase).2.2.1] at hcall
  cases hcall

theorem onLocalSdp (h : SessionInv host s) (sdp : String) : SessionInv host (s.onLocalSdp sdp) := by
  unfold HttpSession.onLocalSdp
  split
  · exact h
  case h_2 awaited hcall =>
    split
    · exact h
    · refine ⟨⟨h.callback, ?_, h.waiting, h.fresh⟩, h.one, ?_, h.armed, h.settled⟩
      · intro post hpost
        rcases List.mem_append.mp hpost with hpost | hpost
        · exact h.posted post hpost
        · obtain rfl := List.mem_singleton.mp hpost
          exact h.callback awaited hcall
      · intro hphase
        exact absurd (h.handled_of_callback hcall) hphase

/-- The posted task names the peer that was created. -/
theorem onPost (h : SessionInv host s) (hphase : s.phase = .handled) {awaited : Awaited}
    (ha : awaited.peer = s.created) (sdp : String) :
    SessionInv host (s.onPost host awaited sdp) := by
  unfold HttpSession.onPost
  split
  · exact h
  case isFalse hresp =>
    have hun := h.unanswered hphase (Bool.eq_false_of_not_eq_true hresp)
    cases awaited with
    -- the task was posted for the peer that the session created
    | created p =>
      refine hun.send fun q hq => .inl ⟨rfl, ?_⟩
      obtain rfl : p = q := Option.some.inj (ha.trans hq)
      exact List.mem_singleton.mpr rfl
    | restarted => exact hun.send_of_none ha.symm _

theorem handled_of_posted (h : SessionInv host s) {post : Awaited × String}
    (hpost : post ∈ s.posts) : s.phase = .handled := by
  by_contra hphase
  rw [(h.reading hphase).2.2.2.1] at hpost
  cases hpost

theorem handled_of_timer (h : SessionInv host s) (htimer : s.timer ≠ .idle) :
    s.phase = .handled := by
  by_contra hphase
  exact htimer (h.reading hphase).2.2.2.2

/-- The timer expires: its handler will find no error. -/
theorem timerExpires (h : SessionInv host s) {awaited : Awaited}
    (htimer : s.timer = .pending awaited) :
    SessionInv host { s with timer := .queued awaited false } where
  callback := h.callback
  posted := h.posted
  waiting a harmed := by
    rcases harmed with harmed | harmed
    · cases harmed
    · cases harmed
      exact h.waiting awaited (.inl htimer)
  fresh := h.fresh
  one := h.one
  reading hphase := by
    have hidle := (h.reading hphase).2.2.2.2
    rw [htimer] at hidle
    cases hidle
  armed _ _ := ⟨awaited, h.waiting awaited (.inl htimer), .inr rfl⟩
  settled := h.settled

/-- The handler removes the peer that was created before it responds. -/
theorem onTimer (h : SessionInv host s) {awaited : Awaited} {aborted : Bool}
    (htimer : s.timer = .queued awaited aborted) :
    SessionInv host ({ s with timer := .idle }.onTimer host awaited aborted) := by
  have hphase : s.phase = .handled := h.handled_of_timer (by rw [htimer]; simp)
  have hidle : ∀ a, AnswerTimer.idle.Armed a → a.peer = s.created := by
    rintro a (harmed | harmed) <;> cases harmed
  unfold HttpSession.onTimer
  split
  case isTrue hout =>
    refine ⟨⟨h.callback, h.posted, hidle, h.fresh⟩, h.one, ?_, ?_, h.settled⟩
    · intro hnot
      exact absurd hphase hnot
    · -- an aborted wait is that of a session that has responded
      intro _ hsilent
      obtain ⟨a, -, harmed⟩ := h.armed hphase hsilent
      rw [Bool.or_eq_true] at hout
      rcases hout with rfl | hresp
      · rw [htimer] at harmed
        rcases harmed with harmed | harmed <;> cases harmed
      · rw [hsilent] at hresp
        cases hresp
  case isFalse hout =>
    rw [Bool.or_eq_true, not_or] at hout
    obtain ⟨haborted, hresp⟩ := hout
    obtain rfl := Bool.eq_false_of_not_eq_true haborted
    have hsilent := Bool.eq_false_of_not_eq_true hresp
    have ha : awaited.peer = s.created := h.waiting awaited (.inr htimer)
    have hun : Unanswered { s with timer := .idle } :=
      ⟨⟨h.callback, h.posted, hidle, h.fresh⟩, hphase, hsilent, h.unsent hsilent⟩
    cases awaited with
    | created p =>
      refine (hun.removePeer host (host.idOf p)).send fun q hq => .inr ?_
      rw [HttpSession.removePeer_created] at hq
      obtain rfl : p = q := Option.some.inj (ha.trans hq)
      exact HttpSession.not_mem_removePeer _ host p
    | restarted => exact hun.send_of_none ha.symm _

/-- Every event keeps the invariant. -/
theorem step {s' : HttpSession} {event : SessionEvent} (h : SessionInv host s)
    (hstep : HttpSession.step host s event = some s') : SessionInv host s' := by
  cases event with
  | request req made localSdp restarted =>
    obtain ⟨hphase, rfl⟩ := by simpa only [HttpSession.step, Option.ite_none_right_eq_some,
      Option.some.injEq] using hstep
    exact h.handleRequest hphase req made localSdp restarted
  | readError =>
    obtain ⟨hphase, rfl⟩ := by simpa only [HttpSession.step, Option.ite_none_right_eq_some,
      Option.some.injEq] using hstep
    refine ⟨⟨h.callback, h.posted, h.waiting, h.fresh⟩, h.one, ?_, ?_, h.settled⟩
    · intro _
      exact h.reading (by rw [hphase]; decide)
    · intro hhandled
      cases hhandled
  | localSdp sdp =>
    cases hstep
    exact h.onLocalSdp sdp
  | callbackLost =>
    cases hstep
    refine ⟨⟨?_, h.posted, h.waiting, h.fresh⟩, h.one, ?_, h.armed, h.settled⟩
    · intro awaited hcall
      cases hcall
    · intro hphase
      obtain ⟨hcreated, hsilent, -, hidle⟩ := h.reading hphase
      exact ⟨hcreated, hsilent, rfl, hidle⟩
  | post i =>
    obtain ⟨post, hpost, rfl⟩ := Option.map_eq_some_iff.mp hstep
    have hmem := List.mem_of_getElem? hpost
    have hphase := h.handled_of_posted hmem
    -- the task is taken out before it runs
    have hrest : SessionInv host { s with posts := s.posts.eraseIdx i } := by
      refine ⟨⟨h.callback, ?_, h.waiting, h.fresh⟩, h.one, ?_, h.armed, h.settled⟩
      · intro other hother
        exact h.posted other (List.mem_of_mem_eraseIdx hother)
      · intro hnot
        exact absurd hphase hnot
    exact hrest.onPost hphase (h.posted post hmem) post.2
  | timerExpires =>
    simp only [HttpSession.step] at hstep
    split at hstep
    case h_1 awaited htimer =>
      cases hstep
      exact h.timerExpires htimer
    case h_2 => cases hstep
  | timerHandler =>
    simp only [HttpSession.step] at hstep
    split at hstep
    case h_1 awaited aborted htimer =>
      cases hstep
      exact h.onTimer htimer
    case h_2 => cases hstep
  | written =>
    obtain ⟨-, rfl⟩ := by simpa only [HttpSession.step, Option.ite_none_right_eq_some,
      Option.some.injEq] using hstep
    exact ⟨⟨h.callback, h.posted, h.waiting, h.fresh⟩, h.one, h.reading, h.armed,
      h.settled⟩
  | expire p =>
    cases hstep
    exact h.registry (fun _ _ hin => hin) le_rfl
  | sweep =>
    cases hstep
    exact h.registry (fun _ _ hin => (PeerRegistry.mem_sweep.mp hin).1) le_rfl
  | add =>
    cases hstep
    refine h.registry ?_ (Nat.le_succ _)
    intro p hp hin
    -- the new peer is not the one that the session created
    rcases PeerRegistry.mem_add.mp hin with hin | rfl
    · exact hin
    · exact absurd (h.fresh _ hp) (lt_irrefl _)
  | remove q =>
    cases hstep
    refine h.registry ?_ le_rfl
    intro p _ hin
    exact (List.mem_filter.mp hin).1

/-- A session that has not responded is held by its timer. -/
theorem responded_of_ended (h : SessionInv host s) (hended : s.ended = true)
    (hphase : s.phase = .handled) : s.responded = true := by
  by_contra hsilent
  obtain ⟨awaited, -, harmed⟩ := h.armed hphase (Bool.eq_false_of_not_eq_true hsilent)
  have hidle : s.timer = .idle := by
    simp only [HttpSession.ended, decide_eq_true_eq] at hended
    exact hended.2.1
  rw [hidle] at harmed
  rcases harmed with harmed | harmed <;> cases harmed

end SessionInv

/-- **One response, and no orphan peer.** In every run of a session at most one response is
    sent, and once nothing holds the session any more, the peer that its POST created is
    named in the 201 that was sent or is not in the registry. -/
theorem oneResponse_noOrphan (host : WhepHost) (as : List SessionEvent) (s : HttpSession)
    (hrun : (httpSession host).run as = some s) : OneResponseNoOrphan host s := by
  have hinv : SessionInv host s :=
    Machine.run_invariant SessionInv.init (fun _ _ _ h hstep => h.step hstep) hrun
  refine ⟨hinv.one ▸ Bool.toNat_le s.responded, fun hended p hp => ?_⟩
  -- a session that created a peer has handled its request
  have hphase : s.phase = .handled := by
    by_contra hnot
    rw [(hinv.reading hnot).1] at hp
    cases hp
  exact hinv.settled (hinv.responded_of_ended hended hphase) p hp

/-- The session of a POST that is answered at once: the description comes, the posted task
    responds, the cancelled timer's handler runs, and the write is over. -/
def answeredPost : List SessionEvent :=
  [.request ⟨⟨"application/sdp", none, "v=0"⟩, .post, "/", false⟩ true "" true, .localSdp "v=0",
   .post 0, .timerHandler, .written]

/-- A host whose peers are named a, aa, aaa and so on. -/
def exampleHost : WhepHost where
  idOf n := .ofList (List.replicate (n + 1) 'a')
  idOf_injective m n h := by
    have hlen := congrArg (fun id : String => id.toList.length) h
    simpa using hlen
  conductor := some true

theorem oneResponse_noOrphan_answeredPost :
    ∃ s, (httpSession exampleHost).run answeredPost = some s ∧ s.ended = true ∧
      s.created = some 0 ∧ s.registry.peers = [0] ∧ OneResponseNoOrphan exampleHost s :=
  ⟨_, rfl, by decide, rfl, rfl, oneResponse_noOrphan exampleHost answeredPost _ rfl⟩

/-- **Every request is answered.** A session that has read its request does not end without
    its one response. -/
theorem answered (host : WhepHost) (as : List SessionEvent) (s : HttpSession)
    (hrun : (httpSession host).run as = some s) (hphase : s.phase = .handled)
    (hended : s.ended = true) : s.sent.length = 1 := by
  have hinv : SessionInv host s :=
    Machine.run_invariant SessionInv.init (fun _ _ _ h hstep => h.step hstep) hrun
  rw [hinv.one, hinv.responded_of_ended hended hphase]
  rfl

end PiWebrtc.Signaling
