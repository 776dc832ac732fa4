import PiWebrtc.Lib.Machine
import PiWebrtc.Rtc.RtcPeer
import PiWebrtc.Signaling.WhepService

namespace PiWebrtc.Signaling

open Transition PiWebrtc.Rtc

/-!
# ICE restarts of one session

Each PATCH request is a session of its own.  One that restarts ICE puts its callback into
the peer's `on_local_sdp_fn_`, starts a timer and makes the peer answer the changed offer;
the answer becomes the peer's local description, which is emitted through the callback that
is there by then.  There is one callback and one emission to come: a second PATCH takes both
over.  `restarts_answered` shows that restarts that do not overlap each get their own
description.

The peer connection may finish its operations in any order, with or without success, and
complete the gathering at any time.  Restarts are numbered like the sessions that make them.
-/

/-- A PATCH request: the response it got, with the restart whose description it was built
    from, and history: whether another session took the callback while the description for
    this one was still to come, and whether the answer timer responded. -/
structure PatchSession where
  response : Option WhepResponse := none
  builtFrom : Option ℕ := none
  replaced : Bool := false
  timedOut : Bool := false
  deriving DecidableEq, Repr

/-- The task that a session's callback posts: a local description, and the restart that it
    was created for. -/
structure LocalSdpPost where
  session : ℕ
  restart : ℕ
  sdp : String
  deriving DecidableEq, Repr

/-- The sessions, and the peer: the session whose callback it has, the restarts for which it
    creates an answer, its description with the restart that it was created for, and the
    emission to come, as in `RtcPeer`.  A peer that a client knows has answered its offer. -/
structure IceRestarts where
  sessions : List PatchSession := []
  callback : Option ℕ := none
  answers : List ℕ := []
  modifiedDesc : Option (ℕ × String) := none
  sdpEmitSafety : Option SafetyFlag := none
  nextFlag : ℕ := 0
  tasks : List ℕ := []
  posts : List LocalSdpPost := []
  isTerminating : Bool := false
  deriving DecidableEq, Repr

namespace IceRestarts

/-- The emission to come has not been cancelled. -/
def emitting (s : IceRestarts) : Bool := s.sdpEmitSafety.any SafetyFlag.alive

/-- The callback is the one of session `k`, whose description is still to come. -/
def expects (s : IceRestarts) (k : ℕ) : Bool :=
  s.callback = some k &&
    (s.answers.contains k || s.emitting && s.modifiedDesc.any fun desc => desc.1 = k)

/-- `AwaitLocalSdp` of a new session: its callback takes the place of the one before. -/
def awaitLocalSdp (s : IceRestarts) : IceRestarts :=
  { s with
    sessions := (s.sessions.mapIdx fun k session =>
      if session.response = none && s.expects k then { session with replaced := true }
      else session) ++ [{}]
    callback := some s.sessions.length }

/-- A session responds, if it has not done so. -/
def respond (s : IceRestarts) (k : ℕ) (response : WhepResponse) (builtFrom : Option ℕ) :
    IceRestarts :=
  { s with sessions := s.sessions.modify k fun session =>
      if session.response.isSome then session
      else { session with response := some response, builtFrom := builtFrom } }

/-- A new session that responds at once. -/
def respondNow (s : IceRestarts) (response : WhepResponse) : IceRestarts :=
  { s with sessions := s.sessions ++ [{ response := some response }] }

/-- `HandlePatchRequest`.  `restarted` is the result of `RestartIce`, and `answering` tells
    whether its `SetRemoteSdp` has got as far as asking for an answer. -/
def handlePatch (s : IceRestarts) (req : PatchRequest) (localSdp : String)
    (restarted answering : Bool) : IceRestarts :=
  -- the registry does not hand out a peer that has expired
  if s.isTerminating then s.respondNow (respondError 404 "The WHEP session does not exist.")
  else
    match checkPatch req localSdp with
    | .respond response => s.respondNow response
    | .trickle _ => s.respondNow { status := 204 }
    | .restart _ =>
      if restarted = false then
        s.awaitLocalSdp.respond s.sessions.length (respondError 422 "The ICE restart failed.") none
      else if answering then
        { s.awaitLocalSdp with answers := s.answers ++ [s.sessions.length] }
      else s.awaitLocalSdp

/-- `EmitLocalSdp`, with a delay: the emission to come before is cancelled. -/
def emitLocalSdp (s : IceRestarts) : IceRestarts :=
  if s.callback = none then s
  else
    { s with
      sdpEmitSafety := some ⟨s.nextFlag, true⟩
      nextFlag := s.nextFlag + 1
      tasks := s.tasks ++ [s.nextFlag] }

/-- `OnSuccess`: the answer of restart `n` was created; `parsed` tells whether it could be
    parsed again. -/
def onSuccess (s : IceRestarts) (n : ℕ) (sdp : String) (parsed : Bool) : IceRestarts :=
  if parsed = false then { s with modifiedDesc := none }
  else { s with modifiedDesc := some (n, sdp) }.emitLocalSdp

/-- `OnIceCandidate`: the description gains a candidate, and reads `sdp` now. -/
def onIceCandidate (s : IceRestarts) (sdp : String) : IceRestarts :=
  { s with modifiedDesc := s.modifiedDesc.map fun desc => (desc.1, sdp) }

/-- `sdp_emit_safety_->SetNotAlive()`. -/
def killSdpEmit (s : IceRestarts) : IceRestarts :=
  { s with sdpEmitSafety := s.sdpEmitSafety.map fun flag => { flag with alive := false } }

/-- `SendLocalSdp`; `none` where it would use a description that is not there. -/
def sendLocalSdp (s : IceRestarts) : Option IceRestarts :=
  if s.isTerminating then some s.killSdpEmit
  else
    match s.callback, s.modifiedDesc with
    | none, _ => some s.killSdpEmit
    | some k, some (n, sdp) => some { s.killSdpEmit with posts := s.posts ++ [⟨k, n, sdp⟩] }
    | some _, none => none

/-- `Terminate`. -/
def terminate (s : IceRestarts) : IceRestarts :=
  { s.killSdpEmit with isTerminating := true, callback := none, modifiedDesc := none }

/-- The answer timer of a session. -/
def onTimeout (s : IceRestarts) (k : ℕ) : IceRestarts :=
  { s with sessions := s.sessions.modify k fun session =>
      if session.response.isSome then session
      else
        { session with
          response := some (respondError 503 "Timed out creating the answer for this ICE restart.")
          timedOut := true } }

end IceRestarts

/-- What happens: a PATCH comes in, the peer connection finishes an answer (`none` is a
    failure), finds a candidate or completes the gathering, a delayed task or a posted one
    runs, a timer fires, and the peer is terminated. -/
inductive RestartEvent where
  | patch (req : PatchRequest) (localSdp : String) (restarted answering : Bool)
  | answer (i : ℕ) (sdp : Option String) (parsed : Bool)
  | iceCandidate (sdp : String)
  | iceGatheringComplete
  | task (i : ℕ)
  | post (i : ℕ)
  | timeout (k : ℕ)
  | terminate
  deriving DecidableEq, Repr

/-- One event. -/
def IceRestarts.step (s : IceRestarts) : RestartEvent → Option IceRestarts
  | .patch req localSdp restarted answering =>
    some (s.handlePatch req localSdp restarted answering)
  | .answer i sdp parsed =>
    (s.answers[i]?).map fun n =>
      match sdp with
      | some sdp => { s with answers := s.answers.eraseIdx i }.onSuccess n sdp parsed
      | none => { s with answers := s.answers.eraseIdx i }
  | .iceCandidate sdp => some (s.onIceCandidate sdp)
  | .iceGatheringComplete => if s.emitting then s.sendLocalSdp else some s
  | .task i =>
    (s.tasks[i]?).bind fun flag =>
      if s.sdpEmitSafety = some ⟨flag, true⟩ then
        { s with tasks := s.tasks.eraseIdx i }.sendLocalSdp
      else some { s with tasks := s.tasks.eraseIdx i }
  | .post i =>
    (s.posts[i]?).map fun p =>
      { s with posts := s.posts.eraseIdx i }.respond p.session (respondIceRestarted p.sdp)
        (some p.restart)
  | .timeout k => if k < s.sessions.length then some (s.onTimeout k) else none
  | .terminate => some s.terminate

/-- A peer whose session was just created, and all orders of events. -/
def iceRestarts : Machine IceRestarts RestartEvent where
  init := {}
  step := IceRestarts.step

/-- What is asked for: a response is built from the description of the session's own
    restart, and no session times out whose callback another one has replaced. -/
def RestartsAnswered (s : IceRestarts) : Prop :=
  ∀ k (session : PatchSession), s.sessions[k]? = some session →
    (∀ n, session.builtFrom = some n → n = k) ∧
      ¬ (session.replaced = true ∧ session.timedOut = true)

/-- The request gets as far as restarting ICE. -/
def IceRestarts.restarts (s : IceRestarts) (req : PatchRequest) (localSdp : String) : Bool :=
  !s.isTerminating &&
    match checkPatch req localSdp with
    | .restart _ => true
    | _ => false

/-- The condition: when a PATCH restarts ICE, the peer neither creates the answer of another
    restart nor is going to emit its description. -/
def OneAtATime (s : IceRestarts) : RestartEvent → Prop
  | .patch req localSdp _ _ => s.restarts req localSdp = true → s.answers = [] ∧ s.emitting = false
  | _ => True

instance (s : IceRestarts) : ∀ a, Decidable (OneAtATime s a)
  | .patch _ _ _ _ => inferInstanceAs (Decidable (_ → _ ∧ _))
  | .answer _ _ _ | .iceCandidate _ | .iceGatheringComplete | .task _ | .post _ | .timeout _
  | .terminate => isTrue trivial

/-- A session got no description but its own, and never lost the callback while that one was
    still to come. -/
def PatchSession.OwnOf (k : ℕ) (session : PatchSession) : Prop :=
  (∀ n, session.builtFrom = some n → n = k) ∧ session.replaced = false

theorem PatchSession.ownOf_new (k : ℕ) (response : Option WhepResponse) :
    PatchSession.OwnOf k { response := response } := by
  refine ⟨fun n hn => ?_, rfl⟩
  cases hn

/-- **The invariant.** Every description on its way is for the session that it was created
    for: in a posted task, in the answers to come, and in the emission to come. -/
structure RestartInv (s : IceRestarts) : Prop where
  own : ∀ k (session : PatchSession), s.sessions[k]? = some session → session.OwnOf k
  posted : ∀ p ∈ s.posts, p.restart = p.session
  answering : ∀ n ∈ s.answers, ∀ k, s.callback = some k → n = k
  emission : s.emitting = true → ∀ k desc, s.callback = some k → s.modifiedDesc = some desc →
    desc.1 = k

namespace RestartInv

variable {s s' : IceRestarts}

theorem init : RestartInv iceRestarts.init where
  own k session hk := by cases hk
  posted p hp := by cases hp
  answering n hn := by cases hn
  emission h := by cases h

/-! ### The sessions -/

theorem modifySession (h : RestartInv s) (k : ℕ) {f : PatchSession → PatchSession}
    (hf : ∀ session, session.OwnOf k → (f session).OwnOf k) :
    RestartInv { s with sessions := s.sessions.modify k f } where
  own j session hj := by
    have hj' : (s.sessions.modify k f)[j]? = some session := hj
    rw [List.getElem?_modify, Option.map_eq_map, Option.map_eq_some_iff] at hj'
    obtain ⟨before, hbefore, hsession⟩ := hj'
    have hown := h.own j before hbefore
    rw [← hsession]
    split
    case isTrue hkj => exact hkj ▸ hf before (hkj ▸ hown)
    case isFalse => exact hown
  posted := h.posted
  answering := h.answering
  emission := h.emission

theorem addSession (h : RestartInv s) {session : PatchSession}
    (hown : session.OwnOf s.sessions.length) :
    RestartInv { s with sessions := s.sessions ++ [session] } where
  own k session' hk := by
    have hk' : (s.sessions ++ [session])[k]? = some session' := hk
    rw [List.getElem?_append] at hk'
    split at hk'
    · exact h.own k session' hk'
    case isFalse hlen =>
      rw [List.getElem?_singleton, Option.ite_none_right_eq_some, Option.some.injEq] at hk'
      obtain ⟨hzero, rfl⟩ := hk'
      obtain rfl : k = s.sessions.length := by omega
      exact hown
  posted := h.posted
  answering := h.answering
  emission := h.emission

/-- A response that was built from no description, or from the session's own. -/
theorem respond (h : RestartInv s) (k : ℕ) (response : WhepResponse) {builtFrom : Option ℕ}
    (hown : ∀ n, builtFrom = some n → n = k) : RestartInv (s.respond k response builtFrom) := by
  refine h.modifySession k fun session hsession => ?_
  split
  · exact hsession
  · exact ⟨hown, hsession.2⟩

theorem respondNow (h : RestartInv s) (response : WhepResponse) :
    RestartInv (s.respondNow response) :=
  h.addSession (PatchSession.ownOf_new _ (some response))

theorem onTimeout (h : RestartInv s) (k : ℕ) : RestartInv (s.onTimeout k) := by
  refine h.modifySession k fun session hsession => ?_
  split
  · exact hsession
  · exact hsession

/-! ### A restart -/

/-- Where nothing is to come, the new callback takes no description from anybody. -/
theorem awaitLocalSdp (h : RestartInv s) (hanswers : s.answers = []) (hdead : s.emitting = false) :
    RestartInv s.awaitLocalSdp := by
  -- so no session that is still waiting loses its callback
  have hexpects : ∀ k, s.expects k = false := by
    intro k
    simp [IceRestarts.expects, hanswers, hdead]
  have hsame : (s.sessions.mapIdx fun k session =>
      if session.response = none && s.expects k then { session with replaced := true }
      else session) = s.sessions := by
    rw [List.mapIdx_eq_iff]
    intro k
    simp [hexpects]
  have hadd := h.addSession (PatchSession.ownOf_new _ none)
  refine ⟨?_, h.posted, ?_, ?_⟩
  · rw [IceRestarts.awaitLocalSdp, hsame]
    exact hadd.own
  · intro n hn
    have hn' : n ∈ s.answers := hn
    rw [hanswers] at hn'
    cases hn'
  · intro hemit
    exact absurd hdead (ne_false_of_eq_true hemit)

/-- The new restart is the one whose answer is created. -/
theorem awaitAnswer (h : RestartInv s) (hanswers : s.answers = []) (hdead : s.emitting = false) :
    RestartInv { s.awaitLocalSdp with answers := s.answers ++ [s.sessions.length] } := by
  have hawait := h.awaitLocalSdp hanswers hdead
  refine ⟨hawait.own, hawait.posted, ?_, hawait.emission⟩
  intro n hn k hk
  have hn' : n ∈ s.answers ++ [s.sessions.length] := hn
  rw [hanswers, List.nil_append, List.mem_singleton] at hn'
  exact hn'.trans (Option.some.inj hk)

theorem handlePatch (h : RestartInv s) {req : PatchRequest} {localSdp : String}
    (hone : s.restarts req localSdp = true → s.answers = [] ∧ s.emitting = false)
    (restarted answering : Bool) :
    RestartInv (s.handlePatch req localSdp restarted answering) := by
  rw [IceRestarts.handlePatch]
  split
  · exact h.respondNow _
  case isFalse hlive =>
    split
    · exact h.respondNow _
    · exact h.respondNow _
    case h_3 group hcheck =>
      obtain ⟨hanswers, hdead⟩ := hone (by simp [IceRestarts.restarts, hlive, hcheck])
      split
      -- the restart failed, and the response is built from no description
      · exact (h.awaitLocalSdp hanswers hdead).respond _ _ fun n hn => by cases hn
      split
      · exact h.awaitAnswer hanswers hdead
      · exact h.awaitLocalSdp hanswers hdead

/-! ### The peer -/

/-- The description of the session that has the callback is emitted, at once or later. -/
theorem onSuccess (h : RestartInv s) {n : ℕ} (hn : ∀ k, s.callback = some k → n = k)
    (sdp : String) (parsed : Bool) : RestartInv (s.onSuccess n sdp parsed) := by
  rw [IceRestarts.onSuccess]
  split
  -- the description cannot be parsed: the peer is left without one
  · refine ⟨h.own, h.posted, h.answering, fun _ k desc _ hdesc => ?_⟩
    cases hdesc
  · rw [IceRestarts.emitLocalSdp]
    have hdesc : ∀ k desc, s.callback = some k → some (n, sdp) = some desc → desc.1 = k := by
      rintro k _ hk ⟨⟩
      exact hn k hk
    split
    · exact ⟨h.own, h.posted, h.answering, fun _ => hdesc⟩
    · exact ⟨h.own, h.posted, h.answering, fun _ => hdesc⟩

theorem onIceCandidate (h : RestartInv s) (sdp : String) : RestartInv (s.onIceCandidate sdp) := by
  refine ⟨h.own, h.posted, h.answering, fun hemit k desc hk hdesc => ?_⟩
  obtain ⟨before, hbefore, rfl⟩ := Option.map_eq_some_iff.mp hdesc
  exact h.emission hemit k before hk hbefore

theorem emitting_killSdpEmit (s : IceRestarts) : s.killSdpEmit.emitting = false := by
  show Option.any SafetyFlag.alive (Option.map _ s.sdpEmitSafety) = false
  cases s.sdpEmitSafety with
  | none => rfl
  | some flag => rfl

theorem killSdpEmit (h : RestartInv s) : RestartInv s.killSdpEmit := by
  refine ⟨h.own, h.posted, h.answering, fun hemit => ?_⟩
  rw [emitting_killSdpEmit] at hemit
  cases hemit

theorem sendLocalSdp (h : RestartInv s) (hemit : s.emitting = true)
    (hs : s.sendLocalSdp = some s') : RestartInv s' := by
  rw [IceRestarts.sendLocalSdp] at hs
  split at hs
  · exact Option.some.inj hs ▸ h.killSdpEmit
  split at hs
  · exact Option.some.inj hs ▸ h.killSdpEmit
  -- the task is posted for the session that has the callback now
  case h_2 k n sdp hcallback hdesc =>
    obtain rfl := Option.some.inj hs
    have hkill := h.killSdpEmit
    refine ⟨hkill.own, fun p hp => ?_, hkill.answering, hkill.emission⟩
    rcases List.mem_append.mp hp with hp | hp
    · exact h.posted p hp
    · rw [List.mem_singleton.mp hp]
      exact h.emission hemit k (n, sdp) hcallback hdesc
  case h_3 => cases hs

theorem terminate (h : RestartInv s) : RestartInv s.terminate where
  own := h.own
  posted := h.posted
  answering _ _ _ hk := by cases hk
  emission _ _ _ hk := by cases hk

/-! ### All runs -/

/-- Every event that meets the condition keeps the invariant. -/
theorem step (h : RestartInv s) {a : RestartEvent} (hg : OneAtATime s a)
    (hs : s.step a = some s') : RestartInv s' := by
  cases a with
  | patch req localSdp restarted answering =>
    cases hs
    exact h.handlePatch hg restarted answering
  | answer i sdp parsed =>
    obtain ⟨n, hn, rfl⟩ := Option.map_eq_some_iff.mp hs
    have hmine : ∀ k, s.callback = some k → n = k := h.answering n (List.mem_of_getElem? hn)
    have herase : RestartInv { s with answers := s.answers.eraseIdx i } :=
      ⟨h.own, h.posted, fun m hm => h.answering m (List.mem_of_mem_eraseIdx hm), h.emission⟩
    cases sdp with
    | none => exact herase
    | some sdp => exact herase.onSuccess hmine sdp parsed
  | iceCandidate sdp =>
    cases hs
    exact h.onIceCandidate sdp
  | iceGatheringComplete =>
    rw [IceRestarts.step] at hs
    split at hs
    case isTrue hemit => exact h.sendLocalSdp hemit hs
    case isFalse => exact Option.some.inj hs ▸ h
  | task i =>
    obtain ⟨flag, -, hs⟩ := Option.bind_eq_some_iff.mp hs
    have herase : RestartInv { s with tasks := s.tasks.eraseIdx i } :=
      ⟨h.own, h.posted, h.answering, h.emission⟩
    split at hs
    case isTrue hflag =>
      refine herase.sendLocalSdp ?_ hs
      show s.sdpEmitSafety.any SafetyFlag.alive = true
      rw [hflag]
      rfl
    case isFalse => exact Option.some.inj hs ▸ herase
  | post i =>
    obtain ⟨p, hp, rfl⟩ := Option.map_eq_some_iff.mp hs
    have herase : RestartInv { s with posts := s.posts.eraseIdx i } :=
      ⟨h.own, fun q hq => h.posted q (List.mem_of_mem_eraseIdx hq), h.answering, h.emission⟩
    refine herase.respond p.session _ fun n hn => ?_
    rw [← Option.some.inj hn]
    exact h.posted p (List.mem_of_getElem? hp)
  | timeout k =>
    rw [IceRestarts.step, Option.ite_none_right_eq_some, Option.some.injEq] at hs
    exact hs.2 ▸ h.onTimeout k
  | terminate =>
    cases hs
    exact h.terminate

end RestartInv

/-- **Restarts get their own answers.** In every run in which ICE is restarted only while
    the answer of no other restart is created or going to be emitted, each session's
    response is built from the description of its own restart, and no session times out
    because another one took its callback. -/
theorem restarts_answered (as : List RestartEvent) (s : IceRestarts)
    (hone : iceRestarts.Guarded OneAtATime iceRestarts.init as)
    (hrun : iceRestarts.run as = some s) : RestartsAnswered s := by
  have hinv : RestartInv s := by
    refine Machine.guarded_invariant (M := iceRestarts) ?_ RestartInv.init hone hrun
    intro s a s' h hg hstep
    exact h.step hg hstep
  intro k session hk
  obtain ⟨hbuilt, hreplaced⟩ := hinv.own k session hk
  refine ⟨hbuilt, ?_⟩
  rintro ⟨hrep, -⟩
  rw [hreplaced] at hrep
  cases hrep

/-- A PATCH that restarts ICE. -/
def restartRequest : PatchRequest where
  contentType := "application/trickle-ice-sdpfrag"
  ifMatch := some "*"
  body := "a=ice-ufrag:abcd\r\na=ice-pwd:efgh\r\n"

/-- Two restarts one after the other: the first one's description is emitted when gathering
    completes, the second one's after the delay. -/
def restartedTwice : List RestartEvent :=
  [.patch restartRequest "" true true, .answer 0 (some "a=ice-ufrag:1\r\n") true,
    .iceGatheringComplete, .post 0,
    .patch restartRequest "" true true, .answer 0 (some "a=ice-ufrag:2\r\n") true,
    .task 1, .post 0]

theorem restarts_answered_restartedTwice :
    ∃ s, iceRestarts.run restartedTwice = some s ∧
      s.sessions.map PatchSession.builtFrom = [some 0, some 1] ∧ RestartsAnswered s :=
  ⟨_, rfl, rfl, restarts_answered restartedTwice _ (by decide) rfl⟩

/-- The second restart comes in before the first one's description is emitted, which then
    goes to the second session; the first one times out. -/
def restartedTogether : List RestartEvent :=
  [.patch restartRequest "" true true, .answer 0 (some "a=ice-ufrag:1\r\n") true,
    .patch restartRequest "" true true, .iceGatheringComplete, .post 0, .timeout 0]

/-- One client gets the other's credentials, and the other one gets none. -/
theorem not_restartsAnswered_restartedTogether :
    ∃ s, iceRestarts.run restartedTogether = some s ∧
      (s.sessions.map fun session => session.response.map fun r => (r.status, r.etag)) =
        [some (503, none), some (200, some "\"1\"")] ∧
      s.sessions.map PatchSession.builtFrom = [none, some 0] ∧ ¬ RestartsAnswered s := by
  refine ⟨_, rfl, by decide, rfl, fun h => ?_⟩
  exact absurd ((h 1 _ rfl).1 0 rfl) (by decide)

end PiWebrtc.Signaling
