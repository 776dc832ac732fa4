import PiWebrtc.Signaling.CloudflareDevice

namespace PiWebrtc.Signaling

open Transition

/-!
# One connection attempt at a time

Token requests, sockets and the reconnect timer carry the number of the connection that they
were started for, and the number goes up where an attempt is given up or begun.  The
publishing side does not touch any of this (`SameLinks`), so the invariant is about the few
functions under `StartConnection`, `OpenSocket` and `ScheduleReconnect`.

* `one_attempt` — between Connect and Disconnect the service waits for its reconnect timer,
  or for the token, or holds the socket of its connection, and never two of these.
-/

namespace CloudflareDevice

/-- `reconnect_pending_`. -/
def ReconnectComes (s : CloudflareDevice) : Prop := s.reconnectPending = true

/-- A token request of the current connection is in flight. -/
def TokenComes (s : CloudflareDevice) : Prop := s.connection ∈ s.tokenRequests

/-- `socket_` is the socket of the current connection, which has not reported a close. -/
def SocketHeld (s : CloudflareDevice) : Prop :=
  s.connection ∈ s.sockets ∧ ∃ isOpen, s.socket = some ⟨s.connection, isOpen⟩

/-- What is asked for: exactly one of the three.  While `reconnect_pending_` is set, the
    timer is really armed, and no number is asked for twice. -/
structure OneAttempt (s : CloudflareDevice) : Prop where
  one : s.ReconnectComes ∧ ¬ s.TokenComes ∧ ¬ s.SocketHeld ∨
    ¬ s.ReconnectComes ∧ s.TokenComes ∧ ¬ s.SocketHeld ∨
    ¬ s.ReconnectComes ∧ ¬ s.TokenComes ∧ s.SocketHeld
  armed : s.ReconnectComes → ∃ t ∈ s.timers, t.wait = .reconnect ∧ t.live
  asked_once : s.tokenRequests.Nodup

/-- What is asked for of late callbacks: one of an older connection changes nothing in the
    service.  The request is answered, or the socket has finished, and that is all. -/
def OlderIgnored (s : CloudflareDevice) : Prop :=
  ∀ connection, connection < s.connection →
    (∀ i usable, s.tokenRequests[i]? = some connection →
      s.step (.token i usable) = some { s with tokenRequests := s.tokenRequests.eraseIdx i }) ∧
    (∀ m s', s.step (.message connection m) = some s' → s' = s) ∧
    (∀ replaced s', s.step (.socketClosed connection replaced) = some s' →
      s' = s.finishSocket connection)

/-! ### The publishing side leaves the connection alone -/

/-- The waits of the reconnect timer. -/
def reconnects (s : CloudflareDevice) : List ArmedWait :=
  s.timers.filter fun t => t.wait = .reconnect

/-- Everything about the connection is the same. -/
structure SameLinks (s s' : CloudflareDevice) : Prop where
  stopped : s'.stopped = s.stopped
  reconnectPending : s'.reconnectPending = s.reconnectPending
  connection : s'.connection = s.connection
  socket : s'.socket = s.socket
  tokenRequests : s'.tokenRequests = s.tokenRequests
  sockets : s'.sockets = s.sockets
  reconnects : s'.reconnects = s.reconnects

namespace SameLinks

variable {s t u : CloudflareDevice}

theorem refl (s : CloudflareDevice) : SameLinks s s := ⟨rfl, rfl, rfl, rfl, rfl, rfl, rfl⟩

theorem trans (h : SameLinks s t) (h' : SameLinks t u) : SameLinks s u where
  stopped := h'.stopped.trans h.stopped
  reconnectPending := h'.reconnectPending.trans h.reconnectPending
  connection := h'.connection.trans h.connection
  socket := h'.socket.trans h.socket
  tokenRequests := h'.tokenRequests.trans h.tokenRequests
  sockets := h'.sockets.trans h.sockets
  reconnects := h'.reconnects.trans h.reconnects

end SameLinks

theorem cancel_wait (t : ArmedWait) : t.cancel.wait = t.wait := by
  unfold ArmedWait.cancel
  split <;> rfl

theorem reconnects_cancelTimer (s : CloudflareDevice) {timer : CloudflareTimer}
    (htimer : timer ≠ .reconnect) : (s.cancelTimer timer).reconnects = s.reconnects := by
  unfold reconnects cancelTimer
  induction s.timers with
  | nil => rfl
  | cons t timers ih =>
    rw [List.map_cons, List.filter_cons, List.filter_cons, ih]
    by_cases ht : t.wait = .reconnect
    · have hother : t.wait.timer ≠ timer := by
        rw [ht]
        exact htimer.symm
      rw [if_neg hother]
    · have hwait : (if t.wait.timer = timer then t.cancel else t).wait = t.wait := by
        split
        · exact cancel_wait t
        · rfl
      rw [if_neg (by simpa [hwait] using ht), if_neg (by simpa using ht)]

namespace SameLinks

variable (s : CloudflareDevice)

theorem cancelTimer {timer : CloudflareTimer} (htimer : timer ≠ .reconnect) :
    SameLinks s (s.cancelTimer timer) :=
  ⟨rfl, rfl, rfl, rfl, rfl, rfl, reconnects_cancelTimer s htimer⟩

theorem arm {w : CloudflareWait} (hw : w ≠ .reconnect) (htimer : w.timer ≠ .reconnect) :
    SameLinks s (s.arm w) := by
  refine ⟨rfl, rfl, rfl, rfl, rfl, rfl, ?_⟩
  have hadd : (s.arm w).reconnects
      = (s.cancelTimer w.timer).reconnects ++ [{ wait := w, armed := s.publication }].filter
          fun t : ArmedWait => t.wait = .reconnect :=
    List.filter_append ..
  rw [hadd, reconnects_cancelTimer s htimer]
  simp [hw]

theorem stopPublishing : SameLinks s s.stopPublishing :=
  ⟨rfl, rfl, rfl, rfl, rfl, rfl,
    (reconnects_cancelTimer (s.cancelTimer .health) (by decide)).trans
      (reconnects_cancelTimer s (by decide))⟩

/-- The publishing side does not touch the connection. -/
theorem acrossPublishing : AcrossPublishing SameLinks where
  frame h := by
    refine ⟨h.stopped, h.reconnectPending, h.connection, h.socket, h.tokenRequests, h.sockets, ?_⟩
    unfold CloudflareDevice.reconnects
    rw [h.timers]
  trans := SameLinks.trans
  stopPublishing := stopPublishing
  stopThenRetry s := (stopPublishing s).trans (arm _ (by decide) (by decide))
  monitorPeer s := arm s CloudflareWait.noConfusion CloudflareTimer.noConfusion

/-- The handlers of the health and the retry timer. -/
theorem onTimer (created down : Bool) {t : ArmedWait} (ht : t.wait ≠ .reconnect) :
    SameLinks s (s.onTimer created down t) := by
  have hnote : SameLinks s (s.note t) := ⟨rfl, rfl, rfl, rfl, rfl, rfl, rfl⟩
  unfold CloudflareDevice.onTimer
  split
  case h_1 hwait => exact absurd hwait ht
  case h_2 =>
    split
    · exact .refl s
    · exact hnote.trans (acrossPublishing.startPublishing _ created)
  case h_3 publication _ =>
    split
    · exact .refl s
    · split
      · exact hnote.trans (acrossPublishing.retryPublishing _)
      · exact arm s CloudflareWait.noConfusion CloudflareTimer.noConfusion

end SameLinks

/-! ### The connection -/

/-- The numbers in flight are not above the current one, and none is asked for twice. -/
structure Numbered (s : CloudflareDevice) : Prop where
  asked : ∀ k ∈ s.tokenRequests, k ≤ s.connection
  opened : ∀ k ∈ s.sockets, k ≤ s.connection
  asked_once : s.tokenRequests.Nodup

/-- **The invariant.** A token that comes or a socket that is held excludes the other two,
    and a service that runs and was connected once has one of the three. -/
structure ConnectionInv (s : CloudflareDevice) : Prop extends Numbered s where
  asking : s.TokenComes → s.reconnectPending = false ∧ s.connection ∉ s.sockets
  holding : s.connection ∈ s.sockets →
    s.reconnectPending = false ∧ ∃ isOpen, s.socket = some ⟨s.connection, isOpen⟩
  attempt : s.stopped = false → 0 < s.connection →
    s.ReconnectComes ∨ s.TokenComes ∨ s.connection ∈ s.sockets
  armed : s.stopped = false → s.ReconnectComes → ∃ t ∈ s.reconnects, t.live = true

theorem mem_eraseIdx_of_ne {α : Type*} {l : List α} {i : ℕ} {x y : α} (hy : l[i]? = some y)
    (hx : x ∈ l) (hne : x ≠ y) : x ∈ l.eraseIdx i := by
  obtain ⟨j, hj⟩ := List.mem_iff_getElem?.mp hx
  refine List.mem_eraseIdx_iff_getElem?.mpr ⟨j, ?_, hj⟩
  rintro rfl
  exact hne (Option.some.inj (hj.symm.trans hy))

theorem not_mem_eraseIdx {α : Type*} {l : List α} {i : ℕ} {x : α} (hl : l.Nodup)
    (hx : l[i]? = some x) : x ∉ l.eraseIdx i := by
  intro hmem
  obtain ⟨j, hji, hj⟩ := List.mem_eraseIdx_iff_getElem?.mp hmem
  obtain ⟨hlt, -⟩ := List.getElem?_eq_some_iff.mp hj
  exact hji ((List.getElem?_inj hlt hl).mp (hj.trans hx.symm))

namespace ConnectionInv

variable {s s' : CloudflareDevice}

theorem init : ConnectionInv cloudflareDevice.init where
  asked k h := by cases h
  opened k h := by cases h
  asked_once := List.nodup_nil
  asking h := by cases h
  holding h := by cases h
  attempt _ h := absurd h (lt_irrefl 0)
  armed _ h := by cases h

/-- **Frame.** What leaves the connection alone keeps the invariant. -/
theorem of_links (h : ConnectionInv s) (hlinks : SameLinks s s') : ConnectionInv s' := by
  obtain ⟨hstopped, hpending, hconn, hsocket, htokens, hsockets, htimers⟩ := hlinks
  refine ⟨⟨?_, ?_, ?_⟩, ?_, ?_, ?_, ?_⟩
  · rw [htokens, hconn]
    exact h.asked
  · rw [hsockets, hconn]
    exact h.opened
  · rw [htokens]
    exact h.asked_once
  · rw [TokenComes, htokens, hconn, hpending, hsockets]
    exact h.asking
  · rw [hsockets, hconn, hpending, hsocket]
    exact h.holding
  · rw [ReconnectComes, TokenComes, hstopped, hconn, hpending, htokens, hsockets]
    exact h.attempt
  · rw [ReconnectComes, hstopped, hpending, htimers]
    exact h.armed

end ConnectionInv

namespace Numbered

variable {s : CloudflareDevice}

/-- Another place for the numbers in flight. -/
theorem of_subset {s' : CloudflareDevice} (h : Numbered s) (hconn : s.connection ≤ s'.connection)
    (htokens : s'.tokenRequests.Sublist s.tokenRequests) (hsockets : s'.sockets ⊆ s.sockets) :
    Numbered s' where
  asked k hk := (h.asked k (htokens.subset hk)).trans hconn
  opened k hk := (h.opened k (hsockets hk)).trans hconn
  asked_once := h.asked_once.sublist htokens

/-- With a new number nothing in flight is current. -/
theorem next_not_mem (h : Numbered s) :
    s.connection + 1 ∉ s.tokenRequests ∧ s.connection + 1 ∉ s.sockets := by
  constructor
  · intro hk
    exact absurd (h.asked _ hk) (by omega)
  · intro hk
    exact absurd (h.opened _ hk) (by omega)

/-- `ScheduleReconnect` gives up the attempt of the current number. -/
theorem scheduleReconnect (h : Numbered s) (hstopped : s.stopped = false)
    (hpending : s.reconnectPending = false) : ConnectionInv s.scheduleReconnect := by
  obtain ⟨htoken, hsocket⟩ := h.next_not_mem
  -- under the new number nothing has been asked for, and the timer is all that is to come
  rw [scheduleReconnect_of hstopped hpending]
  refine ⟨h.of_subset (Nat.le_succ _) (List.Sublist.refl _) (List.Subset.refl _), ?_, ?_, ?_, ?_⟩
  · intro hmem
    exact absurd hmem htoken
  · intro hmem
    exact absurd hmem hsocket
  · intro _ _
    exact .inl rfl
  · intro _ _
    refine ⟨{ wait := .reconnect, armed := s.publication }, ?_, rfl⟩
    exact List.mem_filter.mpr ⟨List.mem_append_right _ (List.mem_singleton.mpr rfl), rfl⟩

/-- `StartConnection` begins an attempt with a number of its own. -/
theorem startConnection (h : Numbered s) (hstopped : s.stopped = false) :
    ConnectionInv s.startConnection := by
  obtain ⟨htoken, hsocket⟩ := h.next_not_mem
  have hstart : s.startConnection = { s with
      reconnectPending := false
      connection := s.connection + 1
      tokenRequests := s.tokenRequests ++ [s.connection + 1] } := by
    simp [CloudflareDevice.startConnection, CloudflareService.startConnection, hstopped]
  rw [hstart]
  refine ⟨⟨?_, ?_, ?_⟩, ?_, ?_, ?_, ?_⟩
  · intro k hk
    rcases List.mem_append.mp hk with hk | hk
    · exact (h.asked k hk).trans (Nat.le_succ _)
    · exact (List.mem_singleton.mp hk).le
  · intro k hk
    exact (h.opened k hk).trans (Nat.le_succ _)
  -- the request is numbered past all the others
  · refine List.nodup_append.mpr ⟨h.asked_once, List.pairwise_singleton _ _, ?_⟩
    rintro k hk k' hk' rfl
    exact htoken (List.mem_singleton.mp hk' ▸ hk)
  · intro _
    exact ⟨rfl, hsocket⟩
  · intro hmem
    exact absurd hmem hsocket
  · intro _ _
    exact .inr (.inl (List.mem_append_right _ (List.mem_singleton.mpr rfl)))
  · intro _ hpending
    cases hpending

end Numbered

namespace ConnectionInv

variable {s s' : CloudflareDevice}

theorem startConnection (h : ConnectionInv s) : ConnectionInv s.startConnection := by
  by_cases hstopped : s.stopped = true
  · have hsame : s.startConnection = s := by
      simp [CloudflareDevice.startConnection, CloudflareService.startConnection, hstopped]
    rw [hsame]
    exact h
  · exact h.toNumbered.startConnection (Bool.eq_false_iff.mpr hstopped)

theorem disconnect (h : ConnectionInv s) : ConnectionInv s.disconnect := by
  obtain ⟨htoken, hsocket⟩ := h.next_not_mem
  refine ⟨h.of_subset (Nat.le_succ _) (List.Sublist.refl _) (List.Subset.refl _), ?_, ?_, ?_, ?_⟩
  · intro hmem
    exact absurd hmem htoken
  · intro hmem
    exact absurd hmem hsocket
  · intro hstopped
    cases hstopped
  · intro hstopped
    cases hstopped

/-- A token response takes its request away, and the attempt goes on with a socket or is
    given up. -/
theorem token (h : ConnectionInv s) {i k : ℕ} (hk : s.tokenRequests[i]? = some k)
    (usable : Bool) :
    ConnectionInv ({ s with tokenRequests := s.tokenRequests.eraseIdx i }.onToken k usable) := by
  have hnum : Numbered { s with tokenRequests := s.tokenRequests.eraseIdx i } :=
    h.of_subset le_rfl (List.eraseIdx_sublist ..) (List.Subset.refl _)
  unfold onToken
  split
  case isTrue hold =>
    refine ⟨hnum, ?_, h.holding, ?_, h.armed⟩
    · intro hmem
      exact h.asking (List.mem_of_mem_eraseIdx hmem)
    · -- the response is not the current one, whose request stays
      intro hstopped hpos
      have hne : s.connection ≠ k := by
        rcases hold with hold | hold
        · rw [hstopped] at hold
          cases hold
        · exact Ne.symm hold
      exact (h.attempt hstopped hpos).imp_right (Or.imp_left fun hmem =>
        mem_eraseIdx_of_ne hk hmem hne)
  case isFalse hcur =>
    rw [not_or, not_not] at hcur
    obtain ⟨hrun, hcurrent⟩ := hcur
    have hk' : s.tokenRequests[i]? = some s.connection := hk.trans (congrArg some hcurrent)
    obtain ⟨hpending, hsocket⟩ := h.asking (List.mem_of_getElem? hk')
    have hgone : s.connection ∉ s.tokenRequests.eraseIdx i := not_mem_eraseIdx h.asked_once hk'
    split
    · refine ⟨⟨hnum.asked, ?_, hnum.asked_once⟩, ?_, ?_, ?_, ?_⟩
      · intro j hj
        rcases List.mem_append.mp hj with hj | hj
        · exact h.opened j hj
        · exact (List.mem_singleton.mp hj ▸ hcurrent).le
      · intro hmem
        exact absurd hmem hgone
      · intro _
        exact ⟨hpending, false, congrArg (fun c => some (WorkerSocket.mk c false)) hcurrent⟩
      · intro _ _
        refine .inr (.inr (List.mem_append_right _ ?_))
        exact List.mem_singleton.mpr hcurrent.symm
      · exact h.armed
    · exact hnum.scheduleReconnect (Bool.eq_false_iff.mpr hrun) hpending

/-- A socket of an older connection reports its close. -/
theorem finishSocket (h : ConnectionInv s) {k : ℕ} (hold : s.stopped = true ∨ k ≠ s.connection) :
    ConnectionInv (s.finishSocket k) := by
  have hnum : Numbered (s.finishSocket k) :=
    h.of_subset le_rfl (List.Sublist.refl _) (List.filter_subset_self _)
  refine ⟨hnum, ?_, ?_, ?_, h.armed⟩
  · intro hmem
    obtain ⟨hpending, hsocket⟩ := h.asking hmem
    exact ⟨hpending, fun hin => hsocket (List.mem_filter.mp hin).1⟩
  · intro hmem
    obtain ⟨hmem, hne⟩ := List.mem_filter.mp hmem
    obtain ⟨hpending, isOpen, hsocket⟩ := h.holding hmem
    have hne' : s.connection ≠ k := of_decide_eq_true hne
    exact ⟨hpending, isOpen, by simp [CloudflareDevice.finishSocket, hsocket, hne']⟩
  · intro hstopped hpos
    have hne : s.connection ≠ k := by
      rcases hold with hold | hold
      · have hstopped' : s.stopped = false := hstopped
        rw [hstopped'] at hold
        cases hold
      · exact Ne.symm hold
    refine (h.attempt hstopped hpos).imp_right (Or.imp_right fun hmem => ?_)
    exact List.mem_filter.mpr ⟨hmem, decide_eq_true hne⟩

/-- The socket of the current connection reports its close. -/
theorem onSocketClosed (h : ConnectionInv s) (hstopped : s.stopped = false)
    (hmem : s.connection ∈ s.sockets) (replaced : Bool) :
    ConnectionInv ((s.finishSocket s.connection).onSocketClosed replaced) := by
  have hnum : Numbered (s.finishSocket s.connection) :=
    h.of_subset le_rfl (List.Sublist.refl _) (List.filter_subset_self _)
  obtain ⟨hpending, -⟩ := h.holding hmem
  unfold CloudflareDevice.onSocketClosed
  split
  · exact Numbered.scheduleReconnect
      (hnum.of_subset le_rfl (List.Sublist.refl _) (List.Subset.refl _)) hstopped hpending
  · exact Numbered.scheduleReconnect
      (hnum.of_subset le_rfl (List.Sublist.refl _) (List.Subset.refl _)) hstopped hpending

/-- Waits come and go; a live one of the reconnect timer is there as long as it is needed. -/
theorem of_waits (h : ConnectionInv s) {timers : List ArmedWait} {waits : List CloudflareWait}
    (harmed : s.stopped = false → ∀ t ∈ s.timers, t.wait = .reconnect → t.live = true →
      ∃ t' ∈ timers, t'.wait = .reconnect ∧ t'.live = true) :
    ConnectionInv { s with timers := timers, waits := waits } := by
  refine ⟨h.toNumbered.of_subset le_rfl (List.Sublist.refl _) (List.Subset.refl _),
    h.asking, h.holding, h.attempt, ?_⟩
  intro hstopped hpending
  obtain ⟨t, ht, hlive⟩ := h.armed hstopped hpending
  obtain ⟨hmem, hwait⟩ := List.mem_filter.mp ht
  obtain ⟨t', ht', hwait', hlive'⟩ := harmed hstopped t hmem (of_decide_eq_true hwait) hlive
  exact ⟨t', List.mem_filter.mpr ⟨ht', decide_eq_true hwait'⟩, hlive'⟩

theorem expire (h : ConnectionInv s) (i : ℕ) :
    ConnectionInv { s with timers := s.timers.modify i fun t => { t with phase := .ready } } := by
  refine h.of_waits fun _ t ht hwait hlive => ?_
  obtain ⟨j, hj⟩ := List.mem_iff_getElem?.mp ht
  have hj' : (s.timers.modify i fun t => { t with phase := .ready })[j]?
      = some (if i = j then { t with phase := .ready } else t) := by
    rw [List.getElem?_modify, hj]
    rfl
  refine ⟨_, List.mem_of_getElem? hj', ?_⟩
  split
  · exact ⟨hwait, rfl⟩
  · exact ⟨hwait, hlive⟩

/-- A wait is over that is not the one that is needed: one of another timer, or an aborted
    one. -/
theorem takeWait (h : ConnectionInv s) {i : ℕ} {t : ArmedWait} (ht : s.timers[i]? = some t)
    (hother : t.wait = .reconnect → t.live = false) : ConnectionInv (s.takeWait i) := by
  refine h.of_waits fun _ t' ht' hwait hlive => ⟨t', ?_, hwait, hlive⟩
  refine mem_eraseIdx_of_ne ht ht' ?_
  rintro rfl
  rw [hother hwait] at hlive
  cases hlive

/-- A handler runs, and its wait is over. -/
theorem onTimer (h : ConnectionInv s) {i : ℕ} {t : ArmedWait} (ht : s.timers[i]? = some t)
    (created down : Bool) : ConnectionInv ((s.takeWait i).onTimer created down t) := by
  by_cases hwait : t.wait = .reconnect
  · have hstart : (s.takeWait i).onTimer created down t = (s.takeWait i).startConnection := by
      simp only [CloudflareDevice.onTimer, hwait]
    rw [hstart]
    by_cases hstopped : s.stopped = true
    · have hrest : ConnectionInv (s.takeWait i) := h.of_waits fun hrun => by
        rw [hstopped] at hrun
        cases hrun
      exact hrest.startConnection
    · have hnum : Numbered (s.takeWait i) :=
        h.toNumbered.of_subset le_rfl (List.Sublist.refl _) (List.Subset.refl _)
      exact hnum.startConnection (Bool.eq_false_iff.mpr hstopped)
  · exact (h.takeWait ht fun hw => absurd hw hwait).of_links
      (SameLinks.onTimer _ created down hwait)

/-- Every event keeps the invariant. -/
theorem step (h : ConnectionInv s) {event : DeviceEvent}
    (hstep : s.step event = some s') : ConnectionInv s' := by
  by_cases hpeer : event.ofPeer = true
  · exact h.of_links (SameLinks.acrossPublishing.step hpeer hstep)
  cases event with
  | connect =>
    cases hstep
    exact h.startConnection
  | disconnect =>
    cases hstep
    exact h.disconnect
  | token i usable =>
    obtain ⟨k, hk, rfl⟩ := step_token hstep
    exact h.token hk usable
  | opened =>
    obtain ⟨-, rfl⟩ := step_opened hstep
    refine ⟨h.toNumbered.of_subset le_rfl (List.Sublist.refl _) (List.Subset.refl _),
      h.asking, ?_, h.attempt, h.armed⟩
    intro hmem
    obtain ⟨hpending, isOpen, hsocket⟩ := h.holding hmem
    exact ⟨hpending, true, by rw [hsocket]; rfl⟩
  | message k m =>
    obtain ⟨-, ⟨-, rfl⟩ | ⟨-, rfl⟩⟩ := step_message hstep
    · exact h
    · exact h.of_links (SameLinks.acrossPublishing.onMessage s m)
  | socketClosed k replaced =>
    obtain ⟨hk, ⟨hold, rfl⟩ | ⟨⟨hrun, rfl⟩, rfl⟩⟩ := step_socketClosed hstep
    · exact h.finishSocket hold
    · exact h.onSocketClosed hrun hk replaced
  | expire i =>
    obtain ⟨t, -, -, rfl⟩ := step_expire hstep
    exact h.expire i
  | handler i created down =>
    obtain ⟨t, ht, ⟨haborted, rfl⟩ | ⟨-, rfl⟩⟩ := step_handler hstep
    · exact h.takeWait ht fun _ => by simp [ArmedWait.live, haborted]
    · exact h.onTimer ht created down
  | _ => exact absurd rfl hpeer

/-- The state of a service that runs and was connected. -/
theorem oneAttempt (h : ConnectionInv s) (hstopped : s.stopped = false) (hpos : 0 < s.connection) :
    OneAttempt s := by
  refine ⟨?_, ?_, h.asked_once⟩
  · by_cases hsocket : s.connection ∈ s.sockets
    · obtain ⟨hpending, hheld⟩ := h.holding hsocket
      refine .inr (.inr ⟨?_, fun htoken => (h.asking htoken).2 hsocket, hsocket, hheld⟩)
      simp [ReconnectComes, hpending]
    · have hnone : ¬ s.SocketHeld := fun hheld => hsocket hheld.1
      by_cases htoken : s.TokenComes
      · refine .inr (.inl ⟨?_, htoken, hnone⟩)
        simp [ReconnectComes, (h.asking htoken).1]
      · have hpending := (h.attempt hstopped hpos).resolve_right (not_or.mpr ⟨htoken, hsocket⟩)
        exact .inl ⟨hpending, htoken, hnone⟩
  · intro hpending
    obtain ⟨t, ht, hlive⟩ := h.armed hstopped hpending
    obtain ⟨hmem, hwait⟩ := List.mem_filter.mp ht
    exact ⟨t, hmem, of_decide_eq_true hwait, hlive⟩

end ConnectionInv

/-! ### Every run -/

/-- The number of the connection does not go down, and only Disconnect stops the service. -/
structure Progress (s s' : CloudflareDevice) : Prop where
  connection : s.connection ≤ s'.connection
  stopped : s'.stopped = s.stopped

namespace Progress

variable {s t u : CloudflareDevice}

theorem of_links (h : SameLinks s t) : Progress s t := ⟨h.connection.ge, h.stopped⟩

theorem trans (h : Progress s t) (h' : Progress t u) : Progress s u :=
  ⟨h.connection.trans h'.connection, h'.stopped.trans h.stopped⟩

theorem startConnection (s : CloudflareDevice) : Progress s s.startConnection := by
  unfold CloudflareDevice.startConnection CloudflareService.startConnection
  split
  · exact ⟨le_rfl, rfl⟩
  · exact ⟨Nat.le_succ _, rfl⟩

theorem scheduleReconnect (s : CloudflareDevice) : Progress s s.scheduleReconnect := by
  unfold CloudflareDevice.scheduleReconnect
  split
  · exact ⟨le_rfl, rfl⟩
  · exact ⟨Nat.le_succ _, rfl⟩

theorem onToken (s : CloudflareDevice) (k : ℕ) (usable : Bool) :
    Progress s (s.onToken k usable) := by
  unfold CloudflareDevice.onToken
  split
  · exact ⟨le_rfl, rfl⟩
  · split
    · exact ⟨le_rfl, rfl⟩
    · exact scheduleReconnect s

theorem onSocketClosed (s : CloudflareDevice) (replaced : Bool) :
    Progress s (s.onSocketClosed replaced) := by
  unfold CloudflareDevice.onSocketClosed
  split
  · have hend : Progress s s.dropSocket.endPublishing := ⟨le_rfl, rfl⟩
    exact hend.trans (scheduleReconnect _)
  · have hdrop : Progress s s.dropSocket := ⟨le_rfl, rfl⟩
    exact hdrop.trans (scheduleReconnect _)

theorem onTimer (s : CloudflareDevice) (created down : Bool) (t : ArmedWait) :
    Progress s (s.onTimer created down t) := by
  by_cases hwait : t.wait = .reconnect
  · simp only [CloudflareDevice.onTimer, hwait]
    exact startConnection s
  · exact of_links (.onTimer s created down hwait)

theorem step {event : DeviceEvent} (hevent : event ≠ .disconnect) (hstep : s.step event = some t) :
    Progress s t := by
  by_cases hpeer : event.ofPeer = true
  · exact of_links (SameLinks.acrossPublishing.step hpeer hstep)
  cases event with
  | connect =>
    cases hstep
    exact startConnection s
  | disconnect => exact absurd rfl hevent
  | token i usable =>
    obtain ⟨k, -, rfl⟩ := step_token hstep
    have htaken : Progress s { s with tokenRequests := s.tokenRequests.eraseIdx i } :=
      ⟨le_rfl, rfl⟩
    exact htaken.trans (onToken _ k usable)
  | opened =>
    obtain ⟨-, rfl⟩ := step_opened hstep
    exact ⟨le_rfl, rfl⟩
  | message k m =>
    obtain ⟨-, ⟨-, rfl⟩ | ⟨-, rfl⟩⟩ := step_message hstep
    · exact ⟨le_rfl, rfl⟩
    · exact of_links (SameLinks.acrossPublishing.onMessage s m)
  | socketClosed k replaced =>
    have hfinish : Progress s (s.finishSocket k) := ⟨le_rfl, rfl⟩
    obtain ⟨-, ⟨-, rfl⟩ | ⟨-, rfl⟩⟩ := step_socketClosed hstep
    · exact hfinish
    · exact hfinish.trans (onSocketClosed _ replaced)
  | expire i =>
    obtain ⟨t, -, -, rfl⟩ := step_expire hstep
    exact ⟨le_rfl, rfl⟩
  | handler i created down =>
    have htaken : Progress s (s.takeWait i) := ⟨le_rfl, rfl⟩
    obtain ⟨t, -, ⟨-, rfl⟩ | ⟨-, rfl⟩⟩ := step_handler hstep
    · exact htaken
    · exact htaken.trans (onTimer _ created down t)
  | _ => exact absurd rfl hpeer

/-- A run without a Disconnect. -/
theorem run {as : List DeviceEvent} (has : .disconnect ∉ as)
    (hrun : cloudflareDevice.runFrom s as = some t) : Progress s t := by
  have hguarded : cloudflareDevice.Guarded (fun _ a => True ∧ a ≠ .disconnect) s as := by
    refine Machine.guarded_and (Machine.guarded_of_forall (fun _ _ => trivial) s as) fun a ha => ?_
    rintro rfl
    exact has ha
  refine Machine.guarded_invariant ?_ ⟨le_rfl, rfl⟩ hguarded hrun
  intro u a u' hu ha hstep
  exact hu.trans (step ha.2 hstep)

end Progress

/-- A callback of an older connection is ignored in every state. -/
theorem olderIgnored (s : CloudflareDevice) : OlderIgnored s := by
  intro k hk
  have hold : s.stopped = true ∨ k ≠ s.connection := .inr hk.ne
  refine ⟨fun i usable hi => ?_, fun m s' hstep => ?_, fun replaced s' hstep => ?_⟩
  · simp only [step, hi, Option.map_some, onToken]
    rw [if_pos hold]
  · obtain ⟨-, ⟨-, rfl⟩ | ⟨⟨-, hcur⟩, -⟩⟩ := step_message hstep
    · rfl
    · exact absurd hcur hk.ne
  · obtain ⟨-, ⟨-, rfl⟩ | ⟨⟨-, hcur⟩, -⟩⟩ := step_socketClosed hstep
    · rfl
    · exact absurd hcur hk.ne

end CloudflareDevice

open CloudflareDevice in
/-- **One connection attempt.** In every run, after Connect and before Disconnect, exactly one
    of these holds: the reconnect timer is pending, the token request of the current
    connection is in flight, or the service holds the socket of the current connection.
    Callbacks of an older connection leave the service as it is. -/
theorem one_attempt (as : List DeviceEvent) (s : CloudflareDevice)
    (hrun : cloudflareDevice.run as = some s) (hconnect : .connect ∈ as)
    (hdisconnect : .disconnect ∉ as) : OneAttempt s ∧ OlderIgnored s := by
  refine ⟨?_, olderIgnored s⟩
  have hinv : ConnectionInv s :=
    Machine.run_invariant ConnectionInv.init (fun _ _ _ h hstep => h.step hstep) hrun
  obtain ⟨before, after, rfl⟩ := List.append_of_mem hconnect
  rw [List.mem_append, List.mem_cons, not_or, not_or] at hdisconnect
  obtain ⟨t, hbefore, hrest⟩ := Machine.runFrom_append.mp hrun
  obtain ⟨u, hu, hafter⟩ := cloudflareDevice.runFrom_cons_eq_some.mp hrest
  obtain rfl : t.startConnection = u := Option.some.inj hu
  -- Connect takes a new number, and no number is taken back
  have hrunning : t.stopped = false := (Progress.run hdisconnect.1 hbefore).stopped
  have hpos : 0 < t.startConnection.connection := by
    simp [startConnection, CloudflareService.startConnection, hrunning]
  have hstart := Progress.startConnection t
  have hend := Progress.run hdisconnect.2.2 hafter
  refine hinv.oneAttempt ?_ (hpos.trans_le hend.connection)
  exact (hend.stopped.trans hstart.stopped).trans hrunning

/-- The first token is refused; the second one leads to a socket, which the worker closes. -/
def refusedThenClosed : List DeviceEvent :=
  [.connect, .token 0 false, .expire 0, .handler 0 true false, .token 0 true, .opened,
   .socketClosed 3 false]

open CloudflareDevice in
theorem one_attempt_refusedThenClosed :
    ∃ s, cloudflareDevice.run refusedThenClosed = some s ∧ s.connection = 4 ∧
      s.reconnectPending = true ∧ OneAttempt s ∧ OlderIgnored s :=
  ⟨_, rfl, rfl, rfl, one_attempt refusedThenClosed _ rfl (by decide) (by decide)⟩

end PiWebrtc.Signaling
