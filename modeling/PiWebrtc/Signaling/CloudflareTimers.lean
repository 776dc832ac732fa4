import PiWebrtc.Signaling.CloudflareConnections

namespace PiWebrtc.Signaling

open Transition

/-!
# What the timers of a publication do

The health check compares the publication that it was armed for with the current one; the
retry only looks whether the device publishes.  `StopPublishing` cancels both timers, so most
retries are aborted in time, but one whose handler is queued already finds no error, and by
then a wake may have started a fresh publication.

* `timers_own_iff` — the timers act on their own publication exactly in the runs in which no
  such late retry runs while the device publishes.
-/

namespace CloudflareDevice

/-- What is asked for: a timer restarts or stops publishing only in the publication at which
    it was armed. -/
def TimersOwn (s : CloudflareDevice) : Prop := ∀ act ∈ s.acts, act.armed = act.publication

instance (s : CloudflareDevice) : Decidable s.TimersOwn :=
  inferInstanceAs (Decidable (∀ act ∈ s.acts, _))

/-- The condition: a retry whose handler was queued when it was cancelled runs only when the
    service was stopped or does not publish. -/
def LateRetryIdle (s : CloudflareDevice) : DeviceEvent → Prop
  | .handler i _ _ => ∀ t ∈ s.timers[i]?, t.wait = .retry → t.phase = .late →
      s.stopped = true ∨ s.publishing = false
  | _ => True

instance (s : CloudflareDevice) : ∀ event, Decidable (s.LateRetryIdle event)
  | .handler i _ _ => inferInstanceAs (Decidable (∀ t ∈ s.timers[i]?, _ → _ → _))
  | .connect | .disconnect | .token _ _ | .opened | .message _ _ | .socketClosed _ _
  | .expire _ | .localOffer _ _ | .peerConnected _ | .peerFailed _ | .peerClosed _ | .post _
  | .connectedPost _ => isTrue trivial

/-! ### Waits and their publication -/

/-- A health check is armed for its own publication.  A retry that nobody has cancelled is
    one of the current publication, and a late one is of an older one. -/
def Owned (publication : ℕ) (t : ArmedWait) : Prop :=
  match t.wait with
  | .reconnect => True
  | .health p => t.armed = p
  | .retry => (t.live = true → t.armed = publication) ∧ (t.phase = .late → t.armed < publication)

/-- **The invariant.** -/
def WaitsOwned (s : CloudflareDevice) : Prop := ∀ t ∈ s.timers, Owned s.publication t

theorem owned_reconnect {p : ℕ} {t : ArmedWait} (ht : t.wait = .reconnect) : Owned p t := by
  unfold Owned
  rw [ht]
  trivial

theorem owned_health {p q : ℕ} {t : ArmedWait} (ht : t.wait = .health q) :
    Owned p t ↔ t.armed = q := by
  unfold Owned
  rw [ht]

theorem owned_retry {p : ℕ} {t : ArmedWait} (ht : t.wait = .retry) :
    Owned p t ↔
      (t.live = true → t.armed = p) ∧ (t.phase = .late → t.armed < p) := by
  unfold Owned
  rw [ht]

/-- For the other timers neither the publication nor the phase matters. -/
theorem owned_of_ne_retry {p q : ℕ} {t u : ArmedWait} (ht : t.wait ≠ .retry)
    (hwait : u.wait = t.wait) (harmed : u.armed = t.armed) (h : Owned p t) : Owned q u := by
  cases hw : t.wait with
  | reconnect => exact owned_reconnect (hwait.trans hw)
  | retry => exact absurd hw ht
  | health r =>
    rw [owned_health hw] at h
    rw [owned_health (hwait.trans hw), harmed]
    exact h

theorem armed_cancel (t : ArmedWait) : t.cancel.armed = t.armed := by
  unfold ArmedWait.cancel
  split <;> rfl

/-- Cancelled at the end of its publication, a retry is aborted or late. -/
theorem Owned.cancel {p : ℕ} {t : ArmedWait} (h : Owned p t) : Owned (p + 1) t.cancel := by
  by_cases ht : t.wait = .retry
  · obtain ⟨hlive, hlate⟩ := (owned_retry ht).mp h
    rw [owned_retry ((cancel_wait t).trans ht), armed_cancel]
    cases hphase : t.phase <;> simp [ArmedWait.cancel, ArmedWait.live, hphase] at hlive hlate ⊢
    all_goals omega
  · exact owned_of_ne_retry ht (cancel_wait t) (armed_cancel t) h

theorem not_live_cancel (t : ArmedWait) : t.cancel.live = false := by
  cases hphase : t.phase <;> simp [ArmedWait.cancel, ArmedWait.live, hphase]

theorem cancel_of_not_live {t : ArmedWait} (h : t.live = false) : t.cancel = t := by
  cases hphase : t.phase <;> simp [ArmedWait.cancel, ArmedWait.live, hphase] at h ⊢

/-- The time of a wait is over. -/
theorem WaitsOwned.expire {s : CloudflareDevice} (h : s.WaitsOwned) {i : ℕ} {t : ArmedWait}
    (ht : s.timers[i]? = some t) (hpending : t.phase = .pending) :
    WaitsOwned { s with timers := s.timers.modify i fun t => { t with phase := .ready } } := by
  intro u hu
  obtain ⟨j, hj⟩ := List.mem_iff_getElem?.mp hu
  rw [List.getElem?_modify, Option.map_eq_map, Option.map_eq_some_iff] at hj
  obtain ⟨v, hv, rfl⟩ := hj
  have hown : Owned s.publication v := h v (List.mem_of_getElem? hv)
  split
  case isTrue hij =>
    subst hij
    obtain rfl : t = v := Option.some.inj (ht.symm.trans hv)
    by_cases hwait : t.wait = .retry
    · obtain ⟨hlive, -⟩ := (owned_retry hwait).mp hown
      refine (owned_retry (by exact hwait)).mpr ⟨fun _ => hlive ?_, fun hlate => ?_⟩
      · simp [ArmedWait.live, hpending]
      · cases hlate
    · exact owned_of_ne_retry hwait rfl rfl hown
  case isFalse => exact hown

/-! ### What keeps the waits owned -/

/-- The waits stay owned, and no timer has acted. -/
structure KeepsWaits (s s' : CloudflareDevice) : Prop where
  owned : s.WaitsOwned → s'.WaitsOwned
  acts : s'.acts = s.acts

namespace KeepsWaits

variable {s t u : CloudflareDevice}

theorem refl (s : CloudflareDevice) : KeepsWaits s s := ⟨id, rfl⟩

theorem trans (h : KeepsWaits s t) (h' : KeepsWaits t u) : KeepsWaits s u :=
  ⟨h'.owned ∘ h.owned, h'.acts.trans h.acts⟩

variable (s)

theorem cancelTimer {timer : CloudflareTimer} (htimer : timer ≠ .retry) :
    KeepsWaits s (s.cancelTimer timer) := by
  refine ⟨fun h t ht => ?_, rfl⟩
  obtain ⟨t, ht', rfl⟩ := List.mem_map.mp ht
  split
  case isTrue hw =>
    have hne : t.wait ≠ .retry := by
      intro hwait
      rw [hwait] at hw
      exact htimer hw.symm
    exact owned_of_ne_retry hne (cancel_wait t) (armed_cancel t) (h t ht')
  case isFalse => exact h t ht'

/-- A wait of another timer than that of the retries. -/
theorem arm {w : CloudflareWait} (hw : w.timer ≠ .retry)
    (hnew : Owned s.publication { wait := w, armed := s.publication }) :
    KeepsWaits s (s.arm w) := by
  refine ⟨fun h t ht => ?_, rfl⟩
  rcases List.mem_append.mp ht with ht | ht
  · exact (cancelTimer s hw).owned h t ht
  · rw [List.mem_singleton.mp ht]
    exact hnew

/-- `StopPublishing` ends the publication, and with it its retries. -/
theorem stopPublishing : KeepsWaits s s.stopPublishing := by
  refine ⟨fun h t ht => ?_, rfl⟩
  have hhealth : (s.cancelTimer .health).WaitsOwned := (cancelTimer s (by decide)).owned h
  obtain ⟨t, ht', rfl⟩ := List.mem_map.mp ht
  have hown : Owned s.publication t := hhealth t ht'
  split
  case isTrue => exact hown.cancel
  -- the other waits have no publication of their own to end
  case isFalse hw =>
    refine owned_of_ne_retry ?_ rfl rfl hown
    intro hwait
    rw [hwait] at hw
    exact hw rfl

theorem stopPublishing_not_live {t : ArmedWait} (ht : t ∈ s.stopPublishing.timers)
    (hwait : t.wait = .retry) : t.live = false := by
  obtain ⟨t, -, rfl⟩ := List.mem_map.mp ht
  split
  case isTrue => exact not_live_cancel t
  case isFalse hw =>
    rw [if_neg hw] at hwait
    rw [hwait] at hw
    exact absurd rfl hw

/-- A retry is armed when no other one can be waiting. -/
theorem stopThenRetry : KeepsWaits s (s.stopPublishing.arm .retry) := by
  refine ⟨fun h t ht => ?_, rfl⟩
  rcases List.mem_append.mp ht with ht | ht
  · obtain ⟨t, ht', rfl⟩ := List.mem_map.mp ht
    have hown : Owned (s.publication + 1) t := (stopPublishing s).owned h t ht'
    split
    -- the retries before it are cancelled already, so cancelling them again does nothing
    case isTrue hw =>
      have hwait : t.wait = .retry := by
        cases hwait : t.wait <;> simp [hwait, CloudflareWait.timer] at hw ⊢
      rw [cancel_of_not_live (stopPublishing_not_live s ht' hwait)]
      exact hown
    case isFalse => exact hown
  · rw [List.mem_singleton.mp ht]
    exact ⟨fun _ => rfl, fun hlate => by cases hlate⟩

theorem acrossPublishing : AcrossPublishing KeepsWaits where
  frame h := by
    refine ⟨fun howned => ?_, h.acts⟩
    unfold WaitsOwned
    rw [h.timers, h.publication]
    exact howned
  trans := KeepsWaits.trans
  stopPublishing := stopPublishing
  stopThenRetry := stopThenRetry
  monitorPeer s := arm s CloudflareTimer.noConfusion rfl

theorem startConnection : KeepsWaits s s.startConnection := by
  unfold CloudflareDevice.startConnection CloudflareService.startConnection
  split <;> exact ⟨fun h => h, rfl⟩

theorem scheduleReconnect : KeepsWaits s s.scheduleReconnect := by
  unfold CloudflareDevice.scheduleReconnect
  split
  · exact .refl s
  · have hdrop : KeepsWaits s
        { s with reconnectPending := true, connection := s.connection + 1 }.dropSocket :=
      ⟨fun h => h, rfl⟩
    exact hdrop.trans (arm _ (by decide) trivial)

theorem disconnect : KeepsWaits s s.disconnect := by
  have hcancel : KeepsWaits s (s.cancelTimer .reconnect) := cancelTimer s (by decide)
  have hend := hcancel.trans (acrossPublishing.endPublishing _)
  exact hend.trans ⟨fun h => h, rfl⟩

theorem onToken (k : ℕ) (usable : Bool) : KeepsWaits s (s.onToken k usable) := by
  unfold CloudflareDevice.onToken
  split
  · exact .refl s
  · split
    · exact ⟨fun h => h, rfl⟩
    · exact scheduleReconnect s

theorem onSocketClosed (replaced : Bool) : KeepsWaits s (s.onSocketClosed replaced) := by
  have hdrop : KeepsWaits s s.dropSocket := ⟨fun h => h, rfl⟩
  unfold CloudflareDevice.onSocketClosed
  split
  · exact (hdrop.trans (acrossPublishing.endPublishing _)).trans (scheduleReconnect _)
  · exact hdrop.trans (scheduleReconnect _)

/-- Every event but the run of a handler. -/
theorem step {s s' : CloudflareDevice} {event : DeviceEvent}
    (hevent : ∀ i created down, event ≠ .handler i created down)
    (hstep : s.step event = some s') : KeepsWaits s s' := by
  by_cases hpeer : event.ofPeer = true
  · exact acrossPublishing.step hpeer hstep
  cases event with
  | connect =>
    cases hstep
    exact startConnection s
  | disconnect =>
    cases hstep
    exact disconnect s
  | token i usable =>
    obtain ⟨k, -, rfl⟩ := step_token hstep
    have htaken : KeepsWaits s { s with tokenRequests := s.tokenRequests.eraseIdx i } :=
      ⟨fun h => h, rfl⟩
    exact htaken.trans (onToken _ k usable)
  | opened =>
    obtain ⟨-, rfl⟩ := step_opened hstep
    exact ⟨fun h => h, rfl⟩
  | message k m =>
    obtain ⟨-, hstep⟩ := step_message hstep
    rcases hstep with ⟨-, rfl⟩ | ⟨-, rfl⟩
    · exact .refl s'
    · exact acrossPublishing.onMessage s m
  | socketClosed k replaced =>
    obtain ⟨-, hstep⟩ := step_socketClosed hstep
    have hfinish : KeepsWaits s (s.finishSocket k) := ⟨fun h => h, rfl⟩
    rcases hstep with ⟨-, rfl⟩ | ⟨-, rfl⟩
    · exact hfinish
    · exact hfinish.trans (onSocketClosed _ replaced)
  | expire i =>
    obtain ⟨t, ht, hpending, rfl⟩ := step_expire hstep
    exact ⟨fun h => h.expire ht hpending, rfl⟩
  | handler i created down => exact absurd rfl (hevent i created down)
  | _ => exact absurd rfl hpeer

end KeepsWaits

/-! ### The handlers -/

/-- The handler of a wait restarts or stops publishing. -/
def actsOn (s : CloudflareDevice) (down : Bool) (t : ArmedWait) : Bool :=
  !s.stopped &&
    match t.wait with
    | .reconnect => false
    | .retry => s.publishing
    | .health publication => publication = s.publication && (!s.peer || down)

/-- What a handler does to the waits, and when it acts. -/
theorem onTimer_spec (s : CloudflareDevice) (created down : Bool) (t : ArmedWait) :
    (s.WaitsOwned → (s.onTimer created down t).WaitsOwned) ∧
      (s.onTimer created down t).acts =
        if s.actsOn down t then ⟨t.armed, s.publication⟩ :: s.acts else s.acts := by
  have hacross := KeepsWaits.acrossPublishing
  unfold onTimer actsOn
  cases hwait : t.wait with
  | reconnect =>
    have hstart := KeepsWaits.startConnection s
    exact ⟨hstart.owned, by simpa using hstart.acts⟩
  | retry =>
    dsimp only
    split
    case isTrue hidle =>
      refine ⟨id, ?_⟩
      rcases hidle with h | h <;> simp [h]
    case isFalse hacts =>
      rw [not_or, Bool.not_eq_true, Bool.not_eq_false] at hacts
      have hstart := hacross.startPublishing (s.note t) created
      refine ⟨hstart.owned, ?_⟩
      rw [hstart.acts]
      simp [note, hacts]
  | health publication =>
    dsimp only
    split
    case isTrue hidle =>
      refine ⟨id, ?_⟩
      rcases hidle with h | h <;> simp [h]
    case isFalse hcur =>
      rw [not_or, Bool.not_eq_true, not_not] at hcur
      obtain ⟨hstopped, rfl⟩ := hcur
      split
      case isTrue hacts =>
        have hretry := hacross.retryPublishing (s.note t)
        refine ⟨hretry.owned, ?_⟩
        rw [hretry.acts]
        rcases hacts with h | h <;> simp [note, hstopped, h]
      case isFalse hhealthy =>
        rw [not_or, Bool.not_eq_false, Bool.not_eq_true] at hhealthy
        have hmonitor := hacross.monitorPeer s
        exact ⟨hmonitor.owned, by simpa [hhealthy] using hmonitor.acts⟩

/-- The handlers acted on their own publication, and this one does if it acts at all. -/
theorem timersOwn_onTimer {s : CloudflareDevice} (hown : s.TimersOwn) {created down : Bool}
    {t : ArmedWait} :
    (s.onTimer created down t).TimersOwn ↔ (s.actsOn down t = true → t.armed = s.publication) := by
  have hbefore : ∀ act ∈ s.acts, act.armed = act.publication := hown
  rw [TimersOwn, (onTimer_spec s created down t).2]
  -- the handler adds an entry to the history exactly if it acts
  split
  case isTrue hact => simpa [hact] using fun _ => hbefore
  case isFalse hact => simpa [hact] using hbefore

/-- A handler that finds no error acts on its own publication, unless it is a late retry. -/
theorem own_iff {s : CloudflareDevice} {t : ArmedWait} (hown : Owned s.publication t)
    (hphase : t.phase = .ready ∨ t.phase = .late) (down : Bool) :
    (s.actsOn down t = true → t.armed = s.publication) ↔
      (t.wait = .retry → t.phase = .late → s.stopped = true ∨ s.publishing = false) := by
  cases hwait : t.wait with
  | reconnect => simp [actsOn, hwait]
  | health publication =>
    have harmed := (owned_health hwait).mp hown
    simp only [actsOn, hwait, harmed, Bool.and_eq_true, decide_eq_true_eq, reduceCtorEq,
      IsEmpty.forall_iff, iff_true]
    exact fun h => h.2.1
  | retry =>
    obtain ⟨hlive, hlate⟩ := (owned_retry hwait).mp hown
    rcases hphase with hphase | hphase
    -- a retry that is still live is one of the current publication
    · have harmed := hlive (by simp [ArmedWait.live, hphase])
      simp [harmed, hphase]
    -- a late one is one of a publication before
    · have hne := (hlate hphase).ne
      simp only [actsOn, hwait, hphase, hne, Bool.and_eq_true, Bool.not_eq_true', imp_false,
        forall_const, not_and, Bool.not_eq_true]
      cases s.stopped <;> simp

/-- What an event does to the waits, and when it leaves the timers to their own. -/
theorem step_spec {s s' : CloudflareDevice} {event : DeviceEvent} (howned : s.WaitsOwned)
    (hstep : s.step event = some s') :
    s'.WaitsOwned ∧ (s.TimersOwn → (s'.TimersOwn ↔ s.LateRetryIdle event)) := by
  by_cases hevent : ∀ i created down, event ≠ .handler i created down
  · have hkeeps := KeepsWaits.step hevent hstep
    refine ⟨hkeeps.owned howned, fun hown => iff_of_true ?_ ?_⟩
    · unfold TimersOwn
      rw [hkeeps.acts]
      exact hown
    · cases event with
      | handler i created down => exact absurd rfl (hevent i created down)
      | _ => trivial
  · push Not at hevent
    obtain ⟨i, created, down, rfl⟩ := hevent
    obtain ⟨t, ht, hstep⟩ := step_handler hstep
    have hrest : (s.takeWait i).WaitsOwned :=
      fun u hu => howned u (List.mem_of_mem_eraseIdx hu)
    have hidle : s.LateRetryIdle (.handler i created down) ↔
        (t.wait = .retry → t.phase = .late → s.stopped = true ∨ s.publishing = false) := by
      simp [LateRetryIdle, ht]
    rw [hidle]
    -- the handler finds that its wait was cancelled, or it runs
    rcases hstep with ⟨haborted, rfl⟩ | ⟨hphase, rfl⟩
    · refine ⟨hrest, fun hown => iff_of_true hown fun _ hlate => ?_⟩
      rw [haborted] at hlate
      cases hlate
    · refine ⟨(onTimer_spec (s.takeWait i) created down t).1 hrest, fun hown => ?_⟩
      have hbefore : (s.takeWait i).TimersOwn := hown
      rw [timersOwn_onTimer hbefore]
      exact own_iff (howned t (List.mem_of_getElem? ht)) hphase down

end CloudflareDevice

open CloudflareDevice in
/-- **Timers act on their own publication** throughout a run exactly if no retry whose handler
    was queued when it was cancelled runs while the device publishes. -/
theorem timers_own_iff (as : List DeviceEvent) (s : CloudflareDevice)
    (hrun : cloudflareDevice.run as = some s) :
    cloudflareDevice.Always TimersOwn cloudflareDevice.init as ↔
      cloudflareDevice.Guarded LateRetryIdle cloudflareDevice.init as := by
  refine Machine.always_iff_guarded (I := WaitsOwned) ?_ ?_ ?_ ?_ hrun
  · intro t event t' howned _ hstep _
    exact (step_spec howned hstep).1
  · intro t event t' howned hown hstep
    exact (step_spec howned hstep).2 hown
  · intro t ht
    cases ht
  · intro act hact
    cases hact

/-- The worker refuses an offer, and the time of the retry is over.  Before its handler runs
    the viewers leave, and maybe one comes back. -/
def refusedOffer (back : List DeviceEvent) : List DeviceEvent :=
  [.connect, .token 0 true, .opened, .message 1 (.joined false), .message 1 (.wake true),
   .localOffer 1 true, .post 0, .message 1 (.error "offer" .other), .expire 1,
   .message 1 .sleep] ++ back ++ [.handler 1 true false]

open CloudflareDevice in
theorem timers_own_iff_refusedOffer :
    (∃ s, cloudflareDevice.run (refusedOffer []) = some s ∧ s.acts = []) ∧
      (cloudflareDevice.Always TimersOwn cloudflareDevice.init (refusedOffer []) ↔
        cloudflareDevice.Guarded LateRetryIdle cloudflareDevice.init (refusedOffer [])) :=
  ⟨⟨_, rfl, rfl⟩, timers_own_iff (refusedOffer []) _ rfl⟩

open CloudflareDevice in
/-- The retry of publication 2 ends publication 4, which the wake has just begun. -/
theorem not_timersOwn_refusedOffer :
    ∃ s, cloudflareDevice.run (refusedOffer [.message 1 (.wake true)]) = some s ∧
      s.acts = [⟨2, 4⟩] ∧ s.peers = [5, 4, 1] ∧ ¬ TimersOwn s :=
  ⟨_, rfl, rfl, rfl, by decide⟩

end PiWebrtc.Signaling
