import PiWebrtc.Signaling.CloudflareConnections
import Mathlib.Data.List.Perm.Basic

namespace PiWebrtc.Signaling

open Transition

/-!
# The device is a service

`CloudflareDevice` adds the phases of the waits, the sockets that may still call back and the
states of the peers to `CloudflareService`.  Seen through `service`, which forgets them, every
event of the device is an event of the service or none at all, as long as Connect comes first
and the worker replies only to offers.  So what is shown of the runs of the service holds of
these runs of the device.

* `service_step` — one event.
* `run_refines` — a run of the device is one of the service.
-/

namespace CloudflareDevice

/-- The device as a service: a wait of a timer is one until its handler has run. -/
def service (s : CloudflareDevice) : CloudflareService :=
  { s.toCloudflareService with waits := s.timers.map ArmedWait.wait }

/-! ### The handlers -/

section Service

variable (s : CloudflareDevice)

/-- What is seen of a timer that is cancelled: nothing. -/
@[simp] theorem service_cancelTimer (timer : CloudflareTimer) :
    (s.cancelTimer timer).service = s.service := by
  have hwaits : (s.cancelTimer timer).timers.map ArmedWait.wait = s.timers.map ArmedWait.wait := by
    unfold cancelTimer
    rw [List.map_map]
    refine List.map_congr_left fun t _ => ?_
    show (if t.wait.timer = timer then t.cancel else t).wait = t.wait
    split
    · exact cancel_wait t
    · rfl
  unfold service
  rw [hwaits]
  rfl

/-- Arming a timer is waiting. -/
@[simp] theorem service_arm (w : CloudflareWait) : (s.arm w).service = s.service.wait w := by
  have hcancel := congrArg CloudflareService.waits (s.service_cancelTimer w.timer)
  have hwaits : (s.arm w).timers.map ArmedWait.wait = s.timers.map ArmedWait.wait ++ [w] := by
    show ((s.cancelTimer w.timer).timers ++ [_]).map ArmedWait.wait = _
    rw [List.map_append]
    exact congrArg (· ++ [w]) hcancel
  unfold service
  rw [hwaits]
  rfl

/-- The token of the connection that is started. -/
@[simp] theorem service_startConnection :
    s.startConnection.service = s.service.startConnection := by
  unfold service startConnection CloudflareService.startConnection
  dsimp only
  split <;> rfl

/-- The wait for the next connection. -/
@[simp] theorem service_scheduleReconnect :
    s.scheduleReconnect.service = s.service.scheduleReconnect := by
  unfold scheduleReconnect
  rw [apply_ite service, service_arm]
  rfl

/-- A token opens a socket, or the next connection is waited for. -/
@[simp] theorem service_onToken (connection : ℕ) (usable : Bool) :
    (s.onToken connection usable).service = s.service.onToken connection usable := by
  unfold onToken
  rw [apply_ite service, apply_ite service, service_scheduleReconnect]
  rfl

/-- The health check is cancelled, and the retry. -/
@[simp] theorem service_stopPublishing :
    s.stopPublishing.service = s.service.stopPublishing := by
  have hcancel := ((s.cancelTimer .health).service_cancelTimer .retry).trans
    (s.service_cancelTimer .health)
  exact congrArg CloudflareService.stopPublishing hcancel

@[simp] theorem service_endPublishing : s.endPublishing.service = s.service.endPublishing :=
  congrArg (fun r : CloudflareService => { r with publishing := false }) s.service_stopPublishing

/-- The wait for the next attempt. -/
@[simp] theorem service_retryPublishing :
    s.retryPublishing.service = s.service.retryPublishing := by
  unfold retryPublishing
  rw [apply_ite service, service_arm, service_stopPublishing]
  rfl

/-- The health check that starts with it. -/
@[simp] theorem service_publish : s.publish.service = s.service.publish := by
  unfold publish
  rw [service_arm]
  rfl

/-- A publication, if the peer could be created. -/
@[simp] theorem service_startPublishing (created : Bool) :
    (s.startPublishing created).service = s.service.startPublishing created := by
  unfold startPublishing
  rw [apply_ite service, service_publish, service_retryPublishing, service_stopPublishing]
  rfl

/-- All timers are cancelled. -/
@[simp] theorem service_disconnect : s.disconnect.service = s.service.disconnect := by
  have hend := (s.cancelTimer .reconnect).service_endPublishing
  rw [service_cancelTimer] at hend
  exact congrArg (fun r : CloudflareService =>
    { r.dropSocket with stopped := true, connection := s.connection + 1 }) hend

/-- The wait after a socket that was closed. -/
@[simp] theorem service_onSocketClosed (replaced : Bool) :
    (s.onSocketClosed replaced).service = s.service.onSocketClosed replaced := by
  unfold onSocketClosed
  rw [apply_ite service, service_scheduleReconnect, service_scheduleReconnect,
    service_endPublishing]
  rfl

@[simp] theorem service_onJoined (sleeping : Bool) :
    (s.onJoined sleeping).service = s.service.onJoined sleeping := by
  unfold onJoined CloudflareService.onJoined
  dsimp only
  rw [apply_ite service, apply_ite service, apply_ite service, service_endPublishing]
  cases hpub : s.publishing with
  | false => simp [service, hpub]
  | true => cases sleeping <;> simp [service, hpub, sendReady]

/-- The answer is for the offer that the device takes it for. -/
@[simp] theorem service_onAnswer (generation : ℕ) :
    (s.onAnswer generation).service = s.service.onAnswer s.repliedOffer generation := by
  unfold onAnswer service CloudflareService.onAnswer
  dsimp only
  split <;> rfl

/-- So is the error. -/
@[simp] theorem service_onOfferError (code : ErrorCode) :
    (s.onOfferError code).service = s.service.onOfferError s.repliedOffer code := by
  unfold onOfferError
  rw [apply_ite service, apply_ite service, service_endPublishing, service_retryPublishing]
  rfl

/-- **A posted handler** is seen as that of the service. -/
@[simp] theorem service_runPost (p : CloudflarePost) :
    (s.runPost p).service = s.service.runPost p := by
  cases p with
  | offer publication tracks =>
    show (s.onLocalOffer publication tracks).service = s.service.onLocalOffer publication tracks
    unfold onLocalOffer
    rw [apply_ite service, apply_ite service, apply_ite service, service_retryPublishing]
    rfl
  | failed publication =>
    unfold runPost
    rw [apply_ite service, service_retryPublishing]
    rfl

/-- To report a connected peer is nothing to the service. -/
@[simp] theorem service_onPeerConnected (publication : ℕ) :
    (s.onPeerConnected publication).service = s.service := by
  unfold onPeerConnected
  split
  · rfl
  · split <;> rfl

/-- **A wait that is over** is seen as that of the service. -/
@[simp] theorem service_onTimer (created down : Bool) (t : ArmedWait) :
    (s.onTimer created down t).service = s.service.onTimer created down t.wait := by
  obtain ⟨w, phase, armed⟩ := t
  cases w with
  | reconnect => exact s.service_startConnection
  | retry =>
    unfold onTimer
    rw [apply_ite service, service_startPublishing]
    rfl
  | health publication =>
    unfold onTimer
    rw [apply_ite service, apply_ite service, service_retryPublishing, service_arm]
    rfl

end Service

/-! ### A change of one element -/

section Modify

variable {α : Type*} {f : α → α}

/-- What is not seen may change. -/
theorem map_modify_of_eq {β : Type*} {g : α → β} (hf : ∀ a, g (f a) = g a)
    (l : List α) (i : ℕ) : (l.modify i f).map g = l.map g := by
  refine List.ext_getElem? fun j => ?_
  rw [List.getElem?_map, List.getElem?_map, List.getElem?_modify]
  cases l[j]? with
  | none => rfl
  | some a =>
    show some (g (if i = j then f a else a)) = some (g a)
    split
    · rw [hf]
    · rfl

/-- What is not counted may change. -/
theorem countP_modify {p : α → Bool} {l : List α} {i : ℕ}
    (h : ∀ a, l[i]? = some a → p (f a) = p a) : (l.modify i f).countP p = l.countP p := by
  induction l generalizing i with
  | nil => rw [List.modify_nil]
  | cons a l ih =>
    cases i with
    | zero =>
      rw [List.modify_zero_cons, List.countP_cons, List.countP_cons, h a rfl]
    | succ i =>
      have hrest : (l.modify i f).countP p = l.countP p := ih fun b hb => h b (by simpa using hb)
      rw [List.modify_succ_cons, List.countP_cons, List.countP_cons, hrest]

end Modify

/-! ### What keeps the two together -/

/-- The condition: Connect comes first, and a reply that is looked at is one to an offer. -/
def AsService (s : CloudflareDevice) : DeviceEvent → Prop
  | .connect => s = {}
  | .message connection (.answer _) => connection = s.connection → s.outstanding ≠ []
  | .message connection (.error request code) =>
    connection = s.connection → CloudflareService.isReply request code = true → s.outstanding ≠ []
  | _ => True

/-- The waits of the reconnect timer whose handler will find no error. -/
def comingReconnects (s : CloudflareDevice) : ℕ :=
  s.reconnects.countP fun t => t.phase ≠ .aborted

/-- **The invariant.** The socket is the one of the current connection, and nothing else is on
    its way while it is there; a handler that will start a connection is the one that the
    service waits for. -/
structure SocketAlone (s : CloudflareDevice) : Prop where
  current : ∀ w ∈ s.socket,
    s.stopped = false ∧ s.reconnectPending = false ∧ w.connection = s.connection
  coming : s.stopped = false → s.comingReconnects ≤ if s.reconnectPending then 1 else 0

namespace SocketAlone

variable {s s' : CloudflareDevice}

/-- A device that was not started has no socket. -/
theorem init : SocketAlone cloudflareDevice.init where
  current w hw := absurd hw (Option.not_mem_none w)
  coming _ := le_rfl

/-- What leaves the connection alone keeps the invariant. -/
theorem of_links (h : SocketAlone s) (hlinks : SameLinks s s') : SocketAlone s' where
  current w hw := by
    rw [hlinks.socket] at hw
    rw [hlinks.stopped, hlinks.reconnectPending, hlinks.connection]
    exact h.current w hw
  coming hstopped := by
    rw [hlinks.stopped] at hstopped
    rw [comingReconnects, hlinks.reconnects, hlinks.reconnectPending]
    exact h.coming hstopped

/-- While no reconnect is pending, none comes. -/
theorem none_coming (h : SocketAlone s) (hstopped : s.stopped = false)
    (hpending : s.reconnectPending = false) : s.comingReconnects = 0 := by
  have hcoming := h.coming hstopped
  rw [hpending, if_neg Bool.false_ne_true] at hcoming
  exact Nat.le_zero.mp hcoming

/-- A cancelled wait that was aborted stays aborted. -/
theorem cancel_phase {t : ArmedWait} (h : t.phase = .aborted) : t.cancel.phase = .aborted := by
  unfold ArmedWait.cancel
  rw [h]
  exact h

/-- Where no reconnect is coming, `ScheduleReconnect` makes one. -/
theorem comingReconnects_arm (h : s.comingReconnects = 0) :
    (s.arm .reconnect).comingReconnects = 1 := by
  have hnone : ∀ t ∈ s.timers, t.wait = .reconnect → t.phase = .aborted := by
    intro t ht hwait
    have hall := List.countP_eq_zero.mp h t (List.mem_filter.mpr ⟨ht, decide_eq_true hwait⟩)
    simpa using hall
  have hcancelled : (s.cancelTimer .reconnect).comingReconnects = 0 := by
    refine List.countP_eq_zero.mpr fun t ht => ?_
    obtain ⟨hmem, hwait⟩ := List.mem_filter.mp ht
    obtain ⟨t', ht', rfl⟩ := List.mem_map.mp hmem
    rw [decide_eq_true_eq] at hwait
    by_cases htimer : t'.wait.timer = .reconnect
    · rw [if_pos htimer, cancel_wait] at hwait
      rw [if_pos htimer]
      simpa using cancel_phase (hnone t' ht' hwait)
    · rw [if_neg htimer] at hwait
      rw [hwait] at htimer
      exact absurd rfl htimer
  have hadd : (s.arm .reconnect).reconnects
      = (s.cancelTimer .reconnect).reconnects ++ [{ wait := .reconnect, armed := s.publication }] :=
    List.filter_append ..
  rw [comingReconnects, hadd, List.countP_append]
  show (s.cancelTimer .reconnect).comingReconnects + 1 = 1
  rw [hcancelled]

/-- An attempt that is given up leaves one reconnect to come. -/
theorem scheduleReconnect (hstopped : s.stopped = false) (hpending : s.reconnectPending = false)
    (hnone : s.comingReconnects = 0) : SocketAlone s.scheduleReconnect := by
  rw [scheduleReconnect_of hstopped hpending]
  exact ⟨fun w hw => absurd hw (Option.not_mem_none w), fun _ => (comingReconnects_arm hnone).le⟩

theorem comingReconnects_eq (s : CloudflareDevice) : s.comingReconnects
    = s.timers.countP fun t => t.phase ≠ .aborted && t.wait = .reconnect := by
  rw [comingReconnects, reconnects, List.countP_filter]

/-- A wait that is over is no longer coming. -/
theorem comingReconnects_takeWait {i : ℕ} {t : ArmedWait} (ht : s.timers[i]? = some t) :
    s.comingReconnects = (s.takeWait i).comingReconnects
      + if t.phase ≠ .aborted && t.wait = .reconnect then 1 else 0 := by
  obtain ⟨hlt, hget⟩ := List.getElem?_eq_some_iff.mp ht
  rw [comingReconnects_eq, comingReconnects_eq,
    ← (List.getElem_cons_eraseIdx_perm hlt).countP_eq, List.countP_cons, hget]
  rfl

/-- Taking a wait keeps the socket alone. -/
theorem takeWait (h : SocketAlone s) {i : ℕ} {t : ArmedWait} (ht : s.timers[i]? = some t) :
    SocketAlone (s.takeWait i) := by
  refine ⟨h.current, fun hstopped => ?_⟩
  have hle := h.coming hstopped
  rw [comingReconnects_takeWait ht] at hle
  exact (Nat.le_add_right _ _).trans hle

/-- The wait for a reconnect is over.  It was the only one to come, so there is no socket. -/
theorem reconnect (h : SocketAlone s) {i : ℕ} {t : ArmedWait} (ht : s.timers[i]? = some t)
    (hphase : t.phase ≠ .aborted) (hwait : t.wait = .reconnect) (hstopped : s.stopped = false) :
    SocketAlone { s.takeWait i with
      reconnectPending := false, connection := s.connection + 1
      tokenRequests := s.tokenRequests ++ [s.connection + 1] } := by
  have hle := h.coming hstopped
  rw [comingReconnects_takeWait ht, if_pos (by simp [hphase, hwait])] at hle
  have hpending : s.reconnectPending = true := by
    by_contra hnot
    rw [if_neg hnot] at hle
    omega
  rw [if_pos hpending] at hle
  refine ⟨fun w hw => ?_, fun _ => Nat.le_of_add_le_add_right hle⟩
  obtain ⟨-, hnot, -⟩ := h.current w hw
  rw [hpending] at hnot
  cases hnot

/-- So does what is done when it is over. -/
theorem onTimer (h : SocketAlone s) {i : ℕ} {t : ArmedWait} (ht : s.timers[i]? = some t)
    (hphase : t.phase ≠ .aborted) (created down : Bool) :
    SocketAlone ((s.takeWait i).onTimer created down t) := by
  by_cases hwait : t.wait = .reconnect
  · have hstart : (s.takeWait i).onTimer created down t = (s.takeWait i).startConnection := by
      simp only [CloudflareDevice.onTimer, hwait]
    rw [hstart]
    unfold startConnection CloudflareService.startConnection
    split
    case isTrue => exact h.takeWait ht
    case isFalse hrun => exact h.reconnect ht hphase hwait (Bool.eq_false_iff.mpr hrun)
  · exact (h.takeWait ht).of_links (SameLinks.onTimer _ created down hwait)

/-- Every event keeps the invariant. -/
theorem step (hc : ConnectionInv s) (h : SocketAlone s) {event : DeviceEvent}
    (hg : AsService s event) (hstep : s.step event = some s') : SocketAlone s' := by
  by_cases hpeer : event.ofPeer = true
  · exact h.of_links (SameLinks.acrossPublishing.step hpeer hstep)
  cases event with
  | connect =>
    cases hg
    cases hstep
    exact ⟨fun w hw => absurd hw (Option.not_mem_none w), fun _ => Nat.zero_le _⟩
  | disconnect =>
    cases hstep
    exact ⟨fun w hw => absurd hw (Option.not_mem_none w), fun hstopped => Bool.noConfusion hstopped⟩
  | token i usable =>
    obtain ⟨k, hk, rfl⟩ := step_token hstep
    have hasked := List.mem_of_getElem? hk
    unfold onToken
    split_ifs with hold
    · exact ⟨h.current, h.coming⟩
    all_goals
      rw [not_or, not_not] at hold
      obtain ⟨hrun, rfl⟩ := hold
      have hstopped := Bool.eq_false_iff.mpr hrun
      obtain ⟨hpending, -⟩ := hc.asking hasked
    · refine ⟨fun w hw => ?_, h.coming⟩
      cases hw
      exact ⟨hstopped, hpending, rfl⟩
    · exact scheduleReconnect hstopped hpending (h.none_coming hstopped hpending)
  | opened =>
    obtain ⟨-, rfl⟩ := step_opened hstep
    refine ⟨fun w hw => ?_, h.coming⟩
    obtain ⟨w', hw', rfl⟩ := Option.map_eq_some_iff.mp hw
    exact h.current w' hw'
  | message k m =>
    obtain ⟨-, hstep⟩ := step_message hstep
    rcases hstep with ⟨-, rfl⟩ | ⟨-, rfl⟩
    · exact h
    · exact h.of_links (SameLinks.acrossPublishing.onMessage s m)
  | socketClosed k replaced =>
    obtain ⟨hk, hstep⟩ := step_socketClosed hstep
    rcases hstep with ⟨-, rfl⟩ | ⟨⟨hstopped, rfl⟩, rfl⟩
    · refine ⟨fun w hw => ?_, h.coming⟩
      obtain ⟨w', hw', rfl⟩ := Option.map_eq_some_iff.mp hw
      have hcur := h.current w' hw'
      split <;> exact hcur
    · obtain ⟨hpending, -⟩ := hc.holding hk
      have hnone := h.none_coming hstopped hpending
      unfold onSocketClosed
      split
      · refine scheduleReconnect hstopped hpending ?_
        rw [comingReconnects, (SameLinks.acrossPublishing.endPublishing _).reconnects]
        exact hnone
      · exact scheduleReconnect hstopped hpending hnone
  | expire i =>
    obtain ⟨t, ht, hphase, rfl⟩ := step_expire hstep
    refine ⟨h.current, ?_⟩
    rw [comingReconnects_eq, countP_modify, ← comingReconnects_eq]
    · exact h.coming
    · intro t' ht'
      obtain rfl := Option.some.inj (ht.symm.trans ht')
      simp [hphase]
  | handler i created down =>
    obtain ⟨t, ht, hstep⟩ := step_handler hstep
    rcases hstep with ⟨-, rfl⟩ | ⟨hphase, rfl⟩
    · exact h.takeWait ht
    · refine h.onTimer ht ?_ created down
      rcases hphase with hphase | hphase <;> simp [hphase]
  | _ => exact absurd rfl hpeer

end SocketAlone

/-! ### Every event is one of the service, or none -/

section Step

variable {s s' : CloudflareDevice}

/-- A socket that may still report messages on the current connection is open. -/
theorem service_receives (hc : ConnectionInv s) (hrun : s.stopped = false)
    (hopened : s.connection ∈ s.sockets) (hopen : s.socket ≠ some ⟨s.connection, false⟩) :
    s.service.receives = true := by
  obtain ⟨-, isOpen, hsocket⟩ := hc.holding hopened
  cases isOpen with
  | false => exact absurd hsocket hopen
  | true =>
    show (!s.stopped && decide (s.socket = some ⟨s.connection, true⟩)) = true
    rw [hrun, hsocket]
    simp

/-- A message of the worker is one to the service, unless it is none that the service
    handles. -/
theorem service_onMessage (hrec : s.service.receives = true) {m : WorkerMessage}
    (hg : AsService s (.message s.connection m)) :
    (s.onMessage m).service = s.service ∨
      ∃ event, s.service.step event = some (s.onMessage m).service := by
  have hreplied : s.outstanding ≠ [] → s.service.outstanding.head? = some s.repliedOffer := by
    intro hne
    obtain ⟨o, rest, heq⟩ := List.exists_cons_of_ne_nil hne
    show s.outstanding.head? = some (s.outstanding.head?.getD _)
    rw [heq]
    rfl
  cases m with
  | joined sleeping =>
    exact .inr ⟨.joined sleeping,
      (if_pos hrec).trans (congrArg some (s.service_onJoined sleeping).symm)⟩
  | wake created =>
    refine .inr ⟨.wake created, (if_pos hrec).trans (congrArg some ?_)⟩
    exact (service_startPublishing { s with publishing := true } created).symm
  | sleep =>
    exact .inr ⟨.sleep, (if_pos hrec).trans (congrArg some s.service_endPublishing.symm)⟩
  | answer generation =>
    refine .inr ⟨.answer generation, (if_pos hrec).trans ?_⟩
    rw [hreplied (hg rfl)]
    exact congrArg some (s.service_onAnswer generation).symm
  | error request code =>
    by_cases hreply : CloudflareService.isReply request code = true
    · refine .inr ⟨.error request code, ?_⟩
      have hhandled : s.onMessage (.error request code) = s.onOfferError code := if_pos hreply
      rw [hhandled, service_onOfferError]
      unfold CloudflareService.step
      dsimp only
      rw [if_neg (by simp [hrec]), if_pos hreply, hreplied (hg rfl hreply)]
      rfl
    · left
      have hhandled : s.onMessage (.error request code) = s := if_neg hreply
      rw [hhandled]
  | other => exact .inl rfl

/-- The close of a socket that the service does not have is nothing to it. -/
theorem service_finishSocket (h : SocketAlone s) {k : ℕ}
    (hold : s.stopped ∨ k ≠ s.connection) : (s.finishSocket k).service = s.service := by
  have hsame : (s.finishSocket k).socket = s.socket := by
    show s.socket.map _ = s.socket
    cases hsocket : s.socket with
    | none => rfl
    | some w =>
      obtain ⟨hrun, -, hconn⟩ := h.current w hsocket
      have hne : w.connection ≠ k := by
        rw [hrun] at hold
        rw [hconn]
        exact (hold.resolve_left Bool.false_ne_true).symm
      rw [Option.map_some, if_neg hne]
  show { s.service with socket := (s.finishSocket k).socket } = s.service
  rw [hsame]
  rfl

/-- **One event.** -/
theorem service_step (hc : ConnectionInv s) (h : SocketAlone s) {event : DeviceEvent}
    (hg : AsService s event) (hstep : s.step event = some s') :
    s'.service = s.service ∨ ∃ event', s.service.step event' = some s'.service := by
  cases event with
  | connect =>
    cases hstep
    exact .inr ⟨.connect, congrArg some s.service_startConnection.symm⟩
  | disconnect =>
    cases hstep
    exact .inr ⟨.disconnect, congrArg some s.service_disconnect.symm⟩
  | token i usable =>
    obtain ⟨k, hk, rfl⟩ := step_token hstep
    refine .inr ⟨.token i usable, Option.map_eq_some_iff.mpr ⟨k, hk, ?_⟩⟩
    rw [service_onToken]
    rfl
  | opened =>
    obtain ⟨⟨w, hsocket⟩, rfl⟩ := step_opened hstep
    refine .inr ⟨.opened, Option.map_eq_some_iff.mpr ⟨w, hsocket, ?_⟩⟩
    show { s.service with socket := some { w with isOpen := true } }
      = { s.service with socket := s.socket.map fun w => { w with isOpen := true } }
    rw [hsocket]
    rfl
  | message k m =>
    obtain ⟨⟨hopened, hopen⟩, hstep⟩ := step_message hstep
    rcases hstep with ⟨-, rfl⟩ | ⟨⟨hrun, rfl⟩, rfl⟩
    · -- a callback of an older connection is ignored
      exact .inl rfl
    · exact service_onMessage (service_receives hc hrun hopened hopen) hg
  | socketClosed k replaced =>
    obtain ⟨hopened, hstep⟩ := step_socketClosed hstep
    rcases hstep with ⟨hold, rfl⟩ | ⟨⟨hrun, rfl⟩, rfl⟩
    · exact .inl (service_finishSocket h hold)
    · obtain ⟨-, isOpen, hsocket⟩ := hc.holding hopened
      have hany : s.service.socket.any (fun w => w.connection = s.service.connection) = true := by
        show s.socket.any _ = true
        rw [hsocket]
        simp [service]
      refine .inr ⟨.closed replaced, (if_pos ⟨hrun, hany⟩).trans ?_⟩
      rw [service_onSocketClosed]
      rfl
  | expire i =>
    obtain ⟨t, -, -, rfl⟩ := step_expire hstep
    have hwaits : (s.timers.modify i fun t => { t with phase := .ready }).map ArmedWait.wait
        = s.timers.map ArmedWait.wait := by
      apply map_modify_of_eq
      intro t
      rfl
    -- the service does not see how far a wait has come
    left
    exact congrArg (fun waits => { s.toCloudflareService with waits := waits }) hwaits
  | handler i created down =>
    obtain ⟨t, ht, hstep⟩ := step_handler hstep
    -- the wait has the same place in the service
    have hwait : s.service.waits[i]? = some t.wait := by
      show (s.timers.map ArmedWait.wait)[i]? = _
      rw [List.getElem?_map, ht]
      rfl
    have hrest : (s.takeWait i).service
        = { s.service with waits := s.service.waits.eraseIdx i } := by
      unfold service
      rw [List.eraseIdx_map]
      rfl
    rcases hstep with ⟨-, rfl⟩ | ⟨-, rfl⟩
    · -- the handler finds that its wait was cancelled
      refine .inr ⟨.timer i false created down, Option.map_eq_some_iff.mpr ⟨_, hwait, ?_⟩⟩
      exact hrest.symm
    · refine .inr ⟨.timer i true created down, Option.map_eq_some_iff.mpr ⟨_, hwait, ?_⟩⟩
      rw [service_onTimer, hrest]
      rfl
  | localOffer publication tracks =>
    obtain ⟨hpeer, rfl⟩ := step_localOffer hstep
    exact .inr ⟨.localOffer publication tracks, if_pos hpeer⟩
  | peerConnected publication =>
    -- neither the state of the peer nor the task is one of the service
    obtain ⟨-, hstep⟩ := step_peerConnected hstep
    rcases hstep with ⟨-, rfl⟩ | ⟨-, rfl⟩ <;> exact .inl rfl
  | peerFailed publication =>
    obtain ⟨hpeer, hstep⟩ := step_peerFailed hstep
    rcases hstep with ⟨-, rfl⟩ | ⟨-, rfl⟩ <;>
      exact .inr ⟨.peerFailed publication, if_pos hpeer⟩
  | peerClosed publication =>
    cases step_peerClosed hstep
    exact .inl rfl
  | post i =>
    obtain ⟨p, hp, rfl⟩ := step_post hstep
    refine .inr ⟨.post i, Option.map_eq_some_iff.mpr ⟨p, hp, ?_⟩⟩
    rw [service_runPost]
    rfl
  | connectedPost i =>
    obtain ⟨publication, -, rfl⟩ := step_connectedPost hstep
    exact .inl (service_onPeerConnected _ publication)

end Step

/-- **The device refines the service.** Where Connect comes first and the worker replies only
    to offers, a run of the device is one of the service. -/
theorem run_refines {events : List DeviceEvent} {s : CloudflareDevice}
    (hg : cloudflareDevice.Guarded AsService cloudflareDevice.init events)
    (hrun : cloudflareDevice.run events = some s) :
    ∃ events', cloudflareService.run events' = some s.service := by
  refine Machine.exists_run_of_simulates service (P := fun s => ConnectionInv s ∧ SocketAlone s)
    (fun s event s' h hg hstep => ?_) ⟨ConnectionInv.init, SocketAlone.init⟩ hg hrun
  obtain ⟨hc, h⟩ := h
  exact ⟨⟨hc.step hstep, SocketAlone.step hc h hg hstep⟩, service_step hc h hg hstep⟩

end CloudflareDevice

end PiWebrtc.Signaling
