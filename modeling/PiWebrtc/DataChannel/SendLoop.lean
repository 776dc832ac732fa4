import PiWebrtc.Lib.Machine

namespace PiWebrtc.DataChannel

open Transition

/-!
# The send queue and its loop

`SendBytes` frames a message and pushes it; `SendLoop`, on its own thread, takes one message
after the other, waits for room in the data channel's buffer and hands it over.  The steps
below are the locked sections and the single reads of `send_thread_running_`, of the
channel's state and of its buffered amount, in the source's order; a run is any interleaving
of them with calls of `SendBytes`, changes of the channel's state and `Terminate`.

* `queueKept_iff` — until the channel starts closing or the thread is stopped, nothing is
  lost and the loop does not end, exactly in the runs in which the loop never gets to its
  last look at the channel's state while the channel is still connecting.
-/

/-- The states of a data channel, in the order in which it goes through them. -/
inductive DataState where
  | connecting
  | open
  | closing
  | closed
  deriving DecidableEq, Repr

/-- How far a channel has come. -/
def DataState.rank : DataState → ℕ
  | .connecting => 0
  | .open => 1
  | .closing => 2
  | .closed => 3

/-- What stands before the channel starts closing. -/
def DataState.Early (st : DataState) : Prop := st = .connecting ∨ st = .open

/-- Where `SendLoop` is; `buf` is the message it holds. -/
inductive LoopPoint where
  /-- Waiting for a message, or for the thread to be stopped. -/
  | dequeue
  /-- The condition of the inner loop, one read after the other. -/
  | paceRunning (buf : List UInt8)
  | paceState (buf : List UInt8)
  | paceAmount (buf : List UInt8)
  /-- The condition of the return. -/
  | checkRunning (buf : List UInt8)
  | checkState (buf : List UInt8)
  /-- `data_channel->Send`. -/
  | send (buf : List UInt8)
  | ended
  deriving DecidableEq, Repr

/-- The message that the loop holds. -/
def LoopPoint.held : LoopPoint → Option (List UInt8)
  | .dequeue => none
  | .paceRunning buf => some buf
  | .paceState buf => some buf
  | .paceAmount buf => some buf
  | .checkRunning buf => some buf
  | .checkState buf => some buf
  | .send buf => some buf
  | .ended => none

/-- The loop is about to look at the channel's state for the last time. -/
def LoopPoint.isCheckState : LoopPoint → Bool
  | .checkState _ => true
  | _ => false

/-- The loop is about to hand its message over. -/
def LoopPoint.isSend : LoopPoint → Bool
  | .send _ => true
  | _ => false

/-- The sending side of an `RtcChannel`.  `accepted` and `handed` are history: what
    `SendBytes` pushed, and what was passed to the data channel in which state. -/
structure SendSide where
  queue : List (List UInt8) := []
  running : Bool := true
  state : DataState := .connecting
  loop : LoopPoint := .dequeue
  accepted : List (List UInt8) := []
  handed : List (List UInt8 × DataState) := []
  deriving DecidableEq, Repr

/-- What may happen next.  `amount` is what `buffered_amount()` says, if it is asked. -/
inductive SendLabel where
  | sendBytes (data : List UInt8)
  | state (st : DataState)
  | loop (amount : ℕ)
  | stop
  | close
  deriving DecidableEq, Repr

/-- The step is one of `SendLoop`. -/
def SendLabel.isLoop : SendLabel → Bool
  | .loop _ => true
  | _ => false

/-- What a channel is created with: its framing, and `MaxSendQueueSize()`. -/
structure SendConfig where
  encode : List UInt8 → List UInt8
  maxSendQueueSize : ℕ

namespace SendSide

/-- `SendBytes`.  A message that could not be framed is not sent. -/
def sendBytes (cfg : SendConfig) (s : SendSide) (data : List UInt8) : SendSide :=
  let framed := cfg.encode data
  if framed = [] then s
  else { s with queue := s.queue ++ [framed], accepted := s.accepted ++ [framed] }

/-- One step of `SendLoop`. -/
def loopStep (cfg : SendConfig) (s : SendSide) (amount : ℕ) : Option SendSide :=
  match s.loop with
  | .dequeue =>
    match s.queue with
    -- the wait ends with a message or with the end of the thread
    | [] => if s.running then none else some { s with loop := .ended }
    | buf :: rest => some { s with queue := rest, loop := .paceRunning buf }
  | .paceRunning buf =>
    some { s with loop := if s.running then .paceState buf else .checkRunning buf }
  | .paceState buf =>
    some { s with loop := if s.state = .open then .paceAmount buf else .checkRunning buf }
  | .paceAmount buf =>
    some { s with loop :=
      if amount + buf.length > cfg.maxSendQueueSize then .paceRunning buf else .checkRunning buf }
  | .checkRunning buf =>
    some { s with loop := if s.running then .checkState buf else .ended }
  -- the loop returns, with the message in its hands, in any state but open
  | .checkState buf =>
    some { s with loop := if s.state = .open then .send buf else .ended }
  | .send buf => some { s with loop := .dequeue, handed := s.handed ++ [(buf, s.state)] }
  | .ended => none

/-- One step.  `stop` and `close` are `Terminate` before and after the thread has been
    joined. -/
def step (cfg : SendConfig) (s : SendSide) : SendLabel → Option SendSide
  | .sendBytes data => some (s.sendBytes cfg data)
  | .state st => if s.state.rank < st.rank then some { s with state := st } else none
  | .loop amount => s.loopStep cfg amount
  | .stop => some { s with running := false }
  | .close =>
    if s.running = false ∧ s.loop = .ended then
      some { s with state := if s.state.rank < 2 then .closing else s.state }
    else none

end SendSide

/-- A channel from its creation on. -/
def sendMachine (cfg : SendConfig) : Machine SendSide SendLabel where
  init := {}
  step := SendSide.step cfg

/-- Until the channel starts closing or the thread is stopped, the loop goes on, and what
    was accepted is, in order, what was handed over, what the loop holds and the queue; what
    was handed over found the channel open. -/
def QueueKept (s : SendSide) : Prop :=
  s.state.Early → s.running = true →
    s.loop ≠ .ended ∧ s.accepted = s.handed.map Prod.fst ++ s.loop.held.toList ++ s.queue ∧
      ∀ x ∈ s.handed, x.2 = .open

/-- The loop does not take its last look at the state while the channel is still
    connecting. -/
def ChecksLate (s : SendSide) (a : SendLabel) : Prop :=
  a.isLoop = true ∧ s.loop.isCheckState = true ∧ s.running = true → s.state ≠ .connecting

instance (s : SendSide) (a : SendLabel) : Decidable (ChecksLate s a) :=
  inferInstanceAs (Decidable (_ → _))

/-! ### The invariant -/

/-- A channel that was open can only have gone on since then. -/
def DataState.BeenOpen (st now : DataState) : Prop := 1 ≤ st.rank ∧ st.rank ≤ now.rank

/-- As long as the loop goes on nothing is lost; it ends only when the thread was stopped
    or the channel has started closing; it sends only what found the channel open. -/
structure SendInv (s : SendSide) : Prop where
  kept : s.loop ≠ .ended →
    s.accepted = s.handed.map Prod.fst ++ s.loop.held.toList ++ s.queue
  ended : s.loop = .ended → s.running = false ∨ ¬ s.state.Early
  sending : s.loop.isSend = true → 1 ≤ s.state.rank
  handed : ∀ x ∈ s.handed, x.2.BeenOpen s.state

variable {cfg : SendConfig} {s s' : SendSide}

theorem DataState.early_iff {st : DataState} : st.Early ↔ st.rank ≤ 1 := by
  cases st <;> simp [DataState.Early, DataState.rank]

/-- What had been open and has not started closing is open. -/
theorem DataState.BeenOpen.eq_open {st now : DataState} (h : st.BeenOpen now)
    (hearly : now.Early) : st = .open := by
  have hle := DataState.early_iff.mp hearly
  obtain ⟨hlow, hhigh⟩ := h
  have hrank : st.rank = 1 := by omega
  cases st <;> first | rfl | simp [DataState.rank] at hrank

/-- The invariant is all that is asked for. -/
theorem SendInv.queueKept (h : SendInv s) : QueueKept s := by
  intro hearly hrun
  have hne : s.loop ≠ .ended := by
    intro hend
    rcases h.ended hend with hstop | hlate
    · rw [hstop] at hrun
      cases hrun
    · exact hlate hearly
  exact ⟨hne, h.kept hne, fun x hx => (h.handed x hx).eq_open hearly⟩

/-- `SendBytes` keeps the invariant. -/
theorem SendInv.sendBytes (h : SendInv s) (data : List UInt8) :
    SendInv (s.sendBytes cfg data) := by
  rw [SendSide.sendBytes]
  by_cases hempty : cfg.encode data = []
  · rw [if_pos hempty]
    exact h
  · rw [if_neg hempty]
    refine ⟨fun hne => ?_, h.ended, h.sending, h.handed⟩
    show s.accepted ++ [cfg.encode data] =
      s.handed.map Prod.fst ++ s.loop.held.toList ++ (s.queue ++ [cfg.encode data])
    rw [h.kept hne, List.append_assoc (s.handed.map Prod.fst ++ s.loop.held.toList)]

/-- The loop goes on with the message it holds. -/
theorem SendInv.move (h : SendInv s) {p : LoopPoint} (hp : p ≠ .ended)
    (hloop : s.loop ≠ .ended) (hheld : p.held = s.loop.held)
    (hsend : p.isSend = true → 1 ≤ s.state.rank) : SendInv { s with loop := p } := by
  refine ⟨fun _ => ?_, fun hend => absurd hend hp, hsend, h.handed⟩
  show s.accepted = s.handed.map Prod.fst ++ p.held.toList ++ s.queue
  rw [hheld]
  exact h.kept hloop

/-- The loop returns, for one of the two reasons that it may have. -/
theorem SendInv.finish (h : SendInv s) (hend : s.running = false ∨ ¬ s.state.Early) :
    SendInv { s with loop := .ended } :=
  ⟨fun hne => absurd rfl hne, fun _ => hend, nofun, h.handed⟩

/-- **Step of the loop.** It keeps the invariant unless it is the last look at the state,
    with the channel still connecting. -/
theorem SendInv.loopStep (h : SendInv s) {amount : ℕ}
    (hg : ChecksLate s (.loop amount)) (hstep : s.loopStep cfg amount = some s') :
    SendInv s' := by
  unfold SendSide.loopStep at hstep
  split at hstep
  case h_1 hloop =>
    have hkept := h.kept (by rw [hloop]; simp)
    rw [hloop] at hkept
    split at hstep
    case h_1 =>
      by_cases hrun : s.running = true
      · rw [if_pos hrun] at hstep
        cases hstep
      · rw [if_neg hrun] at hstep
        cases hstep
        exact h.finish (.inl (Bool.eq_false_iff.mpr hrun))
    case h_2 buf rest hqueue =>
      cases hstep
      refine ⟨fun _ => ?_, nofun, nofun, h.handed⟩
      rw [hqueue] at hkept
      simpa [LoopPoint.held] using hkept
  case h_2 buf hloop =>
    cases hstep
    split <;> exact h.move nofun (by simp [hloop]) (by rw [hloop]; rfl) nofun
  case h_3 buf hloop =>
    cases hstep
    split <;> exact h.move nofun (by simp [hloop]) (by rw [hloop]; rfl) nofun
  case h_4 buf hloop =>
    cases hstep
    split <;> exact h.move nofun (by simp [hloop]) (by rw [hloop]; rfl) nofun
  case h_5 buf hloop =>
    cases hstep
    by_cases hrun : s.running = true
    · rw [if_pos hrun]
      exact h.move nofun (by simp [hloop]) (by rw [hloop]; rfl) nofun
    · rw [if_neg hrun]
      exact h.finish (.inl (Bool.eq_false_iff.mpr hrun))
  case h_6 buf hloop =>
    cases hstep
    by_cases hopen : s.state = .open
    · rw [if_pos hopen]
      refine h.move nofun (by simp [hloop]) (by rw [hloop]; rfl) fun _ => ?_
      rw [hopen]
      exact le_refl 1
    · rw [if_neg hopen]
      -- the condition rules out that the channel is only connecting
      apply h.finish
      by_cases hrun : s.running = true
      · refine .inr fun hearly => ?_
        exact hearly.elim (hg ⟨rfl, by rw [hloop]; rfl, hrun⟩) hopen
      · exact .inl (Bool.eq_false_iff.mpr hrun)
  case h_7 buf hloop =>
    cases hstep
    have hkept := h.kept (by rw [hloop]; simp)
    rw [hloop] at hkept
    refine ⟨fun _ => ?_, nofun, nofun, fun x hx => ?_⟩
    · simpa [LoopPoint.held] using hkept
    · rcases List.mem_append.mp hx with hx | hx
      · exact h.handed x hx
      · rw [List.mem_singleton.mp hx]
        exact ⟨h.sending (by rw [hloop]; rfl), le_refl _⟩
  case h_8 hloop => cases hstep

/-- The channel only goes on. -/
theorem SendInv.state (h : SendInv s) {st : DataState} (hle : s.state.rank ≤ st.rank) :
    SendInv { s with state := st } := by
  refine ⟨h.kept, fun hend => ?_, fun hsend => (h.sending hsend).trans hle, fun x hx => ?_⟩
  · refine (h.ended hend).imp_right fun hlate hearly => hlate ?_
    -- a channel that is early now was so before
    rw [DataState.early_iff] at hearly ⊢
    exact hle.trans hearly
  · exact ⟨(h.handed x hx).1, (h.handed x hx).2.trans hle⟩

/-- **Step.** -/
theorem SendInv.step (h : SendInv s) {a : SendLabel} (hg : ChecksLate s a)
    (hstep : SendSide.step cfg s a = some s') : SendInv s' := by
  cases a with
  | sendBytes data =>
    cases hstep
    exact h.sendBytes data
  | state st =>
    obtain ⟨hlt, ⟨⟩⟩ := Option.ite_none_right_eq_some.mp hstep
    exact h.state hlt.le
  | loop amount => exact h.loopStep hg hstep
  | stop =>
    cases hstep
    exact ⟨h.kept, fun _ => .inl rfl, h.sending, h.handed⟩
  | close =>
    obtain ⟨-, ⟨⟩⟩ := Option.ite_none_right_eq_some.mp hstep
    apply h.state
    split
    case isTrue hlt => exact hlt.le
    case isFalse => exact le_refl _

/-- A last look at the state while the channel is connecting ends the loop. -/
theorem checksLate_of_queueKept {a : SendLabel} (hstep : SendSide.step cfg s a = some s')
    (hkept : QueueKept s') : ChecksLate s a := by
  rintro ⟨hloop, hcheck, hrun⟩ hconn
  obtain ⟨amount, rfl⟩ : ∃ amount, a = .loop amount := by
    cases a <;> simp [SendLabel.isLoop] at hloop
    exact ⟨_, rfl⟩
  obtain ⟨buf, hbuf⟩ : ∃ buf, s.loop = .checkState buf := by
    cases hl : s.loop <;> simp [hl, LoopPoint.isCheckState] at hcheck
    exact ⟨_, rfl⟩
  have hend : s' = { s with loop := .ended } := by
    have hnot : s.state ≠ .open := by rw [hconn]; simp
    simp only [SendSide.step, SendSide.loopStep, hbuf, if_neg hnot] at hstep
    exact (Option.some.inj hstep).symm
  subst hend
  exact (hkept (.inl hconn) hrun).1 rfl

/-- A channel that was just created has nothing to lose. -/
theorem sendInv_init : SendInv ({} : SendSide) :=
  ⟨fun _ => rfl, nofun, nofun, nofun⟩

/-- **The send queue.** In every run, every state keeps its queue exactly if no step is a
    last look at the channel's state while the channel is still connecting. -/
theorem queueKept_iff (cfg : SendConfig) (as : List SendLabel) (s : SendSide)
    (hrun : (sendMachine cfg).run as = some s) :
    (sendMachine cfg).Always QueueKept (sendMachine cfg).init as ↔
      (sendMachine cfg).Guarded ChecksLate (sendMachine cfg).init as := by
  refine Machine.always_iff_guarded (I := SendInv) ?_ ?_ sendInv_init sendInv_init.queueKept hrun
  · intro s a s' hI _ hstep hkept
    exact hI.step (checksLate_of_queueKept hstep hkept) hstep
  · intro s a s' hI _ hstep
    exact ⟨checksLate_of_queueKept hstep, fun hg => (hI.step hg hstep).queueKept⟩

/-- Plain framing, and room for eight bytes. -/
def plainConfig : SendConfig where
  encode := id
  maxSendQueueSize := 8

/-- Two messages: the first finds the channel open, with a full buffer at first, and is
    handed over; the second is still queued. -/
def sentWhileOpen : List SendLabel :=
  [.sendBytes [1, 2], .state .open, .loop 0, .loop 0, .loop 0, .loop 7, .sendBytes [3],
    .loop 0, .loop 0, .loop 6, .loop 0, .loop 0, .loop 0]

theorem queueKept_iff_sentWhileOpen :
    ∃ s, (sendMachine plainConfig).run sentWhileOpen = some s ∧ s.handed = [([1, 2], .open)] ∧
      s.queue = [[3]] ∧
      (sendMachine plainConfig).Always QueueKept (sendMachine plainConfig).init
        sentWhileOpen := by
  exact ⟨_, rfl, rfl, rfl, (queueKept_iff plainConfig sentWhileOpen _ rfl).mpr (by decide)⟩

/-- A message is taken out while the channel is connecting. -/
def sentWhileConnecting : List SendLabel :=
  [.sendBytes [1, 2], .loop 0, .loop 0, .loop 0, .loop 0, .loop 0]

/-- The loop has ended and the message is gone, although the channel may still open. -/
theorem not_queueKept_sentWhileConnecting :
    ∃ s, (sendMachine plainConfig).run sentWhileConnecting = some s ∧ ¬ QueueKept s := by
  refine ⟨_, rfl, fun h => ?_⟩
  exact (h (.inl rfl) rfl).1 rfl

end PiWebrtc.DataChannel
