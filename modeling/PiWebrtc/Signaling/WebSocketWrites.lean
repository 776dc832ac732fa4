import PiWebrtc.Signaling.WebSocketClient
import Mathlib.Data.List.Infix

namespace PiWebrtc.Signaling

open Transition

/-!
# Writes and the closing handshake

Several continuations end in `DoWrite`, which starts the next write or, with the queue empty
and `closing_` set, the closing handshake.  A write in progress keeps the others out; the
closing handshake does not.  Of these continuations `OnHandshake` alone may follow a `Close`
that has started the handshake already: `wellBehaved_iff` shows that the client behaves as
asked for exactly in the runs in which it does not.
-/

/-- What is asked for, of every state. -/
structure WellBehaved (s : WebSocketClient) : Prop where
  /-- There are never two overlapping writes. -/
  one_write : (s.pending.filterMap Pending.frame).length ≤ 1
  /-- While a frame is written it is the front of the queue. -/
  front : ∀ f, .write f ∈ s.pending → s.writeQueue.head? = some f
  /-- Frames go out in the order in which they were accepted. -/
  in_order : s.started <+: s.accepted
  one_close : s.closeStarts ≤ 1
  /-- The closing handshake is started when everything accepted was written. -/
  close_last : 0 < s.closeStarts → s.written = s.accepted
  one_onClose : s.closed.length ≤ 1

/-- The client gets to the last `DoWrite` of `OnHandshake`. -/
def endsHandshake (s : WebSocketClient) : WsEvent → Bool
  | .ret => s.stack.head? = some .afterOpen
  | .finish i outcome =>
    s.stack = [] && s.pending[i]? = some .handshake && outcome = .ok && !s.onOpen
  | _ => false

/-- The condition: when `OnHandshake` gets to its last `DoWrite`, nobody has called `Close`,
    or a write is in progress, or the client has finished. -/
def ClosesOnce (s : WebSocketClient) (a : WsEvent) : Prop :=
  endsHandshake s a = true → s.closing = true → s.writing = true ∨ s.finished = true

instance (s : WebSocketClient) (a : WsEvent) : Decidable (ClosesOnce s a) :=
  inferInstanceAs (Decidable (_ → _ → _))

/-! ### The invariant -/

/-- What `Finish` needs. -/
structure WireInv (s : WebSocketClient) : Prop where
  writes : (s.pending.filterMap Pending.frame).Perm
    (if s.writing = true then s.writeQueue.take 1 else [])
  nonempty : s.writing = true → s.writeQueue ≠ []
  in_order : s.started <+: s.accepted
  close_last : 0 < s.closeStarts →
    s.closing = true ∧ s.writing = false ∧ s.written = s.accepted
  unfinished : s.finished = false → s.closed = []
  one_onClose : s.closed.length ≤ 1

/-- What `DoWrite` needs: the frames that were accepted were written or are in the queue. -/
structure WriteInv (s : WebSocketClient) : Prop extends WireInv s where
  unopened : s.finished = false → s.isOpen = false → s.writeQueue = []
  accounted : s.finished = false → s.accepted = s.written ++ s.writeQueue
  handed : s.finished = false →
    s.started = s.written ++ if s.writing = true then s.writeQueue.take 1 else []
  closing_open : s.finished = false → s.closing = true → s.isOpen = true

/-- **The invariant**, between the handlers: a client that writes nothing has nothing queued,
    and if it is closing it has started the closing handshake. -/
structure SocketInv (s : WebSocketClient) : Prop extends WriteInv s where
  drained : s.finished = false → s.writing = false → s.writeQueue = []
  idle_closing : s.finished = false → s.writing = false → s.closing = true → 0 < s.closeStarts

/-- Under the invariant the closing handshake is all that matters. -/
theorem wellBehaved_iff_closeStarts {s : WebSocketClient} (h : WireInv s) :
    WellBehaved s ↔ s.closeStarts ≤ 1 := by
  refine ⟨fun hw => hw.one_close, fun hone => ?_⟩
  refine ⟨?_, ?_, h.in_order, hone, fun hpos => (h.close_last hpos).2.2, h.one_onClose⟩
  · rw [h.writes.length_eq]
    split
    · exact List.length_take_le 1 _
    · exact Nat.zero_le 1
  · intro f hf
    have hmem : f ∈ s.pending.filterMap Pending.frame := List.mem_filterMap.mpr ⟨_, hf, rfl⟩
    rw [h.writes.mem_iff] at hmem
    split at hmem
    case isTrue =>
      cases hq : s.writeQueue with
      | nil =>
        rw [hq] at hmem
        cases hmem
      | cons g rest =>
        rw [hq] at hmem
        rw [List.mem_singleton.mp hmem]
        rfl
    case isFalse => cases hmem

/-- `s'` differs from `s` in nothing that writing and closing depend on. -/
structure SameWire (s s' : WebSocketClient) : Prop where
  frames : s'.pending.filterMap Pending.frame = s.pending.filterMap Pending.frame
  writeQueue : s'.writeQueue = s.writeQueue
  isOpen : s'.isOpen = s.isOpen
  writing : s'.writing = s.writing
  closing : s'.closing = s.closing
  finished : s'.finished = s.finished
  accepted : s'.accepted = s.accepted
  started : s'.started = s.started
  written : s'.written = s.written
  closeStarts : s'.closeStarts = s.closeStarts
  closed : s'.closed = s.closed

namespace SameWire

variable {s s' s'' : WebSocketClient}

theorem refl (s : WebSocketClient) : SameWire s s :=
  ⟨rfl, rfl, rfl, rfl, rfl, rfl, rfl, rfl, rfl, rfl, rfl⟩

theorem trans (h : SameWire s s') (h' : SameWire s' s'') : SameWire s s'' where
  frames := h'.frames.trans h.frames
  writeQueue := h'.writeQueue.trans h.writeQueue
  isOpen := h'.isOpen.trans h.isOpen
  writing := h'.writing.trans h.writing
  closing := h'.closing.trans h.closing
  finished := h'.finished.trans h.finished
  accepted := h'.accepted.trans h.accepted
  started := h'.started.trans h.started
  written := h'.written.trans h.written
  closeStarts := h'.closeStarts.trans h.closeStarts
  closed := h'.closed.trans h.closed

theorem start (s : WebSocketClient) {op : Pending} (hop : op.frame = none) :
    SameWire s (s.start op) := by
  refine ⟨?_, rfl, rfl, rfl, rfl, rfl, rfl, rfl, rfl, rfl, rfl⟩
  show (s.pending ++ [op]).filterMap Pending.frame = _
  simp [hop]

theorem callback (s : WebSocketClient) (k : Continuation) : SameWire s (s.callback k) :=
  ⟨rfl, rfl, rfl, rfl, rfl, rfl, rfl, rfl, rfl, rfl, rfl⟩

theorem writeInv (hw : SameWire s s') (h : WriteInv s) : WriteInv s' := by
  obtain ⟨h1, h2, h3, h4, h5, h6, h7, h8, h9, h10, h11⟩ := hw
  constructor
  · constructor <;> simp only [h1, h2, h4, h5, h6, h7, h8, h9, h10, h11]
    · exact h.writes
    · exact h.nonempty
    · exact h.in_order
    · exact h.close_last
    · exact h.unfinished
    · exact h.one_onClose
  all_goals simp only [h2, h3, h4, h5, h6, h7, h8, h9]
  · exact h.unopened
  · exact h.accounted
  · exact h.handed
  · exact h.closing_open

theorem socketInv (hw : SameWire s s') (h : SocketInv s) : SocketInv s' := by
  refine ⟨hw.writeInv h.toWriteInv, ?_, ?_⟩
  · rw [hw.finished, hw.writing, hw.writeQueue]
    exact h.drained
  · rw [hw.finished, hw.writing, hw.closing, hw.closeStarts]
    exact h.idle_closing

end SameWire

/-! ### The parts of the handlers -/

section Parts

variable {s : WebSocketClient}

/-- A client that has finished is idle for good. -/
theorem WireInv.of_finished (h : WireInv s) (hfin : s.finished = true) : SocketInv s :=
  ⟨⟨h, by simp [hfin], by simp [hfin], by simp [hfin], by simp [hfin]⟩, by simp [hfin],
    by simp [hfin]⟩

theorem WireInv.shut (h : WireInv s) : SocketInv s.shut := by
  refine WireInv.of_finished ⟨?_, ?_, h.in_order, h.close_last, ?_, h.one_onClose⟩ rfl
  · -- the frame that is being written stays
    show (s.pending.filterMap Pending.frame).Perm
      (if s.writing = true then (if s.writing = true then s.writeQueue.take 1 else []).take 1
        else [])
    have hw := h.writes
    split at hw
    case isTrue hwriting =>
      rw [if_pos hwriting, if_pos hwriting, List.take_take, Nat.min_self]
      exact hw
    case isFalse hwriting =>
      rw [if_neg hwriting]
      exact hw
  · intro hwriting
    have hwriting' : s.writing = true := hwriting
    show (if s.writing = true then s.writeQueue.take 1 else []) ≠ []
    rw [if_pos hwriting']
    simpa using h.nonempty hwriting'
  · intro hfin
    cases hfin

/-- `Finish`, wherever it is called. -/
theorem WireInv.finish (h : WireInv s) (code : ℕ) (reason : String) :
    SocketInv (s.finish code reason) := by
  rw [WebSocketClient.finish]
  split
  case isTrue hfin => exact h.of_finished hfin
  case isFalse hfin =>
    have hshut := h.shut
    split
    · refine WireInv.of_finished ⟨hshut.writes, hshut.nonempty, hshut.in_order,
        hshut.close_last, ?_, ?_⟩ rfl
      · intro hfin
        cases hfin
      · -- OnClose has not been called before
        show (s.closed ++ [(code, reason)]).length ≤ 1
        rw [h.unfinished (Bool.eq_false_iff.mpr hfin)]
        exact Nat.le_refl 1
    · exact hshut

@[simp] theorem closeStarts_finish (s : WebSocketClient) (code : ℕ) (reason : String) :
    (s.finish code reason).closeStarts = s.closeStarts := by
  rw [WebSocketClient.finish]
  split
  · rfl
  split <;> rfl

/-- `DoClose`, with everything written. -/
theorem WriteInv.doClose (h : WriteInv s) (hfin : s.finished = false) (hwriting : s.writing = false)
    (hclosing : s.closing = true) (hq : s.writeQueue = []) : SocketInv s.doClose := by
  have hstart : WriteInv (s.start .close) := (SameWire.start s rfl).writeInv h
  have hall : s.written = s.accepted := by rw [h.accounted hfin, hq, List.append_nil]
  refine ⟨⟨⟨hstart.writes, hstart.nonempty, h.in_order, fun _ => ⟨hclosing, hwriting, hall⟩,
    h.unfinished, h.one_onClose⟩, h.unopened, h.accounted, h.handed, h.closing_open⟩, ?_, ?_⟩
  · exact fun _ _ => hq
  · exact fun _ _ _ => Nat.succ_pos _

/-- A write is started, of the front of the queue. -/
theorem WriteInv.startWrite (h : WriteInv s) (hfin : s.finished = false)
    (hwriting : s.writing = false) {f : WsFrame} {rest : List WsFrame}
    (hq : s.writeQueue = f :: rest) :
    SocketInv { s.start (.write f) with writing := true, started := s.started ++ [f] } := by
  have hnone : s.pending.filterMap Pending.frame = [] := by
    have hw := h.writes
    rw [if_neg (by simp [hwriting])] at hw
    exact List.perm_nil.mp hw
  have hstarted : s.started = s.written := by
    rw [h.handed hfin, if_neg (by simp [hwriting]), List.append_nil]
  refine ⟨⟨⟨?_, ?_, ?_, ?_, h.unfinished, h.one_onClose⟩, ?_, h.accounted, ?_, h.closing_open⟩,
    ?_, ?_⟩
  · show ((s.pending ++ [Pending.write f]).filterMap Pending.frame).Perm (s.writeQueue.take 1)
    rw [List.filterMap_append, hnone, hq]
    exact List.Perm.refl _
  · intro _ hnil
    have hnil' : s.writeQueue = [] := hnil
    rw [hq] at hnil'
    cases hnil'
  · show s.started ++ [f] <+: s.accepted
    rw [h.accounted hfin, hq, hstarted]
    exact ⟨rest, by simp⟩
  · intro hpos
    -- had the closing handshake begun, everything would have been written
    have hall := (h.close_last hpos).2.2
    rw [h.accounted hfin, hq] at hall
    simp at hall
  · exact fun _ hclosed => h.unopened hfin hclosed
  · intro _
    show s.started ++ [f] = s.written ++ s.writeQueue.take 1
    rw [hq, hstarted]
    rfl
  · exact fun _ hw => by cases hw
  · exact fun _ hw => by cases hw

/-- `DoWrite`, wherever it is called. -/
theorem WriteInv.doWrite (h : WriteInv s) : SocketInv s.doWrite := by
  rw [WebSocketClient.doWrite]
  split
  -- a write is in progress, the client has finished, or it is not open yet
  case isTrue hidle =>
    refine ⟨h, fun hfin hwriting => ?_, fun hfin hwriting hclosing => ?_⟩
    · rw [hwriting, hfin] at hidle
      exact h.unopened hfin (by simpa using hidle)
    · rw [hwriting, hfin, h.closing_open hfin hclosing] at hidle
      simp at hidle
  case isFalse hbusy =>
    obtain ⟨hwriting, hfin, -⟩ : s.writing = false ∧ s.finished = false ∧ s.isOpen = true := by
      simpa using hbusy
    split
    -- nothing is left to write: it is the turn of the closing handshake
    case h_1 hq =>
      split
      case isTrue hclosing => exact h.doClose hfin hwriting hclosing hq
      case isFalse hclosing =>
        exact ⟨h, fun _ _ => hq, fun _ _ hc => absurd hc hclosing⟩
    case h_2 f rest hq => exact h.startWrite hfin hwriting hq

/-- `DoWrite` starts the closing handshake at most once. -/
theorem closeStarts_doWrite_of_zero (hzero : s.closeStarts = 0) : s.doWrite.closeStarts ≤ 1 := by
  rw [WebSocketClient.doWrite]
  split
  · rw [hzero]
    exact Nat.zero_le 1
  split
  · split
    · show s.closeStarts + 1 ≤ 1
      rw [hzero]
    · rw [hzero]
      exact Nat.zero_le 1
  · show s.closeStarts ≤ 1
    rw [hzero]
    exact Nat.zero_le 1

/-- In an idle client that is closing, `DoWrite` starts the closing handshake again. -/
theorem SocketInv.closeStarts_doWrite_iff (h : SocketInv s) (hone : s.closeStarts ≤ 1) :
    s.doWrite.closeStarts ≤ 1 ↔ (s.closing = true → s.writing = true ∨ s.finished = true) := by
  constructor
  · intro hle hclosing
    by_contra hidle
    obtain ⟨hwriting, hfin⟩ : s.writing = false ∧ s.finished = false := by simpa using hidle
    have hpos := h.idle_closing hfin hwriting hclosing
    -- the handshake was begun when the client became idle, and is begun again
    have htwice : s.doWrite.closeStarts = s.closeStarts + 1 := by
      rw [WebSocketClient.doWrite, if_neg (by simp [hwriting, hfin, h.closing_open hfin hclosing])]
      rw [h.drained hfin hwriting]
      show (if s.closing = true then s.doClose else s).closeStarts = _
      rw [if_pos hclosing]
      rfl
    omega
  · intro himp
    by_cases hclosing : s.closing = true
    · have hsame : s.doWrite = s := by
        rw [WebSocketClient.doWrite, if_pos ((or_assoc.mp (.inl (himp hclosing))))]
      rw [hsame]
      exact hone
    · -- a client that is not closing has not started the handshake
      refine closeStarts_doWrite_of_zero (Nat.eq_zero_of_not_pos fun hpos => ?_)
      exact hclosing (h.close_last hpos).1

/-! ### The methods and the handlers -/

/-- Client code calls a method or a handler runs: the invariant is kept, and the closing
    handshake is not started again. -/
def Settles (s s' : WebSocketClient) : Prop :=
  SocketInv s' ∧ (s.closeStarts ≤ 1 → s'.closeStarts ≤ 1)

theorem Settles.same {s' : WebSocketClient} (h : SocketInv s) (hw : SameWire s s') :
    Settles s s' :=
  ⟨hw.socketInv h, fun hone => hw.closeStarts ▸ hone⟩

theorem Settles.finish (h : WireInv s) (code : ℕ) (reason : String) :
    Settles s (s.finish code reason) :=
  ⟨h.finish code reason, fun hone => closeStarts_finish s code reason ▸ hone⟩

/-- A client that is not closing has not started the closing handshake. -/
theorem WireInv.closeStarts_eq_zero (h : WireInv s) (hopen : s.closing = false ∨ s.writing = true) :
    s.closeStarts = 0 := by
  refine Nat.eq_zero_of_not_pos fun hpos => ?_
  obtain ⟨hclosing, hwriting, -⟩ := h.close_last hpos
  rcases hopen with h | h
  · rw [hclosing] at h
    cases h
  · rw [hwriting] at h
    cases h

theorem WriteInv.push (h : WriteInv s) (hopen : s.isOpen = true) (hclosing : s.closing = false)
    (f : WsFrame) : WriteInv (s.push f) := by
  have hzero := h.closeStarts_eq_zero (.inl hclosing)
  -- the front of the queue stays where it is
  have hfront : (if s.writing = true then (s.writeQueue ++ [f]).take 1 else []) =
      if s.writing = true then s.writeQueue.take 1 else [] := by
    split
    case isTrue hwriting =>
      exact List.take_append_of_le_length (List.length_pos_iff.mpr (h.nonempty hwriting))
    case isFalse => rfl
  refine ⟨⟨?_, ?_, ?_, ?_, h.unfinished, h.one_onClose⟩, ?_, ?_, ?_, h.closing_open⟩
  · show (s.pending.filterMap Pending.frame).Perm
      (if s.writing = true then (s.writeQueue ++ [f]).take 1 else [])
    rw [hfront]
    exact h.writes
  · intro _ hnil
    exact absurd hnil (List.concat_ne_nil f s.writeQueue)
  · exact h.in_order.trans (List.prefix_append _ _)
  · intro hpos
    have hpos' : 0 < s.closeStarts := hpos
    omega
  · intro _ hclosed
    have hclosed' : s.isOpen = false := hclosed
    rw [hopen] at hclosed'
    cases hclosed'
  · intro hfin
    show s.accepted ++ [f] = s.written ++ (s.writeQueue ++ [f])
    rw [h.accounted hfin, List.append_assoc]
  · intro hfin
    show s.started = s.written ++ if s.writing = true then (s.writeQueue ++ [f]).take 1 else []
    rw [hfront]
    exact h.handed hfin

/-- `Queue`, and so `Send`. -/
theorem SocketInv.queue (h : SocketInv s) (data : String) (text : Bool) :
    Settles s (s.queue data text) := by
  rw [WebSocketClient.queue]
  split
  · exact .same h (.refl s)
  case isFalse hbusy =>
    split
    · exact .same h (.refl s)
    case isFalse hopen =>
      have hclosing : s.closing = false := by
        simp at hbusy
        exact hbusy.2
      refine ⟨(h.push (by simpa using hopen) hclosing ⟨data, text⟩).doWrite, fun _ => ?_⟩
      exact closeStarts_doWrite_of_zero (h.closeStarts_eq_zero (.inl hclosing))

/-- `Close`. -/
theorem SocketInv.close (h : SocketInv s) (code : ℕ) (reason : String) :
    Settles s (s.close code reason) := by
  rw [WebSocketClient.close]
  split
  · exact .same h (.refl s)
  case isFalse hbusy =>
    have hclosing : s.closing = false := by
      simp at hbusy
      exact hbusy.2
    have hzero := h.closeStarts_eq_zero (.inl hclosing)
    have hwire : WireInv (s.beginClose code reason) := by
      refine ⟨h.writes, h.nonempty, h.in_order, fun hpos => ?_, h.unfinished, h.one_onClose⟩
      have hpos' : 0 < s.closeStarts := hpos
      omega
    split
    · exact .finish hwire code _
    case isFalse hopen =>
      have hwrite : WriteInv (s.beginClose code reason) :=
        ⟨hwire, h.unopened, h.accounted, h.handed, fun _ _ => eq_true_of_ne_false hopen⟩
      exact ⟨hwrite.doWrite, fun _ => closeStarts_doWrite_of_zero hzero⟩

/-- A connection is open, and its first read and its timers are started. -/
theorem SocketInv.opened (h : SocketInv s) : SocketInv s.opened := by
  have hframes : s.opened.pending.filterMap Pending.frame =
      s.pending.filterMap Pending.frame := by
    show (s.pending ++ [Pending.pingTimer, .silenceTimer, .read]).filterMap Pending.frame = _
    simp [Pending.frame]
  refine ⟨⟨⟨?_, h.nonempty, h.in_order, h.close_last, h.unfinished, h.one_onClose⟩, ?_,
    h.accounted, h.handed, fun _ _ => rfl⟩, h.drained, h.idle_closing⟩
  · rw [hframes]
    exact h.writes
  · intro _ hclosed
    cases hclosed

/-- Taking an operation out of the list takes the frame that it writes, if any, out of the
    frames. -/
theorem filterMap_eraseIdx {l : List Pending} {i : ℕ} {op : Pending} (hi : l[i]? = some op) :
    ∃ fs gs, l.filterMap Pending.frame = fs ++ op.frame.toList ++ gs ∧
      (l.eraseIdx i).filterMap Pending.frame = fs ++ gs := by
  induction l generalizing i with
  | nil => simp at hi
  | cons x l ih =>
    cases i with
    | zero =>
      rw [List.getElem?_cons_zero, Option.some.injEq] at hi
      refine ⟨[], l.filterMap Pending.frame, ?_, by simp⟩
      rw [hi, ← List.singleton_append, List.filterMap_append]
      cases op <;> rfl
    | succ i =>
      rw [List.getElem?_cons_succ] at hi
      obtain ⟨fs, gs, h1, h2⟩ := ih hi
      refine ⟨x.frame.toList ++ fs, gs, ?_, ?_⟩
      · rw [← List.singleton_append, List.filterMap_append, h1]
        cases x <;> rfl
      · rw [List.eraseIdx_cons_succ, ← List.singleton_append, List.filterMap_append, h2]
        cases x <;> rfl

theorem SameWire.settle {i : ℕ} {op : Pending} (hi : s.pending[i]? = some op)
    (hop : op.frame = none) : SameWire s (s.settle i) := by
  refine ⟨?_, rfl, rfl, rfl, rfl, rfl, rfl, rfl, rfl, rfl, rfl⟩
  obtain ⟨fs, gs, h1, h2⟩ := filterMap_eraseIdx hi
  rw [hop, Option.toList_none, List.append_nil] at h1
  exact h2.trans h1.symm

/-- The write that is in progress is the only one, of the front of the queue. -/
theorem WireInv.write_pending (h : WireInv s) {i : ℕ} {f : WsFrame}
    (hi : s.pending[i]? = some (.write f)) :
    s.writing = true ∧ s.writeQueue.take 1 = [f] ∧
      (s.settle i).pending.filterMap Pending.frame = [] := by
  obtain ⟨fs, gs, h1, h2⟩ := filterMap_eraseIdx hi
  have hwrites := h.writes
  rw [h1] at hwrites
  have hlen := hwrites.length_eq
  split at hwrites
  case isFalse hw =>
    rw [if_neg hw] at hlen
    simp [Pending.frame] at hlen
  case isTrue hw =>
    have hone := List.length_take_le 1 s.writeQueue
    rw [if_pos hw] at hlen
    simp only [Pending.frame, Option.toList_some, List.length_append, List.length_singleton]
      at hlen
    obtain rfl : fs = [] := List.length_eq_zero_iff.mp (by omega)
    obtain rfl : gs = [] := List.length_eq_zero_iff.mp (by omega)
    exact ⟨hw, (List.singleton_perm.mp hwrites).symm, h2⟩

/-- The handler of a write. -/
theorem SocketInv.onWrite (h : SocketInv s) {i : ℕ} {f : WsFrame}
    (hi : s.pending[i]? = some (.write f)) (error : Option String) :
    Settles s ((s.settle i).onWrite f error) := by
  obtain ⟨hwriting, hfront, hnone⟩ := h.write_pending hi
  have hzero := h.closeStarts_eq_zero (.inr hwriting)
  -- while something is being written the handshake has not begun
  have hlate : ¬ 0 < s.closeStarts := by omega
  have hend : WireInv (s.settle i).endWrite :=
    ⟨List.Perm.of_eq hnone, fun hw => (by cases hw), h.in_order, fun hpos => absurd hpos hlate,
      h.unfinished, h.one_onClose⟩
  unfold WebSocketClient.onWrite
  split
  case isTrue hfin =>
    refine ⟨WireInv.of_finished ⟨hend.writes, fun hw => (by cases hw), h.in_order,
      fun hpos => absurd hpos hlate, h.unfinished, h.one_onClose⟩ hfin, fun hone => hone⟩
  case isFalse hfin =>
    have hfin' : s.finished = false := Bool.eq_false_iff.mpr hfin
    cases error with
    | some message =>
      refine ⟨hend.finish 0 ("could not send: " ++ message), fun hone => ?_⟩
      exact (closeStarts_finish _ _ _).trans_le hone
    | none =>
      -- the frame that was written is the front of the queue
      have hqueue : s.writeQueue = f :: s.writeQueue.tail := by
        rw [← List.take_append_drop 1 s.writeQueue, hfront]
        rfl
      have hpop : WriteInv ((s.settle i).endWrite.pop f) := by
        refine ⟨⟨hend.writes, fun hw => (by cases hw), h.in_order, fun hpos => absurd hpos hlate,
          h.unfinished, h.one_onClose⟩, ?_, ?_, ?_, h.closing_open⟩
        · intro _ hclosed
          rw [h.unopened hfin' hclosed] at hqueue
          cases hqueue
        · intro _
          show s.accepted = (s.written ++ [f]) ++ s.writeQueue.tail
          rw [h.accounted hfin', List.append_assoc, List.singleton_append, ← hqueue]
        · intro _
          show s.started = (s.written ++ [f]) ++ []
          rw [h.handed hfin', if_pos hwriting, hfront, List.append_nil]
      exact ⟨hpop.doWrite, fun _ => closeStarts_doWrite_of_zero hzero⟩

/-- The handlers of the other operations, but for the end of `OnHandshake`. -/
theorem SocketInv.handle (h : SocketInv s) {op : Pending} {outcome : WsOutcome}
    {s' : WebSocketClient} (hop : op.frame = none)
    (hend : ¬ (op = .handshake ∧ outcome = .ok ∧ s.onOpen = false))
    (hs : s.handle op outcome = some s') : Settles s s' := by
  have hstart : ∀ {p}, p.frame = none → Settles s (s.start p) := fun hp => .same h (.start s hp)
  have hfinish : ∀ code reason, Settles s (s.finish code reason) :=
    fun code reason => .finish h.toWireInv code reason
  cases op with
  | badUrl =>
    cases outcome with
    | ok => cases hs; exact hfinish 0 _
    | failed _ | noServerName | message _ _ | closed _ _ => cases hs
  | resolve =>
    cases outcome with
    | ok =>
      cases hs
      split
      · exact .same h (.refl s)
      · exact hstart rfl
    | failed message => cases hs; exact hfinish 0 _
    | noServerName | message _ _ | closed _ _ => cases hs
  | connect =>
    cases outcome with
    | ok =>
      cases hs
      split
      · exact .same h (.refl s)
      · exact hstart (by split <;> rfl)
    | noServerName =>
      rw [WebSocketClient.handle, Option.ite_none_right_eq_some, Option.some.injEq] at hs
      exact hs.2 ▸ hfinish 0 _
    | failed message => cases hs; exact hfinish 0 _
    | message _ _ | closed _ _ => cases hs
  | tlsHandshake =>
    cases outcome with
    | ok =>
      cases hs
      split
      · exact .same h (.refl s)
      · exact hstart rfl
    | failed message => cases hs; exact hfinish 0 _
    | noServerName | message _ _ | closed _ _ => cases hs
  | handshake =>
    cases outcome with
    | ok =>
      cases hs
      split
      · exact .same h (.refl s)
      -- OnOpen is called, and the rest of the handler waits for its return
      · have hopen : s.onOpen = true := by simpa using hend
        rw [WebSocketClient.onHandshake, if_pos hopen]
        exact ⟨(SameWire.callback _ _).socketInv h.opened, fun hone => hone⟩
    | failed message => cases hs; exact hfinish 0 _
    | noServerName | message _ _ | closed _ _ => cases hs
  | read =>
    cases outcome with
    | message data text =>
      cases hs
      split
      · exact .same h (.refl s)
      · have hsilence : SameWire s (s.start .silenceTimer) := .start s rfl
        rw [WebSocketClient.onRead]
        split
        · exact .same h (hsilence.trans (.callback _ _))
        · exact .same h (hsilence.trans (.start _ rfl))
    | closed code reason => cases hs; exact hfinish code _
    | failed message => cases hs; split <;> exact hfinish _ _
    | ok | noServerName => cases hs
  | write f => cases hop
  | close =>
    cases outcome with
    | ok => cases hs; exact hfinish _ _
    | failed message => cases hs; exact hfinish _ _
    | noServerName | message _ _ | closed _ _ => cases hs
  | pingTimer =>
    cases outcome with
    | ok =>
      cases hs
      split
      · exact .same h (.refl s)
      -- a ping goes through the queue like any other frame
      · obtain ⟨hinv, hle⟩ := h.queue "ping" true
        have hping : SameWire (s.queue "ping" true) ((s.queue "ping" true).start .pingTimer) :=
          .start _ rfl
        exact ⟨hping.socketInv hinv, fun hone => hping.closeStarts ▸ hle hone⟩
    | failed message => cases hs; exact .same h (.refl s)
    | noServerName | message _ _ | closed _ _ => cases hs
  | silenceTimer =>
    cases outcome with
    | ok => cases hs; exact hfinish 0 _
    | failed message => cases hs; exact .same h (.refl s)
    | noServerName | message _ _ | closed _ _ => cases hs

/-- What an event does: it keeps the invariant, and the condition tells whether the closing
    handshake is started a second time. -/
def ClosesAsTold (s : WebSocketClient) (a : WsEvent) (s' : WebSocketClient) : Prop :=
  SocketInv s' ∧ (s.closeStarts ≤ 1 → (s'.closeStarts ≤ 1 ↔ ClosesOnce s a))

/-- Elsewhere than at the end of `OnHandshake` the condition asks for nothing. -/
theorem Settles.closesAsTold {s' : WebSocketClient} {a : WsEvent} (h : Settles s s')
    (hend : endsHandshake s a = false) : ClosesAsTold s a s' := by
  refine ⟨h.1, fun hone => iff_of_true (h.2 hone) fun htrue => ?_⟩
  rw [hend] at htrue
  cases htrue

/-- The end of `OnHandshake`, which calls `DoWrite`. -/
theorem SocketInv.lastWrite {s₀ : WebSocketClient} (h : SocketInv s) {a : WsEvent}
    (hend : endsHandshake s₀ a = true) (hsame : s.closeStarts = s₀.closeStarts ∧
      s.closing = s₀.closing ∧ s.writing = s₀.writing ∧ s.finished = s₀.finished) :
    ClosesAsTold s₀ a s.doWrite := by
  obtain ⟨hstarts, hclosing, hwriting, hfinished⟩ := hsame
  refine ⟨h.doWrite, fun hone => ?_⟩
  rw [h.closeStarts_doWrite_iff (hstarts.trans_le hone), hclosing, hwriting, hfinished]
  exact ⟨fun himp _ => himp, fun hc => hc hend⟩

/-- Client code opens a connection. -/
theorem SocketInv.open (h : SocketInv s) (url : Option WsUrl) : Settles s (s.open url) := by
  refine .same h ?_
  cases url with
  | none => exact .start s rfl
  | some url =>
    have hstart : SameWire s (s.start .resolve) := .start s rfl
    exact hstart.trans ⟨rfl, rfl, rfl, rfl, rfl, rfl, rfl, rfl, rfl, rfl, rfl⟩

/-- Client code returns from a callback, and the rest of the handler runs. -/
theorem SocketInv.ret (h : SocketInv s) {s' : WebSocketClient} (hs : s.step .ret = some s') :
    ClosesAsTold s .ret s' := by
  simp only [WebSocketClient.step] at hs
  split at hs
  case h_1 => cases hs
  case h_2 k rest hstack =>
    have hpop : SameWire s { s with stack := rest } :=
      ⟨rfl, rfl, rfl, rfl, rfl, rfl, rfl, rfl, rfl, rfl, rfl⟩
    cases hs
    cases k with
    | afterOpen =>
      exact (hpop.socketInv h).lastWrite (by simp [endsHandshake, hstack]) ⟨rfl, rfl, rfl, rfl⟩
    | afterMessage =>
      refine Settles.closesAsTold ?_ (by simp [endsHandshake, hstack])
      rw [WebSocketClient.resume]
      split
      · exact .same h hpop
      · exact .same h (hpop.trans (.start _ rfl))
    | afterClose => exact Settles.closesAsTold (.same h hpop) (by simp [endsHandshake, hstack])

/-- The handler of an operation that has finished runs, but not to the end of `OnHandshake`. -/
theorem SocketInv.finishOther (h : SocketInv s) {i : ℕ} {op : Pending} {outcome : WsOutcome}
    {s' : WebSocketClient} (hi : s.pending[i]? = some op)
    (hend : ¬ (op = .handshake ∧ outcome = .ok ∧ s.onOpen = false))
    (hs : (s.settle i).handle op outcome = some s') : Settles s s' := by
  cases hframe : op.frame with
  | none =>
    obtain ⟨hinv, hle⟩ := ((SameWire.settle hi hframe).socketInv h).handle hframe hend hs
    exact ⟨hinv, hle⟩
  | some f =>
    obtain rfl : op = .write f := by
      cases op <;> simp [Pending.frame] at hframe
      rw [hframe]
    cases outcome with
    | ok => cases hs; exact h.onWrite hi none
    | failed message => cases hs; exact h.onWrite hi (some message)
    | noServerName | message _ _ | closed _ _ => cases hs

/-- An operation finishes. -/
theorem SocketInv.finishStep (h : SocketInv s) {i : ℕ} {outcome : WsOutcome}
    {s' : WebSocketClient} (hs : s.step (.finish i outcome) = some s') :
    ClosesAsTold s (.finish i outcome) s' := by
  rw [WebSocketClient.step, Option.ite_none_right_eq_some, Option.bind_eq_some_iff] at hs
  obtain ⟨hstack, op, hi, hs⟩ := hs
  by_cases hend : op = .handshake ∧ outcome = .ok ∧ s.onOpen = false
  · obtain ⟨rfl, rfl, hopen⟩ := hend
    have hinv := (SameWire.settle hi rfl).socketInv h
    cases hs
    split
    case isTrue hfin => exact ⟨hinv, fun hone => iff_of_true hone fun _ _ => .inr hfin⟩
    case isFalse =>
      -- with no OnOpen the handler gets to `DoWrite` at once
      rw [WebSocketClient.onHandshake, if_neg (by simpa [WebSocketClient.settle] using hopen)]
      exact hinv.opened.lastWrite (by simp [endsHandshake, hstack, hi, hopen])
        ⟨rfl, rfl, rfl, rfl⟩
  · refine (h.finishOther hi hend hs).closesAsTold ?_
    simp only [endsHandshake, hi]
    simp
    intro _ hop hout
    simpa [hop, hout] using hend

/-- **One event.** -/
theorem SocketInv.step (h : SocketInv s) {a : WsEvent} {s' : WebSocketClient}
    (hs : s.step a = some s') : ClosesAsTold s a s' := by
  cases a with
  | «open» url =>
    cases hs
    exact (h.open url).closesAsTold rfl
  | send data =>
    cases hs
    exact (h.queue data false).closesAsTold rfl
  | close code reason =>
    cases hs
    exact (h.close code reason).closesAsTold rfl
  | ret => exact h.ret hs
  | finish i outcome => exact h.finishStep hs

end Parts

/-! ### All runs -/

/-- A new client. -/
theorem socketInv_init (onOpen onMessage onClose : Bool) :
    SocketInv (webSocketClient onOpen onMessage onClose).init where
  writes := List.Perm.refl _
  nonempty h := by cases h
  in_order := List.prefix_rfl
  close_last h := by cases h
  unfinished _ := rfl
  one_onClose := Nat.zero_le 1
  unopened _ _ := rfl
  accounted _ := rfl
  handed _ := rfl
  closing_open _ h := by cases h
  drained _ _ := rfl
  idle_closing _ _ h := by cases h

/-- **The client behaves, exactly.** Whatever is called and however the operations finish,
    the client behaves as asked for throughout a run exactly if `OnHandshake` never gets to
    its last `DoWrite` with a `Close` before it and nothing being written; and `Open` never
    calls OnClose. -/
theorem wellBehaved_iff (onOpen onMessage onClose : Bool) (as : List WsEvent)
    (s : WebSocketClient) (hrun : (webSocketClient onOpen onMessage onClose).run as = some s) :
    ((webSocketClient onOpen onMessage onClose).Always WellBehaved
        (webSocketClient onOpen onMessage onClose).init as ↔
      (webSocketClient onOpen onMessage onClose).Guarded ClosesOnce
        (webSocketClient onOpen onMessage onClose).init as) ∧
    ∀ url s', (webSocketClient onOpen onMessage onClose).step s (.open url) = some s' →
      s'.closed = s.closed ∧ s'.stack = s.stack := by
  constructor
  · refine Machine.always_iff_guarded (M := webSocketClient onOpen onMessage onClose)
      (I := SocketInv) ?_ ?_ (socketInv_init onOpen onMessage onClose) ?_ hrun
    · intro s a s' h _ hstep _
      exact (h.step hstep).1
    · intro s a s' h hP hstep
      obtain ⟨hinv, hiff⟩ := h.step hstep
      rw [wellBehaved_iff_closeStarts hinv.toWireInv]
      exact hiff hP.one_close
    · exact (wellBehaved_iff_closeStarts (socketInv_init onOpen onMessage onClose).toWireInv).mpr
        (Nat.zero_le 1)
  -- `Open` only starts an operation, whatever the url
  · intro url s' hstep
    cases hstep
    cases url <;> exact ⟨rfl, rfl⟩

/-- A url that was parsed. -/
def localUrl : Option WsUrl := some ⟨false, "localhost", 8080, "/"⟩

/-- A connection is opened and closed from within OnOpen, with a frame queued: it is written,
    and then the closing handshake is made. -/
def closedInOnOpen : List WsEvent :=
  [.open localUrl, .finish 0 .ok, .finish 0 .ok, .finish 0 .ok, .send "hello", .close 1000 "bye",
   .ret, .finish 3 .ok, .finish 3 .ok, .ret]

theorem wellBehaved_iff_closedInOnOpen :
    ∃ s, (webSocketClient true true true).run closedInOnOpen = some s ∧
      s.written = [⟨"hello", false⟩] ∧ s.closed = [(1000, "bye")] ∧
      (webSocketClient true true true).Always WellBehaved
        (webSocketClient true true true).init closedInOnOpen :=
  ⟨_, rfl, rfl, rfl, (wellBehaved_iff true true true closedInOnOpen _ rfl).1.mpr (by decide)⟩

/-- A connection is closed from within OnOpen, with nothing queued. -/
def closedIdle : List WsEvent :=
  [.open localUrl, .finish 0 .ok, .finish 0 .ok, .finish 0 .ok, .close 1000 "", .ret]

/-- The closing handshake is started by `Close`, and again when OnOpen has returned. -/
theorem not_wellBehaved_closedIdle :
    ∃ s, (webSocketClient true true true).run closedIdle = some s ∧
      s.pending = [.pingTimer, .silenceTimer, .read, .close, .close] ∧ s.closeStarts = 2 ∧
      ¬ WellBehaved s := by
  refine ⟨_, rfl, rfl, rfl, fun h => ?_⟩
  exact absurd h.one_close (by decide)

end PiWebrtc.Signaling
