import PiWebrtc.Recorder.RecorderManager

namespace PiWebrtc.Recorder

open Transition RecorderManager

/-!
# Every container is closed once

`Start` opens a container whatever `fmt_ctx` holds, so a second `Start` loses the open one,
and one that comes after the destructor's `Stop` opens a container that nobody closes.
`contexts_wellKept` shows that nothing else goes wrong: in every interleaving whose
`Start`s open only while no container is open and the destructor has not closed the last
one, the contexts are well kept.
-/

variable {args : RecorderArgs}

/-! ### The log -/

@[simp] theorem openedIds_append (l l' : List ContextEvent) :
    openedIds (l ++ l') = openedIds l ++ openedIds l' := List.filterMap_append

@[simp] theorem closedIds_append (l l' : List ContextEvent) :
    closedIds (l ++ l') = closedIds l ++ closedIds l' := List.filterMap_append

theorem mem_closedIds {l : List ContextEvent} {id : ℕ} :
    id ∈ closedIds l ↔ ∃ trailer, .closed id trailer ∈ l := by
  rw [closedIds, List.mem_filterMap]
  constructor
  · rintro ⟨e, he, hid⟩
    cases e <;> simp at hid
    case closed trailer => exact ⟨trailer, hid ▸ he⟩
  · rintro ⟨trailer, h⟩
    exact ⟨_, h, rfl⟩

/-! ### The invariant -/

/-- The contexts that are open are the one `fmt_ctx` points to, and `header_written_` tells
    of that one whether its header was written. -/
structure ContextInv (r : RecorderManager) : Prop where
  closed_once : (closedIds r.log).Nodup
  closed_opened : ∀ id ∈ closedIds r.log, id ∈ openedIds r.log
  trailer_iff : ∀ id trailer, .closed id trailer ∈ r.log → (trailer = true ↔ .header id ∈ r.log)
  opened_lt : ∀ id ∈ openedIds r.log, id < r.nextCtx
  header_lt : ∀ id, .header id ∈ r.log → id < r.nextCtx
  open_iff : ∀ id ∈ openedIds r.log, id ∉ closedIds r.log ↔ ∃ ctx ∈ r.fmtCtx, ctx.id = id
  ctx_opened : ∀ ctx ∈ r.fmtCtx, ctx.id ∈ openedIds r.log
  header_iff : ∀ ctx ∈ r.fmtCtx, (r.headerWritten = true ↔ .header ctx.id ∈ r.log)
  stopped_none : r.stopped = true → r.fmtCtx = none
  destroyed_stopped : r.destroyed = true → r.stopped = true
  none_late : ∀ id, .opened id true ∉ r.log

namespace ContextInv

variable {r : RecorderManager}

/-- The context of `fmt_ctx` is not closed yet. -/
theorem ctx_not_closed (h : ContextInv r) {ctx : AVFormatContext} (hc : ctx ∈ r.fmtCtx) :
    ctx.id ∉ closedIds r.log :=
  (h.open_iff ctx.id (h.ctx_opened ctx hc)).mpr ⟨ctx, hc, rfl⟩

/-- The invariant has every file opened, written and closed as it should be. -/
theorem wellKept (h : ContextInv r) : ContextsWellKept r where
  closed_once := h.closed_once
  closed_opened := h.closed_opened
  trailer_iff := h.trailer_iff
  one_open i hi j hj hio hjo := by
    obtain ⟨ctx, hctx, rfl⟩ := (h.open_iff i hi).mp hio
    obtain ⟨ctx', hctx', rfl⟩ := (h.open_iff j hj).mp hjo
    rw [Option.mem_unique hctx hctx']
  none_left hd id hid := by
    by_contra hopen
    obtain ⟨ctx, hctx, -⟩ := (h.open_iff id hid).mp hopen
    rw [h.stopped_none (h.destroyed_stopped hd)] at hctx
    cases hctx
  none_late := h.none_late

/-- A context that is freed, with a trailer exactly if its header was written, is closed
    properly. -/
theorem close (h : ContextInv r) {ctx : AVFormatContext} (hc : ctx ∈ r.fmtCtx) {trailer b : Bool}
    (ht : trailer = true ↔ .header ctx.id ∈ r.log) :
    ContextInv { r with
      fmtCtx := none, headerWritten := b, log := r.log ++ [.closed ctx.id trailer] } := by
  have hnot := h.ctx_not_closed hc
  refine ⟨?_, ?_, ?_, ?_, ?_, ?_, by simp, by simp, by simp, h.destroyed_stopped, ?_⟩
  · have hcl : closedIds (r.log ++ [.closed ctx.id trailer]) = closedIds r.log ++ [ctx.id] := by
      rw [closedIds_append]
      rfl
    rw [hcl]
    exact h.closed_once.append (List.nodup_singleton ctx.id)
      (List.disjoint_singleton.mpr hnot)
  · intro id hid
    rw [closedIds_append, List.mem_append] at hid
    rw [openedIds_append, List.mem_append]
    rcases hid with hid | hid
    · exact .inl (h.closed_opened id hid)
    · obtain rfl : id = ctx.id := by simpa [closedIds] using hid
      exact .inl (h.ctx_opened ctx hc)
  · intro id tr hmem
    simp only [List.mem_append, List.mem_singleton, reduceCtorEq, or_false] at hmem ⊢
    rcases hmem with hmem | hmem
    · exact h.trailer_iff id tr hmem
    · obtain ⟨rfl, rfl⟩ := ContextEvent.closed.inj hmem
      exact ht
  · intro id hid
    exact h.opened_lt id (by simpa [openedIds] using hid)
  · intro id hid
    exact h.header_lt id (by simpa using hid)
  · intro id hid
    have hid' : id ∈ openedIds r.log := by simpa [openedIds] using hid
    constructor
    · intro hopen
      rw [closedIds_append, List.mem_append, not_or] at hopen
      obtain ⟨ctx', hctx', rfl⟩ := (h.open_iff id hid').mp hopen.1
      rw [Option.mem_unique hctx' hc] at hopen
      exact absurd (by simp [closedIds]) hopen.2
    · rintro ⟨ctx', hctx', -⟩
      cases hctx'
  · intro id
    simpa using h.none_late id

/-! ### One lemma for each section -/

/-- The section of `Start`, when no container is open and the last one is yet to be
    closed. -/
theorem openContext (h : ContextInv r) (x : RecorderOutcome)
    (hg : args.recordType = .snapshot ∨ r.fmtCtx = none ∧ r.stopped = false) :
    ContextInv (r.openContext args x).1 := by
  unfold RecorderManager.openContext
  split
  case isTrue => exact h
  case isFalse hs =>
    obtain ⟨hnone, hrun⟩ := hg.resolve_left hs
    have hdes : r.destroyed = false := by
      cases hd : r.destroyed with
      | false => rfl
      | true => rw [h.destroyed_stopped hd] at hrun; cases hrun
    -- `fmt_ctx` is null, so every context opened so far is closed
    have hclosed : ∀ id ∈ openedIds r.log, id ∈ closedIds r.log := by
      intro id hid
      by_contra hopen
      obtain ⟨ctx, hctx, -⟩ := (h.open_iff id hid).mp hopen
      rw [hnone] at hctx
      cases hctx
    -- a context gets a number that no context before it had
    have hnew : r.nextCtx ∉ closedIds r.log := fun hmem =>
      absurd (h.opened_lt _ (h.closed_opened _ hmem)) (lt_irrefl _)
    have hnohead : .header r.nextCtx ∉ r.log := fun hmem =>
      absurd (h.header_lt _ hmem) (lt_irrefl _)
    have hopened : ContextInv { r with
        fmtCtx := some ⟨r.nextCtx, args.streams⟩
        headerWritten := false
        nextCtx := r.nextCtx + 1
        log := r.log ++ [.opened r.nextCtx r.destroyed] } := by
      refine ⟨by simpa [closedIds] using h.closed_once, ?_, ?_, ?_, ?_, ?_, ?_, ?_, ?_,
        h.destroyed_stopped, ?_⟩
      · intro id hid
        rw [openedIds_append, List.mem_append]
        exact .inl (h.closed_opened id (by simpa [closedIds] using hid))
      · intro id tr hmem
        simp only [List.mem_append, List.mem_singleton, reduceCtorEq, or_false] at hmem ⊢
        exact h.trailer_iff id tr hmem
      · intro id hid
        rw [openedIds_append, List.mem_append] at hid
        rcases hid with hid | hid
        · exact Nat.lt_succ_of_lt (h.opened_lt id hid)
        · obtain rfl : id = r.nextCtx := by simpa [openedIds] using hid
          exact Nat.lt_succ_self _
      · intro id hid
        exact Nat.lt_succ_of_lt (h.header_lt id (by simpa using hid))
      · intro id hid
        have hcl : closedIds (r.log ++ [.opened r.nextCtx r.destroyed]) = closedIds r.log := by
          simp [closedIds]
        rw [openedIds_append, List.mem_append] at hid
        rw [hcl]
        rcases hid with hid | hid
        · refine ⟨fun hopen => absurd (hclosed id hid) hopen, ?_⟩
          rintro ⟨ctx, hctx, rfl⟩
          cases hctx
          exact absurd (h.opened_lt _ hid) (lt_irrefl _)
        · obtain rfl : id = r.nextCtx := by simpa [openedIds] using hid
          exact ⟨fun _ => ⟨_, rfl, rfl⟩, fun _ => hnew⟩
      · rintro ctx hctx
        cases hctx
        simp [openedIds]
      · rintro ctx hctx
        cases hctx
        simpa using hnohead
      · intro hst
        rw [hrun] at hst
        cases hst
      · intro id
        simpa [hdes] using h.none_late id
    split
    -- no context could be allocated
    case h_1 => exact hnone ▸ { h with }
    case h_2 =>
      -- the context that could not be given a file is freed in the same section
      have hfree : false = true ↔
          .header r.nextCtx ∈ r.log ++ [ContextEvent.opened r.nextCtx r.destroyed] := by
        simpa using hnohead
      simpa using hopened.close (b := r.headerWritten) rfl hfree
    case h_3 => exact hopened

/-- The section of `CloseCurrentFile`. -/
theorem closeContext (h : ContextInv r) : ContextInv r.closeContext := by
  unfold RecorderManager.closeContext
  split
  case h_1 ctx hctx => exact h.close hctx (h.header_iff ctx hctx)
  case h_2 hnone => exact { h with header_iff := by simp [hnone] }

theorem closeContext_fmtCtx (r : RecorderManager) : r.closeContext.fmtCtx = none := by
  unfold RecorderManager.closeContext
  split
  · rfl
  · assumption

/-- Writing a frame changes no context. -/
theorem writeFrame (h : ContextInv r) (ctx : AVFormatContext) (pkt : AVPacket) :
    ContextInv (r.writeFrame ctx pkt) := by
  unfold RecorderManager.writeFrame
  split
  case isTrue =>
    have ho : openedIds (r.log ++ [.frame ctx.id pkt]) = openedIds r.log := by simp [openedIds]
    have hc : closedIds (r.log ++ [.frame ctx.id pkt]) = closedIds r.log := by simp [closedIds]
    exact
      { closed_once := by rw [hc]; exact h.closed_once
        closed_opened := by rw [hc, ho]; exact h.closed_opened
        trailer_iff := by simpa using h.trailer_iff
        opened_lt := by rw [ho]; exact h.opened_lt
        header_lt := by simpa using h.header_lt
        open_iff := by rw [hc, ho]; exact h.open_iff
        ctx_opened := by rw [ho]; exact h.ctx_opened
        header_iff := by simpa using h.header_iff
        stopped_none := h.stopped_none
        destroyed_stopped := h.destroyed_stopped
        none_late := by simpa using h.none_late }
  case isFalse => exact h

/-- The header of the open context is written, its streams aside. -/
theorem header (h : ContextInv r) {ctx ctx' : AVFormatContext} (hc : ctx ∈ r.fmtCtx)
    (hid : ctx'.id = ctx.id) :
    ContextInv { r with
      fmtCtx := some ctx', headerWritten := true, log := r.log ++ [.header ctx'.id],
      headerStreams := ctx'.streams } := by
  have ho : openedIds (r.log ++ [.header ctx'.id]) = openedIds r.log := by simp [openedIds]
  have hcl : closedIds (r.log ++ [.header ctx'.id]) = closedIds r.log := by simp [closedIds]
  have hnot := h.ctx_not_closed hc
  refine ⟨by rw [hcl]; exact h.closed_once, by rw [hcl, ho]; exact h.closed_opened, ?_,
    by rw [ho]; exact h.opened_lt, ?_, ?_, ?_, by simp, ?_, h.destroyed_stopped, ?_⟩
  · intro id tr hmem
    simp only [List.mem_append, List.mem_singleton, reduceCtorEq, or_false] at hmem
    -- a closed context is not the open one, so its header is not this one
    have hne : id ≠ ctx'.id := by
      rintro rfl
      exact hnot (hid ▸ mem_closedIds.mpr ⟨tr, hmem⟩)
    simpa [hne] using h.trailer_iff id tr hmem
  · intro id hmem
    simp only [List.mem_append, List.mem_singleton, ContextEvent.header.injEq] at hmem
    rcases hmem with hmem | rfl
    · exact h.header_lt id hmem
    · exact hid ▸ h.opened_lt _ (h.ctx_opened ctx hc)
  · intro id hmem
    rw [ho] at hmem
    rw [hcl, h.open_iff id hmem]
    constructor
    · rintro ⟨c, hcm, rfl⟩
      exact ⟨ctx', rfl, by rw [hid, Option.mem_unique hcm hc]⟩
    · rintro ⟨c, hcm, rfl⟩
      cases hcm
      exact ⟨ctx, hc, hid.symm⟩
  · rintro c hcm
    cases hcm
    rw [ho, hid]
    exact h.ctx_opened ctx hc
  · intro hst
    rw [h.stopped_none hst] at hc
    cases hc
  · intro id
    simpa using h.none_late id

/-- `WriteIntoFile`. -/
theorem writeIntoFile (h : ContextInv r) (pkt : AVPacket) (x : RecorderOutcome) :
    ContextInv (r.writeIntoFile pkt x) := by
  unfold RecorderManager.writeIntoFile
  split
  case h_1 => exact h
  case h_2 ctx hctx =>
    split
    case isTrue => exact h
    case isFalse =>
      split
      case isTrue => exact h.writeFrame ctx pkt
      case isFalse hw =>
        split
        case isTrue => exact h
        case isFalse =>
          split
          case isTrue =>
            -- the header was not written, so the context goes without a trailer
            have hno : ¬ ContextEvent.header ctx.id ∈ r.log := fun hmem =>
              hw ((h.header_iff ctx hctx).mpr hmem)
            exact h.close (b := r.headerWritten) hctx (by simpa using hno)
          case isFalse =>
            have hid : (setExtradata ctx pkt).id = ctx.id := rfl
            exact (h.header hctx hid).writeFrame (setExtradata ctx pkt) pkt

end ContextInv

/-! ### All interleavings -/

/-- `Start` opens a container only while none is open and the destructor has not closed
    the last one. -/
def OpensSafely (args : RecorderArgs) (op : RecorderOp)
    (s : Threads RecorderManager RecorderOp) : Prop :=
  op = .openContext →
    args.recordType = .snapshot ∨ s.shared.fmtCtx = none ∧ s.shared.stopped = false

instance (op : RecorderOp) (s : Threads RecorderManager RecorderOp) :
    Decidable (OpensSafely args op s) :=
  inferInstanceAs (Decidable (op = .openContext →
    args.recordType = .snapshot ∨ s.shared.fmtCtx = none ∧ s.shared.stopped = false))

/-- The operations that the destructor gets to after closing the last container. -/
def RecorderOp.afterStop : RecorderOp → Bool
  | .resetFileNumber .destructor => true
  | .returnDestructor => true
  | _ => false

/-- The invariant of the interleavings. -/
def RecorderInv (r : RecorderManager) (flight : Multiset RecorderOp) : Prop :=
  ContextInv r ∧ ∀ op ∈ flight, op.afterStop = true → r.stopped = true

/-- What an operation leaves behind, once its section keeps `ContextInv`: the flag of the
    destructor is never taken back, and what follows the operation may rely on it. -/
private theorem RecorderInv.settle {r r' : RecorderManager} {others : Multiset RecorderOp}
    {next : List RecorderOp} (hctx : ContextInv r')
    (hothers : ∀ op ∈ others, op.afterStop = true → r.stopped = true)
    (hstop : r.stopped = true → r'.stopped = true)
    (hnext : ∀ op ∈ next, op.afterStop = true → r'.stopped = true) :
    RecorderInv r' (↑next + others + ↑([] : List (List RecorderOp)).flatten) := by
  refine ⟨hctx, fun op hop hafter => ?_⟩
  simp only [List.flatten_nil, Multiset.coe_nil, add_zero, Multiset.mem_add,
    Multiset.mem_coe] at hop
  rcases hop with hop | hop
  · exact hnext op hop hafter
  · exact hstop (hothers op hop hafter)

/-- Every operation executed under `OpensSafely` keeps the invariant. -/
theorem recorderExec_keeps {s : Threads RecorderManager RecorderOp} {op : RecorderOp}
    {others : Multiset RecorderOp} {x : RecorderOutcome}
    {e : Effect RecorderManager RecorderOp} (hfl : s.inFlight = op ::ₘ others)
    (hP : RecorderInv s.shared s.inFlight) (hg : OpensSafely args op s)
    (he : recorderExec args op x s = some e) :
    RecorderInv e.shared (↑e.next + others + ↑e.spawn.flatten) := by
  obtain ⟨hctx, hafter⟩ := hP
  have hothers : ∀ o ∈ others, o.afterStop = true → s.shared.stopped = true := fun o ho =>
    hafter o (hfl ▸ Multiset.mem_cons_of_mem ho)
  -- the operation itself may rely on the flag as well
  have hop : op.afterStop = true → s.shared.stopped = true :=
    hafter op (hfl ▸ Multiset.mem_cons_self op others)
  cases op with
  | checkSpace =>
    cases he
    exact RecorderInv.settle { hctx with } hothers id (by simp [RecorderOp.afterStop])
  | openContext =>
    have hopen := hctx.openContext x (hg rfl)
    simp only [recorderExec, Option.some.injEq] at he
    subst he
    refine RecorderInv.settle hopen hothers (openContext_same s.shared args x).stopped.ge ?_
    intro op hmem hlast
    split at hmem
    · obtain rfl := List.mem_singleton.mp hmem
      cases hlast
    · cases hmem
  | markRecording | bumpFileNumber =>
    cases he
    exact RecorderInv.settle { hctx with } hothers id (by simp)
  | gate | rotate | autoStart =>
    simp only [recorderExec, Option.some.injEq] at he
    subst he
    refine RecorderInv.settle hctx hothers id ?_
    intro op hmem hlast
    split at hmem <;> simp only [List.mem_cons, List.not_mem_nil, or_false] at hmem
    all_goals grind [RecorderOp.afterStop]
  | clearRecording caller =>
    cases he
    exact RecorderInv.settle { hctx with } hothers id (by simp [RecorderOp.afterStop])
  | closeContext caller =>
    have hclose := hctx.closeContext
    have hstop := (closeContext_same s.shared).stopped
    cases caller with
    | stop | rotation =>
      cases he
      exact RecorderInv.settle hclose hothers hstop.ge (by simp [RecorderOp.afterStop])
    | destructor =>
      -- from here on the destructor counts on no container being open
      cases he
      have hnone := ContextInv.closeContext_fmtCtx s.shared
      have hstopped : ContextInv { s.shared.closeContext with stopped := true } :=
        { hclose with
          stopped_none := fun _ => hnone
          destroyed_stopped := fun _ => rfl }
      exact RecorderInv.settle hstopped hothers (fun _ => rfl) (fun _ _ _ => rfl)
  | resetFileNumber caller =>
    cases he
    refine RecorderInv.settle { hctx with } hothers id ?_
    intro op hmem _
    cases caller with
    | destructor => exact hop rfl
    | stop | rotation => simp at hmem
  | returnDestructor =>
    cases he
    have hstopped := hop rfl
    exact RecorderInv.settle { hctx with destroyed_stopped := fun _ => hstopped } hothers id
      (by simp)
  | setBase ts =>
    cases he
    split
    · exact RecorderInv.settle { hctx with } hothers id (by simp [RecorderOp.afterStop])
    · exact RecorderInv.settle hctx hothers id (by simp [RecorderOp.afterStop])
  | writePacket pkt =>
    cases he
    exact RecorderInv.settle (hctx.writeIntoFile pkt x) hothers
      (writeIntoFile_same s.shared pkt x).stopped.ge (by simp)

/-- A recorder that was just created has no container. -/
private theorem recorderInv_init :
    RecorderInv (recorderCode args).init.shared (recorderCode args).init.inFlight := by
  have hctx : ContextInv {} := by
    constructor <;> simp [openedIds, closedIds]
  exact ⟨hctx, by simp [recorderCode, Threads.inFlight]⟩

/-- A call brings in no operation that relies on the destructor's `CloseCurrentFile`. -/
private theorem recorderEntry_keeps {s : Threads RecorderManager RecorderOp} {k : RecorderCall}
    {ops : List RecorderOp} (hP : RecorderInv s.shared s.inFlight)
    (hk : (recorderCode args).entry k s = some ops) :
    RecorderInv s.shared (s.inFlight + ↑ops) := by
  have hafter : ∀ op ∈ recorderEntry k, op.afterStop = false := by
    cases k <;> simp [recorderEntry, RecorderOp.afterStop]
  obtain rfl := Option.some.inj hk
  refine ⟨hP.1, fun op hop hlast => ?_⟩
  rcases Multiset.mem_add.mp hop with hop | hop
  · exact hP.2 op hop hlast
  · rw [hafter op hop] at hlast
    cases hlast

/-- **Containers are well kept.** In every interleaving of starts, stops, frames, packets
    and the destructor whose `Start`s open a container only while none is open and the
    destructor has not closed the last one, every state has its contexts well kept. -/
theorem contexts_wellKept (args : RecorderArgs)
    (as : List (Label RecorderOutcome RecorderCall)) (s : Threads RecorderManager RecorderOp)
    (hsafe : (recorderCode args).machine.Guarded (Code.When (OpensSafely args))
      (recorderCode args).init as)
    (hrun : (recorderCode args).machine.run as = some s) :
    ContextsWellKept s.shared := by
  have hinv : RecorderInv s.shared s.inFlight :=
    Code.guarded_interleavings (fun _ _ _ hP hk => recorderEntry_keeps hP hk)
      (fun _ _ _ _ _ hfl hP hg he => recorderExec_keeps hfl hP hg he) recorderInv_init hsafe hrun
  exact hinv.1.wellKept

/-- A recorder of a video stream without auto-start, as the on-demand one is. -/
def onDemandArgs : RecorderArgs where
  recordType := .video
  autoStart := false
  fileDuration := 60
  streams := [⟨.other, []⟩]

/-- A recording of one packet, and the destructor. -/
def oneRecording : List (Label RecorderOutcome RecorderCall) :=
  [.call .start, .run 0 .done, .run 0 .done, .run 0 .done,
   .call (.packet ⟨0, true, [1]⟩), .run 1 .done,
   .call .stop, .run 2 .done, .run 2 .done, .run 2 .done,
   .call .destructor, .run 3 .done, .run 3 .done, .run 3 .done, .run 3 .done]

theorem contexts_wellKept_oneRecording :
    ∃ s, (recorderCode onDemandArgs).machine.run oneRecording = some s ∧
      s.shared.destroyed = true ∧ openedIds s.shared.log = [0] ∧
      ContextsWellKept s.shared := by
  exact ⟨_, rfl, rfl, rfl, contexts_wellKept onDemandArgs oneRecording _ (by decide) rfl⟩

/-- A client asks for a recording twice. -/
def startedTwice : List (Label RecorderOutcome RecorderCall) :=
  [.call .start, .run 0 .done, .run 0 .done, .run 0 .done,
   .call .start, .run 1 .done, .run 1 .done]

/-- A recorder with auto-start gets a frame between its destructor's `Stop` and the end of
    the destructor. -/
def frameAfterStop : List (Label RecorderOutcome RecorderCall) :=
  [.call .destructor, .run 0 .done, .run 0 .done,
   .call (.frame 0), .run 1 .done, .run 1 .done, .run 1 .done,
   .run 0 .done, .run 0 .done]

/-- After the second `Start` two contexts are open; after the late frame one is open when
    the destructor has returned. -/
theorem not_wellKept_startedTwice :
    (∃ s, (recorderCode onDemandArgs).machine.run startedTwice = some s ∧
      ¬ ContextsWellKept s.shared) ∧
    (∃ s, (recorderCode { onDemandArgs with autoStart := true }).machine.run frameAfterStop
        = some s ∧
      ¬ ContextsWellKept s.shared) := by
  refine ⟨⟨_, rfl, fun h => ?_⟩, ⟨_, rfl, fun h => ?_⟩⟩
  · exact absurd (h.one_open 0 (by decide) 1 (by decide) (by decide) (by decide)) (by decide)
  · exact absurd (h.none_left rfl 0 (by decide)) (by decide)

end PiWebrtc.Recorder
