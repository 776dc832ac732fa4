import PiWebrtc.Lib.Machine

namespace PiWebrtc.Codecs

open Transition

/-!
# The capture buffers of a V4L2 codec

`SetupCaptureBuffer` has the capture buffers allocated and mapped and, where a decoder shares
them, exported as descriptors, and queues them.  When the size of the pictures changes,
`HandleEvent` gives them all up and allocates new ones, and the destructor gives up those that
there are then.

`DeallocateBuffer` resets `start` but not `dmafd`.  If the driver frees the buffers it also clears
`has_dmafd`, so that new ones are not exported; if it refuses to, they are exported again.  And
`HandleEvent` does not queue the new buffers.

* `capturedSafely` — every mapping is given back once, and a frame is only passed on with
  memory that is mapped and a descriptor that is open.
* `noFrameAfter` — after a change of the size there is never a frame again.
* `closesOwn_iff` — the codec closes none but its own descriptors exactly if, whenever the buffers
  are given up, those that have a descriptor were exported since the last time; otherwise a
  number is closed that may stand for another file by then.

The driver gives back only buffers that it has.  `VIDIOC_STREAMOFF` takes all of them from it, and
fails only where it has none.  The rest of the program may open and close descriptors at any time.
-/

/-! ### What the codec gets from the system -/

/-- What a descriptor stood for when it was closed. -/
inductive CloseTarget where
  /-- A buffer that the codec has exported. -/
  | own
  /-- A file of the rest of the program. -/
  | other
  | nothing
  deriving DecidableEq, Repr

/-- The descriptors that are open, of exported buffers and of the rest of the program, and the
    codec's mappings, by their numbers; and, as history, what each `close` has closed and
    whether what `munmap` was given was mapped. -/
structure CodecProcess where
  exports : List ℤ := []
  others : List ℤ := []
  mappings : List ℕ := []
  nextMapping : ℕ := 0
  closes : List CloseTarget := []
  unmaps : List Bool := []
  deriving DecidableEq, Repr

namespace CodecProcess

/-- `VIDIOC_EXPBUF`; a descriptor that is open is not given out again. -/
def exportBuffer (p : CodecProcess) (fd : ℤ) : Option CodecProcess :=
  if 0 ≤ fd ∧ fd ∉ p.exports ∧ fd ∉ p.others then some { p with exports := fd :: p.exports }
  else none

/-- `mmap`. -/
def mmap (p : CodecProcess) : CodecProcess :=
  { p with mappings := p.nextMapping :: p.mappings, nextMapping := p.nextMapping + 1 }

/-- `munmap`. -/
def munmap (p : CodecProcess) (m : ℕ) : CodecProcess :=
  { p with mappings := p.mappings.erase m, unmaps := p.unmaps ++ [decide (m ∈ p.mappings)] }

/-- `close`. -/
def close (p : CodecProcess) (fd : ℤ) : CodecProcess :=
  if fd ∈ p.exports then { p with exports := p.exports.erase fd, closes := p.closes ++ [.own] }
  else if fd ∈ p.others then
    { p with others := p.others.erase fd, closes := p.closes ++ [.other] }
  else { p with closes := p.closes ++ [.nothing] }

end CodecProcess

/-! ### The buffers -/

/-- A `V4L2Buffer`: what `start` points to, and `dmafd`; and, as history, whether it was exported
    since the buffers were given up. -/
structure CaptureBuffer where
  start : Option ℕ := none
  dmafd : ℤ := -1
  fresh : Bool := false
  deriving DecidableEq, Repr

/-- How the turn of `MMap` for a buffer ends; the descriptor is that of the export, if there is
    one. -/
inductive MapAnswer where
  | queryFails
  | exportFails
  | mapFails (fd : ℤ)
  | mapped (fd : ℤ)
  deriving DecidableEq, Repr

/-- The buffer is exported, if it is to be. -/
def exportTo (hasDmafd : Bool) (p : CodecProcess) (b : CaptureBuffer) (fd : ℤ) :
    Option (CodecProcess × CaptureBuffer) :=
  if hasDmafd then (p.exportBuffer fd).map fun p' => (p', { b with dmafd := fd, fresh := true })
  else some (p, b)

/-- The loop of `MMap`, and whether it gets to its end; `none` if the answers do not fit. -/
def mMap (hasDmafd : Bool) :
    CodecProcess → List CaptureBuffer → List MapAnswer →
      Option (CodecProcess × List CaptureBuffer × Bool)
  | p, [], _ => some (p, [], true)
  | _, _ :: _, [] => none
  | p, b :: bs, a :: as =>
    match a with
    | .queryFails => some (p, b :: bs, false)
    | .exportFails => if hasDmafd then some (p, b :: bs, false) else none
    | .mapFails fd =>
      (exportTo hasDmafd p b fd).map fun x => (x.1, { x.2 with start := none } :: bs, false)
    | .mapped fd =>
      (exportTo hasDmafd p b fd).bind fun x =>
        (mMap hasDmafd x.1.mmap bs as).map fun y =>
          (y.1, { x.2 with start := some x.1.nextMapping } :: y.2.1, y.2.2)

/-- The descriptor of a buffer is closed, if there is one. -/
def CodecProcess.closeDmafd (p : CodecProcess) (b : CaptureBuffer) : CodecProcess :=
  if 0 < b.dmafd then p.close b.dmafd else p

/-- A buffer is unmapped, if it is mapped. -/
def CodecProcess.unmapStart (p : CodecProcess) (b : CaptureBuffer) : CodecProcess :=
  match b.start with
  | some m => p.munmap m
  | none => p

/-- `UnMap`, which leaves each `start` null. -/
def unMap (p : CodecProcess) (bs : List CaptureBuffer) : CodecProcess :=
  bs.foldl (fun p b => (p.closeDmafd b).unmapStart b) p

/-- A buffer after `UnMap`. -/
def CaptureBuffer.unmapped (b : CaptureBuffer) : CaptureBuffer :=
  { b with start := none, fresh := false }

/-! ### The codec -/

/-- Where the codec is. -/
inductive CaptureWorker where
  /-- The device is open. -/
  | opened
  /-- The capture buffers could not be set up. -/
  | failed
  /-- The worker waits for a frame or an event. -/
  | waiting
  /-- The worker has a buffer in hand. -/
  | passing (index : ℕ)
  /-- The program has exited. -/
  | exited
  | destroyed
  deriving DecidableEq, Repr

/-- A frame that was passed on: whether its memory was mapped, and whether its descriptor, if it
    had one, was the open one of an exported buffer. -/
structure PassedFrame where
  mapped : Bool
  exported : Bool
  deriving DecidableEq, Repr

/-- The codec: `capture_` with the buffers that the driver has, and, as history, the frames that
    were passed on. -/
structure CaptureSide where
  process : CodecProcess := {}
  buffers : List CaptureBuffer := []
  hasDmafd : Bool := false
  queued : List ℕ := []
  worker : CaptureWorker := .opened
  frames : List PassedFrame := []
  deriving DecidableEq, Repr

/-- The steps of the codec, and of the rest of the program.  An allocation is `none` if the driver
    refuses it; `frees` tells whether `VIDIOC_REQBUFS` frees the old buffers. -/
inductive CaptureEvent where
  /-- `SetupCaptureBuffer` and `Start`; the driver takes the first `queues` buffers. -/
  | setup (allocation : Option (List MapAnswer)) (queues : ℕ)
  /-- `DequeueBuffer`. -/
  | dequeue (index : ℕ)
  /-- The frame is passed on, if there is a callback for it and the codec is not about to be
      destroyed, and its buffer queued if the driver takes it. -/
  | pass (called queues : Bool)
  /-- `V4L2_EVENT_SOURCE_CHANGE`. -/
  | sourceChange (frees : Bool) (allocation : Option (List MapAnswer))
  /-- `V4L2_EVENT_EOS`. -/
  | endOfStream
  /-- The destructor, when the worker was joined. -/
  | destroy (frees : Bool)
  | openOther (fd : ℤ)
  | closeOther (fd : ℤ)
  deriving DecidableEq, Repr

/-- The buffers are given up. -/
def CaptureEvent.givesUp : CaptureEvent → Bool
  | .sourceChange .. => true
  | .destroy _ => true
  | _ => false

/-- The buffers are not given up while the driver refuses to free them. -/
def CaptureEvent.frees : CaptureEvent → Bool
  | .sourceChange frees _ => frees
  | .destroy frees => frees
  | _ => true

namespace CaptureSide

/-- `AllocateBuffer`, and whether it succeeds. -/
def allocateBuffer (s : CaptureSide) : Option (List MapAnswer) → Option (CaptureSide × Bool)
  | none => some (s, false)
  | some answers =>
    (mMap s.hasDmafd s.process s.buffers answers).map fun x =>
      ({ s with process := x.1, buffers := x.2.1 }, x.2.2)

/-- `SetupCaptureBuffer`, with `QueueBuffers`. -/
def setUp (s : CaptureSide) (bufferNum : ℕ) (expDmafd : Bool)
    (allocation : Option (List MapAnswer)) (queues : ℕ) : Option CaptureSide :=
  (allocateBuffer { s with buffers := .replicate bufferNum {}, hasDmafd := expDmafd }
    allocation).map fun x =>
      if x.2 = true ∧ bufferNum ≤ queues then
        { x.1 with queued := .range bufferNum, worker := .waiting }
      else { x.1 with worker := .failed }

/-- `StreamOff` and `DeallocateBuffer`, which returns before it clears `has_dmafd` if the driver
    does not free the buffers. -/
def deallocateBuffer (s : CaptureSide) (frees : Bool) : CaptureSide :=
  { s with
    process := unMap s.process s.buffers
    buffers := s.buffers.map .unmapped
    hasDmafd := if frees then false else s.hasDmafd
    queued := [] }

/-- The frame in a buffer, as it is passed on. -/
def frameIn (s : CaptureSide) (b : CaptureBuffer) : PassedFrame where
  mapped := b.start.any (· ∈ s.process.mappings)
  exported := b.dmafd ≤ 0 ∨ b.dmafd ∈ s.process.exports

/-- One step, for `bufferNum` buffers that are exported or not. -/
def step (bufferNum : ℕ) (expDmafd : Bool) (s : CaptureSide) : CaptureEvent → Option CaptureSide
  | .setup allocation queues =>
    if s.worker = .opened then s.setUp bufferNum expDmafd allocation queues else none
  | .dequeue index =>
    if s.worker = .waiting ∧ index ∈ s.queued then
      some { s with queued := s.queued.erase index, worker := .passing index }
    else none
  | .pass called queues =>
    match s.worker with
    | .passing index =>
      (s.buffers[index]?).map fun b =>
        { s with
          frames := if called then s.frames ++ [s.frameIn b] else s.frames
          queued := if queues then s.queued ++ [index] else s.queued
          worker := .waiting }
    | _ => none
  | .sourceChange frees allocation =>
    if s.worker = .waiting then
      ((s.deallocateBuffer frees).allocateBuffer allocation).map (·.1)
    else none
  | .endOfStream => if s.worker = .waiting then some { s with worker := .exited } else none
  | .destroy frees =>
    if s.worker = .opened ∨ s.worker = .failed ∨ s.worker = .waiting then
      some { s.deallocateBuffer frees with worker := .destroyed }
    else none
  | .openOther fd =>
    if fd ∉ s.process.exports ∧ fd ∉ s.process.others then
      some { s with process := { s.process with others := fd :: s.process.others } }
    else none
  | .closeOther fd =>
    if fd ∈ s.process.others then
      some { s with process := { s.process with others := s.process.others.erase fd } }
    else none

end CaptureSide

/-- A codec whose device was opened, and all orders of steps. -/
def captureSide (bufferNum : ℕ) (expDmafd : Bool) : Machine CaptureSide CaptureEvent where
  init := {}
  step := CaptureSide.step bufferNum expDmafd

/-! ### The loop of `MMap` -/

/-- What the loop of `MMap` comes to: it gets to the end of the buffers, or stops before a buffer
    or after the export of one. -/
inductive MapsTo (hasDmafd : Bool) :
    CodecProcess → List CaptureBuffer → CodecProcess → List CaptureBuffer → Bool → Prop
  | nil {p : CodecProcess} : MapsTo hasDmafd p [] p [] true
  | stopped {p : CodecProcess} {b : CaptureBuffer} {bs : List CaptureBuffer} :
    MapsTo hasDmafd p (b :: bs) p (b :: bs) false
  | unmapped {p p₁ : CodecProcess} {b b₁ : CaptureBuffer} {bs : List CaptureBuffer} {fd : ℤ}
    (hexport : exportTo hasDmafd p b fd = some (p₁, b₁)) :
    MapsTo hasDmafd p (b :: bs) p₁ ({ b₁ with start := none } :: bs) false
  | mapped {p p₁ p₂ : CodecProcess} {b b₁ : CaptureBuffer} {bs bs₂ : List CaptureBuffer} {fd : ℤ}
    {completes : Bool} (hexport : exportTo hasDmafd p b fd = some (p₁, b₁))
    (hloop : MapsTo hasDmafd p₁.mmap bs p₂ bs₂ completes) :
    MapsTo hasDmafd p (b :: bs) p₂ ({ b₁ with start := some p₁.nextMapping } :: bs₂) completes

theorem mapsTo_of_mMap {hasDmafd completes : Bool} {p p' : CodecProcess}
    {bs bs' : List CaptureBuffer} {answers : List MapAnswer}
    (hmap : mMap hasDmafd p bs answers = some (p', bs', completes)) :
    MapsTo hasDmafd p bs p' bs' completes := by
  induction bs generalizing p bs' answers with
  | nil =>
    rw [mMap, Option.some.injEq, Prod.mk.injEq, Prod.mk.injEq] at hmap
    obtain ⟨rfl, rfl, rfl⟩ := hmap
    exact .nil
  | cons b bs ih =>
    cases answers with
    | nil => rw [mMap] at hmap; cases hmap
    | cons a answers =>
      cases a with
      | queryFails =>
        rw [mMap, Option.some.injEq, Prod.mk.injEq, Prod.mk.injEq] at hmap
        obtain ⟨rfl, rfl, rfl⟩ := hmap
        exact .stopped
      | exportFails =>
        rw [mMap] at hmap
        split_ifs at hmap
        rw [Option.some.injEq, Prod.mk.injEq, Prod.mk.injEq] at hmap
        obtain ⟨rfl, rfl, rfl⟩ := hmap
        exact .stopped
      | mapFails fd =>
        rw [mMap] at hmap
        obtain ⟨⟨p₁, b₁⟩, hexport, heq⟩ := Option.map_eq_some_iff.mp hmap
        rw [Prod.mk.injEq, Prod.mk.injEq] at heq
        obtain ⟨rfl, rfl, rfl⟩ := heq
        exact .unmapped hexport
      | mapped fd =>
        rw [mMap] at hmap
        obtain ⟨⟨p₁, b₁⟩, hexport, hmap⟩ := Option.bind_eq_some_iff.mp hmap
        obtain ⟨⟨p₂, bs₂, completes₂⟩, hloop, heq⟩ := Option.map_eq_some_iff.mp hmap
        rw [Prod.mk.injEq, Prod.mk.injEq] at heq
        obtain ⟨rfl, rfl, rfl⟩ := heq
        exact .mapped hexport (ih hloop)

/-- All buffers are mapped when the loop gets to its end. -/
theorem MapsTo.completes {hasDmafd completes : Bool} {p p' : CodecProcess}
    {bs bs' : List CaptureBuffer} (hmap : MapsTo hasDmafd p bs p' bs' completes)
    (hcompletes : completes = true) :
    bs'.length = bs.length ∧ ∀ b ∈ bs', b.start.isSome = true := by
  induction hmap with
  | nil => exact ⟨rfl, fun b hb => absurd hb List.not_mem_nil⟩
  | stopped | unmapped => cases hcompletes
  | mapped hexport hloop ih =>
    obtain ⟨hlength, hall⟩ := ih hcompletes
    refine ⟨congrArg (· + 1) hlength, fun b hb => ?_⟩
    rcases List.mem_cons.mp hb with rfl | hb
    · rfl
    · exact hall b hb

/-! ### Mappings -/

/-- What the buffers point to. -/
def startsOf (bs : List CaptureBuffer) : List ℕ := bs.filterMap (·.start)

/-- The mappings are these, each of them once, and none was given back that was not there. -/
structure CodecProcess.Mapped (p : CodecProcess) (ms : List ℕ) : Prop where
  perm : p.mappings.Perm ms
  nodup : p.mappings.Nodup
  below : ∀ m ∈ p.mappings, m < p.nextMapping
  unmaps : ∀ u ∈ p.unmaps, u = true

namespace CodecProcess

variable {p : CodecProcess} {ms ms' : List ℕ} {m : ℕ}

theorem Mapped.of_perm (h : p.Mapped ms) (hperm : ms.Perm ms') : p.Mapped ms' :=
  { h with perm := h.perm.trans hperm }

/-- A new mapping has a new number. -/
theorem Mapped.mmap (h : p.Mapped ms) : p.mmap.Mapped (p.nextMapping :: ms) where
  perm := h.perm.cons _
  nodup := List.nodup_cons.mpr ⟨fun hin => Nat.lt_irrefl _ (h.below _ hin), h.nodup⟩
  below m hm := by
    rcases List.mem_cons.mp hm with rfl | hm
    · exact Nat.lt_succ_self _
    · exact Nat.lt_succ_of_lt (h.below m hm)
  unmaps := h.unmaps

theorem Mapped.munmap (h : p.Mapped (m :: ms)) : (p.munmap m).Mapped ms where
  perm := by
    have herase := h.perm.erase m
    rwa [List.erase_cons_head] at herase
  nodup := h.nodup.erase m
  below m' hm' := h.below m' (List.mem_of_mem_erase hm')
  unmaps u hu := by
    rcases List.mem_append.mp hu with hu | hu
    · exact h.unmaps u hu
    · rw [List.mem_singleton.mp hu, decide_eq_true_iff]
      exact h.perm.mem_iff.mpr (List.mem_cons_self ..)

/-- Descriptors have nothing to do with it. -/
theorem Mapped.congr {p' : CodecProcess} (h : p.Mapped ms) (hmappings : p'.mappings = p.mappings)
    (hnext : p'.nextMapping = p.nextMapping) (hunmaps : p'.unmaps = p.unmaps) : p'.Mapped ms where
  perm := hmappings ▸ h.perm
  nodup := hmappings ▸ h.nodup
  below m hm := hnext ▸ h.below m (hmappings ▸ hm)
  unmaps u hu := h.unmaps u (hunmaps ▸ hu)

theorem Mapped.close (h : p.Mapped ms) (fd : ℤ) : (p.close fd).Mapped ms := by
  rw [CodecProcess.close]
  split_ifs <;> exact h.congr rfl rfl rfl

theorem Mapped.closeDmafd (h : p.Mapped ms) (b : CaptureBuffer) : (p.closeDmafd b).Mapped ms := by
  rw [CodecProcess.closeDmafd]
  split_ifs
  · exact h.close _
  · exact h

end CodecProcess

section Mappings

variable {p p' : CodecProcess} {ms : List ℕ} {bs bs' : List CaptureBuffer} {b b' : CaptureBuffer}
  {hasDmafd completes : Bool} {m : ℕ} {fd : ℤ} {answers : List MapAnswer}

theorem startsOf_cons_some (hb : b.start = some m) : startsOf (b :: bs) = m :: startsOf bs :=
  List.filterMap_cons_some hb

theorem startsOf_cons_none (hb : b.start = none) : startsOf (b :: bs) = startsOf bs :=
  List.filterMap_cons_none hb

theorem exportTo_mapped (hexport : exportTo hasDmafd p b fd = some (p', b')) (h : p.Mapped ms) :
    p'.Mapped ms ∧ b'.start = b.start := by
  rw [exportTo] at hexport
  split_ifs at hexport
  · obtain ⟨p₁, hp₁, heq⟩ := Option.map_eq_some_iff.mp hexport
    obtain ⟨rfl, rfl⟩ := Prod.mk.inj heq
    rw [CodecProcess.exportBuffer] at hp₁
    split_ifs at hp₁
    obtain rfl := Option.some.inj hp₁
    exact ⟨h.congr rfl rfl rfl, rfl⟩
  · obtain ⟨rfl, rfl⟩ := Prod.mk.inj (Option.some.inj hexport)
    exact ⟨h, rfl⟩

/-- **What `MMap` maps** is what the buffers point to then. -/
theorem MapsTo.mapped_startsOf (hmap : MapsTo hasDmafd p bs p' bs' completes)
    (hstart : ∀ b ∈ bs, b.start = none) (h : p.Mapped ms) : p'.Mapped (startsOf bs' ++ ms) := by
  induction hmap generalizing ms with
  | nil => exact h
  | stopped =>
    rw [startsOf, List.filterMap_eq_nil_iff.mpr hstart]
    exact h
  | unmapped hexport =>
    rw [startsOf_cons_none rfl, startsOf, List.filterMap_eq_nil_iff.mpr fun b hb =>
      hstart b (List.mem_cons_of_mem _ hb)]
    exact (exportTo_mapped hexport h).1
  | mapped hexport hloop ih =>
    have hmapped := ih (fun b hb => hstart b (List.mem_cons_of_mem _ hb))
      (exportTo_mapped hexport h).1.mmap
    rw [startsOf_cons_some rfl]
    exact hmapped.of_perm List.perm_middle

/-- **`UnMap` gives back** what the buffers point to. -/
theorem unMap_mapped (h : p.Mapped (startsOf bs ++ ms)) : (unMap p bs).Mapped ms := by
  induction bs generalizing p with
  | nil => exact h
  | cons b bs ih =>
    rw [unMap, List.foldl_cons]
    refine ih ?_
    have hclosed := h.closeDmafd b
    rw [CodecProcess.unmapStart]
    split
    case h_1 m hm =>
      rw [startsOf_cons_some hm] at hclosed
      exact hclosed.munmap
    case h_2 hnone =>
      rw [startsOf_cons_none hnone] at hclosed
      exact hclosed

theorem startsOf_unmapped (bs : List CaptureBuffer) : startsOf (bs.map .unmapped) = [] := by
  rw [startsOf, List.filterMap_map, List.filterMap_eq_nil_iff]
  exact fun _ _ => rfl

end Mappings

/-! ### Descriptors -/

/-- The descriptors that the buffers have. -/
def exportedOf (bs : List CaptureBuffer) : List ℤ := (bs.map (·.dmafd)).filter (0 < ·)

/-- Those that were exported since the buffers were given up. -/
def freshOf (bs : List CaptureBuffer) : List ℤ := exportedOf (bs.filter (·.fresh))

/-- The exported buffers have these descriptors open, each of them once and none of the rest of the
    program. -/
structure CodecProcess.Exported (p : CodecProcess) (fds : List ℤ) : Prop where
  perm : (p.exports.filter (0 < ·)).Perm fds
  nodup : p.exports.Nodup
  apart : ∀ fd ∈ p.exports, fd ∉ p.others

namespace CodecProcess

variable {p : CodecProcess} {fds fds' : List ℤ} {fd : ℤ}

theorem Exported.of_perm (h : p.Exported fds) (hperm : fds.Perm fds') : p.Exported fds' :=
  { h with perm := h.perm.trans hperm }

/-- Mappings have nothing to do with it. -/
theorem Exported.congr {p' : CodecProcess} (h : p.Exported fds) (hexports : p'.exports = p.exports)
    (hothers : p'.others = p.others) : p'.Exported fds where
  perm := hexports ▸ h.perm
  nodup := hexports ▸ h.nodup
  apart fd hfd := hothers ▸ h.apart fd (hexports ▸ hfd)

/-- An own descriptor is closed. -/
theorem Exported.close_own (h : p.Exported (fd :: fds)) :
    (p.close fd).Exported fds ∧ (p.close fd).closes = p.closes ++ [.own] := by
  have hin : fd ∈ p.exports :=
    List.mem_of_mem_filter (h.perm.mem_iff.mpr (List.mem_cons_self ..))
  rw [close, if_pos hin]
  refine ⟨⟨?_, h.nodup.erase fd, fun fd' hfd' => h.apart fd' (List.mem_of_mem_erase hfd')⟩, rfl⟩
  have herase := h.perm.erase fd
  rw [List.erase_cons_head] at herase
  refine List.Perm.trans ?_ herase
  show ((p.exports.erase fd).filter (0 < ·)).Perm _
  rw [List.Nodup.erase_eq_filter h.nodup, List.Nodup.erase_eq_filter (h.nodup.filter _),
    List.filter_filter, List.filter_filter]
  exact List.Perm.of_eq (List.filter_congr fun _ _ => Bool.and_comm _ _)

/-- A number that was closed is not open, and nothing was opened. -/
theorem Exported.close (h : p.Exported fds) (fd : ℤ) :
    ∃ fds', (p.close fd).Exported fds' ∧ fds' ⊆ fds ∧ fd ∉ fds' := by
  have hsub : p.exports.filter (0 < ·) ⊆ fds := fun _ hin => h.perm.mem_iff.mp hin
  by_cases hin : fd ∈ p.exports
  · rw [CodecProcess.close, if_pos hin]
    refine ⟨(p.exports.erase fd).filter (0 < ·),
      ⟨.refl _, h.nodup.erase fd, fun fd' hfd' => h.apart fd' (List.mem_of_mem_erase hfd')⟩,
      fun fd' hfd' => hsub ?_, fun hmem => ?_⟩
    · exact (List.erase_sublist.filter _).subset hfd'
    · exact h.nodup.not_mem_erase (List.mem_of_mem_filter hmem)
  · have hnot : fd ∉ p.exports.filter (0 < ·) := fun hmem => hin (List.mem_of_mem_filter hmem)
    rw [CodecProcess.close, if_neg hin]
    split_ifs
    · exact ⟨_, ⟨.refl _, h.nodup, fun fd' hfd' hother =>
        h.apart fd' hfd' (List.mem_of_mem_erase hother)⟩, hsub, hnot⟩
    · exact ⟨_, ⟨.refl _, h.nodup, h.apart⟩, hsub, hnot⟩

/-- Each own descriptor that is closed is one fewer that is open. -/
theorem close_cases (p : CodecProcess) (hfd : 0 < fd) :
    ∃ t, (p.close fd).closes = p.closes ++ [t] ∧
      [t].count .own + (p.close fd).exports.countP (0 < ·) ≤ p.exports.countP (0 < ·) := by
  rw [close]
  split_ifs with hown hother
  · refine ⟨.own, rfl, ?_⟩
    show 1 + (p.exports.erase fd).countP (0 < ·) ≤ _
    rw [(List.perm_cons_erase hown).countP_eq, List.countP_cons, if_pos (decide_eq_true hfd),
      Nat.add_comm]
  · exact ⟨.other, rfl, (Nat.zero_add _).le⟩
  · exact ⟨.nothing, rfl, (Nat.zero_add _).le⟩

@[simp] theorem unmapStart_closes (p : CodecProcess) (b : CaptureBuffer) :
    (p.unmapStart b).closes = p.closes := by
  rw [unmapStart]
  split <;> rfl

@[simp] theorem unmapStart_exports (p : CodecProcess) (b : CaptureBuffer) :
    (p.unmapStart b).exports = p.exports := by
  rw [unmapStart]
  split <;> rfl

theorem Exported.unmapStart (h : p.Exported fds) (b : CaptureBuffer) :
    (p.unmapStart b).Exported fds := by
  rw [CodecProcess.unmapStart]
  split
  · exact h.congr rfl rfl
  · exact h

end CodecProcess

section Exports

variable {p p' : CodecProcess} {fds : List ℤ} {bs bs' : List CaptureBuffer} {b b' : CaptureBuffer}
  {hasDmafd completes : Bool} {fd : ℤ} {answers : List MapAnswer}

theorem exportedOf_cons (b : CaptureBuffer) (bs : List CaptureBuffer) :
    exportedOf (b :: bs) = exportedOf [b] ++ exportedOf bs := by
  rw [exportedOf, exportedOf, exportedOf, List.map_cons, ← List.filter_append]
  rfl

theorem exportedOf_singleton_of_pos (hb : 0 < b.dmafd) : exportedOf [b] = [b.dmafd] := by
  rw [exportedOf, List.map_singleton, List.filter_singleton, decide_eq_true hb]
  rfl

theorem exportedOf_singleton_of_not_pos (hb : ¬ 0 < b.dmafd) : exportedOf [b] = [] := by
  rw [exportedOf, List.map_singleton, List.filter_singleton, decide_eq_false hb]
  rfl

theorem exportedOf_eq_nil (hnone : ∀ b ∈ bs, b.dmafd ≤ 0) : exportedOf bs = [] := by
  rw [exportedOf, List.filter_eq_nil_iff]
  intro fd hfd hpos
  obtain ⟨b, hb, rfl⟩ := List.mem_map.mp hfd
  exact absurd (of_decide_eq_true hpos) (Int.not_lt.mpr (hnone b hb))

theorem freshOf_cons (b : CaptureBuffer) (bs : List CaptureBuffer) :
    freshOf (b :: bs) = freshOf [b] ++ freshOf bs := by
  rw [freshOf, freshOf, freshOf, exportedOf, exportedOf, exportedOf, ← List.filter_append,
    ← List.map_append, ← List.filter_append]
  rfl

theorem freshOf_start (b : CaptureBuffer) (m : Option ℕ) :
    freshOf [{ b with start := m }] = freshOf [b] := by
  obtain ⟨start, dmafd, fresh⟩ := b
  cases fresh <;> rfl

theorem freshOf_eq_nil (hnone : ∀ b ∈ bs, b.fresh = false) : freshOf bs = [] := by
  have hfilter : bs.filter (·.fresh) = [] :=
    List.filter_eq_nil_iff.mpr fun b hb => Bool.eq_false_iff.mp (hnone b hb)
  rw [freshOf, hfilter]
  rfl

/-- The descriptors are those that were exported since and the others. -/
theorem freshOf_append_perm (bs : List CaptureBuffer) :
    (freshOf bs ++ exportedOf (bs.filter (!·.fresh))).Perm (exportedOf bs) := by
  rw [freshOf, exportedOf, exportedOf, exportedOf, ← List.filter_append, ← List.map_append]
  exact ((List.filter_append_perm _ bs).map _).filter _

theorem stale_eq_nil_iff :
    exportedOf (bs.filter (!·.fresh)) = [] ↔ ∀ b ∈ bs, 0 < b.dmafd → b.fresh = true := by
  constructor
  · intro hnil b hb hpos
    by_contra hstale
    have hmem : b.dmafd ∈ exportedOf (bs.filter (!·.fresh)) := by
      refine List.mem_filter.mpr ⟨List.mem_map_of_mem (List.mem_filter.mpr ⟨hb, ?_⟩),
        decide_eq_true hpos⟩
      rw [Bool.not_eq_true', Bool.eq_false_iff]
      exact hstale
    rw [hnil] at hmem
    exact List.not_mem_nil hmem
  · intro hall
    refine exportedOf_eq_nil fun b hb => Int.not_lt.mp fun hpos => ?_
    obtain ⟨hb, hstale⟩ := List.mem_filter.mp hb
    rw [hall b hb hpos] at hstale
    cases hstale

theorem exportTo_exported (hexport : exportTo hasDmafd p b fd = some (p', b'))
    (hb : b.fresh = false) (h : p.Exported fds) : p'.Exported (freshOf [b'] ++ fds) := by
  rw [exportTo] at hexport
  split_ifs at hexport
  · obtain ⟨p₁, hp₁, heq⟩ := Option.map_eq_some_iff.mp hexport
    obtain ⟨rfl, rfl⟩ := Prod.mk.inj heq
    rw [CodecProcess.exportBuffer] at hp₁
    split_ifs at hp₁ with hfd
    obtain ⟨-, hexports, hothers⟩ := hfd
    obtain rfl := Option.some.inj hp₁
    refine ⟨?_, List.nodup_cons.mpr ⟨hexports, h.nodup⟩, fun fd' hfd' => ?_⟩
    · show ((fd :: p.exports).filter (0 < ·)).Perm (exportedOf [_] ++ fds)
      by_cases hpos : 0 < fd
      · have hd : decide (0 < fd) = true := decide_eq_true hpos
        rw [exportedOf_singleton_of_pos hpos, List.filter_cons, if_pos hd]
        exact h.perm.cons fd
      · have hd : ¬ decide (0 < fd) = true := fun hd => hpos (of_decide_eq_true hd)
        rw [exportedOf_singleton_of_not_pos hpos, List.filter_cons, if_neg hd]
        exact h.perm
    · rcases List.mem_cons.mp hfd' with rfl | hfd'
      · exact hothers
      · exact h.apart fd' hfd'
  · obtain ⟨rfl, rfl⟩ := Prod.mk.inj (Option.some.inj hexport)
    rw [freshOf_eq_nil (List.forall_mem_singleton.mpr hb)]
    exact h

/-- **What `MMap` exports** are the descriptors that are new then. -/
theorem MapsTo.exported (hmap : MapsTo hasDmafd p bs p' bs' completes)
    (hnone : ∀ b ∈ bs, b.fresh = false) (h : p.Exported fds) :
    p'.Exported (freshOf bs' ++ fds) := by
  induction hmap generalizing fds with
  | nil => exact h
  | stopped =>
    rw [freshOf_eq_nil hnone]
    exact h
  | unmapped hexport =>
    have hb := exportTo_exported hexport (hnone _ (List.mem_cons_self ..)) h
    rw [freshOf_cons, freshOf_start, freshOf_eq_nil fun b hb => hnone b (List.mem_cons_of_mem _ hb),
      List.append_nil]
    exact hb
  | @mapped _ p₁ _ _ b₁ _ bs₂ _ _ hexport hloop ih =>
    have hb := exportTo_exported hexport (hnone _ (List.mem_cons_self ..)) h
    have hexported := ih (fun b hb => hnone b (List.mem_cons_of_mem _ hb)) (hb.congr rfl rfl)
    refine hexported.of_perm ?_
    rw [freshOf_cons _ bs₂, freshOf_start b₁ (some p₁.nextMapping), List.append_assoc]
    exact List.perm_append_comm_assoc _ _ _

theorem exportTo_closes (hexport : exportTo hasDmafd p b fd = some (p', b')) :
    p'.closes = p.closes := by
  rw [exportTo] at hexport
  split_ifs at hexport
  · obtain ⟨p₁, hp₁, heq⟩ := Option.map_eq_some_iff.mp hexport
    obtain ⟨rfl, -⟩ := Prod.mk.inj heq
    rw [CodecProcess.exportBuffer] at hp₁
    split_ifs at hp₁
    obtain rfl := Option.some.inj hp₁
    rfl
  · obtain ⟨rfl, -⟩ := Prod.mk.inj (Option.some.inj hexport)
    rfl

/-- `MMap` closes nothing. -/
theorem MapsTo.closes (hmap : MapsTo hasDmafd p bs p' bs' completes) : p'.closes = p.closes := by
  induction hmap with
  | nil | stopped => rfl
  | unmapped hexport => exact exportTo_closes hexport
  | @mapped _ p₁ _ _ _ _ _ _ _ hexport hloop ih =>
    have hmmap : p₁.mmap.closes = p₁.closes := rfl
    exact ih.trans (hmmap.trans (exportTo_closes hexport))

/-- A buffer without a descriptor gets none but by an export. -/
theorem exportTo_fresh (hexport : exportTo hasDmafd p b fd = some (p', b'))
    (hb : 0 < b.dmafd → b.fresh = true) : 0 < b'.dmafd → b'.fresh = true := by
  rw [exportTo] at hexport
  split_ifs at hexport
  · obtain ⟨p₁, -, heq⟩ := Option.map_eq_some_iff.mp hexport
    obtain ⟨-, rfl⟩ := Prod.mk.inj heq
    exact fun _ => rfl
  · obtain ⟨-, rfl⟩ := Prod.mk.inj (Option.some.inj hexport)
    exact hb

theorem MapsTo.fresh (hmap : MapsTo hasDmafd p bs p' bs' completes)
    (hbs : ∀ b ∈ bs, 0 < b.dmafd → b.fresh = true) :
    ∀ b ∈ bs', 0 < b.dmafd → b.fresh = true := by
  induction hmap with
  | nil | stopped => exact hbs
  | unmapped hexport =>
    rw [List.forall_mem_cons] at hbs ⊢
    have hb := exportTo_fresh hexport hbs.1
    exact ⟨hb, hbs.2⟩
  | mapped hexport hloop ih =>
    rw [List.forall_mem_cons] at hbs ⊢
    have hb := exportTo_fresh hexport hbs.1
    exact ⟨hb, ih hbs.2⟩

/-- Without an export the buffers keep their numbers, which stay those that were closed. -/
theorem MapsTo.unexported (hmap : MapsTo false p bs p' bs' completes)
    (hbs : ∀ b ∈ bs, b.fresh = false) :
    exportedOf bs' = exportedOf bs ∧ ∀ b ∈ bs', b.fresh = false := by
  induction hmap with
  | nil | stopped => exact ⟨rfl, hbs⟩
  | unmapped hexport =>
    obtain ⟨rfl, rfl⟩ := Prod.mk.inj (Option.some.inj hexport)
    rw [List.forall_mem_cons] at hbs ⊢
    exact ⟨rfl, hbs⟩
  | @mapped _ _ _ b _ bs _ _ _ hexport hloop ih =>
    obtain ⟨rfl, rfl⟩ := Prod.mk.inj (Option.some.inj hexport)
    rw [List.forall_mem_cons] at hbs ⊢
    obtain ⟨hsame, hstale⟩ := ih hbs.2
    refine ⟨?_, hbs.1, hstale⟩
    rw [exportedOf_cons, hsame, exportedOf_cons b bs]
    rfl

/-- **`UnMap` closes** the descriptors of the buffers, as long as they are open. -/
theorem unMap_exported (h : p.Exported (exportedOf bs ++ fds)) :
    (unMap p bs).Exported fds ∧
      (unMap p bs).closes = p.closes ++ .replicate (exportedOf bs).length .own := by
  induction bs generalizing p with
  | nil => exact ⟨h, (List.append_nil _).symm⟩
  | cons b bs ih =>
    rw [unMap, List.foldl_cons]
    rw [exportedOf_cons] at h ⊢
    by_cases hpos : 0 < b.dmafd
    · rw [exportedOf_singleton_of_pos hpos] at h ⊢
      obtain ⟨hclosed, hcloses⟩ := h.close_own
      obtain ⟨hexported, hall⟩ := ih (hclosed.unmapStart b)
      rw [CodecProcess.unmapStart_closes, hcloses, List.append_assoc] at hall
      rw [CodecProcess.closeDmafd, if_pos hpos]
      exact ⟨hexported, hall⟩
    · rw [exportedOf_singleton_of_not_pos hpos] at h ⊢
      obtain ⟨hexported, hall⟩ := ih (CodecProcess.Exported.unmapStart h b)
      rw [CodecProcess.unmapStart_closes] at hall
      rw [CodecProcess.closeDmafd, if_neg hpos]
      exact ⟨hexported, hall⟩

/-- What `UnMap` closes, and that no more of it is own than was open. -/
theorem unMap_closes (p : CodecProcess) (bs : List CaptureBuffer) :
    ∃ ts : List CloseTarget, (unMap p bs).closes = p.closes ++ ts ∧
      ts.length = (exportedOf bs).length ∧
        ts.count .own + (unMap p bs).exports.countP (0 < ·) ≤ p.exports.countP (0 < ·) := by
  induction bs generalizing p with
  | nil => exact ⟨[], (List.append_nil _).symm, rfl, (Nat.zero_add _).le⟩
  | cons b bs ih =>
    rw [unMap, List.foldl_cons, exportedOf_cons]
    obtain ⟨ts, hall, hlength, hcount⟩ := ih ((p.closeDmafd b).unmapStart b)
    rw [unMap] at hall hcount
    rw [CodecProcess.unmapStart_closes] at hall
    rw [CodecProcess.unmapStart_exports] at hcount
    by_cases hpos : 0 < b.dmafd
    · obtain ⟨t, hcloses, hone⟩ := p.close_cases hpos
      have hclose : p.closeDmafd b = p.close b.dmafd := if_pos hpos
      rw [hclose] at hall hcount ⊢
      rw [exportedOf_singleton_of_pos hpos]
      refine ⟨t :: ts, ?_, congrArg (· + 1) hlength, ?_⟩
      · rw [hall, hcloses, List.append_assoc, List.singleton_append]
      · rw [← List.singleton_append, List.count_append]
        omega
    · have hclose : p.closeDmafd b = p := if_neg hpos
      rw [hclose] at hall hcount ⊢
      rw [exportedOf_singleton_of_not_pos hpos]
      exact ⟨ts, hall, hlength, hcount⟩

/-- The numbers of the buffers are not open after `UnMap`. -/
theorem unMap_leaves (h : p.Exported fds) :
    ∃ fds', (unMap p bs).Exported fds' ∧ fds' ⊆ fds ∧ ∀ fd ∈ exportedOf bs, fd ∉ fds' := by
  induction bs generalizing p fds with
  | nil => exact ⟨fds, h, List.Subset.refl _, fun fd hfd => absurd hfd List.not_mem_nil⟩
  | cons b bs ih =>
    rw [unMap, List.foldl_cons, exportedOf_cons]
    by_cases hpos : 0 < b.dmafd
    · obtain ⟨fds₁, hclosed, hsub₁, hnot⟩ := h.close b.dmafd
      obtain ⟨fds', hexported, hsub, hgone⟩ := ih (hclosed.unmapStart b)
      rw [CodecProcess.closeDmafd, if_pos hpos, exportedOf_singleton_of_pos hpos]
      refine ⟨fds', hexported, fun _ hin => hsub₁ (hsub hin), fun fd hfd => ?_⟩
      rcases List.mem_append.mp hfd with hfd | hfd
      · exact fun hin => hnot (List.mem_singleton.mp hfd ▸ hsub hin)
      · exact hgone fd hfd
    · obtain ⟨fds', hexported, hsub, hgone⟩ := ih (h.unmapStart b)
      rw [CodecProcess.closeDmafd, if_neg hpos, exportedOf_singleton_of_not_pos hpos]
      exact ⟨fds', hexported, hsub, hgone⟩

/-- **Nothing stays open** when the buffers are given up. -/
theorem unMap_none (h : p.Exported (freshOf bs)) : (unMap p bs).Exported [] := by
  obtain ⟨fds', hexported, hsub, hgone⟩ := @unMap_leaves p _ bs h
  have hnil : fds' = [] := by
    refine List.eq_nil_iff_forall_not_mem.mpr fun fd hfd => hgone fd ?_ hfd
    exact (freshOf_append_perm bs).subset (List.mem_append_left _ (hsub hfd))
  exact hnil ▸ hexported

/-- **`UnMap` closes own descriptors, exactly** if each was exported since the last time: as many
    as are closed have to be open. -/
theorem unMap_own_iff (h : p.Exported (freshOf bs)) :
    (∀ c ∈ (unMap p bs).closes, c = .own) ↔
      (∀ c ∈ p.closes, c = .own) ∧ ∀ b ∈ bs, 0 < b.dmafd → b.fresh = true := by
  rw [← stale_eq_nil_iff]
  have hperm := freshOf_append_perm bs
  constructor
  · intro hall
    obtain ⟨ts, hcloses, hlength, hcount⟩ := unMap_closes p bs
    rw [hcloses, List.forall_mem_append] at hall
    -- each buffer with a descriptor takes one close, and those that are open are the fresh ones
    have hown : ts.count .own = ts.length := List.count_eq_length.mpr fun t ht => (hall.2 t ht).symm
    have hopen := h.perm.length_eq
    have hlengths := hperm.length_eq
    rw [← List.countP_eq_length_filter] at hopen
    rw [List.length_append] at hlengths
    exact ⟨hall.1, List.length_eq_zero_iff.mp (by omega)⟩
  · rintro ⟨hbefore, hnil⟩
    rw [hnil] at hperm
    have hexported : p.Exported (exportedOf bs ++ []) := by
      rw [List.append_nil] at hperm ⊢
      exact h.of_perm hperm
    rw [(unMap_exported hexported).2, List.forall_mem_append]
    exact ⟨hbefore, fun c hc => List.eq_of_mem_replicate hc⟩

theorem exportedOf_unmapped (bs : List CaptureBuffer) :
    exportedOf (bs.map .unmapped) = exportedOf bs := by
  rw [exportedOf, List.map_map]
  rfl

end Exports

/-! ### Every run -/

/-- The buffer of this index can be passed on. -/
def CaptureSide.Ready (s : CaptureSide) (index : ℕ) : Prop :=
  ∃ b, s.buffers[index]? = some b ∧ b.start.isSome = true

/-- **The invariant**, when the buffers were given up `n` times: what they point to is mapped, the
    descriptors that were exported since are open; at first these are all that they have and those
    that were queued are mapped, and then no buffer is queued. -/
structure CaptureKept (n : ℕ) (s : CaptureSide) : Prop where
  mapped : s.process.Mapped (startsOf s.buffers)
  exported : s.process.Exported (freshOf s.buffers)
  fresh : n = 0 → ∀ b ∈ s.buffers, 0 < b.dmafd → b.fresh = true
  opened : s.worker = .opened → n = 0 ∧ s.buffers = [] ∧ s.queued = []
  queued : ∀ i ∈ s.queued, s.Ready i
  passing : ∀ i, s.worker = .passing i → n = 0 ∧ s.Ready i
  given : 0 < n → s.queued = []
  destroyed : s.worker = .destroyed → startsOf s.buffers = [] ∧ freshOf s.buffers = []
  frames : ∀ f ∈ s.frames, f.mapped = true ∧ f.exported = true

section Steps

variable {n bufferNum : ℕ} {expDmafd frees completes : Bool} {s s₁ s' : CaptureSide}
  {a : CaptureEvent} {allocation : Option (List MapAnswer)}

theorem captureKept_init : CaptureKept 0 {} where
  mapped := ⟨.refl _, .nil, fun _ hm => absurd hm List.not_mem_nil,
    fun _ hu => absurd hu List.not_mem_nil⟩
  exported := ⟨.refl _, .nil, fun _ hfd => absurd hfd List.not_mem_nil⟩
  fresh _ _ hb := absurd hb List.not_mem_nil
  opened _ := ⟨rfl, rfl, rfl⟩
  queued _ hi := absurd hi List.not_mem_nil
  passing _ hi := by cases hi
  given hn := absurd hn (Nat.lt_irrefl 0)
  destroyed hd := by cases hd
  frames _ hf := absurd hf List.not_mem_nil

theorem forall_unmapped (bs : List CaptureBuffer) :
    ∀ b ∈ bs.map CaptureBuffer.unmapped, b.start = none ∧ b.fresh = false := by
  intro b hb
  obtain ⟨b', -, rfl⟩ := List.mem_map.mp hb
  exact ⟨rfl, rfl⟩

/-- **The buffers are given up.** -/
theorem CaptureKept.givesUp (h : CaptureKept n s) {worker : CaptureWorker}
    (hworker : worker = .waiting ∨ worker = .destroyed) :
    CaptureKept (n + 1) { s.deallocateBuffer frees with worker := worker } where
  -- the mappings and descriptors are gone before the driver is asked to free the buffers
  mapped := by
    show (unMap s.process s.buffers).Mapped (startsOf (s.buffers.map .unmapped))
    rw [startsOf_unmapped]
    exact unMap_mapped ((List.append_nil _).symm ▸ h.mapped)
  exported := by
    show (unMap s.process s.buffers).Exported (freshOf (s.buffers.map .unmapped))
    rw [freshOf_eq_nil fun b hb => (forall_unmapped s.buffers b hb).2]
    exact unMap_none h.exported
  fresh hn := absurd hn (Nat.succ_ne_zero n)
  opened hw := by
    rcases hworker with rfl | rfl <;> cases hw
  queued _ hi := absurd hi List.not_mem_nil
  passing i hi := by
    rcases hworker with rfl | rfl <;> cases hi
  given _ := rfl
  destroyed _ := ⟨startsOf_unmapped _, freshOf_eq_nil fun b hb => (forall_unmapped _ b hb).2⟩
  frames := h.frames

/-- New buffers are allocated for them. -/
theorem CaptureKept.allocates (h : CaptureKept n s) (hn : 0 < n) (hworker : s.worker = .waiting)
    (hnew : ∀ b ∈ s.buffers, b.start = none ∧ b.fresh = false)
    (halloc : s.allocateBuffer allocation = some (s', completes)) : CaptureKept n s' := by
  cases allocation with
  | none =>
    obtain ⟨rfl, -⟩ := Prod.mk.inj (Option.some.inj halloc)
    exact h
  | some answers =>
    obtain ⟨⟨p', bs', c⟩, hmap, heq⟩ := Option.map_eq_some_iff.mp halloc
    obtain ⟨rfl, -⟩ := Prod.mk.inj heq
    have hmaps := mapsTo_of_mMap hmap
    have hnone : startsOf s.buffers = [] :=
      List.filterMap_eq_nil_iff.mpr fun b hb => (hnew b hb).1
    have hstale : freshOf s.buffers = [] := freshOf_eq_nil fun b hb => (hnew b hb).2
    have hmapped := hmaps.mapped_startsOf (fun b hb => (hnew b hb).1) h.mapped
    have hexported := hmaps.exported (fun b hb => (hnew b hb).2) h.exported
    rw [hnone, List.append_nil] at hmapped
    rw [hstale, List.append_nil] at hexported
    exact
      { h with
        mapped := hmapped
        exported := hexported
        fresh := fun hzero => absurd hzero (Nat.ne_of_gt hn)
        opened := fun hw => absurd (hworker.symm.trans hw) (by decide)
        queued := fun i hi => by
          rw [show s.queued = [] from h.given hn] at hi
          exact absurd hi List.not_mem_nil
        passing := fun i hi => by
          rw [show s.worker = .waiting from hworker] at hi
          cases hi
        destroyed := fun hd => absurd (hworker.symm.trans hd) (by decide) }

/-- New buffers, as far as `AllocateBuffer` gets with them. -/
theorem CaptureKept.allocatesNew (h : CaptureKept 0 s) (hworker : s.worker = .opened)
    (halloc : CaptureSide.allocateBuffer
      { s with buffers := .replicate bufferNum {}, hasDmafd := expDmafd }
        allocation = some (s', completes)) :
    s'.process.Mapped (startsOf s'.buffers) ∧ s'.process.Exported (freshOf s'.buffers) ∧
      (∀ b ∈ s'.buffers, 0 < b.dmafd → b.fresh = true) ∧ s'.queued = [] ∧ s'.frames = s.frames ∧
        (completes = true → ∀ i < bufferNum, s'.Ready i) := by
  obtain ⟨-, hnone, hqueued⟩ := h.opened hworker
  have hmapped := h.mapped
  have hexported := h.exported
  rw [hnone] at hmapped hexported
  change s.process.Mapped [] at hmapped
  change s.process.Exported [] at hexported
  have hnew : ∀ b ∈ List.replicate bufferNum ({} : CaptureBuffer),
      b.start = none ∧ b.fresh = false ∧ ¬ 0 < b.dmafd := by
    intro b hb
    rw [List.eq_of_mem_replicate hb]
    decide
  have hfresh : ∀ b ∈ List.replicate bufferNum ({} : CaptureBuffer),
      0 < b.dmafd → b.fresh = true := fun b hb hpos => absurd hpos (hnew b hb).2.2
  have hstarts : startsOf (.replicate bufferNum {}) = [] :=
    List.filterMap_eq_nil_iff.mpr fun b hb => (hnew b hb).1
  have hexports : freshOf (.replicate bufferNum {}) = [] :=
    freshOf_eq_nil fun b hb => (hnew b hb).2.1
  cases allocation with
  | none =>
    obtain ⟨rfl, rfl⟩ := Prod.mk.inj (Option.some.inj halloc)
    exact ⟨hstarts.symm ▸ hmapped, hexports.symm ▸ hexported, hfresh, hqueued, rfl,
      fun hc => absurd hc Bool.false_ne_true⟩
  | some answers =>
    obtain ⟨⟨p', bs', c⟩, hmap, heq⟩ := Option.map_eq_some_iff.mp halloc
    obtain ⟨rfl, rfl⟩ := Prod.mk.inj heq
    have hmaps := mapsTo_of_mMap hmap
    have hmapped' := hmaps.mapped_startsOf (fun b hb => (hnew b hb).1) hmapped
    have hexported' := hmaps.exported (fun b hb => (hnew b hb).2.1) hexported
    rw [List.append_nil] at hmapped' hexported'
    refine ⟨hmapped', hexported', hmaps.fresh hfresh, hqueued, rfl, ?_⟩
    rintro rfl i hi
    obtain ⟨hlength, hall⟩ := hmaps.completes rfl
    rw [List.length_replicate] at hlength
    have hin : i < bs'.length := hlength.symm ▸ hi
    exact ⟨bs'[i], List.getElem?_eq_getElem hin, hall _ (List.getElem_mem hin)⟩

/-- **The buffers are set up.** -/
theorem CaptureKept.setUp (h : CaptureKept 0 s) (hworker : s.worker = .opened) {queues : ℕ}
    (hset : s.setUp bufferNum expDmafd allocation queues = some s') : CaptureKept 0 s' := by
  obtain ⟨⟨s₁, completes⟩, halloc, rfl⟩ := Option.map_eq_some_iff.mp hset
  obtain ⟨hmapped, hexported, hfresh, hqueued, hframes, hready⟩ := h.allocatesNew hworker halloc
  split_ifs with hall
  · exact
      { mapped := hmapped
        exported := hexported
        fresh := fun _ => hfresh
        opened := fun hw => by cases hw
        queued := fun i hi => hready hall.1 i (List.mem_range.mp hi)
        passing := fun i hi => by cases hi
        given := fun hn => absurd hn (Nat.lt_irrefl 0)
        destroyed := fun hd => by cases hd
        frames := hframes.symm ▸ h.frames }
  · exact
      { mapped := hmapped
        exported := hexported
        fresh := fun _ => hfresh
        opened := fun hw => by cases hw
        queued := fun i hi => by
          rw [show s₁.queued = [] from hqueued] at hi
          exact absurd hi List.not_mem_nil
        passing := fun i hi => by cases hi
        given := fun hn => absurd hn (Nat.lt_irrefl 0)
        destroyed := fun hd => by cases hd
        frames := hframes.symm ▸ h.frames }

/-- A frame is passed on while its buffer is mapped and its descriptor open. -/
theorem CaptureKept.frameIn (h : CaptureKept 0 s) {index : ℕ} {b : CaptureBuffer}
    (hb : s.buffers[index]? = some b) (hstart : b.start.isSome = true) :
    (s.frameIn b).mapped = true ∧ (s.frameIn b).exported = true := by
  have hin : b ∈ s.buffers := List.mem_of_getElem? hb
  obtain ⟨m, hm⟩ := Option.isSome_iff_exists.mp hstart
  constructor
  · rw [CaptureSide.frameIn, hm, Option.any_some, decide_eq_true_iff]
    exact h.mapped.perm.mem_iff.mpr (List.mem_filterMap.mpr ⟨b, hin, hm⟩)
  · rw [CaptureSide.frameIn, decide_eq_true_iff]
    rcases Int.lt_or_le 0 b.dmafd with hpos | hnone
    · have hfresh : b ∈ s.buffers.filter (·.fresh) :=
        List.mem_filter.mpr ⟨hin, h.fresh rfl b hin hpos⟩
      have hexport : b.dmafd ∈ freshOf s.buffers :=
        List.mem_filter.mpr ⟨List.mem_map_of_mem hfresh, decide_eq_true hpos⟩
      exact .inr (List.mem_of_mem_filter (h.exported.perm.mem_iff.mpr hexport))
    · exact .inl hnone

/-- One step keeps the invariant. -/
theorem CaptureKept.step (h : CaptureKept n s) (hs : s.step bufferNum expDmafd a = some s') :
    CaptureKept (n + if a.givesUp then 1 else 0) s' := by
  cases a with
  | setup allocation queues =>
    rw [CaptureSide.step] at hs
    split_ifs at hs with hworker
    obtain ⟨rfl, -⟩ := h.opened hworker
    exact h.setUp hworker hs
  | dequeue index =>
    rw [CaptureSide.step] at hs
    split_ifs at hs with hin
    obtain ⟨-, hin⟩ := hin
    obtain rfl := Option.some.inj hs
    -- the driver has this buffer, so none was given up yet
    obtain rfl : n = 0 := by
      refine Nat.eq_zero_of_not_pos fun hn => ?_
      rw [h.given hn] at hin
      exact List.not_mem_nil hin
    exact
      { h with
        opened := fun hw => by cases hw
        queued := fun i hi => h.queued i (List.mem_of_mem_erase hi)
        passing := fun i hi => by
          cases hi
          exact ⟨rfl, h.queued _ hin⟩
        given := fun hn => absurd hn (Nat.lt_irrefl 0)
        destroyed := fun hd => by cases hd }
  | pass called queues =>
    rw [CaptureSide.step] at hs
    split at hs
    case h_2 => cases hs
    case h_1 index hworker =>
      obtain ⟨rfl, hready⟩ := h.passing index hworker
      obtain ⟨b, hb, rfl⟩ := Option.map_eq_some_iff.mp hs
      obtain ⟨b', hb', hstart⟩ := id hready
      obtain rfl := Option.some.inj (hb'.symm.trans hb)
      exact
        { h with
          opened := fun hw => by cases hw
          queued := fun i hi => by
            dsimp only at hi
            split_ifs at hi
            · rcases List.mem_append.mp hi with hi | hi
              · exact h.queued i hi
              · exact List.mem_singleton.mp hi ▸ hready
            · exact h.queued i hi
          passing := fun i hi => by cases hi
          given := fun hn => absurd hn (Nat.lt_irrefl 0)
          destroyed := fun hd => by cases hd
          frames := fun f hf => by
            dsimp only at hf
            split_ifs at hf
            · rcases List.mem_append.mp hf with hf | hf
              · exact h.frames f hf
              · exact List.mem_singleton.mp hf ▸ h.frameIn hb hstart
            · exact h.frames f hf }
  | sourceChange frees allocation =>
    rw [CaptureSide.step] at hs
    split_ifs at hs with hworker
    obtain ⟨⟨s₁, completes⟩, halloc, rfl⟩ := Option.map_eq_some_iff.mp hs
    have hgiven : CaptureKept (n + 1) (s.deallocateBuffer frees) := h.givesUp (.inl hworker)
    -- the new buffers are mapped, and exported if `hasDmafd` is still set, but nothing queues them
    exact hgiven.allocates (Nat.succ_pos n) hworker (forall_unmapped s.buffers) halloc
  | endOfStream =>
    rw [CaptureSide.step] at hs
    split_ifs at hs
    obtain rfl := Option.some.inj hs
    exact
      { h with
        opened := fun hw => by cases hw
        passing := fun i hi => by cases hi
        destroyed := fun hd => by cases hd }
  | destroy frees =>
    rw [CaptureSide.step] at hs
    split_ifs at hs
    obtain rfl := Option.some.inj hs
    exact h.givesUp (.inr rfl)
  | openOther fd =>
    rw [CaptureSide.step] at hs
    split_ifs at hs with hfree
    obtain rfl := Option.some.inj hs
    exact
      { h with
        mapped := h.mapped.congr rfl rfl rfl
        exported :=
          { h.exported with
            apart := fun fd' hfd' hin => by
              rcases List.mem_cons.mp hin with rfl | hin
              · exact hfree.1 hfd'
              · exact h.exported.apart fd' hfd' hin } }
  | closeOther fd =>
    rw [CaptureSide.step] at hs
    split_ifs at hs with hin
    obtain rfl := Option.some.inj hs
    exact
      { h with
        mapped := h.mapped.congr rfl rfl rfl
        exported :=
          { h.exported with
            apart := fun fd' hfd' hin' =>
              h.exported.apart fd' hfd' (List.mem_of_mem_erase hin') } }

/-- Allocating passes no frame on and closes nothing. -/
theorem allocateBuffer_spec (halloc : s.allocateBuffer allocation = some (s', completes)) :
    s'.frames = s.frames ∧ s'.process.closes = s.process.closes ∧ s'.hasDmafd = s.hasDmafd := by
  cases allocation with
  | none =>
    obtain ⟨rfl, -⟩ := Prod.mk.inj (Option.some.inj halloc)
    exact ⟨rfl, rfl, rfl⟩
  | some answers =>
    obtain ⟨x, hmap, heq⟩ := Option.map_eq_some_iff.mp halloc
    obtain ⟨rfl, -⟩ := Prod.mk.inj heq
    exact ⟨rfl, (mapsTo_of_mMap hmap).closes, rfl⟩

/-- **No frame is passed on** any more once the buffers were given up. -/
theorem CaptureKept.frames_step (h : CaptureKept n s) (hn : 0 < n)
    (hs : s.step bufferNum expDmafd a = some s') : s'.frames = s.frames := by
  cases a with
  | setup allocation queues =>
    rw [CaptureSide.step] at hs
    split_ifs at hs with hworker
    exact absurd (h.opened hworker).1 (Nat.ne_of_gt hn)
  | pass called queues =>
    rw [CaptureSide.step] at hs
    split at hs
    case h_2 => cases hs
    case h_1 index hworker => exact absurd (h.passing index hworker).1 (Nat.ne_of_gt hn)
  | sourceChange frees allocation =>
    rw [CaptureSide.step] at hs
    split_ifs at hs with hworker
    obtain ⟨⟨s₁, completes⟩, halloc, rfl⟩ := Option.map_eq_some_iff.mp hs
    have hframes := (allocateBuffer_spec halloc).1
    exact hframes
  | dequeue | endOfStream | destroy | openOther | closeOther =>
    rw [CaptureSide.step] at hs
    split_ifs at hs
    obtain rfl := Option.some.inj hs
    rfl

/-- After a run the invariant holds for the times that it gave the buffers up. -/
theorem captureKept_run {as : List CaptureEvent}
    (hrun : (captureSide bufferNum expDmafd).run as = some s) :
    CaptureKept (as.countP CaptureEvent.givesUp) s := by
  refine Machine.run_history (M := captureSide bufferNum expDmafd)
    (P := fun as s => CaptureKept (as.countP CaptureEvent.givesUp) s) captureKept_init
    (fun as s a s' h hs => ?_) hrun
  rw [List.countP_append, List.countP_singleton]
  exact h.step hs

/-! ### Descriptors over a run -/

/-- When the buffers are given up, those that have a descriptor were exported since the last
    time. -/
def GivesUpFresh (s : CaptureSide) (a : CaptureEvent) : Prop :=
  a.givesUp = true → ∀ b ∈ s.buffers, 0 < b.dmafd → b.fresh = true

/-- The steps that give the buffers up. -/
theorem gaveUp (ha : a.givesUp = true) (hs : s.step bufferNum expDmafd a = some s') :
    ∃ allocation completes s₁,
      (s.deallocateBuffer a.frees).allocateBuffer allocation = some (s₁, completes) ∧
        s'.process = s₁.process ∧ s'.buffers = s₁.buffers ∧ s'.hasDmafd = s₁.hasDmafd := by
  cases a with
  | sourceChange frees allocation =>
    rw [CaptureSide.step] at hs
    split_ifs at hs
    obtain ⟨⟨s₁, completes⟩, halloc, rfl⟩ := Option.map_eq_some_iff.mp hs
    exact ⟨allocation, completes, s₁, halloc, rfl, rfl, rfl⟩
  | destroy frees =>
    rw [CaptureSide.step] at hs
    split_ifs at hs
    obtain rfl := Option.some.inj hs
    exact ⟨none, false, _, rfl, rfl, rfl, rfl⟩
  | setup | dequeue | pass | endOfStream | openOther | closeOther => cases ha

/-- The other steps close nothing, and keep the buffers once they are set up. -/
theorem notGivenUp (ha : ¬ a.givesUp = true) (hs : s.step bufferNum expDmafd a = some s') :
    s'.process.closes = s.process.closes ∧
      (s.worker = .opened ∨ s'.buffers = s.buffers ∧ s'.hasDmafd = s.hasDmafd) := by
  cases a with
  | sourceChange | destroy => exact absurd rfl ha
  | setup allocation queues =>
    rw [CaptureSide.step] at hs
    split_ifs at hs with hworker
    obtain ⟨⟨s₁, completes⟩, halloc, rfl⟩ := Option.map_eq_some_iff.mp hs
    have hcloses := (allocateBuffer_spec halloc).2.1
    refine ⟨?_, .inl hworker⟩
    split_ifs <;> exact hcloses
  | pass called queues =>
    rw [CaptureSide.step] at hs
    split at hs
    case h_2 => cases hs
    case h_1 index hworker =>
      obtain ⟨b, -, rfl⟩ := Option.map_eq_some_iff.mp hs
      exact ⟨rfl, .inr ⟨rfl, rfl⟩⟩
  | dequeue | endOfStream | openOther | closeOther =>
    rw [CaptureSide.step] at hs
    split_ifs at hs
    obtain rfl := Option.some.inj hs
    exact ⟨rfl, .inr ⟨rfl, rfl⟩⟩

/-- **One step closes own descriptors, exactly** if it gives up none but those that are open. -/
theorem CaptureKept.own_step (h : CaptureKept n s) (hs : s.step bufferNum expDmafd a = some s') :
    (∀ c ∈ s'.process.closes, c = .own) ↔
      (∀ c ∈ s.process.closes, c = .own) ∧ GivesUpFresh s a := by
  by_cases ha : a.givesUp = true
  · obtain ⟨allocation, completes, s₁, halloc, hprocess, -, -⟩ := gaveUp ha hs
    rw [hprocess, (allocateBuffer_spec halloc).2.1]
    rw [GivesUpFresh, forall_prop_of_true ha]
    exact unMap_own_iff h.exported
  · rw [(notGivenUp ha hs).1]
    exact (and_iff_left fun hgives => absurd hgives ha).symm

/-- Where the buffers stand if the driver has always freed them. -/
structure AlwaysFreed (n : ℕ) (s : CaptureSide) : Prop where
  first : n = 0 → s.process.closes = []
  later : 0 < n → s.hasDmafd = false ∧ ∀ b ∈ s.buffers, b.fresh = false
  closes : (∀ c ∈ s.process.closes, c = .own) ↔ exportedOf s.buffers = [] ∨ n ≤ 1

/-- **New buffers have the old descriptors** if the driver has freed these. -/
theorem freed_buffers {s₀ : CaptureSide} (hs₀ : s₀ = s.deallocateBuffer true)
    (halloc : s₀.allocateBuffer allocation = some (s₁, completes)) :
    exportedOf s₁.buffers = exportedOf s.buffers ∧ ∀ b ∈ s₁.buffers, b.fresh = false := by
  subst hs₀
  have hstale : ∀ b ∈ s.buffers.map CaptureBuffer.unmapped, b.fresh = false :=
    fun b hb => (forall_unmapped s.buffers b hb).2
  cases allocation with
  | none =>
    obtain ⟨rfl, -⟩ := Prod.mk.inj (Option.some.inj halloc)
    exact ⟨exportedOf_unmapped _, hstale⟩
  | some answers =>
    obtain ⟨⟨p', bs', c⟩, hmap, heq⟩ := Option.map_eq_some_iff.mp halloc
    obtain ⟨rfl, -⟩ := Prod.mk.inj heq
    obtain ⟨hsame, hall⟩ := (mapsTo_of_mMap hmap).unexported hstale
    exact ⟨hsame.trans (exportedOf_unmapped _), hall⟩

theorem AlwaysFreed.step (hfreed : AlwaysFreed n s) (h : CaptureKept n s) (ha : a.frees = true)
    (hs : s.step bufferNum expDmafd a = some s') :
    AlwaysFreed (n + if a.givesUp then 1 else 0) s' := by
  have hown := h.own_step hs
  by_cases hgives : a.givesUp = true
  · rw [if_pos hgives]
    obtain ⟨allocation, completes, s₁, halloc, -, hbuffers, hdma⟩ := gaveUp hgives hs
    rw [ha] at halloc
    obtain ⟨hsame, hstale⟩ := freed_buffers rfl halloc
    rw [← hbuffers] at hsame hstale
    refine ⟨fun hn => absurd hn (Nat.succ_ne_zero n), fun _ => ⟨?_, hstale⟩, ?_⟩
    · rw [hdma, (allocateBuffer_spec halloc).2.2]
      rfl
    · rw [hown, hsame, GivesUpFresh, forall_prop_of_true hgives]
      rcases Nat.eq_zero_or_pos n with rfl | hn
      · -- the first time they are all open
        rw [hfreed.first rfl]
        exact iff_of_true ⟨fun c hc => absurd hc List.not_mem_nil, h.fresh rfl⟩
          (.inr (Nat.le_refl 1))
      · -- later none is, since nothing was exported in between
        have hmany : ¬ n + 1 ≤ 1 := by omega
        have hnone : (∀ b ∈ s.buffers, 0 < b.dmafd → b.fresh = true) ↔
            exportedOf s.buffers = [] := by
          rw [← stale_eq_nil_iff, List.filter_eq_self.mpr fun b hb => by
            rw [(hfreed.later hn).2 b hb]; rfl]
        rw [hnone, or_iff_left hmany, hfreed.closes]
        exact and_iff_right_of_imp .inl
  · rw [if_neg hgives, Nat.add_zero]
    obtain ⟨hcloses, hsame⟩ := notGivenUp hgives hs
    rcases hsame with hopened | ⟨hbuffers, hdma⟩
    · obtain ⟨rfl, -⟩ := h.opened hopened
      have hnil : s'.process.closes = [] := hcloses.trans (hfreed.first rfl)
      refine ⟨fun _ => hnil, fun hn => absurd hn (Nat.lt_irrefl 0), ?_⟩
      rw [hnil]
      exact iff_of_true (fun c hc => absurd hc List.not_mem_nil) (.inr (Nat.zero_le 1))
    · refine ⟨fun hn => hcloses.trans (hfreed.first hn), fun hn => ?_, ?_⟩
      · rw [hdma, hbuffers]
        exact hfreed.later hn
      · rw [hcloses, hbuffers]
        exact hfreed.closes

theorem alwaysFreed_run {as : List CaptureEvent} (hfrees : ∀ a ∈ as, a.frees = true)
    (hrun : (captureSide bufferNum expDmafd).run as = some s) :
    AlwaysFreed (as.countP CaptureEvent.givesUp) s := by
  refine (Machine.run_history (M := captureSide bufferNum expDmafd)
    (P := fun as s => CaptureKept (as.countP CaptureEvent.givesUp) s ∧
      ((∀ a ∈ as, a.frees = true) → AlwaysFreed (as.countP CaptureEvent.givesUp) s))
    ⟨captureKept_init, fun _ => ⟨fun _ => rfl, fun hn => absurd hn (Nat.lt_irrefl 0),
      iff_of_true (fun _ hc => absurd hc List.not_mem_nil) (.inl rfl)⟩⟩
    (fun as s a s' h hs => ?_) hrun).2 hfrees
  rw [List.countP_append, List.countP_singleton]
  refine ⟨h.1.step hs, fun hall => ?_⟩
  rw [List.forall_mem_append, List.forall_mem_singleton] at hall
  exact (h.2 hall.1).step h.1 hall.2 hs

end Steps

/-- What is asked for: each frame was passed on while its memory was mapped and its descriptor
    open, nothing was unmapped that was not mapped, and a codec that is destroyed leaves nothing
    mapped and no descriptor open, unless it is number 0, which stands for none. -/
structure CapturedSafely (s : CaptureSide) : Prop where
  frames : ∀ f ∈ s.frames, f.mapped = true ∧ f.exported = true
  unmaps : ∀ u ∈ s.process.unmaps, u = true
  released : s.worker = .destroyed → s.process.mappings = [] ∧ ∀ fd ∈ s.process.exports, fd ≤ 0

/-- **Buffers are safe to use.** In every run, whatever the driver refuses and whatever the rest of
    the program opens and closes, frames are passed on and mappings given back as they should
    be. -/
theorem capturedSafely (bufferNum : ℕ) (expDmafd : Bool) (as : List CaptureEvent) (s : CaptureSide)
    (hrun : (captureSide bufferNum expDmafd).run as = some s) : CapturedSafely s := by
  have h := captureKept_run hrun
  refine ⟨h.frames, h.mapped.unmaps, fun hdestroyed => ?_⟩
  obtain ⟨hstarts, hfresh⟩ := h.destroyed hdestroyed
  have hmapped := h.mapped.perm
  have hexported := h.exported
  rw [hstarts] at hmapped
  rw [hfresh] at hexported
  refine ⟨List.perm_nil.mp hmapped, fun fd hfd => Int.not_lt.mp fun hpos => ?_⟩
  have hin : fd ∈ s.process.exports.filter (0 < ·) :=
    List.mem_filter.mpr ⟨hfd, decide_eq_true hpos⟩
  rw [List.perm_nil.mp hexported.perm] at hin
  exact List.not_mem_nil hin

/-- A decoder passes a frame on, the size changes, and it is destroyed; in between the rest of the
    program opens a file, which gets a number that was closed. -/
def sizeChanged : List CaptureEvent :=
  [.setup (some [.mapped 7, .mapped 8]) 2, .dequeue 0, .pass true true,
    .sourceChange true (some [.mapped 0, .mapped 0]), .openOther 8, .destroy true]

theorem capturedSafely_sizeChanged : ∃ s, (captureSide 2 true).run sizeChanged = some s ∧
    CapturedSafely s ∧ s.frames = [⟨true, true⟩] :=
  ⟨_, rfl, capturedSafely 2 true sizeChanged _ rfl, rfl⟩

/-- **No frame after a change of the size.** Once a run has come to a change of the size, no way in
    which it goes on passes a frame on. -/
theorem noFrameAfter (bufferNum : ℕ) (expDmafd : Bool) (as bs : List CaptureEvent)
    (s s' : CaptureSide) (frees : Bool) (allocation : Option (List MapAnswer))
    (hchange : .sourceChange frees allocation ∈ as)
    (hbefore : (captureSide bufferNum expDmafd).run as = some s)
    (hafter : (captureSide bufferNum expDmafd).runFrom s bs = some s') : s'.frames = s.frames := by
  have hn : 0 < as.countP CaptureEvent.givesUp := List.countP_pos_iff.mpr ⟨_, hchange, rfl⟩
  refine (Machine.runFrom_invariant (P := fun t => (∃ n, 0 < n ∧ CaptureKept n t) ∧
    t.frames = s.frames) (fun t a t' h hs => ?_) ⟨⟨_, hn, captureKept_run hbefore⟩, rfl⟩ hafter).2
  obtain ⟨⟨n, hn, hkept⟩, hframes⟩ := h
  exact ⟨⟨_, Nat.lt_of_lt_of_le hn (Nat.le_add_right n _), hkept.step hs⟩,
    (hkept.frames_step hn hs).trans hframes⟩

theorem noFrameAfter_sizeChanged : ∃ s s', (captureSide 2 true).run (sizeChanged.take 4) = some s ∧
    (captureSide 2 true).runFrom s [.endOfStream] = some s' ∧ s'.frames = s.frames :=
  ⟨_, _, rfl, rfl, noFrameAfter 2 true (sizeChanged.take 4) [.endOfStream] _ _ true
    (some [.mapped 0, .mapped 0]) (by decide) rfl rfl⟩

/-- **Own descriptors, exactly** if, whenever the buffers are given up, those that have a descriptor
    were exported since the last time.  Otherwise a number is closed again, and a file of the rest
    of the program that has got it is closed in its place.  While the driver frees the buffers they
    are never exported again: then it is exactly if they are given up no more than once, or none
    of them was exported. -/
theorem closesOwn_iff (bufferNum : ℕ) (expDmafd : Bool) (as : List CaptureEvent) (s : CaptureSide)
    (hrun : (captureSide bufferNum expDmafd).run as = some s) :
    ((∀ c ∈ s.process.closes, c = .own) ↔
      (captureSide bufferNum expDmafd).Guarded GivesUpFresh {} as) ∧
    ((∀ a ∈ as, a.frees = true) → ((∀ c ∈ s.process.closes, c = .own) ↔
      exportedOf s.buffers = [] ∨ as.countP CaptureEvent.givesUp ≤ 1)) := by
  refine ⟨?_, fun hfrees => (alwaysFreed_run hfrees hrun).closes⟩
  have hlast := Machine.last_iff_guarded (M := captureSide bufferNum expDmafd)
    (I := fun s => ∃ n, CaptureKept n s) (P := fun s => ∀ c ∈ s.process.closes, c = .own)
    (G := GivesUpFresh) (fun s a s' ⟨n, h⟩ hs => ⟨_, h.step hs⟩)
    (fun s a s' ⟨n, h⟩ hs => h.own_step hs) ⟨0, captureKept_init⟩ hrun
  rw [hlast]
  exact and_iff_right fun c hc => absurd hc List.not_mem_nil

/-- If the driver refuses to free the buffers at the first change, they are exported again, and the
    second change closes these. -/
def exportedAgain : List CaptureEvent :=
  [.setup (some [.mapped 7]) 1, .sourceChange false (some [.mapped 7]),
    .sourceChange true (some [.mapped 0])]

theorem closesOwn_iff_sizeChanged :
    (∃ s, (captureSide 2 true).run sizeChanged = some s ∧ .other ∈ s.process.closes ∧
      ((∀ c ∈ s.process.closes, c = .own) ↔
        exportedOf s.buffers = [] ∨ sizeChanged.countP CaptureEvent.givesUp ≤ 1)) ∧
    ∃ s, (captureSide 1 true).run exportedAgain = some s ∧ s.process.closes = [.own, .own] ∧
      ((∀ c ∈ s.process.closes, c = .own) ↔
        (captureSide 1 true).Guarded GivesUpFresh {} exportedAgain) :=
  ⟨⟨_, rfl, by decide, (closesOwn_iff 2 true sizeChanged _ rfl).2 (by decide)⟩,
    _, rfl, by decide, (closesOwn_iff 1 true exportedAgain _ rfl).1⟩

end PiWebrtc.Codecs
