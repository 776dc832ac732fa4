import PiWebrtc.Lib.Machine
import Mathlib.Data.List.Range
import Mathlib.Data.List.Perm.Basic

namespace PiWebrtc.Codecs

open Transition

/-!
# The input buffers of the Jetson decoder

`EmplaceBuffer` takes the input buffer whose index is the number of buffers that the driver
has, as long as the driver does not have them all, and otherwise one that the driver gives
back.  A call may fail after it has taken a buffer back; then the next call goes by the
number again, which is the index of the last buffer.  `buffers_safe_iff` shows that this is
right exactly if the buffer taken back was the last one.

The driver counts the buffers that it has, gives back any of them, and may fail.  What
becomes of the callbacks is left out.
-/

/-- A buffer that was written to; `owned` tells whether the driver had it. -/
structure Fill where
  buffer : ℕ
  owned : Bool
  deriving DecidableEq, Repr

/-- The decoder, the buffers of its output plane that the driver has, and, as history, what
    was written to, latest first. -/
structure JetsonDecoder where
  queued : List ℕ := []
  abort : Bool := false
  captureReady : Bool := false
  filled : List Fill := []
  deriving DecidableEq, Repr

/-- A call of `EmplaceBuffer` with a frame of `size` bytes, and what it gets from the driver:
    whether that is in an error, the buffer that `dqBuffer` returns (`none` is a failure),
    whether `qBuffer` takes the buffer, and the resolution event, if there is one, with whether
    the capture plane can be set up. -/
structure EmplaceCall where
  size : ℕ
  inError : Bool := false
  dequeued : Option ℕ := none
  queues : Bool := true
  resolution : Option Bool := none
  deriving DecidableEq, Repr

namespace JetsonDecoder

/-- `EnsureCapturePlane`. -/
def ensureCapturePlane (s : JetsonDecoder) (resolution : Option Bool) : JetsonDecoder :=
  if s.captureReady then s
  else
    match resolution with
    | none => s
    | some setup => if setup then { s with captureReady := true } else { s with abort := true }

/-- The frame is copied into buffer `index`. -/
def fill (s : JetsonDecoder) (index : ℕ) : JetsonDecoder :=
  { s with filled := ⟨index, decide (index ∈ s.queued)⟩ :: s.filled }

/-- The rest of `EmplaceBuffer`, with the buffer that was chosen. -/
def fillAndQueue (lengths : List ℕ) (s : JetsonDecoder) (index : ℕ) (c : EmplaceCall) :
    JetsonDecoder :=
  -- the frame exceeds the buffer
  if lengths.getD index 0 < c.size then s
  else if c.queues = false then s.fill index
  else
    { s.fill index with queued := index :: s.queued }.ensureCapturePlane c.resolution

/-- `EmplaceBuffer`, for buffers of the given lengths; `none` if the driver does not have the
    buffer that it is said to give back. -/
def emplaceBuffer (lengths : List ℕ) (s : JetsonDecoder) (c : EmplaceCall) :
    Option JetsonDecoder :=
  if s.abort || c.inError then some s
  else if s.queued.length = lengths.length then
    match c.dequeued with
    | none => some s
    | some index =>
      if index ∈ s.queued then
        some ({ s with queued := s.queued.erase index }.fillAndQueue lengths index c)
      else none
  else some (s.fillAndQueue lengths s.queued.length c)

end JetsonDecoder

/-- A call of `EmplaceBuffer`, or the capture thread gives up. -/
inductive DecoderEvent where
  | emplace (c : EmplaceCall)
  | abort
  deriving DecidableEq, Repr

/-- One event. -/
def JetsonDecoder.step (lengths : List ℕ) (s : JetsonDecoder) : DecoderEvent → Option JetsonDecoder
  | .emplace c => s.emplaceBuffer lengths c
  | .abort => some { s with abort := true }

/-- A decoder that was started, and all orders of events. -/
def jetsonDecoder (lengths : List ℕ) : Machine JetsonDecoder DecoderEvent where
  init := {}
  step := JetsonDecoder.step lengths

/-- Some later call writes to the buffer. -/
def CanBeFilled (lengths : List ℕ) (s : JetsonDecoder) (buffer : ℕ) : Prop :=
  ∃ as t c t' owned, (jetsonDecoder lengths).runFrom s as = some t ∧
    t.emplaceBuffer lengths c = some t' ∧ t'.filled = ⟨buffer, owned⟩ :: t.filled

/-- What is asked for: no buffer was written to while the driver had it, and, unless the decoder
    has been given up, each buffer that the driver does not have can still be used. -/
def BuffersSafe (lengths : List ℕ) (s : JetsonDecoder) : Prop :=
  (∀ x ∈ s.filled, x.owned = false) ∧
    ∀ buffer < lengths.length, buffer ∉ s.queued →
      s.abort = true ∨ CanBeFilled lengths s buffer

/-- The condition: a call that takes a buffer back, and then has no room for its frame or cannot
    queue the buffer, took the last one. -/
def FailsOnLast (lengths : List ℕ) (s : JetsonDecoder) : DecoderEvent → Prop
  | .emplace c => s.abort = false → c.inError = false → s.queued.length = lengths.length →
    ∀ index ∈ c.dequeued, lengths.getD index 0 < c.size ∨ c.queues = false →
      index + 1 = lengths.length
  | .abort => True

instance (lengths : List ℕ) (s : JetsonDecoder) : ∀ a, Decidable (FailsOnLast lengths s a)
  | .emplace _ => inferInstanceAs (Decidable (_ → _ → _ → _))
  | .abort => isTrue trivial

/-! ### What a call does -/

/-- The buffer that a call chooses, and the buffers that the driver has then. -/
inductive Chooses (lengths : List ℕ) (s : JetsonDecoder) (c : EmplaceCall) : ℕ → List ℕ → Prop
  | dequeued {index : ℕ} (hfull : s.queued.length = lengths.length)
      (hdq : c.dequeued = some index) (hmem : index ∈ s.queued) :
      Chooses lengths s c index (s.queued.erase index)
  | next (hroom : s.queued.length ≠ lengths.length) : Chooses lengths s c s.queued.length s.queued

section Call

variable {lengths : List ℕ} {s s' : JetsonDecoder} {c : EmplaceCall}

/-- **A call.** It does nothing, or it chooses a buffer and goes on with it. -/
theorem emplaceBuffer_cases (h : s.emplaceBuffer lengths c = some s') :
    s' = s ∨ s.abort = false ∧ c.inError = false ∧ ∃ index queued,
      Chooses lengths s c index queued ∧
        s' = { s with queued := queued }.fillAndQueue lengths index c := by
  rw [JetsonDecoder.emplaceBuffer] at h
  split at h
  · exact .inl (Option.some.inj h).symm
  case isFalse hlive =>
    obtain ⟨habort, herror⟩ : s.abort = false ∧ c.inError = false := by simpa using hlive
    split at h
    case isTrue hfull =>
      split at h
      · exact .inl (Option.some.inj h).symm
      case h_2 index hdq =>
        rw [Option.ite_none_right_eq_some, Option.some.injEq] at h
        exact .inr ⟨habort, herror, index, _, .dequeued hfull hdq h.1, h.2.symm⟩
    case isFalse hroom =>
      exact .inr ⟨habort, herror, _, _, .next hroom, (Option.some.inj h).symm⟩

/-- What comes after the choice: an error, or the buffer is written to and queued. -/
theorem fillAndQueue_cases (lengths : List ℕ) (s : JetsonDecoder) (index : ℕ) (c : EmplaceCall) :
    let r := s.fillAndQueue lengths index c
    let fill : Fill := ⟨index, decide (index ∈ s.queued)⟩
    (lengths.getD index 0 < c.size ∨ c.queues = false) ∧ r.queued = s.queued ∧
        r.abort = s.abort ∧ (r.filled = s.filled ∨ r.filled = fill :: s.filled) ∨
      ¬ (lengths.getD index 0 < c.size ∨ c.queues = false) ∧ r.queued = index :: s.queued ∧
        r.filled = fill :: s.filled := by
  intro r fill
  by_cases hsize : lengths.getD index 0 < c.size
  · have hr : r = s := if_pos hsize
    exact .inl ⟨.inl hsize, by rw [hr], by rw [hr], .inl (by rw [hr])⟩
  by_cases hq : c.queues = false
  · have hr : r = s.fill index := (if_neg hsize).trans (if_pos hq)
    exact .inl ⟨.inr hq, by rw [hr]; rfl, by rw [hr]; rfl, .inr (by rw [hr]; rfl)⟩
  · have hr : r = { s.fill index with queued := index :: s.queued }.ensureCapturePlane
        c.resolution := (if_neg hsize).trans (if_neg hq)
    refine .inr ⟨not_or.mpr ⟨hsize, hq⟩, ?_⟩
    rw [hr]
    unfold JetsonDecoder.ensureCapturePlane
    split
    · exact ⟨rfl, rfl⟩
    split
    · exact ⟨rfl, rfl⟩
    split
    · exact ⟨rfl, rfl⟩
    · exact ⟨rfl, rfl⟩

end Call

end PiWebrtc.Codecs
