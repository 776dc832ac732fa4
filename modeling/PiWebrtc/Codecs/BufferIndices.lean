import PiWebrtc.Codecs.V4L2Codec
import Mathlib.Data.Multiset.Range

namespace PiWebrtc.Codecs

open Transition

/-!
# The indices of the input buffers

An index of `output_` is in the free queue, in the hands of a call of `EmplaceBuffer`, or with
the driver. Every operation moves it from one of these places to another: the early returns of
`EmplaceBuffer` put it back into the queue, and the queue has room for it, because it holds no
index that is somewhere else. `indices_conserved` is this law for every interleaving.

The capture thread takes an index from the driver and puts it into the queue in one step here;
in between only that thread knows it.
-/

/-- The index that an operation of `EmplaceBuffer` has in hand. -/
def CodecOp.inHand : CodecOp → Option ℕ
  | .fill _ index => some index
  | .queueInput index => some index
  | _ => none

/-- The indices in the queue and with the driver. -/
def V4L2Codec.indices (c : V4L2Codec) : Multiset ℕ :=
  ↑c.outputBufferIndex.items + ↑c.driverOutput

/-- **The law**: every index of the buffers is in exactly one place, and there is no other one. -/
def IndicesConserved (bufferNum : ℕ) (s : Threads V4L2Codec CodecOp) : Prop :=
  ∀ index, s.shared.outputBufferIndex.items.count index +
    (s.inFlight.filterMap CodecOp.inHand).count index + s.shared.driverOutput.count index =
      if index < bufferNum then 1 else 0

theorem count_range (n index : ℕ) :
    (Multiset.range n).count index = if index < n then 1 else 0 := by
  split_ifs with hlt
  · exact Multiset.count_eq_one_of_mem (Multiset.nodup_range n) (Multiset.mem_range.mpr hlt)
  · exact Multiset.count_eq_zero.mpr fun hmem => hlt (Multiset.mem_range.mp hmem)

/-- The places together have each index once. -/
theorem indicesConserved_of_tokens {bufferNum : ℕ} {s : Threads V4L2Codec CodecOp}
    (h : Code.tokens V4L2Codec.indices CodecOp.inHand s.shared s.inFlight =
      Multiset.range bufferNum) : IndicesConserved bufferNum s := by
  intro index
  have hcount := congrArg (Multiset.count index) h
  rw [Code.tokens, V4L2Codec.indices, Multiset.count_add, Multiset.count_add, Multiset.coe_count,
    Multiset.coe_count, add_right_comm] at hcount
  rw [hcount, count_range]

/-! ### The queue of the indices -/

/-- `push`, where there is room. -/
theorem ThreadSafeQueue.coe_push {maxSize : ℕ} {q : ThreadSafeQueue ℕ maxSize}
    (h : q.items.length < maxSize) (t : ℕ) :
    ((q.push t).1.items : Multiset ℕ) = t ::ₘ ↑q.items := by
  have hfull : q.full = false := by
    rw [full, decide_eq_false_iff_not]
    omega
  rw [push_items hfull, ← Multiset.coe_add, Multiset.coe_singleton, add_comm,
    Multiset.singleton_add]

/-- Numbers that are put into an empty queue, as many as it holds. -/
theorem ThreadSafeQueue.foldl_push_items {maxSize n : ℕ} (h : n ≤ maxSize) :
    ((List.range n).foldl (fun q i => (ThreadSafeQueue.push q i).1)
      (.empty : ThreadSafeQueue ℕ maxSize)).items = List.range n := by
  induction n with
  | zero => rfl
  | succ n ih =>
    have hitems := ih (Nat.le_of_succ_le h)
    rw [List.range_succ, List.foldl_append, List.foldl_cons, List.foldl_nil,
      ThreadSafeQueue.push_items, hitems]
    rw [ThreadSafeQueue.full, hitems, List.length_range, decide_eq_false_iff_not]
    omega

section Operation

variable {bufferNum : ℕ} {c : V4L2Codec} {op : CodecOp} {others : Multiset CodecOp} {index : ℕ}

/-- A place beside the queue that has an index leaves room in the queue. -/
theorem room (hnum : bufferNum ≤ 8)
    (h : Code.tokens V4L2Codec.indices CodecOp.inHand c (op ::ₘ others) = Multiset.range bufferNum)
    (hindex : op.inHand = some index ∨ index ∈ c.driverOutput) :
    c.outputBufferIndex.items.length < 8 := by
  have hcard := congrArg Multiset.card h
  rw [Code.tokens_cons, V4L2Codec.indices, Multiset.card_add, Multiset.card_add,
    Multiset.card_add, Multiset.coe_card, Multiset.coe_card, Multiset.coe_card,
    Multiset.card_range] at hcard
  obtain hhand | hdriver := hindex
  · rw [hhand, Option.toList_some, List.length_singleton] at hcard
    omega
  · have hpos := List.length_pos_of_mem hdriver
    omega

/-- An index in hand goes back into the queue. -/
theorem indices_putBack (hroom : c.outputBufferIndex.items.length < 8)
    (hhand : op.inHand = some index) :
    V4L2Codec.indices { c with outputBufferIndex := (c.outputBufferIndex.push index).1 } =
      c.indices + ↑op.inHand.toList := by
  rw [V4L2Codec.indices, ThreadSafeQueue.coe_push hroom, hhand, Option.toList_some,
    Multiset.coe_singleton, V4L2Codec.indices, ← Multiset.singleton_add,
    add_comm _ ({index} : Multiset ℕ), add_assoc]

/-- Every operation only moves indices. -/
theorem indices_exec {output : OutputBuffers} {s : Threads V4L2Codec CodecOp} {x : CodecOutcome}
    {e : Effect V4L2Codec CodecOp} (hnum : bufferNum ≤ 8) (hfl : s.inFlight = op ::ₘ others)
    (h : Code.tokens V4L2Codec.indices CodecOp.inHand s.shared s.inFlight =
      Multiset.range bufferNum) (he : codecExec output op x s = some e) :
    e.shared.indices + ↑((e.next ++ e.spawn.flatten).filterMap CodecOp.inHand) =
      s.shared.indices + ↑op.inHand.toList := by
  rw [hfl] at h
  cases op with
  | takeIndex buffer =>
    cases x with
    | ok =>
      rw [codecExec] at he
      split at he
      · cases he
        rfl
      case h_2 index rest hpop =>
        cases he
        change (↑rest.items + ↑s.shared.driverOutput + {index} : Multiset ℕ) =
          ↑s.shared.outputBufferIndex.items + ↑s.shared.driverOutput + 0
        rw [ThreadSafeQueue.pop_eq_some.mp hpop, ← Multiset.cons_coe, ← Multiset.singleton_add,
          add_zero, add_comm, add_assoc]
    | _ => cases he
  | fill buffer index =>
    cases x with
    | ok =>
      rw [codecExec] at he
      split at he
      · cases he
        exact (add_zero _).trans (indices_putBack (room hnum h (.inl rfl)) rfl)
      · cases he
        rfl
    | _ => cases he
  | queueInput index =>
    cases x with
    | ok =>
      cases he
      change (↑s.shared.outputBufferIndex.items + ↑(index :: s.shared.driverOutput) + 0 :
        Multiset ℕ) = ↑s.shared.outputBufferIndex.items + ↑s.shared.driverOutput + {index}
      rw [← Multiset.cons_coe, ← Multiset.singleton_add, add_zero,
        add_comm ({index} : Multiset ℕ), add_assoc]
    | failed =>
      cases he
      exact (add_zero _).trans (indices_putBack (room hnum h (.inl rfl)) rfl)
    | _ => cases he
  | pushTask n =>
    cases x with
    | ok =>
      cases he
      rfl
    | _ => cases he
  | select =>
    cases x with
    | ready writable readable =>
      cases he
      cases writable <;> cases readable <;> rfl
    | failed =>
      cases he
      rfl
    | _ => cases he
  | dequeueOutput readable =>
    cases x with
    | dequeued index =>
      rw [codecExec, Option.ite_none_right_eq_some] at he
      obtain ⟨hdriver, ⟨⟩⟩ := he
      -- the driver's index comes into the queue
      have hnext : [afterOutput readable].filterMap CodecOp.inHand = [] := by
        cases readable <;> rfl
      have herase : (↑s.shared.driverOutput : Multiset ℕ) =
          {index} + ↑(s.shared.driverOutput.erase index) := by
        rw [Multiset.singleton_add, Multiset.cons_coe]
        exact Multiset.coe_eq_coe.mpr (List.perm_cons_erase hdriver)
      dsimp only
      rw [List.flatten_nil, List.append_nil, hnext, V4L2Codec.indices, V4L2Codec.indices, herase,
        ThreadSafeQueue.coe_push (room hnum h (.inr hdriver)), ← Multiset.singleton_add,
        ← add_assoc, add_comm _ ({index} : Multiset ℕ)]
      rfl
    | failed =>
      cases he
      cases readable <;> rfl
    | _ => cases he
  | dequeueCapture =>
    cases x with
    | dequeued index =>
      rw [codecExec, Option.ite_none_right_eq_some] at he
      obtain ⟨-, ⟨⟩⟩ := he
      rfl
    | failed =>
      cases he
      rfl
    | _ => cases he
  | runTask n index =>
    cases x with
    | ok =>
      rw [codecExec] at he
      split at he
      · cases he
        rfl
      · cases he
        rfl
    | _ => cases he
  | requeue index =>
    cases x with
    | ok =>
      cases he
      rfl
    | failed =>
      cases he
      rfl
    | _ => cases he

end Operation

/-- After `PrepareBuffer` every index is in the queue. -/
theorem tokens_init {output : OutputBuffers} (hnum : output.lengths.length ≤ 8)
    (captureNum : ℕ) :
    Code.tokens V4L2Codec.indices CodecOp.inHand (codecCode output captureNum).init.shared
      (codecCode output captureNum).init.inFlight = Multiset.range output.lengths.length := by
  have hitems := ThreadSafeQueue.foldl_push_items hnum
  change (↑(V4L2Codec.start output captureNum).outputBufferIndex.items : Multiset ℕ) + 0 + 0 = _
  rw [add_zero, add_zero, V4L2Codec.start, hitems]
  rfl

/-- **Indices are conserved.** In every interleaving each index of the input buffers, if these are
    no more than the queue holds, is in exactly one of the free queue, the hands of a call of
    `EmplaceBuffer`, and the driver. -/
theorem indices_conserved (output : OutputBuffers) (captureNum : ℕ)
    (as : List (Label CodecOutcome InputFrame)) (s : Threads V4L2Codec CodecOp)
    (hnum : output.lengths.length ≤ 8)
    (hrun : (codecCode output captureNum).machine.run as = some s) :
    IndicesConserved output.lengths.length s := by
  refine indicesConserved_of_tokens (Code.tokens_conserved ?_ ?_ (tokens_init hnum captureNum) hrun)
  · intro s buffer ops hops
    cases hops
    rfl
  · intro s op others x e hfl h he
    exact indices_exec hnum hfl h he

/-- Two input buffers that are mapped, the second one too small for most frames. -/
def unevenOutput : OutputBuffers := ⟨false, 640, 480, [460800, 1000]⟩

/-- A frame is queued, a second one exceeds its buffer, a third one is refused by the driver, and
    the driver returns the first one. -/
def everyReturn : List (Label CodecOutcome InputFrame) :=
  [.call ⟨460800, true, 640, 480⟩, .run 1 .ok, .run 1 .ok, .run 1 .ok, .run 1 .ok,
    .call ⟨460800, true, 640, 480⟩, .run 2 .ok, .run 2 .ok,
    .call ⟨900, true, 640, 480⟩, .run 3 .ok, .run 3 .ok, .run 3 .failed,
    .run 0 (.ready true false), .run 0 (.dequeued 0)]

theorem indices_conserved_everyReturn :
    ∃ s, (codecCode unevenOutput 1).machine.run everyReturn = some s ∧
      s.shared.outputBufferIndex.items = [1, 0] ∧ IndicesConserved 2 s :=
  ⟨_, rfl, rfl, indices_conserved unevenOutput 1 everyReturn _ (by decide) rfl⟩

end PiWebrtc.Codecs
