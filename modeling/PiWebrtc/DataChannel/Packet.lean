import Mathlib.Data.UInt

namespace PiWebrtc.DataChannel

/-!
# Packets and the strings they carry

The packets that travel over a data channel, and the `std::string` operations that
reassembly performs on their bytes.  Sizes are `size_t`, 64 bits wide; a string never holds
more than `2 ^ 63 - 1` bytes, and its operations throw what the standard library throws.
-/

/-! ### Strings -/

/-- A `std::string` of bytes.  `max_size()` is `2 ^ 63 - 1`. -/
structure StdString where
  bytes : List UInt8
  length_lt : bytes.length < 2 ^ 63
  deriving DecidableEq

/-- What an operation on a string may throw. -/
inductive StdException where
  | outOfRange
  | lengthError
  | badAlloc
  deriving DecidableEq, Repr

/-- Which sizes the allocator can provide for a string right now. -/
structure Heap where
  grants : ℕ → Bool
  grants_lt : ∀ n, grants n = true → n < 2 ^ 63

namespace StdString

@[ext] theorem ext {s t : StdString} (h : s.bytes = t.bytes) : s = t := by
  cases s
  cases t
  simpa using h

/-- The empty string. -/
def empty : StdString := ⟨[], by decide⟩

/-- `size()`. -/
def size (s : StdString) : UInt64 := UInt64.ofNat s.bytes.length

/-- `assign(n, c)`. -/
def assign (heap : Heap) (n : ℕ) (c : UInt8) : Except StdException StdString :=
  if h : heap.grants n = true then
    .ok ⟨List.replicate n c, by rw [List.length_replicate]; exact heap.grants_lt n h⟩
  else if n < 2 ^ 63 then .error .badAlloc
  else .error .lengthError

/-- `replace(pos, n, str)`.  A result that is no longer than before needs no memory. -/
def replace (heap : Heap) (s : StdString) (pos n : ℕ) (str : StdString) :
    Except StdException StdString :=
  if s.bytes.length < pos then .error .outOfRange
  else
    let bytes := s.bytes.take pos ++ str.bytes ++ s.bytes.drop (pos + n)
    if h : bytes.length ≤ s.bytes.length then .ok ⟨bytes, h.trans_lt s.length_lt⟩
    else if h : heap.grants bytes.length = true then .ok ⟨bytes, heap.grants_lt _ h⟩
    else if bytes.length < 2 ^ 63 then .error .badAlloc
    else .error .lengthError

/-- A size is far from wrapping around. -/
@[simp] theorem toNat_size (s : StdString) : s.size.toNat = s.bytes.length := by
  have h := s.length_lt
  rw [size, UInt64.toNat_ofNat', Nat.mod_eq_of_lt (by omega)]

theorem assign_eq_ok {heap : Heap} {n : ℕ} {c : UInt8} {s : StdString}
    (h : assign heap n c = .ok s) : s.bytes = List.replicate n c := by
  unfold assign at h
  split at h
  case isTrue => exact (Except.ok.inj h) ▸ rfl
  case isFalse => split at h <;> cases h

theorem assign_of_grants {heap : Heap} {n : ℕ} {c : UInt8} (h : heap.grants n = true) :
    ∃ s, assign heap n c = .ok s := by
  rw [assign, dif_pos h]
  exact ⟨_, rfl⟩

theorem assign_isOk_iff {heap : Heap} {n : ℕ} {c : UInt8} :
    (∃ s, assign heap n c = .ok s) ↔ heap.grants n = true := by
  refine ⟨?_, assign_of_grants⟩
  rintro ⟨s, hs⟩
  unfold assign at hs
  split at hs
  case isTrue h => exact h
  case isFalse => split at hs <;> cases hs

/-- Bytes replaced by as many inside the string are overwritten in place. -/
theorem replace_of_le (heap : Heap) {s str : StdString} {pos : ℕ}
    (h : pos + str.bytes.length ≤ s.bytes.length) :
    ∃ t, replace heap s pos str.bytes.length str = .ok t ∧
      t.bytes = s.bytes.take pos ++ str.bytes ++ s.bytes.drop (pos + str.bytes.length) := by
  have hpos : ¬ s.bytes.length < pos := by omega
  have hlen : (s.bytes.take pos ++ str.bytes ++
      s.bytes.drop (pos + str.bytes.length)).length ≤ s.bytes.length := by
    simp only [List.length_append, List.length_take, List.length_drop]
    omega
  refine ⟨⟨_, hlen.trans_lt s.length_lt⟩, ?_, rfl⟩
  rw [replace, if_neg hpos, dif_pos hlen]

/-- Nothing is replaced behind the end. -/
theorem replace_of_lt {heap : Heap} {s str : StdString} {pos n : ℕ} (h : s.bytes.length < pos) :
    replace heap s pos n str = .error .outOfRange := by
  rw [replace, if_pos h]

end StdString

/-! ### Packets -/

/-- `Stream.Header`. -/
structure StreamHeader where
  mimeType : String
  totalLength : UInt64
  deriving DecidableEq

/-- `Stream.Chunk`. -/
structure StreamChunk where
  offset : UInt64
  data : StdString
  deriving DecidableEq

/-- `Stream.Trailer`; an empty reason is a transfer that went well. -/
structure StreamTrailer where
  reason : String
  deriving DecidableEq

/-- The payload of a `Stream`, which the sender may have left out. -/
inductive StreamPayload where
  | header (h : StreamHeader)
  | chunk (c : StreamChunk)
  | trailer (t : StreamTrailer)
  | notSet
  deriving DecidableEq

/-- The body of a packet; `other` are the bodies that an IPC channel has no use for. -/
inductive Body where
  | ipc (endpoint : String) (sequence : UInt64) (payload : StdString)
  | raw (payload : StdString)
  | stream (streamId : String) (payload : StreamPayload)
  | other
  deriving DecidableEq

/-- `protocol::Packet`. -/
structure Packet where
  requestId : String
  body : Body
  deriving DecidableEq

/-- The payload that a packet brings for stream `id`. -/
def Packet.streamPayload (id : String) (p : Packet) : Option StreamPayload :=
  match p.body with
  | .stream streamId payload => if streamId = id then some payload else none
  | _ => none

end PiWebrtc.DataChannel
