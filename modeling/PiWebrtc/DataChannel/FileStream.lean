import PiWebrtc.DataChannel.RtcChannel

namespace PiWebrtc.DataChannel

/-!
# Streaming a file

`SendStream` of a file takes the size of the file, announces it in the header, and then reads
the file to its end.  The file is live: what the reads find need not be what the size promised.
`sendStreamFile_consistent_iff` shows that all that can go wrong is that they find more.
-/

/-! ### The loop of the source -/

/-- A file as `SendStream` meets it.  `size` is what `tellg` gave for the end (`-1` is
    `2 ^ 64 - 1`), `good` whether the stream is good when the reading begins, and `reads` what
    the file has for each of the reads, or `none` where it fails; after the last one the file is
    at its end.  A file has no byte at a position from `2 ^ 63` on. -/
structure InputFile where
  isOpen : Bool
  size : UInt64
  good : Bool
  reads : List (Option StdString)
  read_le : ∀ data, some data ∈ reads → data.bytes.length ≤ kStreamChunkSize
  length_lt : ((reads.filterMap id).map fun data => data.bytes.length).sum < 2 ^ 63

/-- `file.read(buffer, kStreamChunkSize)`: whether the stream is good afterwards, and the
    `gcount()` bytes that were read.  A short read leaves it failed, and a stream that is not
    good reads nothing. -/
def fileRead (good : Bool) (found : Option StdString) : Bool × StdString :=
  match good, found with
  | true, some data => (data.bytes.length = kStreamChunkSize, data)
  | _, _ => (false, .empty)

/-- The loop of `SendStream`: the chunks, and the offset at its end. -/
def sendFileChunks (streamId : String) (good : Bool) :
    List (Option StdString) → ℕ → List Packet × ℕ
  | [], offset => ([], offset)
  | found :: reads, offset =>
    let (good, data) := fileRead good found
    if good = true ∨ 0 < data.bytes.length then
      let (packets, last) := sendFileChunks streamId good reads (offset + data.bytes.length)
      (sendStreamChunk streamId offset data :: packets, last)
    else ([], offset)

/-- `SendStream` of a file. -/
def sendStreamFile (requestId streamId mimeType : String) (file : InputFile) : List Packet :=
  if file.isOpen then
    let (chunks, offset) := sendFileChunks streamId file.good file.reads 0
    let reason := if UInt64.ofNat offset ≠ file.size then "read error" else ""
    sendStreamHeader requestId streamId mimeType file.size ::
      (chunks ++ [sendStreamTrailer streamId reason])
  else []

/-! ### What is asked for -/

/-- Chunks without a gap or an overlap, from `offset` on. -/
def Contiguous : ℕ → List StreamChunk → Prop
  | _, [] => True
  | offset, c :: cs => c.offset.toNat = offset ∧ Contiguous (offset + c.data.bytes.length) cs

/-- How much data the chunks carry. -/
def dataLength (cs : List StreamChunk) : ℕ := (cs.map fun c => c.data.bytes.length).sum

/-- A header, contiguous chunks inside the length that it announces, and a trailer, which gives
    a reason unless that length was sent. -/
def StreamConsistent (packets : List Packet) : Prop :=
  ∃ requestId streamId mimeType total cs reason,
    packets = sendStreamHeader requestId streamId mimeType total ::
      (cs.map (fun c => ⟨"", .stream streamId (.chunk c)⟩) ++
        [sendStreamTrailer streamId reason]) ∧
    Contiguous 0 cs ∧ (∀ c ∈ cs, c.offset.toNat + c.data.bytes.length ≤ total.toNat) ∧
    (reason = "" ↔ dataLength cs = total.toNat)

/-! ### What is sent -/

/-- The data of the reads, up to the first one that is short or fails. -/
def readable : List (Option StdString) → List StdString
  | some data :: reads =>
    if data.bytes.length = kStreamChunkSize then data :: readable reads
    else if data.bytes.length = 0 then [] else [data]
  | _ => []

/-- What `SendStream` gets to read of a file. -/
def InputFile.found (file : InputFile) : List StdString :=
  if file.good then readable file.reads else []

/-- How much it gets to read. -/
def InputFile.foundLength (file : InputFile) : ℕ :=
  (file.found.map fun data => data.bytes.length).sum

/-- Chunks of these data, from `offset` on. -/
def chunksFrom : ℕ → List StdString → List StreamChunk
  | _, [] => []
  | offset, data :: rest =>
    ⟨UInt64.ofNat offset, data⟩ :: chunksFrom (offset + data.bytes.length) rest

theorem dataLength_cons (c : StreamChunk) (cs : List StreamChunk) :
    dataLength (c :: cs) = c.data.bytes.length + dataLength cs := List.sum_cons

@[simp] theorem dataLength_chunksFrom (offset : ℕ) (found : List StdString) :
    dataLength (chunksFrom offset found) = (found.map fun data => data.bytes.length).sum := by
  induction found generalizing offset with
  | nil => rfl
  | cons data rest ih =>
    rw [chunksFrom, dataLength_cons, ih, List.map_cons, List.sum_cons]

/-- A stream that is not good is at its end. -/
theorem sendFileChunks_of_not_good (streamId : String) (reads : List (Option StdString))
    (offset : ℕ) : sendFileChunks streamId false reads offset = ([], offset) := by
  cases reads with
  | nil => rfl
  | cons found reads => simp [sendFileChunks, fileRead, StdString.empty]

/-- **The loop.** It sends what is readable, at one offset after the other. -/
theorem sendFileChunks_eq (streamId : String) (reads : List (Option StdString)) (offset : ℕ) :
    sendFileChunks streamId true reads offset =
      ((chunksFrom offset (readable reads)).map fun c => ⟨"", .stream streamId (.chunk c)⟩,
        offset + ((readable reads).map fun data => data.bytes.length).sum) := by
  induction reads generalizing offset with
  | nil => rfl
  | cons found reads ih =>
    cases found with
    | none => simp [sendFileChunks, fileRead, StdString.empty, readable, chunksFrom]
    | some data =>
      rw [sendFileChunks, readable]
      by_cases hfull : data.bytes.length = kStreamChunkSize
      · simp only [fileRead, hfull, decide_true, true_or, if_true, ih]
        simp only [chunksFrom, hfull, List.map_cons, List.sum_cons, Nat.add_assoc,
          sendStreamChunk]
      · by_cases hnone : data.bytes.length = 0
        · rw [hnone] at hfull
          simp [fileRead, hfull, hnone, chunksFrom]
        · -- the short read is sent, and the next one finds the stream failed
          have hpos : 0 < data.bytes.length := Nat.pos_of_ne_zero hnone
          simp only [fileRead, hfull, decide_false, Bool.false_eq_true, false_or, hpos, if_true,
            sendFileChunks_of_not_good, if_false, hnone]
          rfl

/-- What is readable is among what the reads have. -/
theorem sum_readable_le (reads : List (Option StdString)) :
    ((readable reads).map fun data => data.bytes.length).sum ≤
      ((reads.filterMap id).map fun data => data.bytes.length).sum := by
  induction reads with
  | nil => exact le_rfl
  | cons found reads ih =>
    cases found with
    | none => exact Nat.zero_le _
    | some data =>
      rw [readable, List.filterMap_cons_some (f := id) rfl, List.map_cons, List.sum_cons]
      split
      · rw [List.map_cons, List.sum_cons]
        exact Nat.add_le_add_left ih _
      · split
        · exact Nat.zero_le _
        · rw [List.map_singleton, List.sum_singleton]
          exact Nat.le_add_right _ _

theorem InputFile.foundLength_lt (file : InputFile) : file.foundLength < 2 ^ 63 := by
  refine lt_of_le_of_lt ?_ file.length_lt
  rw [InputFile.foundLength, InputFile.found]
  split
  · exact sum_readable_le file.reads
  · exact Nat.zero_le _

/-- The packets of a file that is open. -/
theorem sendStreamFile_eq (requestId streamId mimeType : String) {file : InputFile}
    (hopen : file.isOpen = true) :
    sendStreamFile requestId streamId mimeType file =
      sendStreamHeader requestId streamId mimeType file.size ::
        ((chunksFrom 0 file.found).map (fun c => ⟨"", .stream streamId (.chunk c)⟩) ++
          [sendStreamTrailer streamId
            (if UInt64.ofNat file.foundLength ≠ file.size then "read error" else "")]) := by
  have hloop : sendFileChunks streamId file.good file.reads 0 =
      ((chunksFrom 0 file.found).map fun c => ⟨"", .stream streamId (.chunk c)⟩,
        file.foundLength) := by
    rw [InputFile.foundLength, InputFile.found]
    cases hgood : file.good with
    | true => rw [sendFileChunks_eq, Nat.zero_add]; rfl
    | false => exact sendFileChunks_of_not_good streamId file.reads 0
  rw [sendStreamFile, if_pos hopen, hloop]

/-! ### Chunks inside the announced length -/

theorem toNat_ofNat_of_lt {n : ℕ} (h : n < 2 ^ 63) : (UInt64.ofNat n).toNat = n := by
  rw [UInt64.toNat_ofNat', Nat.mod_eq_of_lt (by omega)]

theorem contiguous_chunksFrom {offset : ℕ} {found : List StdString}
    (h : offset + (found.map fun data => data.bytes.length).sum < 2 ^ 63) :
    Contiguous offset (chunksFrom offset found) := by
  induction found generalizing offset with
  | nil => trivial
  | cons data rest ih =>
    rw [List.map_cons, List.sum_cons] at h
    refine ⟨toNat_ofNat_of_lt (by omega), ih ?_⟩
    rw [Nat.add_assoc]
    exact h

/-- Contiguous chunks stay inside a length if there is no more data than that. -/
theorem Contiguous.inside_iff {offset total : ℕ} {cs : List StreamChunk}
    (h : Contiguous offset cs) (hoffset : offset ≤ total) :
    (∀ c ∈ cs, c.offset.toNat + c.data.bytes.length ≤ total) ↔
      offset + dataLength cs ≤ total := by
  induction cs generalizing offset with
  | nil => exact iff_of_true nofun hoffset
  | cons c cs ih =>
    obtain ⟨hc, hrest⟩ := h
    rw [List.forall_mem_cons, hc, dataLength_cons, ← Nat.add_assoc]
    constructor
    · rintro ⟨hfirst, hcs⟩
      exact (ih hrest hfirst).mp hcs
    · intro hle
      have hfirst : offset + c.data.bytes.length ≤ total := (Nat.le_add_right _ _).trans hle
      exact ⟨hfirst, (ih hrest hfirst).mpr hle⟩

/-- The trailer gives no reason exactly if the announced length was sent. -/
theorem reason_eq_iff (file : InputFile) :
    (if UInt64.ofNat file.foundLength ≠ file.size then "read error" else "") = "" ↔
      file.foundLength = file.size.toNat := by
  have hlength := toNat_ofNat_of_lt file.foundLength_lt
  constructor
  · intro h
    by_contra hne
    have hsize : UInt64.ofNat file.foundLength ≠ file.size := fun heq => hne (heq ▸ hlength).symm
    rw [if_pos hsize] at h
    exact absurd h (by decide)
  · intro h
    rw [if_neg (not_not.mpr (UInt64.toNat_inj.mp (hlength.trans h)))]

/-- The chunks of a file are inside the announced length if no more than that is read. -/
theorem InputFile.inside_iff (file : InputFile) :
    (∀ c ∈ chunksFrom 0 file.found, c.offset.toNat + c.data.bytes.length ≤ file.size.toNat) ↔
      file.foundLength ≤ file.size.toNat := by
  have hcontiguous : Contiguous 0 (chunksFrom 0 file.found) :=
    contiguous_chunksFrom ((Nat.zero_add _).trans_lt file.foundLength_lt)
  have hinside := hcontiguous.inside_iff (Nat.zero_le file.size.toNat)
  rw [dataLength_chunksFrom, Nat.zero_add] at hinside
  exact hinside

/-- What is sent of a file that has grown is not consistent. -/
theorem foundLength_le_of_consistent {requestId streamId mimeType : String} {file : InputFile}
    (hopen : file.isOpen = true)
    (h : StreamConsistent (sendStreamFile requestId streamId mimeType file)) :
    file.foundLength ≤ file.size.toNat := by
  rw [sendStreamFile_eq requestId streamId mimeType hopen] at h
  obtain ⟨requestId', streamId', mimeType', total, cs, reason, heq, -, hcs, -⟩ := h
  -- the header and the chunks are the ones that were sent
  obtain ⟨hheader, hrest⟩ := List.cons.inj heq
  obtain ⟨-, ⟨⟩⟩ := Packet.mk.inj hheader
  have hmap := (List.append_inj' hrest rfl).1
  have hinj : Function.Injective fun c : StreamChunk =>
      (⟨"", .stream streamId (.chunk c)⟩ : Packet) := by
    rintro c c' ⟨⟩
    rfl
  obtain rfl := List.map_injective_iff.mpr hinj hmap
  exact file.inside_iff.mp hcs

/-- **Streaming a file.** What is sent for a file is consistent exactly if its reads find no
    more than the size that was taken before. -/
theorem sendStreamFile_consistent_iff (requestId streamId mimeType : String) (file : InputFile)
    (hopen : file.isOpen = true) :
    StreamConsistent (sendStreamFile requestId streamId mimeType file) ↔
      file.foundLength ≤ file.size.toNat := by
  refine ⟨foundLength_le_of_consistent hopen, fun hle => ?_⟩
  have hcontiguous : Contiguous 0 (chunksFrom 0 file.found) :=
    contiguous_chunksFrom ((Nat.zero_add _).trans_lt file.foundLength_lt)
  rw [sendStreamFile_eq requestId streamId mimeType hopen]
  refine ⟨requestId, streamId, mimeType, file.size, _, _, rfl, hcontiguous,
    file.inside_iff.mpr hle, ?_⟩
  rw [dataLength_chunksFrom]
  exact reason_eq_iff file

/-- Two bytes of a file of four bytes, and then an error. -/
def brokenFile : InputFile where
  isOpen := true
  size := 4
  good := true
  reads := [some ⟨[1, 2], by decide⟩, none]
  read_le := by
    rintro data hdata
    rcases List.mem_cons.mp hdata with hdata | hdata
    · obtain rfl := Option.some.inj hdata
      decide
    · cases List.mem_singleton.mp hdata
  length_lt := by decide

theorem sendStreamFile_consistent_brokenFile :
    brokenFile.foundLength = 2 ∧ StreamConsistent (sendStreamFile "r" "s" "m" brokenFile) :=
  ⟨by decide, (sendStreamFile_consistent_iff "r" "s" "m" brokenFile rfl).mpr (by decide)⟩

/-- A file of one byte, to which its recorder has appended another one before it is read. -/
def grownFile : InputFile where
  isOpen := true
  size := 1
  good := true
  reads := [some ⟨[1, 2], by decide⟩]
  read_le := by
    rintro data hdata
    obtain rfl := Option.some.inj (List.mem_singleton.mp hdata)
    decide
  length_lt := by decide

theorem not_consistent_grownFile : ¬ StreamConsistent (sendStreamFile "r" "s" "m" grownFile) :=
  fun h => absurd (foundLength_le_of_consistent rfl h) (by decide)

end PiWebrtc.DataChannel
