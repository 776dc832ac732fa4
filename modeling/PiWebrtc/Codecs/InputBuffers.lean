import PiWebrtc.Codecs.JetsonDecoder

namespace PiWebrtc.Codecs

open Transition

/-!
# Which buffers the decoder can use

As long as only the last buffer is taken back without being queued again, the driver always
has the buffers up to some index (`PoolInv`), so that their number is the index of the next
one.  After another buffer was taken back, the number is the index of the last one, which the
driver has, and it stays so: the buffer is never chosen again (`Lost`).
-/

variable {lengths : List ℕ} {s s' : JetsonDecoder} {c : EmplaceCall}

/-! ### While the number is right -/

/-- **The invariant.** The driver has the buffers up to some index. -/
structure PoolInv (lengths : List ℕ) (s : JetsonDecoder) : Prop where
  upTo : s.queued.Perm (List.range s.queued.length)
  le : s.queued.length ≤ lengths.length

namespace PoolInv

theorem mem (h : PoolInv lengths s) (buffer : ℕ) :
    buffer ∈ s.queued ↔ buffer < s.queued.length := by
  rw [h.upTo.mem_iff, List.mem_range]

theorem nodup (h : PoolInv lengths s) : s.queued.Nodup :=
  h.upTo.nodup_iff.mpr List.nodup_range

/-- The next buffer is queued. -/
theorem queueNext (h : PoolInv lengths s) (hroom : s.queued.length ≠ lengths.length)
    (hq : s'.queued = s.queued.length :: s.queued) : PoolInv lengths s' := by
  have hle := h.le
  refine ⟨?_, ?_⟩
  · rw [hq, List.length_cons, List.range_succ]
    exact (h.upTo.cons _).trans (List.perm_append_singleton _ _).symm
  · rw [hq, List.length_cons]
    omega

/-- A buffer is taken back and queued again. -/
theorem requeue (h : PoolInv lengths s) {index : ℕ} (hmem : index ∈ s.queued)
    (hq : s'.queued = index :: s.queued.erase index) : PoolInv lengths s' := by
  have hperm : s'.queued.Perm s.queued := hq ▸ (List.perm_cons_erase hmem).symm
  refine ⟨?_, ?_⟩
  · rw [hperm.length_eq]
    exact hperm.trans h.upTo
  · rw [hperm.length_eq]
    exact h.le

/-- The last buffer is taken back. -/
theorem takeLast (h : PoolInv lengths s) {index : ℕ} (hfull : s.queued.length = lengths.length)
    (hlast : index + 1 = lengths.length) (hq : s'.queued = s.queued.erase index) :
    PoolInv lengths s' := by
  have hmem : index ∈ s.queued := (h.mem index).mpr (by omega)
  have hlength : s'.queued.length = index := by
    rw [hq, List.length_erase_of_mem hmem]
    omega
  refine ⟨?_, ?_⟩
  · rw [hlength]
    refine List.Perm.cons_inv (a := index) ?_
    rw [hq]
    refine (List.perm_cons_erase hmem).symm.trans (h.upTo.trans ?_)
    rw [hfull, ← hlast, List.range_succ]
    exact List.perm_append_singleton _ _
  · rw [hlength]
    omega

/-- The buffer that a call chooses is not the driver's any more. -/
theorem not_mem_of_chooses (h : PoolInv lengths s) {index : ℕ} {queued : List ℕ}
    (hchoose : Chooses lengths s c index queued) : index ∉ queued := by
  cases hchoose with
  | dequeued hfull hdq hmem => exact h.nodup.not_mem_erase
  | next hroom => exact fun hmem => absurd ((h.mem _).mp hmem) (lt_irrefl _)

/-- A call that meets the condition writes to no buffer that the driver has, and leaves it the
    buffers up to some index. -/
theorem emplaceBuffer (h : PoolInv lengths s) (hfills : ∀ x ∈ s.filled, x.owned = false)
    (hg : FailsOnLast lengths s (.emplace c)) (he : s.emplaceBuffer lengths c = some s') :
    PoolInv lengths s' ∧ ∀ x ∈ s'.filled, x.owned = false := by
  obtain rfl | ⟨habort, herror, index, queued, hchoose, rfl⟩ := emplaceBuffer_cases he
  · exact ⟨h, hfills⟩
  have hfill : ∀ x ∈ (⟨index, decide (index ∈ queued)⟩ : Fill) :: s.filled, x.owned = false := by
    intro x hx
    rcases List.mem_cons.mp hx with rfl | hx
    · exact decide_eq_false (h.not_mem_of_chooses hchoose)
    · exact hfills x hx
  obtain ⟨hfails, hq, -, hf⟩ | ⟨-, hq, hf⟩ :=
    fillAndQueue_cases lengths { s with queued := queued } index c
  · refine ⟨?_, fun x hx => ?_⟩
    · cases hchoose with
      | dequeued hfull hdq hmem =>
        exact h.takeLast hfull (hg habort herror hfull index hdq hfails) hq
      | next hroom => exact ⟨by rw [hq]; exact h.upTo, by rw [hq]; exact h.le⟩
    · rcases hf with hf | hf
      · exact hfills x (hf ▸ hx)
      · exact hfill x (hf ▸ hx)
  · refine ⟨?_, fun x hx => hfill x (hf ▸ hx)⟩
    cases hchoose with
    | dequeued hfull hdq hmem => exact h.requeue hmem hq
    | next hroom => exact h.queueNext hroom hq

end PoolInv

/-- The next buffer can be used at once. -/
theorem emplaceBuffer_next (hroom : s.queued.length ≠ lengths.length) (habort : s.abort = false) :
    ∃ s', s.emplaceBuffer lengths { size := 0 } = some s' ∧ s'.abort = false ∧
      s'.queued = s.queued.length :: s.queued ∧
      s'.filled = ⟨s.queued.length, decide (s.queued.length ∈ s.queued)⟩ :: s.filled := by
  refine ⟨s.fillAndQueue lengths s.queued.length { size := 0 }, ?_, ?_⟩
  · simp [JetsonDecoder.emplaceBuffer, habort, hroom]
  · cases hready : s.captureReady <;>
      simp [JetsonDecoder.fillAndQueue, JetsonDecoder.fill, JetsonDecoder.ensureCapturePlane,
        habort, hready]

/-- Every buffer that the driver does not have can be used, after those before it. -/
theorem PoolInv.canBeFilled (h : PoolInv lengths s) (habort : s.abort = false) {buffer : ℕ}
    (hle : s.queued.length ≤ buffer) (hlt : buffer < lengths.length) :
    CanBeFilled lengths s buffer := by
  obtain ⟨n, rfl⟩ := Nat.exists_eq_add_of_le hle
  have hroom : s.queued.length ≠ lengths.length := by omega
  obtain ⟨s', he, habort', hq, hf⟩ := emplaceBuffer_next hroom habort
  induction n generalizing s s' with
  | zero => exact ⟨[], s, _, s', _, rfl, he, hf⟩
  | succ n ih =>
    have hlength : s'.queued.length = s.queued.length + 1 := by rw [hq, List.length_cons]
    have hroom' : s'.queued.length ≠ lengths.length := by omega
    obtain ⟨s'', he', habort'', hq', hf'⟩ := emplaceBuffer_next hroom' habort'
    obtain ⟨as, t, c, t', owned, hrun, hcall, hfill⟩ :=
      ih (h.queueNext hroom hq) habort' (by omega) (by omega) hroom' s'' he' habort'' hq' hf'
    refine ⟨.emplace { size := 0 } :: as, t, c, t', owned, ?_, hcall, ?_⟩
    · exact (jetsonDecoder lengths).runFrom_cons_eq_some.mpr ⟨s', he, hrun⟩
    · rw [hfill, hlength, Nat.add_right_comm, Nat.add_assoc]

/-! ### After another buffer was taken back -/

/-- The driver has all buffers but `buffer`, or as many, and `buffer` is not the last one. -/
structure Lost (lengths : List ℕ) (s : JetsonDecoder) (buffer : ℕ) : Prop where
  notQueued : buffer ∉ s.queued
  le : s.queued.length ≤ lengths.length
  ge : lengths.length ≤ s.queued.length + 1
  notLast : buffer + 1 ≠ lengths.length

namespace Lost

variable {buffer : ℕ}

/-- A call chooses another buffer, and the driver has all buffers but one then. -/
theorem chooses (h : Lost lengths s buffer) {index : ℕ} {queued : List ℕ}
    (hchoose : Chooses lengths s c index queued) :
    index ≠ buffer ∧ buffer ∉ queued ∧ queued.length + 1 = lengths.length := by
  have hle := h.le
  have hge := h.ge
  have hnotLast := h.notLast
  cases hchoose with
  | dequeued hfull hdq hmem =>
    refine ⟨fun heq => h.notQueued (heq ▸ hmem),
      fun hb => h.notQueued (List.mem_of_mem_erase hb), ?_⟩
    have hpos := List.length_pos_of_mem hmem
    rw [List.length_erase_of_mem hmem]
    omega
  | next hroom => exact ⟨by omega, h.notQueued, by omega⟩

/-- A call leaves the buffer lost, and writes to another one. -/
theorem emplaceBuffer (h : Lost lengths s buffer) (he : s.emplaceBuffer lengths c = some s') :
    Lost lengths s' buffer ∧ ∀ owned, s'.filled ≠ ⟨buffer, owned⟩ :: s.filled := by
  have hnone : ∀ owned, s.filled ≠ ⟨buffer, owned⟩ :: s.filled := fun owned =>
    (List.cons_ne_self _ _).symm
  obtain rfl | ⟨-, -, index, queued, hchoose, rfl⟩ := emplaceBuffer_cases he
  · exact ⟨h, hnone⟩
  obtain ⟨hindex, hb, hlength⟩ := h.chooses hchoose
  have hother : ∀ owned, (⟨index, decide (index ∈ queued)⟩ : Fill) :: s.filled ≠
      ⟨buffer, owned⟩ :: s.filled := by
    intro owned heq
    exact hindex (congrArg Fill.buffer (List.cons.inj heq).1)
  obtain ⟨-, hq, -, hf⟩ | ⟨-, hq, hf⟩ :=
    fillAndQueue_cases lengths { s with queued := queued } index c
  · refine ⟨⟨by rw [hq]; exact hb, by rw [hq]; exact hlength ▸ Nat.le_succ _,
      by rw [hq]; exact hlength.ge, h.notLast⟩, ?_⟩
    rcases hf with hf | hf
    · intro owned
      rw [hf]
      exact hnone owned
    · intro owned
      rw [hf]
      exact hother owned
  · refine ⟨⟨?_, ?_, ?_, h.notLast⟩, fun owned => by rw [hf]; exact hother owned⟩
    · rw [hq]
      exact fun hmem => (List.mem_cons.mp hmem).elim (fun heq => hindex heq.symm) hb
    · rw [hq, List.length_cons]
      exact hlength.le
    · rw [hq, List.length_cons]
      exact hlength.ge.trans (Nat.le_succ _)

/-- No later call writes to the buffer. -/
theorem not_canBeFilled (h : Lost lengths s buffer) : ¬ CanBeFilled lengths s buffer := by
  rintro ⟨as, t, c, t', owned, hrun, he, hf⟩
  have ht : Lost lengths t buffer := by
    refine Machine.runFrom_invariant (P := fun s => Lost lengths s buffer) ?_ h hrun
    intro s a s' h hstep
    cases a with
    | emplace c => exact (h.emplaceBuffer hstep).1
    | abort =>
      cases hstep
      exact ⟨h.notQueued, h.le, h.ge, h.notLast⟩
  exact (ht.emplaceBuffer he).2 owned hf

end Lost

/-! ### All runs -/

/-- While the number is right, all is as it should be. -/
theorem PoolInv.safe (h : PoolInv lengths s) (hfills : ∀ x ∈ s.filled, x.owned = false) :
    BuffersSafe lengths s := by
  refine ⟨hfills, fun buffer hlt hfree => ?_⟩
  cases habort : s.abort with
  | true => exact .inl rfl
  | false =>
    have hle : s.queued.length ≤ buffer := Nat.le_of_not_lt fun hb => hfree ((h.mem buffer).mpr hb)
    exact .inr (h.canBeFilled habort hle hlt)

/-- A call that does not meet the condition loses a buffer. -/
theorem failsOnLast_of_safe (h : PoolInv lengths s) (he : s.emplaceBuffer lengths c = some s')
    (hsafe : BuffersSafe lengths s') : FailsOnLast lengths s (.emplace c) := by
  intro habort herror hfull index hdq hfails
  by_contra hlast
  -- the driver has given the buffer back
  obtain ⟨hmem, rfl⟩ : index ∈ s.queued ∧
      { s with queued := s.queued.erase index }.fillAndQueue lengths index c = s' := by
    have hdq' : c.dequeued = some index := hdq
    simpa [JetsonDecoder.emplaceBuffer, habort, herror, hfull, hdq'] using he
  obtain ⟨-, hq, habort', -⟩ | ⟨hworks, -⟩ :=
    fillAndQueue_cases lengths { s with queued := s.queued.erase index } index c
  case inr => exact hworks hfails
  have hlt : index < lengths.length := hfull ▸ (h.mem index).mp hmem
  have hlength : (s.queued.erase index).length + 1 = lengths.length := by
    rw [List.length_erase_of_mem hmem]
    omega
  have hfree : index ∉ s.queued.erase index := h.nodup.not_mem_erase
  have hlost : Lost lengths
      ({ s with queued := s.queued.erase index }.fillAndQueue lengths index c) index := by
    refine ⟨?_, ?_, ?_, hlast⟩
    · rw [hq]
      exact hfree
    · rw [hq]
      exact hlength ▸ Nat.le_succ _
    · rw [hq]
      exact hlength.ge
  rcases hsafe.2 index hlt hlost.notQueued with hgone | hfill
  · rw [habort', habort] at hgone
    cases hgone
  · exact hlost.not_canBeFilled hfill

/-- **The decoder's buffers are safe** throughout a run, if and only if each call that takes a
    buffer back and then fails took the last one. -/
theorem buffers_safe_iff (lengths : List ℕ) (as : List DecoderEvent) (s : JetsonDecoder)
    (hrun : (jetsonDecoder lengths).run as = some s) :
    (jetsonDecoder lengths).Always (BuffersSafe lengths) (jetsonDecoder lengths).init as ↔
      (jetsonDecoder lengths).Guarded (FailsOnLast lengths) (jetsonDecoder lengths).init as := by
  have hkeeps : ∀ s a s', PoolInv lengths s → BuffersSafe lengths s →
      FailsOnLast lengths s a → (jetsonDecoder lengths).step s a = some s' →
      PoolInv lengths s' ∧ ∀ x ∈ s'.filled, x.owned = false := by
    intro s a s' h hsafe hg hstep
    cases a with
    | emplace c => exact h.emplaceBuffer hsafe.1 hg hstep
    | abort =>
      cases hstep
      exact ⟨⟨h.upTo, h.le⟩, hsafe.1⟩
  have hneeds : ∀ s a s', PoolInv lengths s → (jetsonDecoder lengths).step s a = some s' →
      BuffersSafe lengths s' → FailsOnLast lengths s a := by
    intro s a s' h hstep hsafe
    cases a with
    | emplace c => exact failsOnLast_of_safe h hstep hsafe
    | abort => trivial
  have hinit : PoolInv lengths (jetsonDecoder lengths).init :=
    ⟨List.Perm.refl _, Nat.zero_le _⟩
  refine Machine.always_iff_guarded (M := jetsonDecoder lengths) (I := PoolInv lengths) ?_ ?_
    hinit (hinit.safe fun x hx => by cases hx) hrun
  · intro s a s' h hsafe hstep hsafe'
    exact (hkeeps s a s' h hsafe (hneeds s a s' h hstep hsafe') hstep).1
  · intro s a s' h hsafe hstep
    refine ⟨hneeds s a s' h hstep, fun hg => ?_⟩
    obtain ⟨hinv, hfills⟩ := hkeeps s a s' h hsafe hg hstep
    exact hinv.safe hfills

/-- Two input buffers. -/
def inputLengths : List ℕ := [2097152, 2097152]

/-- Both are in use; the last one is given back and cannot be queued, and is used again. -/
def failedOnLast : List DecoderEvent :=
  [.emplace { size := 9 }, .emplace { size := 9 },
    .emplace { size := 9, dequeued := some 1, queues := false }, .emplace { size := 9 }]

theorem buffers_safe_iff_failedOnLast :
    ∃ s, (jetsonDecoder inputLengths).run failedOnLast = some s ∧
      ((jetsonDecoder inputLengths).Always (BuffersSafe inputLengths)
          (jetsonDecoder inputLengths).init failedOnLast ↔
        (jetsonDecoder inputLengths).Guarded (FailsOnLast inputLengths)
          (jetsonDecoder inputLengths).init failedOnLast) ∧
      (jetsonDecoder inputLengths).Guarded (FailsOnLast inputLengths)
        (jetsonDecoder inputLengths).init failedOnLast :=
  ⟨_, rfl, buffers_safe_iff inputLengths failedOnLast _ rfl, by decide⟩

/-- The first buffer is given back for a frame that is too large; the next frame goes to the
    other one. -/
def exceededFirst : List DecoderEvent :=
  [.emplace { size := 9 }, .emplace { size := 9 },
    .emplace { size := 3000000, dequeued := some 0 }, .emplace { size := 9 }]

/-- The driver has that buffer. -/
theorem not_buffersSafe_exceededFirst :
    ∃ s, (jetsonDecoder inputLengths).run exceededFirst = some s ∧
      s.filled.head? = some ⟨1, true⟩ ∧ ¬ BuffersSafe inputLengths s := by
  refine ⟨_, rfl, by decide, fun h => ?_⟩
  exact absurd (h.1 ⟨1, true⟩ (by decide)) (by decide)

end PiWebrtc.Codecs
