import PiWebrtc.Recorder.RotateFiles

namespace PiWebrtc.Recorder

open FileTree

/-!
# Rotation makes progress

As long as a directory stands under the record path, each call of `RotateFiles` removes an
entry of the tree: a folder that counts as empty goes as a whole, and otherwise the oldest
recording goes before anything else can fail.  Without a directory a call does nothing.

The loop of the rotation thread asks for free space before each call and stops for nothing
else but the abort.  So after as many calls as there are entries at most it has stopped or
there is no directory left, and then it goes on calling for as long as the disk is full
(`rotation_settles`).
-/

/-- The tree that a call of `RotateFiles` leaves. -/
def rotate (t : Dir) : Dir := (rotateFiles t).tree

/-- A directory stands directly under the record path. -/
def HasFolder (t : Dir) : Prop := ∃ x, ([x], Kind.directory) ∈ t.entries

/-! ### The loop of the rotation thread -/

/-- What the loop finds before a call: `rotation_abort_`, and the answer of
    `CheckDriveSpace`. -/
structure Check where
  abort : Bool
  enough : Bool

/-- The loop stops here. -/
def Check.stops (c : Check) : Bool := c.abort || c.enough

/-- The tree after up to `n` calls, and whether the loop has stopped by then. -/
def rotationLoop (checks : ℕ → Check) (t : Dir) : ℕ → Dir × Bool
  | 0 => (t, (checks 0).stops)
  | n + 1 =>
    let (u, stopped) := rotationLoop checks t n
    if stopped then (u, true) else (rotate u, (checks (n + 1)).stops)

/-! ### Entries that go -/

/-- Removing an entry leaves fewer. -/
theorem removeAll_length_lt {t : Dir} {p : List String} {k : Kind} (h : (p, k) ∈ t.entries) :
    (t.removeAll p).entries.length < t.entries.length := by
  rw [Tree.removeAll, List.length_filter_lt_length_iff_exists]
  exact ⟨(p, k), h, by simp⟩

/-- No removal adds an entry. -/
theorem remove_length_le {n : ℕ} {r : Rotation} (h : r.tree.entries.length < n)
    (p : List String) : Ends (fun r => r.tree.entries.length < n) (r.remove p) := by
  unfold Rotation.remove
  split
  case h_1 => exact h
  case h_2 => exact h
  case h_3 t' hrem =>
    unfold Tree.remove at hrem
    split at hrem
    · cases hrem
    · split at hrem
      · cases hrem
      · obtain ⟨-, rfl⟩ := Prod.mk.inj (Option.some.inj hrem)
        exact (List.length_filter_le ..).trans_lt h

/-- Nothing stands below a file, so that `remove` deletes it. -/
theorem remove_file {r : Rotation} {p : List String} (h : (p, Kind.regular) ∈ r.tree.entries) :
    r.remove p = .ok ⟨r.tree.removeAll p, r.removals ++ [⟨r.tree, p⟩]⟩ := by
  have hmem : ¬ p ∉ r.tree.entries.map Prod.fst := not_not.mpr (List.mem_map_of_mem h)
  have hempty : r.tree.isEmpty p = true := by
    rw [Tree.isEmpty, List.isEmpty_iff, List.eq_nil_iff_forall_not_mem]
    rintro ⟨x, k⟩ hx
    rcases r.tree.parent_mem (r.tree.mem_list.mp hx) with hnil | hdir
    · exact r.tree.nonroot _ h hnil
    · exact absurd (r.tree.kind_unique h hdir) (by decide)
  rw [Rotation.remove, Tree.remove, if_neg hmem, hempty]
  rfl

/-- **Deleting a recording** removes an entry, whether or not the rest succeeds. -/
theorem deleteRecording_length_lt {t : Dir} {date hour file : String}
    (h : ([date, hour, file], Kind.regular) ∈ t.entries) :
    Ends (fun r => r.tree.entries.length < t.entries.length)
      (deleteRecording ⟨t, []⟩ date hour file) := by
  have hfile : (t.removeAll [date, hour, file]).entries.length < t.entries.length :=
    removeAll_length_lt h
  rw [deleteRecording, remove_file h]
  refine Ends.bind (P := fun r => r.tree.entries.length < t.entries.length) hfile
    fun r1 h1 => ?_
  refine (remove_length_le h1 _).bind fun r2 h2 => ?_
  split
  · refine (remove_length_le h2 _).bind fun r3 h3 => ?_
    split
    · exact remove_length_le h3 _
    · exact h3
  · exact h2

/-- **One call.** With a directory under the record path, a call leaves fewer entries. -/
theorem rotate_length_lt {t : Dir} (h : HasFolder t) :
    (rotate t).entries.length < t.entries.length := by
  obtain ⟨x, hx⟩ := h
  cases hd : oldestFolder t [] with
  | none => exact absurd hx (oldestFolder_eq_none hd x)
  | some d =>
    have hdate := oldestFolder_eq_some hd
    cases hh : oldestFolder t [d] with
    | none =>
      have hrot : rotate t = t.removeAll [d] := by simp only [rotate, rotateFiles, hd, hh]; rfl
      exact hrot ▸ removeAll_length_lt hdate.1
    | some hr =>
      have hhour := oldestFolder_eq_some hh
      cases hf : oldestFile t [d, hr] with
      | none =>
        have hrot : rotate t = t.removeAll [d, hr] := by
          simp only [rotate, rotateFiles, hd, hh, hf]
          rfl
        exact hrot ▸ removeAll_length_lt hhour.1
      | some n =>
        have hrot : rotate t = (Rotation.caught (deleteRecording ⟨t, []⟩ d hr n)).tree := by
          simp only [rotate, rotateFiles, hd, hh, hf]
        exact hrot ▸ deleteRecording_length_lt (oldestFile_eq_some hf).1.1

/-- Without one, a call does nothing. -/
theorem rotate_eq_self {t : Dir} (h : ¬ HasFolder t) : rotate t = t := by
  cases hd : oldestFolder t [] with
  | none => simp only [rotate, rotateFiles, hd]
  | some d => exact absurd ⟨d, (oldestFolder_eq_some hd).1⟩ h

/-! ### The calls of the loop -/

section Loop

variable {checks : ℕ → Check} {t : Dir}

/-- The loop has stopped by its first check that stops it, and not before. -/
theorem stopped_iff (n : ℕ) :
    (rotationLoop checks t n).2 = true ↔ ∃ k ≤ n, (checks k).stops = true := by
  induction n with
  | zero => simp [rotationLoop]
  | succ n ih =>
    cases hstop : (rotationLoop checks t n).2 with
    | true =>
      obtain ⟨k, hk, hstops⟩ := ih.mp hstop
      simp only [rotationLoop, hstop, if_true, true_iff]
      exact ⟨k, hk.trans (Nat.le_succ n), hstops⟩
    | false =>
      have hgoes : ∀ k ≤ n, ¬ (checks k).stops = true := by
        intro k hk hstops
        rw [ih.mpr ⟨k, hk, hstops⟩] at hstop
        cases hstop
      simp only [rotationLoop, hstop, Bool.false_eq_true, if_false]
      constructor
      · exact fun h => ⟨n + 1, le_rfl, h⟩
      · rintro ⟨k, hk, hstops⟩
        rcases hk.lt_or_eq with hlt | rfl
        · exact absurd hstops (hgoes k (Nat.lt_succ_iff.mp hlt))
        · exact hstops

/-- Once the loop has stopped, or there is no directory, the tree stays as it is. -/
theorem rotationLoop_settled {n m : ℕ} (hnm : n ≤ m)
    (h : (rotationLoop checks t n).2 = true ∨ ¬ HasFolder (rotationLoop checks t n).1) :
    (rotationLoop checks t m).1 = (rotationLoop checks t n).1 := by
  induction m, hnm using Nat.le_induction with
  | base => rfl
  | succ m hnm ih =>
    rw [rotationLoop]
    cases hstop : (rotationLoop checks t m).2 with
    | true => simpa [hstop] using ih
    | false =>
      have hleft : ¬ HasFolder (rotationLoop checks t m).1 := by
        rw [ih]
        refine h.resolve_left fun hstopped => ?_
        obtain ⟨k, hk, hstops⟩ := (stopped_iff n).mp hstopped
        rw [(stopped_iff m).mpr ⟨k, hk.trans hnm, hstops⟩] at hstop
        cases hstop
      simpa [hstop, rotate_eq_self hleft] using ih

/-- While the loop goes on and finds a directory, each call has removed an entry. -/
theorem rotationLoop_length (checks : ℕ → Check) (t : Dir) (n : ℕ) :
    (∃ m ≤ n, (rotationLoop checks t m).2 = true ∨ ¬ HasFolder (rotationLoop checks t m).1) ∨
      (rotationLoop checks t n).1.entries.length + n ≤ t.entries.length := by
  induction n with
  | zero => exact .inr le_rfl
  | succ n ih =>
    rcases ih with ⟨m, hm, h⟩ | hlen
    · exact .inl ⟨m, hm.trans (Nat.le_succ n), h⟩
    by_cases h : (rotationLoop checks t n).2 = true ∨ ¬ HasFolder (rotationLoop checks t n).1
    · exact .inl ⟨n, Nat.le_succ n, h⟩
    · obtain ⟨hgoes, hfolder⟩ := not_or.mp h
      have hlt := rotate_length_lt (not_not.mp hfolder)
      refine .inr ?_
      rw [rotationLoop]
      simp only [hgoes, Bool.false_eq_true, if_false]
      omega

end Loop

/-- **Rotation makes progress.** With a directory under the record path a call removes an entry,
    and without one it does nothing.  After some number of calls, at most as many as there are
    entries, the loop has stopped or there is no directory left; the tree stays like that from
    then on, and the loop stops at the first check that finds enough space or the abort. -/
theorem rotation_settles (checks : ℕ → Check) (t : Dir) :
    (HasFolder t → (rotate t).entries.length < t.entries.length) ∧
    (¬ HasFolder t → rotate t = t) ∧
    (∃ n ≤ t.entries.length,
      ((rotationLoop checks t n).2 = true ∨ ¬ HasFolder (rotationLoop checks t n).1) ∧
        ∀ m ≥ n, (rotationLoop checks t m).1 = (rotationLoop checks t n).1) ∧
    ∀ n, (rotationLoop checks t n).2 = true ↔ ∃ k ≤ n, (checks k).stops = true := by
  refine ⟨rotate_length_lt, rotate_eq_self, ?_, stopped_iff⟩
  rcases rotationLoop_length checks t t.entries.length with ⟨n, hn, h⟩ | hlen
  · exact ⟨n, hn, h, fun m hm => rotationLoop_settled hm h⟩
  · have hnone : ¬ HasFolder (rotationLoop checks t t.entries.length).1 := by
      rintro ⟨x, hx⟩
      have hpos := List.length_pos_of_mem hx
      omega
    exact ⟨_, le_rfl, .inr hnone, fun m hm => rotationLoop_settled hm (.inr hnone)⟩

/-- Only an empty day is left under the record path. -/
def emptyDay : Dir where
  entries := [(["20260730"], .directory)]
  nodup := by decide
  nonroot := by decide
  rooted := by decide

/-- While the disk stays full the loop does not stop, directory or not. -/
theorem not_rotationLoop_stops :
    ¬ ∀ (checks : ℕ → Check) (t : Dir), HasFolder t → (∀ n, (checks n).abort = false) →
      ∃ n, (rotationLoop checks t n).2 = true ∧
        ((checks n).enough = true ∨ ¬ HasFolder (rotationLoop checks t n).1) := by
  intro h
  obtain ⟨n, hstop, -⟩ := h (fun _ => ⟨false, false⟩) emptyDay
    ⟨"20260730", List.mem_singleton_self _⟩ fun _ => rfl
  obtain ⟨k, _, hstops⟩ := (stopped_iff n).mp hstop
  cases hstops

end PiWebrtc.Recorder
