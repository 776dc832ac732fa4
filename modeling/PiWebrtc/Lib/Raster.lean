import PiWebrtc.Lib.Scatter

namespace Raster

open Scatter

/-!
# Rows in a memory

A plane is a number of rows of the same width, a stride apart, somewhere in a memory.

* `blit_spec` — copying the rows of one plane to another one, when both lie inside their
  memories: the rows are there afterwards, and nothing else has changed.
* `blits_spec` — the same of several planes that follow each other in the memory.
* `getElem?_tight` — where a sample is when the rows are packed without gaps.
-/

variable {β : Type*}

/-- Rows of `width` elements, `stride` apart. -/
structure Plane where
  start : ℕ
  stride : ℕ
  width : ℕ
  rows : ℕ
  deriving DecidableEq, Repr

namespace Plane

/-- Where an element is. -/
def place (p : Plane) (r c : ℕ) : ℕ := p.start + r * p.stride + c

/-- The element of a memory at that place, if the memory reaches as far. -/
def sample (p : Plane) (mem : List β) (r c : ℕ) : Option β := mem[p.place r c]?

/-- The rows do not run into each other, and lie inside a memory of `n` elements. -/
structure Inside (p : Plane) (n : ℕ) : Prop where
  width_le : p.width ≤ p.stride
  end_le : p.start + p.rows * p.stride ≤ n

variable {p : Plane} {r c r' c' : ℕ}

theorem start_le_place : p.start ≤ p.place r c := by
  rw [place, Nat.add_assoc]
  exact Nat.le_add_right _ _

/-- A row ends before the next one begins. -/
theorem place_lt_row (hc : c < p.stride) : p.place r c < p.start + (r + 1) * p.stride := by
  rw [place, Nat.succ_mul, Nat.add_assoc]
  exact Nat.add_lt_add_left (Nat.add_lt_add_left hc _) _

theorem row_le (hr : r < p.rows) : p.start + (r + 1) * p.stride ≤ p.start + p.rows * p.stride :=
  Nat.add_le_add_left (Nat.mul_le_mul_right _ hr) _

theorem place_lt_end (hr : r < p.rows) (hc : c < p.stride) :
    p.place r c < p.start + p.rows * p.stride :=
  (place_lt_row hc).trans_le (row_le hr)

/-- A later row is further on. -/
theorem place_lt_place (hr : r < r') (hc : c < p.stride) : p.place r c < p.place r' c' := by
  refine (place_lt_row hc).trans_le ?_
  rw [place]
  exact (Nat.add_le_add_left (Nat.mul_le_mul_right _ hr) _).trans (Nat.le_add_right _ _)

theorem Inside.place_lt {n : ℕ} (h : p.Inside n) (hr : r < p.rows) (hc : c < p.width) :
    p.place r c < n :=
  (place_lt_end hr (hc.trans_le h.width_le)).trans_le h.end_le

theorem Inside.mono {m n : ℕ} (h : p.Inside m) (hmn : m ≤ n) : p.Inside n :=
  ⟨h.width_le, h.end_le.trans hmn⟩

end Plane

/-! ### Copying rows -/

/-- Copy `n` elements from place `j` of one memory to place `i` of another; `none` if that
    reaches outside of one of them. -/
def memcpy (dst : List β) (i : ℕ) (src : List β) (j n : ℕ) : Option (List β) :=
  if i + n ≤ dst.length ∧ j + n ≤ src.length then
    some ((⟨i, (src.drop j).take n⟩ : Piece β).put dst)
  else none

theorem memcpy_spec (dst src : List β) {i j n : ℕ} (hi : i + n ≤ dst.length)
    (hj : j + n ≤ src.length) :
    ∃ d, memcpy dst i src j n = some d ∧ d.length = dst.length ∧
      (∀ k < n, d[i + k]? = src[j + k]?) ∧ ∀ a, a < i ∨ i + n ≤ a → d[a]? = dst[a]? := by
  have hlen : ((src.drop j).take n).length = n := by
    rw [List.length_take, List.length_drop]
    omega
  have hfits : (⟨i, (src.drop j).take n⟩ : Piece β).Fits dst.length := by
    show i + ((src.drop j).take n).length ≤ dst.length
    rw [hlen]
    exact hi
  refine ⟨_, if_pos ⟨hi, hj⟩, Piece.length_put hfits, fun k hk => ?_, fun a ha => ?_⟩
  · rw [Piece.getElem?_put_of_mem hfits]
    · show ((src.drop j).take n)[i + k - i]? = _
      rw [Nat.add_sub_cancel_left, List.getElem?_take_of_lt hk, List.getElem?_drop]
    · rw [Piece.mem_cells]
      show i ≤ i + k ∧ i + k < i + ((src.drop j).take n).length
      omega
  · refine Piece.getElem?_put_of_not_mem hfits ?_
    rw [Piece.mem_cells]
    show ¬ (i ≤ a ∧ a < i + ((src.drop j).take n).length)
    omega

/-- Copy the first `n` rows of plane `q` to those of plane `p`, in the width of `p`. -/
def blit (dst : List β) (p : Plane) (src : List β) (q : Plane) : ℕ → Option (List β)
  | 0 => some dst
  | n + 1 => (blit dst p src q n).bind fun d =>
      memcpy d (p.place n 0) src (q.place n 0) p.width

/-- **Rows that are copied.** -/
theorem blit_spec {dst src : List β} {p q : Plane} (hp : p.Inside dst.length)
    (hq : q.Inside src.length) (hwidth : p.width ≤ q.width) (hrows : p.rows ≤ q.rows) {n : ℕ}
    (hn : n ≤ p.rows) :
    ∃ d, blit dst p src q n = some d ∧ d.length = dst.length ∧
      (∀ r < n, ∀ c < p.width, p.sample d r c = q.sample src r c) ∧
      ∀ a, (∀ r < n, ∀ c < p.width, a ≠ p.place r c) → d[a]? = dst[a]? := by
  induction n with
  | zero => exact ⟨dst, rfl, rfl, nofun, fun _ _ => rfl⟩
  | succ n ih =>
    obtain ⟨d, hd, hlen, hcopied, hframe⟩ := ih (Nat.le_of_succ_le hn)
    -- the next row lies inside both memories
    have hrow : ∀ (s : Plane) (k : ℕ), s.Inside k → n < s.rows → p.width ≤ s.width →
        s.place n 0 + p.width ≤ k := by
      intro s k hs hrow hle
      refine le_trans ?_ ((Plane.row_le hrow).trans hs.end_le)
      rw [Plane.place, Nat.add_zero, Nat.succ_mul, Nat.add_assoc]
      exact Nat.add_le_add_left (Nat.add_le_add_left (hle.trans hs.width_le) _) _
    obtain ⟨d', hd', hlen', hnew, hold⟩ := memcpy_spec d src
      (hlen ▸ hrow p _ hp hn le_rfl) (hrow q _ hq (Nat.lt_of_lt_of_le hn hrows) hwidth)
    refine ⟨d', ?_, hlen'.trans hlen, fun r hr c hc => ?_, fun a ha => ?_⟩
    · rw [blit, hd]
      exact hd'
    · rcases Nat.lt_succ_iff_lt_or_eq.mp hr with hlt | rfl
      · -- an earlier row is before this one
        have hbefore : p.place r c < p.place n 0 :=
          Plane.place_lt_place hlt (hc.trans_le hp.width_le)
        rw [Plane.sample, hold _ (.inl hbefore)]
        exact hcopied r hlt c hc
      · exact hnew c hc
    · rw [hold, hframe]
      · exact fun r hr c hc => ha r (Nat.lt_succ_of_lt hr) c hc
      · by_contra hin
        obtain ⟨hge, hlt⟩ : p.place n 0 ≤ a ∧ a < p.place n 0 + p.width := by omega
        refine ha n (Nat.lt_succ_self n) (a - p.place n 0) (by omega) ?_
        show a = p.place n 0 + (a - p.place n 0)
        omega

/-- Copy the rows of several planes, one plane after the other. -/
def blits (src : List β) : List (Plane × Plane) → List β → Option (List β)
  | [], dst => some dst
  | (p, q) :: rest, dst => (blit dst p src q p.rows).bind (blits src rest)

/-- Plane `q` of a memory of `m` elements has the rows to fill plane `p` of one of `n`. -/
structure Fits (m n : ℕ) (p q : Plane) : Prop where
  target : p.Inside n
  source : q.Inside m
  width_le : p.width ≤ q.width
  rows_le : p.rows ≤ q.rows

/-- The first plane ends before the second one starts. -/
def Plane.Before (p p' : Plane) : Prop := p.start + p.rows * p.stride ≤ p'.start

/-- **Planes that are copied.** -/
theorem blits_spec {src : List β} {copies : List (Plane × Plane)} {dst : List β}
    (hfits : ∀ x ∈ copies, Fits src.length dst.length x.1 x.2)
    (hbefore : copies.Pairwise fun x x' => x.1.Before x'.1) :
    ∃ d, blits src copies dst = some d ∧ d.length = dst.length ∧
      (∀ x ∈ copies, ∀ r < x.1.rows, ∀ c < x.1.width, x.1.sample d r c = x.2.sample src r c) ∧
      ∀ a, (∀ x ∈ copies, ∀ r < x.1.rows, ∀ c < x.1.width, a ≠ x.1.place r c) →
        d[a]? = dst[a]? := by
  induction copies generalizing dst with
  | nil => exact ⟨dst, rfl, rfl, nofun, fun _ _ => rfl⟩
  | cons x rest ih =>
    obtain ⟨hhead, hrest⟩ := List.forall_mem_cons.mp hfits
    obtain ⟨hfirst, hpair⟩ := List.pairwise_cons.mp hbefore
    obtain ⟨d, hd, hlen, hcopied, hframe⟩ :=
      blit_spec hhead.target hhead.source hhead.width_le hhead.rows_le le_rfl
    rw [← hlen] at hrest
    obtain ⟨d', hd', hlen', hcopied', hframe'⟩ := ih hrest hpair
    refine ⟨d', ?_, hlen'.trans hlen, ?_, fun a ha => ?_⟩
    · rw [blits, hd]
      exact hd'
    · refine List.forall_mem_cons.mpr ⟨fun r hr c hc => ?_, hcopied'⟩
      -- the planes that are copied later start behind this one
      have hkept : d'[x.1.place r c]? = d[x.1.place r c]? := by
        refine hframe' _ fun y hy r' _ c' _ => ne_of_lt ?_
        calc x.1.place r c
            < x.1.start + x.1.rows * x.1.stride :=
              Plane.place_lt_end hr (hc.trans_le hhead.target.width_le)
          _ ≤ y.1.start := hfirst y hy
          _ ≤ y.1.place r' c' := Plane.start_le_place
      rw [Plane.sample, hkept]
      exact hcopied r hr c hc
    · obtain ⟨hax, harest⟩ := List.forall_mem_cons.mp ha
      rw [hframe' a harest, hframe a hax]

/-! ### Rows without gaps -/

/-- Samples packed row by row. -/
def tight (width rows : ℕ) (f : ℕ → ℕ → β) : List β :=
  (List.range (rows * width)).map fun i => f (i / width) (i % width)

@[simp] theorem length_tight (width rows : ℕ) (f : ℕ → ℕ → β) :
    (tight width rows f).length = rows * width := by
  rw [tight, List.length_map, List.length_range]

/-- A place in an earlier row is before those of the rows after it. -/
theorem row_col_lt {width rows r c : ℕ} (hr : r < rows) (hc : c < width) :
    r * width + c < rows * width :=
  calc r * width + c < r * width + width := Nat.add_lt_add_left hc _
    _ = (r + 1) * width := (Nat.succ_mul r width).symm
    _ ≤ rows * width := Nat.mul_le_mul_right width hr

theorem getElem?_tight {width rows : ℕ} {f : ℕ → ℕ → β} {r c : ℕ} (hr : r < rows)
    (hc : c < width) : (tight width rows f)[r * width + c]? = some (f r c) := by
  have hpos : 0 < width := Nat.zero_lt_of_lt hc
  rw [tight, List.getElem?_map, List.getElem?_range (row_col_lt hr hc), Option.map_some,
    Nat.mul_comm r width, Nat.mul_add_div hpos, Nat.div_eq_of_lt hc, Nat.mul_add_mod,
    Nat.mod_eq_of_lt hc, Nat.add_zero]

end Raster
