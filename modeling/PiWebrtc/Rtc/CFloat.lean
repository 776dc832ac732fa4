import Mathlib.Algebra.Order.Ring.Rat

namespace PiWebrtc.Rtc

/-!
# The values of a `float`

A `float` is a number, infinite, or not a number; the two zeros are one number.  What comes of
arithmetic is rounded where it is done.

* `CFloat.clamp_inRange` — what `std::clamp` makes of a number is in its range, and it leaves alone
  what is not a number.
-/

/-- A `float`. -/
inductive CFloat where
  | nan
  | infinite (negative : Bool)
  | finite (value : ℚ)
  deriving DecidableEq, Repr

namespace CFloat

/-- `a < b`. -/
def lt : CFloat → CFloat → Bool
  | finite a, finite b => a < b
  | infinite true, finite _ | infinite true, infinite false | finite _, infinite false => true
  | _, _ => false

/-- `std::min`. -/
def min (a b : CFloat) : CFloat := if b.lt a then b else a

/-- `std::max`. -/
def max (a b : CFloat) : CFloat := if a.lt b then b else a

/-- `std::clamp`. -/
def clamp (v : CFloat) (lo hi : ℚ) : CFloat :=
  if v.lt (finite lo) then finite lo else if (finite hi).lt v then finite hi else v

/-- A number that was `v` is in its range, or not a number as it was. -/
def InRange (lo hi : ℚ) (v w : CFloat) : Prop :=
  (v = nan ∧ w = nan) ∨ v ≠ nan ∧ ∃ q, w = finite q ∧ lo ≤ q ∧ q ≤ hi

/-- **A clamped number is in its range**, unless it is not a number. -/
theorem clamp_inRange {lo hi : ℚ} (h : lo ≤ hi) (v : CFloat) : InRange lo hi v (v.clamp lo hi) := by
  cases v with
  | nan => exact .inl ⟨rfl, rfl⟩
  | infinite negative =>
    -- an infinite number becomes the bound on its side
    refine .inr ⟨by rintro ⟨⟩, ?_⟩
    cases negative with
    | true => exact ⟨lo, rfl, le_refl lo, h⟩
    | false => exact ⟨hi, rfl, h, le_refl hi⟩
  | finite q =>
    refine .inr ⟨by rintro ⟨⟩, ?_⟩
    rw [clamp, lt, lt]
    split_ifs with hlo hhi
    · exact ⟨lo, rfl, le_refl lo, h⟩
    · exact ⟨hi, rfl, h, le_refl hi⟩
    · rw [decide_eq_true_iff, not_lt] at hlo hhi
      exact ⟨q, rfl, hlo, hhi⟩

example : nan.clamp (-1) 1 = nan := rfl

end CFloat

end PiWebrtc.Rtc
