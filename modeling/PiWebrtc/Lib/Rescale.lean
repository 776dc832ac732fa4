import Mathlib.Algebra.Order.Ring.Int
import Mathlib.Algebra.Order.Group.Unbundled.Abs
import Mathlib.Tactic.Linarith

namespace Rescale

/-!
# Rescaled integers

`rescale a b c` is `a * b / c`, rounded to the nearest integer, and away from zero in the
middle: a number of ticks of `b` seconds in ticks of `c` seconds.

* `rescale_near` — it is off by half a tick at most.
* `rescale_mono`, `rescale_lt` — the order is kept, and numbers that are a tick apart are kept
  apart.
-/

/-- `a * b / c`, rounded to nearest, away from zero in the middle. -/
def rescale (a : ℤ) (b c : ℕ) : ℤ :=
  if a < 0 then -((-a * b + (c / 2 : ℕ)) / c) else (a * b + (c / 2 : ℕ)) / c

variable {a a' : ℤ} {b c : ℕ}

theorem rescale_of_nonneg (h : 0 ≤ a) (b c : ℕ) :
    rescale a b c = (a * b + (c / 2 : ℕ)) / c := if_neg (not_lt_of_ge h)

theorem rescale_zero (b c : ℕ) : rescale 0 b c = 0 := by
  rw [rescale_of_nonneg le_rfl, zero_mul, zero_add]
  rcases Nat.eq_zero_or_pos c with rfl | hc
  · exact Int.ediv_zero _
  · exact Int.ediv_eq_zero_of_lt (Int.natCast_nonneg _)
      (Int.ofNat_lt.mpr (Nat.div_lt_self hc (by decide)))

theorem rescale_neg (a : ℤ) (b c : ℕ) : rescale (-a) b c = -rescale a b c := by
  rcases lt_trichotomy a 0 with h | rfl | h
  · rw [rescale, if_neg (by omega), rescale, if_pos h, neg_neg]
  · rw [neg_zero, rescale_zero, neg_zero]
  · rw [rescale, if_pos (by omega), rescale, if_neg (by omega), neg_neg]

/-- A number that is not negative is rounded between half a tick below and half above. -/
theorem rescale_bounds (hc : 0 < c) (h : 0 ≤ a) :
    2 * (rescale a b c * c) ≤ 2 * (a * b) + c ∧ 2 * (a * b) ≤ 2 * (rescale a b c * c) + c := by
  rw [rescale_of_nonneg h]
  have hc' : (0 : ℤ) < c := Int.natCast_pos.mpr hc
  have hdiv := Int.mul_ediv_add_emod (a * b + (c / 2 : ℕ)) c
  have hlt := Int.emod_lt_of_pos (a * b + (c / 2 : ℕ)) hc'
  have hnonneg := Int.emod_nonneg (a * b + (c / 2 : ℕ)) hc'.ne'
  have hhalf : 2 * ((c / 2 : ℕ) : ℤ) ≤ c ∧ (c : ℤ) ≤ 2 * ((c / 2 : ℕ) : ℤ) + 1 := by omega
  rw [mul_comm] at hdiv
  constructor
  · linarith
  · omega

/-- **A rescaled number is off by half a tick at most.** -/
theorem rescale_near (hc : 0 < c) (a : ℤ) (b : ℕ) : 2 * |rescale a b c * c - a * b| ≤ c := by
  rcases le_total 0 a with h | h
  · obtain ⟨hup, hlow⟩ := rescale_bounds (b := b) hc h
    rcases abs_cases (rescale a b c * c - a * b) with ⟨habs, -⟩ | ⟨habs, -⟩
    · rw [habs]
      linarith
    · rw [habs]
      linarith
  · have h' : 0 ≤ -a := by omega
    obtain ⟨hup, hlow⟩ := rescale_bounds (b := b) hc h'
    rw [rescale_neg, neg_mul, neg_mul] at hup hlow
    rcases abs_cases (rescale a b c * c - a * b) with ⟨habs, -⟩ | ⟨habs, -⟩
    · rw [habs]
      linarith
    · rw [habs]
      linarith

/-- Numbers that are not negative keep their distance in whole ticks. -/
theorem rescale_add_le (hc : 0 < c) (h : 0 ≤ a) {k : ℤ} (hk : a * b + k * c ≤ a' * b)
    (h' : 0 ≤ a') : rescale a b c + k ≤ rescale a' b c := by
  have hc' : (0 : ℤ) < c := Int.natCast_pos.mpr hc
  rw [rescale_of_nonneg h, rescale_of_nonneg h', ← Int.add_mul_ediv_right _ _ hc'.ne']
  exact Int.ediv_le_ediv hc' (by linarith)

/-- **The order is kept.** -/
theorem rescale_mono (hc : 0 < c) (h : a ≤ a') (b : ℕ) : rescale a b c ≤ rescale a' b c := by
  have hmul : ∀ {x y : ℤ}, x ≤ y → x * b + 0 * c ≤ y * b := by
    intro x y hxy
    rw [zero_mul, add_zero]
    exact mul_le_mul_of_nonneg_right hxy (Int.natCast_nonneg b)
  rcases le_total 0 a with ha | ha
  · have := rescale_add_le hc ha (hmul h) (ha.trans h)
    omega
  rcases le_total 0 a' with ha' | ha'
  · -- on both sides of zero
    have hneg : rescale 0 b c + 0 ≤ rescale (-a) b c :=
      rescale_add_le hc le_rfl (hmul (by omega)) (by omega)
    have hpos : rescale 0 b c + 0 ≤ rescale a' b c :=
      rescale_add_le hc le_rfl (hmul ha') ha'
    rw [rescale_zero, rescale_neg] at hneg
    rw [rescale_zero] at hpos
    omega
  · have hneg : rescale (-a') b c + 0 ≤ rescale (-a) b c :=
      rescale_add_le hc (by omega) (hmul (by omega)) (by omega)
    rw [rescale_neg, rescale_neg] at hneg
    omega

/-- **A tick apart stays apart**, for numbers that are not negative. -/
theorem rescale_lt (hc : 0 < c) (h : 0 ≤ a) (hgap : (c : ℤ) ≤ (a' - a) * b) :
    rescale a b c < rescale a' b c := by
  have hb : (0 : ℤ) ≤ b := Int.natCast_nonneg b
  have hle : a ≤ a' := by
    by_contra hlt
    have := mul_nonpos_of_nonpos_of_nonneg (sub_nonpos.mpr (not_le.mp hlt).le) hb
    omega
  have hk : a * b + 1 * c ≤ a' * b := by linarith
  have := rescale_add_le hc h hk (h.trans hle)
  omega

end Rescale
