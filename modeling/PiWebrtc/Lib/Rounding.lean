import Mathlib.Data.Int.Log
import Mathlib.Data.Rat.Floor
import Mathlib.Algebra.Order.Field.Power
import Mathlib.Tactic.Linarith
import Mathlib.Tactic.NormNum
import Mathlib.Tactic.Positivity
import Mathlib.Tactic.Ring

namespace Rounding

/-!
# Rounding a rational to a binary floating-point number

A number with `p` fraction bits is `m · 2 ^ k` with `|m| ≤ 2 ^ (p + 1)`. The exponent has no
bounds here: `nearest p` is the rounding of a format whose values stay away from its smallest and
its largest numbers. `castInt` is the conversion of such a number to a bounded integer, towards
zero, and `none` where the integer does not fit.

* `nearest_mono` — rounding keeps the order.
* `nearest_intCast` — the integers up to `2 ^ (p + 1)` are numbers of the format.
* `abs_nearest_sub_le` — the relative error is at most `2 ^ -(p + 1)`.
* `nearest_mul_zpow` — scaling by a power of two is exact.
* `castInt_eq_some_iff` — which numbers a conversion to an integer accepts.
-/

/-! ### To an integer -/

/-- The integer nearest to a number, the even one of two that are equally near. -/
def roundEven (y : ℚ) : ℤ :=
  if y - ⌊y⌋ < 1 / 2 then ⌊y⌋
  else if 1 / 2 < y - ⌊y⌋ then ⌊y⌋ + 1
  else if ⌊y⌋ % 2 = 0 then ⌊y⌋
  else ⌊y⌋ + 1

/-- Rounding moves a number by half a unit at most. -/
theorem abs_roundEven_sub_le (y : ℚ) : |(roundEven y : ℚ) - y| ≤ 1 / 2 := by
  have hlo := Int.floor_le y
  have hhi := Int.lt_floor_add_one y
  unfold roundEven
  split_ifs <;> push_cast <;> rw [abs_le] <;> constructor <;> linarith

/-- A number is rounded down to its floor, or up by one. -/
theorem floor_le_roundEven (y : ℚ) : ⌊y⌋ ≤ roundEven y := by
  unfold roundEven
  split_ifs <;> omega

theorem roundEven_le_floor_add_one (y : ℚ) : roundEven y ≤ ⌊y⌋ + 1 := by
  unfold roundEven
  split_ifs <;> omega

/-- An integer that is nearer than one half is the nearest one. -/
theorem roundEven_eq_of_abs_lt {y : ℚ} {n : ℤ} (h : |y - n| < 1 / 2) : roundEven y = n := by
  have herr := abs_le.mp (abs_roundEven_sub_le y)
  have hn := abs_lt.mp h
  have hlt : ((roundEven y : ℚ) - n) < 1 := by linarith
  have hgt : -1 < ((roundEven y : ℚ) - n) := by linarith
  have hlt' : roundEven y - n < 1 := by exact_mod_cast hlt
  have hgt' : -1 < roundEven y - n := by exact_mod_cast hgt
  omega

/-- A whole number stays as it is. -/
@[simp] theorem roundEven_intCast (n : ℤ) : roundEven (n : ℚ) = n :=
  roundEven_eq_of_abs_lt (by rw [sub_self, abs_zero]; norm_num)

/-- Rounding keeps the order. -/
theorem roundEven_mono {y z : ℚ} (h : y ≤ z) : roundEven y ≤ roundEven z := by
  obtain hlt | heq := (Int.floor_le_floor h).lt_or_eq
  · calc roundEven y ≤ ⌊y⌋ + 1 := roundEven_le_floor_add_one y
      _ ≤ ⌊z⌋ := hlt
      _ ≤ roundEven z := floor_le_roundEven z
  · -- the same floor: the fraction of the larger number is the larger one
    unfold roundEven
    rw [heq]
    split_ifs <;> first | omega | (exfalso; linarith)

/-! ### To a number of the format -/

variable (p : ℕ)

/-- The distance of the numbers of the format around a positive number. -/
def ulp (x : ℚ) : ℚ := (2 : ℚ) ^ (Int.log 2 x - (p : ℤ))

/-- The rounding of a number that is not negative. -/
def nearestPos (x : ℚ) : ℚ := (roundEven (x / ulp p x) : ℚ) * ulp p x

/-- The nearest number of the format, the even one of two that are equally near. -/
def nearest (x : ℚ) : ℚ := if x < 0 then -nearestPos p (-x) else nearestPos p x

/-- The distance is positive. -/
theorem ulp_pos (x : ℚ) : 0 < ulp p x := zpow_pos two_pos _

/-- The binade of a positive number, in units of its own distance. -/
theorem binade_le_div_ulp {x : ℚ} (hx : 0 < x) : (2 : ℚ) ^ p ≤ x / ulp p x := by
  rw [le_div_iff₀ (ulp_pos p x), ulp, ← zpow_natCast, ← zpow_add₀ two_ne_zero,
    add_sub_cancel]
  exact_mod_cast Int.zpow_log_le_self Nat.one_lt_two hx

/-- The binade ends at twice its first number. -/
theorem div_ulp_lt_binade {x : ℚ} : x / ulp p x < (2 : ℚ) ^ (p + 1) := by
  rw [div_lt_iff₀ (ulp_pos p x), ulp, ← zpow_natCast, ← zpow_add₀ two_ne_zero]
  have h := Int.lt_zpow_succ_log_self Nat.one_lt_two x
  have heq : ((p + 1 : ℕ) : ℤ) + (Int.log 2 x - (p : ℤ)) = Int.log 2 x + 1 := by
    push_cast
    ring
  rw [heq]
  exact_mod_cast h

/-- A rounded number stays in the binade it was in, or is the first number of the next one. -/
theorem zpow_log_le_nearestPos {x : ℚ} (hx : 0 < x) :
    (2 : ℚ) ^ Int.log 2 x ≤ nearestPos p x := by
  have hunits : ((2 ^ p : ℤ) : ℚ) ≤ x / ulp p x := by
    push_cast
    exact binade_le_div_ulp p hx
  have hround : (2 ^ p : ℤ) ≤ roundEven (x / ulp p x) := by
    rw [← roundEven_intCast (2 ^ p)]
    exact roundEven_mono hunits
  calc (2 : ℚ) ^ Int.log 2 x = ((2 ^ p : ℤ) : ℚ) * ulp p x := by
        push_cast
        rw [ulp, ← zpow_natCast, ← zpow_add₀ two_ne_zero, add_sub_cancel]
    _ ≤ nearestPos p x :=
        mul_le_mul_of_nonneg_right (by exact_mod_cast hround) (ulp_pos p x).le

/-- Rounding goes no further than the next power of two. -/
theorem nearestPos_le_zpow_succ_log (x : ℚ) : nearestPos p x ≤ (2 : ℚ) ^ (Int.log 2 x + 1) := by
  have hunits : x / ulp p x ≤ ((2 ^ (p + 1) : ℤ) : ℚ) := by
    push_cast
    exact (div_ulp_lt_binade p).le
  have hround : roundEven (x / ulp p x) ≤ (2 ^ (p + 1) : ℤ) := by
    rw [← roundEven_intCast (2 ^ (p + 1))]
    exact roundEven_mono hunits
  calc nearestPos p x ≤ ((2 ^ (p + 1) : ℤ) : ℚ) * ulp p x :=
        mul_le_mul_of_nonneg_right (by exact_mod_cast hround) (ulp_pos p x).le
    _ = (2 : ℚ) ^ (Int.log 2 x + 1) := by
        push_cast
        rw [ulp, ← zpow_natCast, ← zpow_add₀ two_ne_zero]
        congr 1
        push_cast
        ring

theorem nearestPos_nonneg {x : ℚ} (hx : 0 ≤ x) : 0 ≤ nearestPos p x := by
  obtain rfl | hpos := hx.eq_or_lt
  · rw [nearestPos, zero_div, ← Int.cast_zero, roundEven_intCast, Int.cast_zero, zero_mul]
  · exact (zpow_pos two_pos _).le.trans (zpow_log_le_nearestPos p hpos)

/-- Rounding keeps the order, also from one binade to the next. -/
theorem nearestPos_mono {x y : ℚ} (hx : 0 < x) (h : x ≤ y) : nearestPos p x ≤ nearestPos p y := by
  obtain hlt | heq := (Int.log_mono_right hx h).lt_or_eq
  · calc nearestPos p x ≤ (2 : ℚ) ^ (Int.log 2 x + 1) := nearestPos_le_zpow_succ_log p x
      _ ≤ (2 : ℚ) ^ Int.log 2 y := zpow_le_zpow_right₀ one_le_two hlt
      _ ≤ nearestPos p y := zpow_log_le_nearestPos p (hx.trans_le h)
  · -- one binade, one distance: the order is the order of the rounded quotients
    have hulp : ulp p x = ulp p y := by rw [ulp, ulp, heq]
    rw [nearestPos, nearestPos, hulp]
    have hround : roundEven (x / ulp p y) ≤ roundEven (y / ulp p y) :=
      roundEven_mono (div_le_div_of_nonneg_right h (ulp_pos p y).le)
    exact mul_le_mul_of_nonneg_right (by exact_mod_cast hround) (ulp_pos p y).le

/-- The relative error is half a unit of the first place that is left out. -/
theorem abs_nearestPos_sub_le {x : ℚ} (hx : 0 < x) :
    |nearestPos p x - x| ≤ x / 2 ^ (p + 1) := by
  have hulp := ulp_pos p x
  have hround := abs_roundEven_sub_le (x / ulp p x)
  have heq : nearestPos p x - x = ((roundEven (x / ulp p x) : ℚ) - x / ulp p x) * ulp p x := by
    rw [nearestPos, sub_mul, div_mul_cancel₀ _ hulp.ne']
  have hsmall : ulp p x ≤ x / 2 ^ p := by
    rw [le_div_iff₀ (by positivity), mul_comm, ← le_div_iff₀ hulp]
    exact binade_le_div_ulp p hx
  rw [heq, abs_mul, abs_of_pos hulp]
  calc |(roundEven (x / ulp p x) : ℚ) - x / ulp p x| * ulp p x
      ≤ 1 / 2 * (x / 2 ^ p) := mul_le_mul hround hsmall hulp.le (by norm_num)
    _ = x / 2 ^ (p + 1) := by
        rw [pow_succ]
        field_simp

/-- Rounding is symmetric. -/
@[simp] theorem nearest_neg (x : ℚ) : nearest p (-x) = -nearest p x := by
  obtain hlt | rfl | hgt := lt_trichotomy x 0
  · rw [nearest, if_neg (by linarith), nearest, if_pos hlt, neg_neg]
  · have hzero : nearestPos p 0 = 0 := by
      rw [nearestPos, zero_div, ← Int.cast_zero, roundEven_intCast, Int.cast_zero, zero_mul]
    rw [neg_zero, nearest, if_neg (lt_irrefl _), hzero, neg_zero]
  · rw [nearest, if_pos (by linarith), nearest, if_neg (by linarith), neg_neg]

theorem nearest_of_nonneg {x : ℚ} (hx : 0 ≤ x) : nearest p x = nearestPos p x := by
  rw [nearest, if_neg hx.not_gt]

/-- Rounding keeps the sign. -/
theorem nearest_nonneg {x : ℚ} (hx : 0 ≤ x) : 0 ≤ nearest p x := by
  rw [nearest_of_nonneg p hx]
  exact nearestPos_nonneg p hx

theorem nearest_nonpos {x : ℚ} (hx : x ≤ 0) : nearest p x ≤ 0 := by
  have h := nearest_nonneg p (neg_nonneg.mpr hx)
  rw [nearest_neg] at h
  linarith

theorem nearest_mono_of_pos {x y : ℚ} (hx : 0 < x) (h : x ≤ y) : nearest p x ≤ nearest p y := by
  rw [nearest_of_nonneg p hx.le, nearest_of_nonneg p (hx.le.trans h)]
  exact nearestPos_mono p hx h

/-- **Rounding keeps the order.** -/
theorem nearest_mono {x y : ℚ} (h : x ≤ y) : nearest p x ≤ nearest p y := by
  obtain hx | hx := lt_or_ge 0 x
  · exact nearest_mono_of_pos p hx h
  · obtain hy | hy := lt_or_ge y 0
    · have hneg := nearest_mono_of_pos p (neg_pos.mpr hy) (neg_le_neg h)
      rw [nearest_neg, nearest_neg] at hneg
      exact neg_le_neg_iff.mp hneg
    · exact (nearest_nonpos p hx).trans (nearest_nonneg p hy)

/-- **The relative error of a rounding.** -/
theorem abs_nearest_sub_le (x : ℚ) : |nearest p x - x| ≤ |x| / 2 ^ (p + 1) := by
  obtain hlt | rfl | hgt := lt_trichotomy x 0
  · have h := abs_nearestPos_sub_le p (neg_pos.mpr hlt)
    have heq : -nearestPos p (-x) - x = -(nearestPos p (-x) - -x) := by ring
    rw [nearest, if_pos hlt, abs_of_neg hlt, heq, abs_neg]
    exact h
  · have hzero : nearest p 0 = 0 := le_antisymm (nearest_nonpos p le_rfl) (nearest_nonneg p le_rfl)
    rw [hzero, sub_zero, abs_zero, zero_div]
  · rw [nearest_of_nonneg p hgt.le, abs_of_pos hgt]
    exact abs_nearestPos_sub_le p hgt

theorem nearest_le_of_nonneg {x : ℚ} (hx : 0 ≤ x) : nearest p x ≤ x * (1 + 1 / 2 ^ (p + 1)) := by
  have h := (abs_le.mp (abs_nearest_sub_le p x)).2
  rw [abs_of_nonneg hx] at h
  rw [mul_add, mul_one, mul_one_div]
  linarith

theorem le_nearest_of_nonneg {x : ℚ} (hx : 0 ≤ x) : x * (1 - 1 / 2 ^ (p + 1)) ≤ nearest p x := by
  have h := (abs_le.mp (abs_nearest_sub_le p x)).1
  rw [abs_of_nonneg hx] at h
  rw [mul_sub, mul_one, mul_one_div]
  linarith

/-- A rounding from the number of distances that is nearest. -/
theorem nearest_eq_mul_ulp {x : ℚ} {n : ℤ} (hx : 0 < x) (h : |x / ulp p x - n| < 1 / 2) :
    nearest p x = n * ulp p x := by
  rw [nearest_of_nonneg p hx.le, nearestPos, roundEven_eq_of_abs_lt h]

/-- The distance in a binade that is known. -/
theorem ulp_eq {x : ℚ} {e : ℤ} (hlo : (2 : ℚ) ^ e ≤ x) (hhi : x < (2 : ℚ) ^ (e + 1)) :
    ulp p x = (2 : ℚ) ^ (e - (p : ℤ)) := by
  have hx : 0 < x := (zpow_pos two_pos e).trans_le hlo
  have hle : e ≤ Int.log 2 x :=
    (Int.zpow_le_iff_le_log Nat.one_lt_two hx).mp (by exact_mod_cast hlo)
  have hlt : Int.log 2 x < e + 1 :=
    (Int.lt_zpow_iff_log_lt Nat.one_lt_two hx).mp (by exact_mod_cast hhi)
  rw [ulp, show Int.log 2 x = e by omega]

/-- A natural number that fits the significand stays as it is. -/
theorem nearest_natCast {n : ℕ} (hn : n < 2 ^ (p + 1)) : nearest p n = n := by
  obtain rfl | hpos := Nat.eq_zero_or_pos n
  · exact le_antisymm (nearest_nonpos p Nat.cast_zero.le) (nearest_nonneg p Nat.cast_zero.ge)
  have hx : (0 : ℚ) < n := by exact_mod_cast hpos
  obtain ⟨j, hj⟩ : ∃ j : ℕ, Int.log 2 (n : ℚ) + j = p := by
    have hlt : (n : ℚ) < (2 : ℚ) ^ ((p : ℤ) + 1) := by exact_mod_cast hn
    have hlog : Int.log 2 (n : ℚ) < (p : ℤ) + 1 :=
      (Int.lt_zpow_iff_log_lt Nat.one_lt_two hx).mp (by exact_mod_cast hlt)
    exact ⟨((p : ℤ) - Int.log 2 (n : ℚ)).toNat, by omega⟩
  -- the distance is a power of two that divides one
  have hulp : ulp p n = ((2 : ℚ) ^ j)⁻¹ := by
    rw [ulp, ← hj, sub_add_cancel_left, zpow_neg, zpow_natCast]
  have hunits : (n : ℚ) / ulp p n = ((n * 2 ^ j : ℕ) : ℤ) := by
    rw [hulp, div_inv_eq_mul]
    push_cast
    rfl
  rw [nearest_eq_mul_ulp p hx (n := ((n * 2 ^ j : ℕ) : ℤ))
    (by rw [hunits, sub_self, abs_zero]; norm_num), ← hunits, div_mul_cancel₀ _ (ulp_pos p _).ne']

/-- **The integers of the format are their own roundings.** -/
theorem nearest_intCast {n : ℤ} (hn : |n| < 2 ^ (p + 1)) : nearest p n = n := by
  have hnat : n.natAbs < 2 ^ (p + 1) := by
    rw [← Int.natCast_natAbs] at hn
    exact_mod_cast hn
  obtain h | h := Int.natAbs_eq n
  · rw [h, Int.cast_natCast]
    exact nearest_natCast p hnat
  · rw [h, Int.cast_neg, Int.cast_natCast, nearest_neg, nearest_natCast p hnat]

/-- A number is not rounded past a whole number that fits the significand. -/
theorem le_nearest {x : ℚ} {n : ℤ} (hn : |n| < 2 ^ (p + 1)) (h : (n : ℚ) ≤ x) :
    (n : ℚ) ≤ nearest p x := by
  rw [← nearest_intCast p hn]
  exact nearest_mono p h

theorem nearest_le {x : ℚ} {n : ℤ} (hn : |n| < 2 ^ (p + 1)) (h : x ≤ n) :
    nearest p x ≤ n := by
  rw [← nearest_intCast p hn]
  exact nearest_mono p h

/-! ### Powers of two -/

/-- The distance scales with a power of two. -/
theorem ulp_mul_zpow {x : ℚ} (hx : 0 < x) (k : ℤ) : ulp p (x * 2 ^ k) = ulp p x * 2 ^ k := by
  have hpow : (0 : ℚ) < 2 ^ k := zpow_pos two_pos k
  have hlo : (2 : ℚ) ^ (Int.log 2 x + k) ≤ x * 2 ^ k := by
    rw [zpow_add₀ two_ne_zero]
    exact mul_le_mul_of_nonneg_right
      (by exact_mod_cast Int.zpow_log_le_self Nat.one_lt_two hx) hpow.le
  have hhi : x * 2 ^ k < (2 : ℚ) ^ (Int.log 2 x + k + 1) := by
    rw [add_right_comm, zpow_add₀ two_ne_zero]
    exact mul_lt_mul_of_pos_right
      (by exact_mod_cast Int.lt_zpow_succ_log_self Nat.one_lt_two x) hpow
  rw [ulp_eq p hlo hhi, ulp, ← zpow_add₀ two_ne_zero, add_sub_right_comm]

/-- **Scaling by a power of two is exact.** -/
theorem nearest_mul_zpow (x : ℚ) (k : ℤ) : nearest p (x * 2 ^ k) = nearest p x * 2 ^ k := by
  have hpow : (0 : ℚ) < 2 ^ k := zpow_pos two_pos k
  have hpos : ∀ y : ℚ, 0 < y → nearest p (y * 2 ^ k) = nearest p y * 2 ^ k := by
    intro y hy
    rw [nearest_of_nonneg p (mul_pos hy hpow).le, nearest_of_nonneg p hy.le, nearestPos, nearestPos,
      ulp_mul_zpow p hy, mul_div_mul_right _ _ hpow.ne', mul_assoc]
  obtain hlt | rfl | hgt := lt_trichotomy x 0
  · have hneg := hpos (-x) (neg_pos.mpr hlt)
    rwa [neg_mul, nearest_neg, nearest_neg, neg_mul, neg_inj] at hneg
  · have hzero : nearest p 0 = 0 := by
      rw [← Int.cast_zero, nearest_intCast p (by rw [abs_zero]; positivity)]
    rw [zero_mul, hzero, zero_mul]
  · exact hpos x hgt

/-! ### The product of two integers -/

/-- A product that fits the significand is exact. -/
theorem nearest_mul_of_abs_lt {m n : ℤ} (h : |m * n| < 2 ^ (p + 1)) :
    nearest p (nearest p m * n) = (m * n : ℤ) := by
  obtain rfl | hn := eq_or_ne n 0
  · rw [mul_zero] at h
    rw [mul_zero, Int.cast_zero, mul_zero, ← Int.cast_zero]
    exact nearest_intCast p h
  · have hm : |m| < 2 ^ (p + 1) := by
      refine lt_of_le_of_lt ?_ h
      rw [abs_mul]
      exact le_mul_of_one_le_right (abs_nonneg m) (Int.one_le_abs hn)
    rw [nearest_intCast p hm, ← Int.cast_mul, nearest_intCast p h]

/-- A product of integers that is too long for the format is not rounded to a short one. -/
theorem le_nearest_mul_of_pos {m n k : ℤ} (hn : 0 < n) (hk : |k| ≤ 2 ^ p) (h : k ≤ m * n) :
    (k : ℚ) ≤ nearest p (nearest p m * n) := by
  have hpow : (2 : ℤ) ^ p < 2 ^ (p + 1) := pow_lt_pow_right₀ one_lt_two p.lt_succ_self
  have hn1 : (1 : ℚ) ≤ n := by exact_mod_cast hn
  obtain hm | hm := lt_or_ge |m| (2 ^ (p + 1))
  · rw [nearest_intCast p hm]
    exact le_nearest p (hk.trans_lt hpow) (by exact_mod_cast h)
  · obtain hpos | hneg := le_abs'.mp hm |>.symm
    · have hlong : ((2 ^ p : ℤ) : ℚ) ≤ nearest p m :=
        le_nearest p (by rwa [abs_of_pos (by positivity)]) (by exact_mod_cast hpow.le.trans hpos)
      refine le_nearest p (hk.trans_lt hpow) ?_
      calc (k : ℚ) ≤ ((2 ^ p : ℤ) : ℚ) := by exact_mod_cast (le_abs_self k).trans hk
        _ ≤ nearest p m := hlong
        _ ≤ nearest p m * n :=
            le_mul_of_one_le_right (le_trans (by positivity) hlong) hn1
    · -- a long negative number times a positive one is below every short one
      have hle : m * n ≤ m := by nlinarith [pow_pos (two_pos : (0 : ℤ) < 2) (p + 1)]
      have hlow := (abs_le.mp hk).1
      omega

/-- A product is not rounded past a whole number below it that fits. -/
theorem le_nearest_mul {m n k : ℤ} (hk : |k| ≤ 2 ^ p) (h : k ≤ m * n) :
    (k : ℚ) ≤ nearest p (nearest p m * n) := by
  obtain hn | rfl | hn := lt_trichotomy n 0
  · have hneg := le_nearest_mul_of_pos p (m := -m) (neg_pos.mpr hn) hk (by rwa [neg_mul_neg])
    rwa [Int.cast_neg, nearest_neg, Int.cast_neg, neg_mul_neg] at hneg
  · rw [nearest_mul_of_abs_lt p (by rw [mul_zero, abs_zero]; positivity)]
    exact_mod_cast h
  · exact le_nearest_mul_of_pos p hn hk h

/-- Nor past one above it. -/
theorem nearest_mul_le {m n k : ℤ} (hk : |k| ≤ 2 ^ p) (h : m * n ≤ k) :
    nearest p (nearest p m * n) ≤ k := by
  have hneg := le_nearest_mul p (m := -m) (n := n) (k := -k) (by rwa [abs_neg])
    (by rw [neg_mul]; exact neg_le_neg h)
  rw [Int.cast_neg, Int.cast_neg, nearest_neg, neg_mul, nearest_neg] at hneg
  exact neg_le_neg_iff.mp hneg

/-! ### The conversion to a bounded integer -/

/-- A number without its fraction. -/
def truncate (x : ℚ) : ℤ := if x < 0 then ⌈x⌉ else ⌊x⌋

/-- Cutting the fraction off keeps the order. -/
theorem truncate_mono {x y : ℚ} (h : x ≤ y) : truncate x ≤ truncate y := by
  unfold truncate
  split_ifs with hx hy hy
  · exact Int.ceil_le_ceil h
  · exact (Int.ceil_le.mpr (by exact_mod_cast hx.le)).trans (Int.floor_nonneg.mpr (not_lt.mp hy))
  · exact absurd (h.trans_lt hy) hx
  · exact Int.floor_le_floor h

/-- A whole number has no fraction. -/
@[simp] theorem truncate_intCast (n : ℤ) : truncate (n : ℚ) = n := by
  unfold truncate
  split_ifs
  · exact Int.ceil_intCast n
  · exact Int.floor_intCast n

theorem le_truncate {x : ℚ} {n : ℤ} (h : (n : ℚ) ≤ x) : n ≤ truncate x := by
  rw [← truncate_intCast n]
  exact truncate_mono h

theorem truncate_le {x : ℚ} {n : ℤ} (h : x ≤ n) : truncate x ≤ n := by
  rw [← truncate_intCast n]
  exact truncate_mono h

/-- Below a positive integer the truncated number stays below it. -/
theorem truncate_lt_iff {x : ℚ} {n : ℤ} (hn : 0 < n) : truncate x < n ↔ x < n := by
  constructor
  · intro h
    exact lt_of_not_ge fun hle => h.not_ge (le_truncate hle)
  · intro h
    unfold truncate
    split_ifs with hx
    · exact (Int.ceil_le.mpr (by exact_mod_cast hx.le)).trans_lt hn
    · exact Int.floor_lt.mpr h

/-- Cutting the fraction off is symmetric. -/
theorem truncate_neg (x : ℚ) : truncate (-x) = -truncate x := by
  unfold truncate
  obtain hlt | rfl | hgt := lt_trichotomy x 0
  · rw [if_neg (by linarith), if_pos hlt, Int.floor_neg]
  · rw [neg_zero, if_neg (lt_irrefl _), Int.floor_zero, neg_zero]
  · rw [if_pos (by linarith), if_neg (by linarith), Int.ceil_neg]

/-- The conversion of a number to an integer between `lo` and `hi`. -/
def castInt (lo hi : ℤ) (x : ℚ) : Option ℤ :=
  if (lo : ℚ) - 1 < x ∧ x < hi + 1 then some (truncate x) else none

/-- **A conversion is defined** exactly if what is left without the fraction fits. -/
theorem castInt_eq_some_iff {lo hi : ℤ} {x : ℚ} {n : ℤ} :
    castInt lo hi x = some n ↔ (lo : ℚ) - 1 < x ∧ x < hi + 1 ∧ truncate x = n := by
  unfold castInt
  split_ifs with h
  · rw [Option.some.injEq]
    exact ⟨fun heq => ⟨h.1, h.2, heq⟩, fun hx => hx.2.2⟩
  · exact ⟨fun heq => (nomatch heq), fun hx => absurd ⟨hx.1, hx.2.1⟩ h⟩

/-! ### The double and the int of C -/

/-- A value of type `double`, in the range where the exponent has no bounds. -/
abbrev double (x : ℚ) : ℚ := nearest 52 x

theorem double_neg (x : ℚ) : double (-x) = -double x := nearest_neg 52 x

/-- Rounding to `double` keeps the order. -/
theorem double_mono {x y : ℚ} (h : x ≤ y) : double x ≤ double y := nearest_mono 52 h

theorem double_le_of_nonneg {x : ℚ} (hx : 0 ≤ x) : double x ≤ x * (1 + 1 / 2 ^ 53) :=
  nearest_le_of_nonneg 52 hx

theorem le_double_of_nonneg {x : ℚ} (hx : 0 ≤ x) : x * (1 - 1 / 2 ^ 53) ≤ double x :=
  le_nearest_of_nonneg 52 hx

/-- Whole numbers below `2 ^ 53` are exact. -/
theorem double_intCast {n : ℤ} (hn : |n| < 9007199254740992) : double n = n :=
  nearest_intCast 52 (lt_of_lt_of_le hn (by norm_num))

/-- Nothing is rounded past such a number from above. -/
theorem le_double {x : ℚ} {n : ℤ} (hn : |n| < 9007199254740992) (h : (n : ℚ) ≤ x) :
    (n : ℚ) ≤ double x :=
  le_nearest 52 (lt_of_lt_of_le hn (by norm_num)) h

/-- Nor from below. -/
theorem double_le {x : ℚ} {n : ℤ} (hn : |n| < 9007199254740992) (h : x ≤ n) : double x ≤ n :=
  nearest_le 52 (lt_of_lt_of_le hn (by norm_num)) h

/-- A value of type `float`, in the same sense. -/
abbrev single (x : ℚ) : ℚ := nearest 23 x

theorem single_neg (x : ℚ) : single (-x) = -single x := nearest_neg 23 x

/-- Rounding to `float` keeps the order. -/
theorem single_mono {x y : ℚ} (h : x ≤ y) : single x ≤ single y := nearest_mono 23 h

/-- A factor that is a power of two commutes with rounding. -/
theorem single_mul_zpow (x : ℚ) (k : ℤ) : single (x * 2 ^ k) = single x * 2 ^ k :=
  nearest_mul_zpow 23 x k

/-- Whole numbers below `2 ^ 24` are exact. -/
theorem single_intCast {n : ℤ} (hn : |n| < 16777216) : single n = n :=
  nearest_intCast 23 (lt_of_lt_of_le hn (by norm_num))

/-- Nothing is rounded past such a number from above. -/
theorem le_single {x : ℚ} {n : ℤ} (hn : |n| < 16777216) (h : (n : ℚ) ≤ x) :
    (n : ℚ) ≤ single x :=
  le_nearest 23 (lt_of_lt_of_le hn (by norm_num)) h

/-- Nor from below. -/
theorem single_le {x : ℚ} {n : ℤ} (hn : |n| < 16777216) (h : x ≤ n) : single x ≤ n :=
  nearest_le 23 (lt_of_lt_of_le hn (by norm_num)) h

theorem single_le_of_nonneg {x : ℚ} (hx : 0 ≤ x) : single x ≤ x * (1 + 1 / 2 ^ 24) :=
  nearest_le_of_nonneg 23 hx

/-- The conversion of a `double` to a 32-bit `int`, undefined where the value does not fit. -/
def toInt (x : ℚ) : Option ℤ := castInt (-2147483648) 2147483647 x

/-- **A conversion to `int`**, as the bounds are. -/
theorem toInt_eq_some_iff {x : ℚ} {n : ℤ} :
    toInt x = some n ↔ -2147483649 < x ∧ x < 2147483648 ∧ truncate x = n := by
  rw [toInt, castInt_eq_some_iff]
  norm_num

theorem toInt_isSome_iff {x : ℚ} : (toInt x).isSome ↔ -2147483649 < x ∧ x < 2147483648 := by
  rw [Option.isSome_iff_exists]
  constructor
  · rintro ⟨n, hn⟩
    have h := toInt_eq_some_iff.mp hn
    exact ⟨h.1, h.2.1⟩
  · intro h
    exact ⟨truncate x, toInt_eq_some_iff.mpr ⟨h.1, h.2, rfl⟩⟩

end Rounding
