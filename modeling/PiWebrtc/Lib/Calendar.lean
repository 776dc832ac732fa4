import PiWebrtc.Lib.Decimal

/-!
# Calendar dates

Dates of the Gregorian calendar, the day before a date, and the numeral `YYYYMMDD` of a date.

* `Date.number_le_previous` — the day before a date is the latest of the earlier ones.
* `Date.numeral_lt_iff` — the numerals of dates are ordered as the dates are.
-/

namespace Calendar

open Decimal

/-- A year, a month and a day of the month; `Real` says that the calendar has it. -/
structure Date where
  year : ℕ
  month : ℕ
  day : ℕ
  deriving DecidableEq, Repr

/-- The rule of the Gregorian calendar. -/
def isLeapYear (year : ℕ) : Bool := year % 4 = 0 ∧ (year % 100 ≠ 0 ∨ year % 400 = 0)

/-- The length of a month. -/
def daysInMonth (year month : ℕ) : ℕ :=
  if month = 2 then if isLeapYear year then 29 else 28
  else if month = 4 ∨ month = 6 ∨ month = 9 ∨ month = 11 then 30
  else 31

/-- A month has 28 days at least and 31 at most. -/
theorem daysInMonth_bounds (year month : ℕ) :
    28 ≤ daysInMonth year month ∧ daysInMonth year month ≤ 31 := by
  unfold daysInMonth
  split_ifs <;> omega

namespace Date

/-- A date of the calendar, in a year of at most four digits. -/
structure Real (d : Date) : Prop where
  year_pos : 1 ≤ d.year
  year_le : d.year ≤ 9999
  month_pos : 1 ≤ d.month
  month_le : d.month ≤ 12
  day_pos : 1 ≤ d.day
  day_le : d.day ≤ daysInMonth d.year d.month

/-- The day before. -/
def previous (d : Date) : Date :=
  if 1 < d.day then { d with day := d.day - 1 }
  else if 1 < d.month then ⟨d.year, d.month - 1, daysInMonth d.year (d.month - 1)⟩
  else ⟨d.year - 1, 12, 31⟩

/-- The number whose digits are those of the date. -/
def number (d : Date) : ℕ := d.year * 10000 + d.month * 100 + d.day

section Order

variable {d e : Date}

theorem Real.day_le_31 (h : d.Real) : d.day ≤ 31 :=
  h.day_le.trans (daysInMonth_bounds d.year d.month).2

/-- **Different dates have different numbers.** -/
theorem number_inj (hd : d.Real) (he : e.Real) (h : d.number = e.number) : d = e := by
  have hd' := hd.day_le_31
  have he' := he.day_le_31
  obtain ⟨-, -, hm, hm', hp, -⟩ := hd
  obtain ⟨-, -, hn, hn', hq, -⟩ := he
  cases d
  cases e
  simp only [number] at *
  rw [Date.mk.injEq]
  omega

/-- The month of the day before is a month. -/
theorem previous_month (hd : d.Real) : 1 ≤ d.previous.month ∧ d.previous.month ≤ 12 := by
  have := hd.month_le
  have := hd.month_pos
  unfold previous
  split_ifs <;> dsimp only <;> omega

theorem previous_day (hd : d.Real) : d.previous.day ≤ 31 := by
  have := hd.day_le_31
  have := (daysInMonth_bounds d.year (d.month - 1)).2
  unfold previous
  split_ifs <;> dsimp only <;> omega

/-- What is no earlier than a date has a year. -/
theorem year_pos_of_number_le (he : e.Real) (hm : d.month ≤ 12) (hday : d.day ≤ 31)
    (h : e.number ≤ d.number) : 1 ≤ d.year := by
  have := he.year_pos
  unfold number at h
  omega

/-- The day before is a date, but for the first day of the first year. -/
theorem real_previous (hd : d.Real) (hy : 1 ≤ d.previous.year) : d.previous.Real := by
  obtain ⟨hy1, hy2, hm1, hm2, hd1, hd2⟩ := hd
  unfold previous at hy ⊢
  split_ifs at hy ⊢
  · exact ⟨hy1, hy2, hm1, hm2, by dsimp only; omega, by dsimp only; omega⟩
  · refine ⟨hy1, hy2, by dsimp only; omega, by dsimp only; omega, ?_, le_rfl⟩
    exact le_trans (by decide) (daysInMonth_bounds _ _).1
  · exact ⟨hy, by dsimp only at hy ⊢; omega, by dsimp only; omega, le_rfl, by dsimp only; omega,
      by simp [daysInMonth]⟩

/-- The day before has a smaller number. -/
theorem number_previous_lt (hd : d.Real) : d.previous.number < d.number := by
  have := (daysInMonth_bounds d.year (d.month - 1)).2
  obtain ⟨hy1, hy2, hm1, hm2, hd1, hd2⟩ := hd
  unfold previous number
  split_ifs <;> dsimp only <;> omega

/-- **The day before a date is the latest of the earlier ones.** -/
theorem number_le_previous (hd : d.Real) (he : e.Real) :
    e.number ≤ d.previous.number ↔ e.number < d.number := by
  refine ⟨fun h => h.trans_lt (number_previous_lt hd), fun h => ?_⟩
  have h31 := he.day_le_31
  obtain ⟨hy1, hy2, hm1, hm2, hd1, hd2⟩ := hd
  obtain ⟨he1, he2, hn1, hn2, hf1, hf2⟩ := he
  unfold number at h ⊢
  unfold previous
  split_ifs with hday hmonth <;> dsimp only
  · omega
  · -- the first of a month: an earlier date is in an earlier month, or in an earlier year
    by_cases hsame : e.year = d.year ∧ e.month = d.month - 1
    · rw [← hsame.1, ← hsame.2]
      omega
    · have := (daysInMonth_bounds d.year (d.month - 1)).1
      omega
  · omega

end Order

/-! ### Numerals -/

/-- `YYYYMMDD`. -/
def numeral (d : Date) : List Char := decimal 4 d.year ++ decimal 2 d.month ++ decimal 2 d.day

/-- The numeral of a date has only digits. -/
theorem digits_numeral (d : Date) : Digits d.numeral :=
  ((digits_decimal 4 d.year).append (digits_decimal 2 d.month)).append (digits_decimal 2 d.day)

section Numeral

variable {d e : Date}

theorem Real.length_year (h : d.Real) : (decimal 4 d.year).length = 4 :=
  length_decimal (by decide) (h.year_le.trans_lt (by decide))

theorem length_month (h : d.month ≤ 12) : (decimal 2 d.month).length = 2 :=
  length_decimal (by decide) (h.trans_lt (by decide))

theorem length_day (h : d.day ≤ 31) : (decimal 2 d.day).length = 2 :=
  length_decimal (by decide) (h.trans_lt (by decide))

/-- It has eight of them. -/
theorem Real.length_numeral (h : d.Real) : d.numeral.length = 8 := by
  rw [numeral, List.length_append, List.length_append, h.length_year, length_month h.month_le,
    length_day h.day_le_31]

/-- **It reads as the number** of the date. -/
theorem Real.value_numeral (h : d.Real) : value d.numeral = d.number := by
  rw [numeral, value_append, value_append, value_decimal, value_decimal, value_decimal,
    length_month h.month_le, length_day h.day_le_31, number]
  omega

/-- **Numerals are ordered as the dates are.** -/
theorem numeral_lt_iff (hd : d.Real) (he : e.Real) :
    d.numeral < e.numeral ↔ d.number < e.number := by
  have hlen : d.numeral.length = e.numeral.length := by
    rw [hd.length_numeral, he.length_numeral]
  rw [digits_lt_iff d.digits_numeral e.digits_numeral hlen, hd.value_numeral, he.value_numeral]

end Numeral

end Date

end Calendar
