import Mathlib.Data.Nat.Digits.Defs
import Mathlib.Data.List.Lex
import Mathlib.Data.Char
import Mathlib.Order.Basic

/-!
# Decimal numerals of a fixed width

`decimal w n` is the numeral of `n` with zeros in front of it up to the width `w`, as dates
and times are written in file names.

* `decimal_injective` — a numeral determines its number, whatever the width.
* `digits_lt_iff` — of two numerals of one length the lexicographically smaller one is the
  one of the smaller number.
-/

namespace Decimal

/-- The numeral of `n`, with zeros in front of it up to the width `w`. -/
def decimal (w n : ℕ) : List Char :=
  List.replicate (w - (Nat.toDigits 10 n).length) '0' ++ Nat.toDigits 10 n

/-- Nothing but decimal digits. -/
def Digits (cs : List Char) : Prop := ∀ c ∈ cs, c.isDigit = true

/-- The number of a numeral. -/
def value (cs : List Char) : ℕ := Nat.ofDigitChars 10 cs 0

/-- **Reading gives back** the number that was written. -/
@[simp] theorem value_decimal (w n : ℕ) : value (decimal w n) = n := by
  rw [value, decimal, Nat.ofDigitChars_append, Nat.ofDigitChars_replicate_zero, Nat.mul_zero]
  exact Nat.ofDigitChars_ten_toDigits

/-- Two numbers are not written alike. -/
theorem decimal_injective (w : ℕ) : Function.Injective (decimal w) := fun m n h => by
  simpa using congrArg value h

theorem decimal_inj {w m n : ℕ} : decimal w m = decimal w n ↔ m = n :=
  (decimal_injective w).eq_iff

/-- A numeral has only digits. -/
theorem digits_decimal (w n : ℕ) : Digits (decimal w n) := by
  intro c hc
  rcases List.mem_append.mp hc with hc | hc
  · rw [List.eq_of_mem_replicate hc]
    rfl
  · exact Nat.isDigit_of_mem_toDigits (by decide) (by decide) hc

/-- A number that fits the width is written in exactly that width. -/
theorem length_decimal {w n : ℕ} (hw : 0 < w) (h : n < 10 ^ w) : (decimal w n).length = w := by
  have hle := (Nat.length_toDigits_le_iff (b := 10) (by decide) hw).mpr h
  rw [decimal, List.length_append, List.length_replicate]
  omega

/-! ### Values of digit strings -/

/-- The first digit counts by its place. -/
theorem value_cons (c : Char) (cs : List Char) :
    value (c :: cs) = 10 ^ cs.length * (c.toNat - '0'.toNat) + value cs := by
  rw [value, Nat.ofDigitChars_cons, Nat.ofDigitChars_eq_ofDigitChars_zero, Nat.mul_zero,
    Nat.zero_add]
  rfl

/-- The first numeral counts by the length of the second. -/
theorem value_append (cs ds : List Char) :
    value (cs ++ ds) = 10 ^ ds.length * value cs + value ds := by
  rw [value, Nat.ofDigitChars_append, Nat.ofDigitChars_eq_ofDigitChars_zero]
  rfl

/-- The digits of a numeral are between zero and nine. -/
theorem digit_bounds {c : Char} (h : c.isDigit = true) : 48 ≤ c.toNat ∧ c.toNat ≤ 57 := by
  rw [Char.isDigit, Bool.and_eq_true, decide_eq_true_eq, decide_eq_true_eq] at h
  exact ⟨h.1, h.2⟩

theorem Digits.tail {c : Char} {cs : List Char} (h : Digits (c :: cs)) : Digits cs :=
  fun d hd => h d (List.mem_cons_of_mem c hd)

/-- The first character is a digit. -/
theorem Digits.head {c : Char} {cs : List Char} (h : Digits (c :: cs)) :
    48 ≤ c.toNat ∧ c.toNat ≤ 57 := digit_bounds (h c List.mem_cons_self)

/-- Digits after digits are digits. -/
theorem Digits.append {cs ds : List Char} (h : Digits cs) (h' : Digits ds) : Digits (cs ++ ds) :=
  fun c hc => (List.mem_append.mp hc).elim (h c) (h' c)

/-- A numeral of `w` digits is less than `10 ^ w`. -/
theorem value_lt {cs : List Char} (h : Digits cs) : value cs < 10 ^ cs.length := by
  induction cs with
  | nil => decide
  | cons c cs ih =>
    have hc := h.head
    have hcs := ih h.tail
    have hle : 10 ^ cs.length * (c.toNat - 48) ≤ 10 ^ cs.length * 9 :=
      Nat.mul_le_mul_left _ (by omega)
    rw [value_cons, List.length_cons, pow_succ, show '0'.toNat = 48 from rfl]
    omega

/-- **Numerals of one length compare as their numbers do.** -/
theorem digits_lt_iff {cs ds : List Char} (hc : Digits cs) (hd : Digits ds)
    (hlen : cs.length = ds.length) : cs < ds ↔ value cs < value ds := by
  induction cs generalizing ds with
  | nil =>
    obtain rfl := List.length_eq_zero_iff.mp hlen.symm
    exact iff_of_false (lt_irrefl _) (lt_irrefl _)
  | cons c cs ih =>
    cases ds with
    | nil => cases hlen
    | cons d ds =>
      have hlen' : cs.length = ds.length := Nat.succ.inj hlen
      have hcs := value_lt hc.tail
      have hds := value_lt hd.tail
      have hc' := hc.head
      have hd' := hd.head
      rw [List.cons_lt_cons_iff, ih hc.tail hd.tail hlen', value_cons, value_cons, hlen',
        show '0'.toNat = 48 from rfl]
      rw [hlen'] at hcs
      constructor
      · rintro (hlt | ⟨rfl, hlt⟩)
        · -- the first digit decides
          have hnat : c.toNat < d.toNat := hlt
          have hstep : 10 ^ ds.length * (c.toNat - 48) + 10 ^ ds.length ≤
              10 ^ ds.length * (d.toNat - 48) := by
            rw [← Nat.mul_succ]
            exact Nat.mul_le_mul_left _ (by omega)
          omega
        · omega
      · intro hlt
        rcases lt_trichotomy c.toNat d.toNat with hnat | hnat | hnat
        · exact .inl hnat
        · obtain rfl : c = d := Char.toNat_inj.mp hnat
          exact .inr ⟨rfl, by omega⟩
        · have hstep : 10 ^ ds.length * (d.toNat - 48) + 10 ^ ds.length ≤
              10 ^ ds.length * (c.toNat - 48) := by
            rw [← Nat.mul_succ]
            exact Nat.mul_le_mul_left _ (by omega)
          omega

end Decimal
