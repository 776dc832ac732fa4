import Mathlib.Data.Nat.Digits.Defs
import Mathlib.Data.List.Basic
import Mathlib.Tactic.Common

/-!
# Text streams

An output stream of bytes that keeps the format of the next insertion: base, case and fill
character stay as they were set, the width is used up by every insertion.

* `text_insert` — without a width the characters are appended as they are.
* `text_insertNat_pair` — a number in a field of two digits.
-/

/-- What was written to a stream, and the format of what comes next. -/
structure TextStream where
  text : List UInt8 := []
  base : ℕ := 10
  uppercase : Bool := false
  fill : UInt8 := ' '.toUInt8
  width : ℕ := 0

namespace TextStream

variable (s : TextStream)

/-! ### Manipulators -/

def setFill (c : UInt8) : TextStream := { s with fill := c }

def setBase (b : ℕ) : TextStream := { s with base := b }

def setUppercase : TextStream := { s with uppercase := true }

def setWidth (n : ℕ) : TextStream := { s with width := n }

/-! ### Insertions -/

/-- Insertion of characters, behind fill characters up to the width. -/
def insert (cs : List UInt8) : TextStream :=
  { s with text := s.text ++ (List.replicate (s.width - cs.length) s.fill ++ cs), width := 0 }

/-- A digit as the stream writes it. -/
def digit (d : Char) : UInt8 := (if s.uppercase then d.toUpper else d).toUInt8

/-- Insertion of a number. -/
def insertNat (n : ℕ) : TextStream := s.insert ((Nat.toDigits s.base n).map s.digit)

variable {s}

theorem text_insert {cs : List UInt8} (hwidth : s.width = 0) :
    (s.insert cs).text = s.text ++ cs := by
  rw [insert, hwidth, Nat.zero_sub, List.replicate_zero, List.nil_append]

/-- **Two digits.** In a field of width two that is filled with zeros, a number below the square
    of the base is written as its two digits. -/
theorem text_insertNat_pair {n : ℕ} (hbase : 1 < s.base) (hn : n < s.base * s.base)
    (hfill : s.fill = s.digit '0') (hwidth : s.width = 2) :
    (s.insertNat n).text =
      s.text ++ [s.digit (n / s.base).digitChar, s.digit (n % s.base).digitChar] := by
  rw [insertNat, insert, hfill, hwidth]
  dsimp only
  by_cases hsmall : n < s.base
  · rw [Nat.toDigits_of_lt_base hsmall, Nat.div_eq_of_lt hsmall, Nat.mod_eq_of_lt hsmall]
    rfl
  · have hdiv : n / s.base < s.base := Nat.div_lt_of_lt_mul hn
    rw [Nat.toDigits_of_base_le hbase (Nat.le_of_not_lt hsmall), Nat.toDigits_of_lt_base hdiv]
    rfl

end TextStream
