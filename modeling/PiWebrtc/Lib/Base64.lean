import Mathlib.Tactic.Common

/-!
# Base64

Three bytes are four digits of six bits each.  One or two bytes that are left over are filled
up with zero bits to whole digits, and the digits with padding to four characters.
-/

namespace Base64

/-- The character of a digit: capital letters, small letters, decimal digits, plus and slash. -/
def digit (d : ℕ) : Char :=
  if d < 26 then .ofNat ('A'.toNat + d)
  else if d < 52 then .ofNat ('a'.toNat + (d - 26))
  else if d < 62 then .ofNat ('0'.toNat + (d - 52))
  else if d = 62 then '+'
  else '/'

/-- The encoding of a byte string, with padding. -/
def encode : List UInt8 → List Char
  | [] => []
  | [a] => [digit (a.toNat / 4), digit (a.toNat % 4 * 16), '=', '=']
  | [a, b] =>
    [digit (a.toNat / 4), digit (a.toNat % 4 * 16 + b.toNat / 16), digit (b.toNat % 16 * 4), '=']
  | a :: b :: c :: rest =>
    digit (a.toNat / 4) :: digit (a.toNat % 4 * 16 + b.toNat / 16) ::
      digit (b.toNat % 16 * 4 + c.toNat / 64) :: digit (c.toNat % 64) :: encode rest

end Base64
