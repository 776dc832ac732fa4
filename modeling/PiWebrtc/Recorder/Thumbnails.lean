import PiWebrtc.Lib.Base64
import Mathlib.Algebra.Order.Ring.Int
import Mathlib.Algebra.Order.Ring.Nat

namespace PiWebrtc.Recorder

open Base64

/-!
# Thumbnails as text

`ToBase64` shifts every byte into one accumulator of 32 bits and never masks it, so that it
holds the last four bytes, as a negative number half of the time.  Only the bits that no digit
was made of yet are needed, and these are the lowest ones, fewer than six after every byte.
-/

/-- `base64_chars`. -/
def base64Chars : List Char :=
  "ABCDEFGHIJKLMNOPQRSTUVWXYZabcdefghijklmnopqrstuvwxyz0123456789+/".toList

theorem length_base64Chars : base64Chars.length = 64 := by decide

theorem toNat_and_lt (x : BitVec 32) : (x &&& 0x3F#32).toNat < base64Chars.length := by
  rw [length_base64Chars, BitVec.toNat_and]
  exact Nat.lt_succ_of_le Nat.and_le_right

/-- `base64_chars[x & 0x3F]`. -/
def base64Char (x : BitVec 32) : Char := base64Chars.get ⟨(x &&& 0x3F#32).toNat, toNat_and_lt x⟩

/-- The variables of `ToBase64`. -/
structure Base64Loop where
  val : BitVec 32 := 0
  valb : ℤ := -6
  out : List Char := []

/-- The loop of one byte: the digits that are complete.  The shift is that of a signed number. -/
def pushDigits (s : Base64Loop) : Base64Loop :=
  if 0 ≤ s.valb then
    pushDigits { s with
      out := s.out ++ [base64Char (s.val.sshiftRight s.valb.toNat)]
      valb := s.valb - 6 }
  else s
termination_by (s.valb + 6).toNat

/-- One step of the loop over the bytes. -/
def pushByte (s : Base64Loop) (c : UInt8) : Base64Loop :=
  pushDigits { s with val := (s.val <<< 8) + c.toBitVec.zeroExtend 32, valb := s.valb + 8 }

/-- The last loop: padding up to a multiple of four. -/
def pushPadding (out : List Char) : List Char :=
  if out.length % 4 ≠ 0 then pushPadding (out ++ ['=']) else out
termination_by (4 - out.length % 4) % 4
decreasing_by
  rw [List.length_append, List.length_singleton]
  omega

/-- What follows the loop over the bytes. -/
def finish (s : Base64Loop) : List Char :=
  pushPadding (if -6 < s.valb then
    s.out ++ [base64Char ((s.val <<< 8).sshiftRight (s.valb + 8).toNat)] else s.out)

/-- `ToBase64`. -/
def toBase64 (binaryFile : List UInt8) : List Char := finish (binaryFile.foldl pushByte {})

/-! ### The accumulator -/

theorem toNat_shift_add (val : BitVec 32) (c : UInt8) :
    ((val <<< 8) + c.toBitVec.zeroExtend 32).toNat = val.toNat * 256 % 4294967296 + c.toNat := by
  have hbyte : c.toNat < 256 := c.toNat_lt
  have hval : val.toNat < 4294967296 := val.isLt
  have hext : (c.toBitVec.zeroExtend 32).toNat = c.toNat := by
    rw [BitVec.zeroExtend, BitVec.toNat_setWidth]
    exact Nat.mod_eq_of_lt (Nat.lt_trans hbyte (by decide))
  rw [BitVec.toNat_add, BitVec.toNat_shiftLeft, hext, Nat.shiftLeft_eq]
  omega

/-- The sign does not reach the lowest six bits. -/
theorem sshiftRight_and (val : BitVec 32) {n : ℕ} (hn : n ≤ 26) :
    val.sshiftRight n &&& 0x3F#32 = val >>> n &&& 0x3F#32 := by
  ext i hi
  rw [← BitVec.getLsbD_eq_getElem, ← BitVec.getLsbD_eq_getElem, BitVec.getLsbD_and,
    BitVec.getLsbD_and, BitVec.getLsbD_sshiftRight, BitVec.getLsbD_ushiftRight]
  by_cases hlow : i < 6
  · rw [if_pos (by omega), decide_eq_false (Nat.not_le_of_lt hi), Bool.not_false, Bool.true_and]
  · have hpow : 2 ^ 6 ≤ 2 ^ i := Nat.pow_le_pow_right (by decide) (Nat.le_of_not_lt hlow)
    have hmask : (0x3F#32).getLsbD i = false :=
      Nat.testBit_lt_two_pow (Nat.lt_of_lt_of_le (by decide) hpow)
    rw [hmask, Bool.and_false, Bool.and_false]

theorem base64Chars_get (d : Fin base64Chars.length) : base64Chars.get d = digit d := by
  revert d
  decide

/-- A digit is made of six bits of the accumulator, whatever the sign is. -/
theorem base64Char_sshiftRight (val : BitVec 32) {n : ℕ} (hn : n ≤ 26) :
    base64Char (val.sshiftRight n) = digit (val.toNat / 2 ^ n % 64) := by
  rw [base64Char, base64Chars_get]
  dsimp only
  rw [sshiftRight_and val hn, BitVec.toNat_and, BitVec.toNat_ushiftRight, Nat.shiftRight_eq_div_pow]
  exact congrArg digit (Nat.and_two_pow_sub_one_eq_mod _ 6)

/-! ### The bytes -/

theorem pushDigits_of_neg {s : Base64Loop} (h : s.valb < 0) : pushDigits s = s := by
  rw [pushDigits, if_neg (Int.not_le.mpr h)]

theorem pushDigits_of_nonneg {s : Base64Loop} {n : ℕ} (h : s.valb = n) (hn : n ≤ 26) :
    pushDigits s = pushDigits { s with
      out := s.out ++ [digit (s.val.toNat / 2 ^ n % 64)]
      valb := n - 6 } := by
  rw [pushDigits, if_pos (by omega), h, Int.toNat_natCast, base64Char_sshiftRight s.val hn]

/-- A last digit. -/
theorem pushDigits_of_lt {s : Base64Loop} {n : ℕ} (h : s.valb = n) (hn : n < 6) :
    pushDigits s = { s with
      out := s.out ++ [digit (s.val.toNat / 2 ^ n % 64)]
      valb := n - 6 } := by
  rw [pushDigits_of_nonneg h (by omega)]
  refine pushDigits_of_neg ?_
  show (n : ℤ) - 6 < 0
  omega

/-- The first of three bytes gives a digit and leaves two bits. -/
theorem pushByte_first {s : Base64Loop} {c : UInt8} (hs : s.valb = -6) :
    (pushByte s c).valb = -4 ∧ (pushByte s c).val.toNat % 4 = c.toNat % 4 ∧
      (pushByte s c).out = s.out ++ [digit (c.toNat / 4)] := by
  have hbyte : c.toNat < 256 := c.toNat_lt
  rw [pushByte, hs, pushDigits_of_lt (n := 2) rfl (by decide)]
  dsimp only
  rw [toNat_shift_add]
  refine ⟨rfl, by omega, ?_⟩
  congr 3
  omega

/-- The second one completes these two bits, and leaves four. -/
theorem pushByte_second {s : Base64Loop} {c : UInt8} (hs : s.valb = -4) :
    (pushByte s c).valb = -2 ∧ (pushByte s c).val.toNat % 16 = c.toNat % 16 ∧
      (pushByte s c).out = s.out ++ [digit (s.val.toNat % 4 * 16 + c.toNat / 16)] := by
  have hbyte : c.toNat < 256 := c.toNat_lt
  rw [pushByte, hs, pushDigits_of_lt (n := 4) rfl (by decide)]
  dsimp only
  rw [toNat_shift_add]
  refine ⟨rfl, by omega, ?_⟩
  congr 3
  omega

/-- The third one completes these four bits and gives a digit of its own. -/
theorem pushByte_third {s : Base64Loop} {c : UInt8} (hs : s.valb = -2) :
    (pushByte s c).valb = -6 ∧ (pushByte s c).out =
      s.out ++ [digit (s.val.toNat % 16 * 4 + c.toNat / 64), digit (c.toNat % 64)] := by
  have hbyte : c.toNat < 256 := c.toNat_lt
  rw [pushByte, hs, pushDigits_of_nonneg (n := 6) rfl (by decide),
    pushDigits_of_lt (n := 0) rfl (by decide)]
  dsimp only
  rw [toNat_shift_add, List.append_assoc]
  refine ⟨rfl, ?_⟩
  rw [List.singleton_append]
  congr 4 <;> omega

/-! ### The end of the text -/

theorem pushPadding_of_whole {out : List Char} (h : out.length % 4 = 0) :
    pushPadding out = out := by
  rw [pushPadding, if_neg (not_not_intro h)]

theorem pushPadding_of_rest {out : List Char} (h : out.length % 4 ≠ 0) :
    pushPadding out = pushPadding (out ++ ['=']) := by
  rw [pushPadding, if_pos h]

/-- With two bits left there is one more digit and twice the padding. -/
theorem finish_two {s : Base64Loop} (hs : s.valb = -4) (hlen : s.out.length % 4 = 1) :
    finish s = s.out ++ [digit (s.val.toNat % 4 * 16), '=', '='] := by
  have hdigit : digit ((s.val <<< 8).toNat / 2 ^ 4 % 64) = digit (s.val.toNat % 4 * 16) := by
    rw [BitVec.toNat_shiftLeft, Nat.shiftLeft_eq]
    congr 1
    omega
  have hshift : ((-4 : ℤ) + 8).toNat = 4 := rfl
  rw [finish, hs, if_pos (by decide), hshift, base64Char_sshiftRight _ (by decide), hdigit,
    pushPadding_of_rest (by simp; omega), pushPadding_of_rest (by simp; omega),
    pushPadding_of_whole (by simp; omega), List.append_assoc, List.append_assoc]
  rfl

/-- With four bits left there is one more digit and the padding once. -/
theorem finish_four {s : Base64Loop} (hs : s.valb = -2) (hlen : s.out.length % 4 = 2) :
    finish s = s.out ++ [digit (s.val.toNat % 16 * 4), '='] := by
  have hdigit : digit ((s.val <<< 8).toNat / 2 ^ 6 % 64) = digit (s.val.toNat % 16 * 4) := by
    rw [BitVec.toNat_shiftLeft, Nat.shiftLeft_eq]
    congr 1
    omega
  have hshift : ((-2 : ℤ) + 8).toNat = 6 := rfl
  rw [finish, hs, if_pos (by decide), hshift, base64Char_sshiftRight _ (by decide), hdigit,
    pushPadding_of_rest (by simp; omega), pushPadding_of_whole (by simp; omega),
    List.append_assoc]
  rfl

/-- Between two groups of three bytes the rest is encoded by itself, whatever the accumulator
    holds. -/
theorem finish_foldl_pushByte (binaryFile : List UInt8) {s : Base64Loop} (hs : s.valb = -6)
    (hlen : s.out.length % 4 = 0) :
    finish (binaryFile.foldl pushByte s) = s.out ++ encode binaryFile := by
  induction binaryFile using encode.induct generalizing s with
  | case1 =>
    rw [encode, List.append_nil, List.foldl_nil, finish, if_neg (by rw [hs]; decide)]
    exact pushPadding_of_whole hlen
  | case2 a =>
    obtain ⟨hvalb, hval, hout⟩ := pushByte_first (c := a) hs
    rw [List.foldl_cons, List.foldl_nil, finish_two hvalb (by rw [hout]; simp; omega), hout, hval,
      List.append_assoc, encode]
    rfl
  | case3 a b =>
    obtain ⟨hvalb, hval, hout⟩ := pushByte_first (c := a) hs
    obtain ⟨hvalb', hval', hout'⟩ := pushByte_second (c := b) hvalb
    rw [List.foldl_cons, List.foldl_cons, List.foldl_nil,
      finish_four hvalb' (by rw [hout', hout]; simp; omega), hout', hout, hval', hval,
      List.append_assoc, List.append_assoc, encode]
    rfl
  | case4 a b c rest ih =>
    obtain ⟨hvalb, hval, hout⟩ := pushByte_first (c := a) hs
    obtain ⟨hvalb', hval', hout'⟩ := pushByte_second (c := b) hvalb
    obtain ⟨hvalb'', hout''⟩ := pushByte_third (c := c) hvalb'
    rw [List.foldl_cons, List.foldl_cons, List.foldl_cons,
      ih hvalb'' (by rw [hout'', hout', hout]; simp; omega), hout'', hout', hout, hval', hval,
      List.append_assoc, List.append_assoc, List.append_assoc, encode]
    rfl

/-- **Thumbnails.** Byte strings of any length are encoded as they should be. -/
theorem toBase64_eq_encode (binaryFile : List UInt8) : toBase64 binaryFile = encode binaryFile :=
  finish_foldl_pushByte binaryFile rfl rfl

end PiWebrtc.Recorder
