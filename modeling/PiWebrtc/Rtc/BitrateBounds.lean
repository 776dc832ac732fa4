import PiWebrtc.Lib.Rounding
import Mathlib.Data.List.ReduceOption
import Mathlib.Algebra.Order.Ring.Int

namespace PiWebrtc.Rtc

open Rounding

/-!
# The bitrate bounds between the command line and the peer connection

`Parser` fills in the bounds that are not set, pulls them into range, and
`Conductor::ApplyBitrateSettings` hands the ones above zero to `SetBitrate` in bits per second.
The defaults are made from the frame size in `double`: their products round, and a value outside
the range of `int` has no conversion. The factor 1000 is a product of two `int`.

* `clampBounds_inOrder` — the pairwise clamps leave the bounds in order, whatever they were.
* `bppKbps_lt_iff`, `jetsonKbps_lt_iff` — the derived defaults against a bound, in integers.
* `boundsAcceptable_iff` — the exact arguments for which the bounds come out acceptable.
-/

/-! ### Parser -/

/-- The fields of `Args` that the bounds are made from. -/
structure BitrateArgs where
  fps : ℤ
  width : ℤ
  height : ℤ
  subWidth : ℤ
  subHeight : ℤ
  liveStreamIdx : ℤ
  minBitrate : ℤ
  startBitrate : ℤ
  maxBitrate : ℤ
  hwAccel : Bool
  noAdaptive : Bool
deriving DecidableEq, Repr

def kAdaptiveStartBitrateKbps : ℤ := 1000
def kAdaptiveMinMaxBitrateKbps : ℤ := 2500
def kAdaptiveBitsPerPixel : ℚ := double (8 / 100)
def kJetsonMinBitsPerPixel : ℚ := double (13 / 1000)
def kJetsonMinFrameBits : ℚ := 20000

namespace BitrateArgs

/-- The pixels of the live stream's frame. -/
def frameArea (args : BitrateArgs) : ℤ :=
  if args.liveStreamIdx = 1 then args.subWidth * args.subHeight else args.width * args.height

/-- An `int` is a `double` as it is; only the product rounds. -/
def pixels (args : BitrateArgs) : ℚ := double args.frameArea

/-- `pixels * args.fps * kAdaptiveBitsPerPixel / 1000`. -/
def bppKbps (args : BitrateArgs) : ℚ :=
  double (double (double (args.pixels * args.fps) * kAdaptiveBitsPerPixel) / 1000)

/-- `std::max(pixels * kJetsonMinBitsPerPixel, kJetsonMinFrameBits)`. -/
def frameBits (args : BitrateArgs) : ℚ :=
  max (double (args.pixels * kJetsonMinBitsPerPixel)) kJetsonMinFrameBits

/-- `frame_bits * args.fps / 1000`. -/
def jetsonKbps (args : BitrateArgs) : ℚ := double (double (args.frameBits * args.fps) / 1000)

/-- The default maximum of an adaptive stream. -/
def setAdaptiveMax (args : BitrateArgs) : Option BitrateArgs :=
  if !args.noAdaptive && decide (args.maxBitrate ≤ 0) then
    (toInt args.bppKbps).map fun bpp_kbps =>
      { args with maxBitrate := max kAdaptiveMinMaxBitrateKbps bpp_kbps }
  else
    some args

/-- The floor of the Jetson encoder is filled in, in a build that has the encoder. -/
def derivesMin (jetson : Bool) (args : BitrateArgs) : Bool :=
  jetson && (args.hwAccel && args.noAdaptive && decide (args.minBitrate ≤ 0))

def setJetsonMin (jetson : Bool) (args : BitrateArgs) : Option BitrateArgs :=
  if args.derivesMin jetson then
    (toInt args.jetsonKbps).map fun kbps => { args with minBitrate := kbps }
  else
    some args

/-- The default start of an adaptive stream. -/
def setAdaptiveStart (args : BitrateArgs) : BitrateArgs :=
  if !args.noAdaptive && decide (args.startBitrate ≤ 0) then
    { args with startBitrate := max kAdaptiveStartBitrateKbps args.minBitrate }
  else
    args

/-- An inconsistent pair is pulled into range, under the maximum first. -/
def clampToMax (args : BitrateArgs) : BitrateArgs :=
  if 0 < args.maxBitrate then
    { args with
      startBitrate := min args.startBitrate args.maxBitrate
      minBitrate := min args.minBitrate args.maxBitrate }
  else
    args

def clampToStart (args : BitrateArgs) : BitrateArgs :=
  if 0 < args.startBitrate then
    { args with minBitrate := min args.minBitrate args.startBitrate }
  else
    args

def clampBounds (args : BitrateArgs) : BitrateArgs := args.clampToMax.clampToStart

/-- The bitrates as `Parser` leaves them, and `none` where a conversion is undefined. -/
def normaliseBitrates (jetson : Bool) (args : BitrateArgs) : Option BitrateArgs := do
  let args ← args.setAdaptiveMax
  let args ← args.setJetsonMin jetson
  return args.setAdaptiveStart.clampBounds

end BitrateArgs

/-! ### Conductor -/

/-- The bounds that `SetBitrate` gets, in bits per second. -/
structure BitrateSettings where
  minBitrateBps : Option ℤ
  startBitrateBps : Option ℤ
  maxBitrateBps : Option ℤ
deriving DecidableEq, Repr

/-- The bounds that are set, from the lowest to the highest. -/
def BitrateSettings.bounds (s : BitrateSettings) : List ℤ :=
  [s.minBitrateBps, s.startBitrateBps, s.maxBitrateBps].reduceOption

/-- A bitrate times 1000, in `int`: `none` where the product overflows. -/
def kbpsToBps (kbps : ℤ) : Option ℤ :=
  if -2147483648 ≤ kbps * 1000 ∧ kbps * 1000 ≤ 2147483647 then some (kbps * 1000) else none

/-- A bound above zero is set, every other one keeps the default of WebRTC. -/
def setBound (kbps : ℤ) : Option (Option ℤ) :=
  if 0 < kbps then (kbpsToBps kbps).map some else some none

/-- The settings of the call of `SetBitrate`, if there is a call. -/
def applyBitrateSettings (args : BitrateArgs) : Option (Option BitrateSettings) :=
  if args.minBitrate ≤ 0 ∧ args.startBitrate ≤ 0 ∧ args.maxBitrate ≤ 0 then
    some none
  else do
    let minBps ← setBound args.minBitrate
    let startBps ← setBound args.startBitrate
    let maxBps ← setBound args.maxBitrate
    return some ⟨minBps, startBps, maxBps⟩

/-- The bounds that `AddTracks` sets in the first encoding of the video sender. -/
def encodingBounds (args : BitrateArgs) : Option (Option ℤ × Option ℤ) := do
  let minBps ← setBound args.minBitrate
  let maxBps ← setBound args.maxBitrate
  return (minBps, maxBps)

/-! ### The order of the bounds -/

namespace BitrateArgs

/-- No bound is above one that is set. -/
structure InOrder (args : BitrateArgs) : Prop where
  min_start : 0 < args.startBitrate → args.minBitrate ≤ args.startBitrate
  min_max : 0 < args.maxBitrate → args.minBitrate ≤ args.maxBitrate
  start_max : 0 < args.maxBitrate → args.startBitrate ≤ args.maxBitrate

@[simp] theorem clampBounds_maxBitrate (args : BitrateArgs) :
    args.clampBounds.maxBitrate = args.maxBitrate := by
  unfold clampBounds clampToStart clampToMax
  split_ifs <;> rfl

theorem clampBounds_startBitrate (args : BitrateArgs) :
    args.clampBounds.startBitrate =
      if 0 < args.maxBitrate then min args.startBitrate args.maxBitrate
      else args.startBitrate := by
  unfold clampBounds clampToStart clampToMax
  split_ifs <;> rfl

theorem clampBounds_minBitrate_le (args : BitrateArgs) :
    args.clampBounds.minBitrate ≤ args.minBitrate := by
  unfold clampBounds clampToStart clampToMax
  split_ifs
  · exact (min_le_left _ _).trans (min_le_left _ _)
  · exact min_le_left _ _
  · exact min_le_left _ _
  · exact le_rfl

/-- **The clamps leave the bounds in order.** -/
theorem clampBounds_inOrder (args : BitrateArgs) : args.clampBounds.InOrder := by
  unfold clampBounds clampToStart clampToMax
  split_ifs with hmax hstart <;> constructor <;> grind

theorem clampBounds_minBitrate_of_unset {args : BitrateArgs} (hmax : args.maxBitrate ≤ 0)
    (hstart : args.startBitrate ≤ 0) : args.clampBounds.minBitrate = args.minBitrate := by
  unfold clampBounds clampToMax clampToStart
  rw [if_neg hmax.not_gt, if_neg hstart.not_gt]

/-- The bounds that are set fit in an `int` in bits per second. -/
structure Fit (args : BitrateArgs) : Prop where
  min : 0 < args.minBitrate → args.minBitrate ≤ 2147483
  start : 0 < args.startBitrate → args.startBitrate ≤ 2147483
  max : 0 < args.maxBitrate → args.maxBitrate ≤ 2147483

/-- **After the clamps it is enough that the highest bound that is set fits.** -/
theorem fit_clampBounds_iff (args : BitrateArgs) :
    args.clampBounds.Fit ↔
      (0 < args.maxBitrate → args.maxBitrate ≤ 2147483) ∧
        (args.maxBitrate ≤ 0 → 0 < args.startBitrate → args.startBitrate ≤ 2147483) ∧
          (args.maxBitrate ≤ 0 → args.startBitrate ≤ 0 → args.minBitrate ≤ 2147483) := by
  have horder := clampBounds_inOrder args
  have hstart := clampBounds_startBitrate args
  constructor
  · intro h
    refine ⟨fun hmax => ?_, fun hmax hs => ?_, fun hmax hs => ?_⟩
    · have hfit := h.max
      rw [clampBounds_maxBitrate] at hfit
      exact hfit hmax
    · rw [if_neg hmax.not_gt] at hstart
      have hfit := h.start
      rw [hstart] at hfit
      exact hfit hs
    · have hfit := h.min
      rw [clampBounds_minBitrate_of_unset hmax hs] at hfit
      omega
  · rintro ⟨hmax, hs, hmin⟩
    have hmaxEq := clampBounds_maxBitrate args
    have hle := clampBounds_minBitrate_le args
    obtain ⟨o1, o2, o3⟩ := horder
    rw [hmaxEq] at o2 o3
    -- the highest bound that is set is above the other ones
    obtain hset | hunset := lt_or_ge 0 args.maxBitrate
    · have hfit := hmax hset
      have hminle := o2 hset
      have hstartle := o3 hset
      exact ⟨fun _ => by omega, fun _ => by omega, fun _ => by rw [hmaxEq]; exact hfit⟩
    · rw [if_neg hunset.not_gt] at hstart
      refine ⟨fun _ => ?_, fun hpos => ?_, fun hpos => ?_⟩
      · obtain hset | hunset' := lt_or_ge 0 args.startBitrate
        · have hfit := hs hunset hset
          have hminle := o1 (by rw [hstart]; exact hset)
          omega
        · have hfit := hmin hunset hunset'
          omega
      · rw [hstart] at hpos ⊢
        exact hs hunset hpos
      · rw [hmaxEq] at hpos
        omega

end BitrateArgs

/-! ### The call of SetBitrate -/

theorem kbpsToBps_of_pos {kbps : ℤ} (hpos : 0 < kbps) :
    kbpsToBps kbps = if kbps ≤ 2147483 then some (kbps * 1000) else none := by
  unfold kbpsToBps
  congr 1
  exact propext (by omega)

theorem setBound_isSome_iff {kbps : ℤ} :
    (∃ bps, setBound kbps = some bps) ↔ (0 < kbps → kbps ≤ 2147483) := by
  unfold setBound
  split_ifs with hpos
  · rw [kbpsToBps_of_pos hpos]
    split_ifs with hle
    · exact ⟨fun _ _ => hle, fun _ => ⟨_, rfl⟩⟩
    · exact ⟨fun ⟨_, h⟩ => (nomatch h), fun h => absurd (h hpos) hle⟩
  · exact ⟨fun _ h => absurd h hpos, fun _ => ⟨_, rfl⟩⟩

theorem setBound_eq {kbps : ℤ} {bps : Option ℤ} (h : setBound kbps = some bps) :
    bps = if 0 < kbps then some (kbps * 1000) else none := by
  unfold setBound at h
  split_ifs at h ⊢ with hpos
  · rw [kbpsToBps_of_pos hpos] at h
    split_ifs at h
    · exact (Option.some.inj h).symm
    · exact nomatch h
  · exact (Option.some.inj h).symm

/-- **A call is made without overflow exactly when the bounds that are set fit.** -/
theorem applyBitrateSettings_isSome_iff (args : BitrateArgs) :
    (∃ call, applyBitrateSettings args = some call) ↔ args.Fit := by
  unfold applyBitrateSettings
  split_ifs with hunset
  · refine ⟨fun _ => ⟨?_, ?_, ?_⟩, fun _ => ⟨_, rfl⟩⟩ <;> intro hpos <;> omega
  · constructor
    · rintro ⟨call, h⟩
      simp only [Option.bind_eq_bind, Option.bind_eq_some_iff] at h
      obtain ⟨lo, hlo, st, hst, hi, hhi, -⟩ := h
      exact ⟨setBound_isSome_iff.mp ⟨lo, hlo⟩, setBound_isSome_iff.mp ⟨st, hst⟩,
        setBound_isSome_iff.mp ⟨hi, hhi⟩⟩
    · rintro ⟨hlo, hst, hhi⟩
      obtain ⟨lo, hlo⟩ := setBound_isSome_iff.mpr hlo
      obtain ⟨st, hst⟩ := setBound_isSome_iff.mpr hst
      obtain ⟨hi, hhi⟩ := setBound_isSome_iff.mpr hhi
      exact ⟨some ⟨lo, st, hi⟩, by rw [hlo, hst, hhi]; rfl⟩

theorem setBound_of_applyBitrateSettings {args : BitrateArgs} {s : BitrateSettings}
    (h : applyBitrateSettings args = some (some s)) :
    setBound args.minBitrate = some s.minBitrateBps ∧
      setBound args.startBitrate = some s.startBitrateBps ∧
        setBound args.maxBitrate = some s.maxBitrateBps := by
  unfold applyBitrateSettings at h
  split_ifs at h with hunset
  · exact nomatch Option.some.inj h
  · simp only [Option.bind_eq_bind, Option.bind_eq_some_iff] at h
    obtain ⟨lo, hlo, st, hst, hi, hhi, heq⟩ := h
    obtain rfl := Option.some.inj (Option.some.inj heq)
    exact ⟨hlo, hst, hhi⟩

/-- The bounds of a call are the bounds that are set. -/
theorem bounds_of_applyBitrateSettings {args : BitrateArgs} {s : BitrateSettings}
    (h : applyBitrateSettings args = some (some s)) :
    s.bounds = ([args.minBitrate, args.startBitrate, args.maxBitrate].filter (0 < ·)).map
      (· * 1000) := by
  obtain ⟨hlo, hst, hhi⟩ := setBound_of_applyBitrateSettings h
  unfold BitrateSettings.bounds
  rw [setBound_eq hlo, setBound_eq hst, setBound_eq hhi]
  split_ifs <;> simp [List.reduceOption, *]

/-- The sender's encoding gets the bounds that the connection gets. -/
theorem encodingBounds_of_applyBitrateSettings {args : BitrateArgs} {s : BitrateSettings}
    (h : applyBitrateSettings args = some (some s)) :
    encodingBounds args = some (s.minBitrateBps, s.maxBitrateBps) := by
  obtain ⟨hlo, -, hhi⟩ := setBound_of_applyBitrateSettings h
  unfold encodingBounds
  rw [hlo, hhi]
  rfl

theorem bounds_pos {args : BitrateArgs} {s : BitrateSettings}
    (h : applyBitrateSettings args = some (some s)) : ∀ b ∈ s.bounds, 0 < b := by
  rw [bounds_of_applyBitrateSettings h]
  intro b hb
  obtain ⟨kbps, hkbps, rfl⟩ := List.mem_map.mp hb
  have hpos : 0 < kbps := of_decide_eq_true (List.mem_filter.mp hkbps).2
  omega

/-- **The bounds of a call are in order.** -/
theorem bounds_pairwise_le {args : BitrateArgs} {s : BitrateSettings} (horder : args.InOrder)
    (h : applyBitrateSettings args = some (some s)) : s.bounds.Pairwise (· ≤ ·) := by
  rw [bounds_of_applyBitrateSettings h]
  have hpair : ([args.minBitrate, args.startBitrate, args.maxBitrate].filter (0 < ·)).Pairwise
      (· ≤ ·) := by
    obtain ⟨o1, o2, o3⟩ := horder
    rw [List.pairwise_filter]
    simp only [List.pairwise_cons, List.mem_cons, List.not_mem_nil, or_false, decide_eq_true_eq,
      forall_eq_or_imp, forall_eq, IsEmpty.forall_iff, implies_true, List.Pairwise.nil, and_true]
    exact ⟨⟨fun _ hs => o1 hs, fun _ hx => o2 hx⟩, fun _ hx => o3 hx⟩
  exact hpair.map _ fun x y hxy => by omega

/-! ### The default maximum -/

/-- The literal `0.08` is rounded up. -/
theorem le_kAdaptiveBitsPerPixel : 8 / 100 ≤ kAdaptiveBitsPerPixel := by
  have hulp : ulp 52 (8 / 100) = (2 : ℚ) ^ ((-4 : ℤ) - (52 : ℕ)) :=
    ulp_eq 52 (by norm_num) (by norm_num)
  have heq : double (8 / 100) = ((5764607523034235 : ℤ) : ℚ) * ulp 52 (8 / 100) :=
    nearest_eq_mul_ulp 52 (by norm_num) (by rw [hulp, abs_lt]; norm_num)
  rw [kAdaptiveBitsPerPixel, heq, hulp]
  norm_num

theorem kAdaptiveBitsPerPixel_le : kAdaptiveBitsPerPixel ≤ 8 / 100 * (1 + 1 / 2 ^ 53) :=
  double_le_of_nonneg (by norm_num)

namespace BitrateArgs

theorem bppKbps_neg_fps (args : BitrateArgs) :
    { args with fps := -args.fps }.bppKbps = -args.bppKbps := by
  have hpixels : { args with fps := -args.fps }.pixels = args.pixels := rfl
  unfold bppKbps
  dsimp only
  rw [hpixels, Int.cast_neg, mul_neg, double_neg, neg_mul, double_neg, neg_div, double_neg]

theorem le_bppKbps {args : BitrateArgs} {t k : ℤ} (ht : |t| ≤ 2 ^ 52)
    (hk : |1000 * k| < 9007199254740992) (h0 : 0 ≤ t) (hkt : 100000 * k ≤ 8 * t)
    (h : t ≤ args.frameArea * args.fps) : (k : ℚ) ≤ args.bppKbps := by
  have hrate : (t : ℚ) ≤ double (args.pixels * args.fps) := le_nearest_mul 52 ht h
  have hbits : ((1000 * k : ℤ) : ℚ) ≤
      double (double (args.pixels * args.fps) * kAdaptiveBitsPerPixel) := by
    refine le_double hk ?_
    calc ((1000 * k : ℤ) : ℚ) ≤ t * (8 / 100) := by
          have hcast : ((100000 * k : ℤ) : ℚ) ≤ ((8 * t : ℤ) : ℚ) := by exact_mod_cast hkt
          push_cast at hcast ⊢
          linarith
      _ ≤ double (args.pixels * args.fps) * kAdaptiveBitsPerPixel :=
          mul_le_mul hrate le_kAdaptiveBitsPerPixel (by norm_num)
            (le_trans (by exact_mod_cast h0) hrate)
  refine le_double (lt_of_le_of_lt ?_ hk) ?_
  · rw [abs_mul]
    exact le_mul_of_one_le_left (abs_nonneg k) (by norm_num)
  · rw [le_div_iff₀ (by norm_num), mul_comm]
    exact_mod_cast hbits

theorem bppKbps_lt {args : BitrateArgs} {t k : ℤ} (ht : |t| ≤ 2 ^ 52) (h0 : 0 ≤ t)
    (hkt : (t : ℚ) * (8 / 100) * (1 + 1 / 2 ^ 53) ^ 3 < 1000 * k)
    (h : args.frameArea * args.fps ≤ t) : args.bppKbps < k := by
  have h0' : (0 : ℚ) ≤ t := by exact_mod_cast h0
  have hrate : double (args.pixels * args.fps) ≤ t := nearest_mul_le 52 ht h
  have hkpos : 0 ≤ kAdaptiveBitsPerPixel := le_trans (by norm_num) le_kAdaptiveBitsPerPixel
  have hbits : double (double (args.pixels * args.fps) * kAdaptiveBitsPerPixel) ≤
      t * (8 / 100) * (1 + 1 / 2 ^ 53) ^ 2 :=
    calc double (double (args.pixels * args.fps) * kAdaptiveBitsPerPixel)
        ≤ double (t * (8 / 100 * (1 + 1 / 2 ^ 53))) :=
          double_mono (mul_le_mul hrate kAdaptiveBitsPerPixel_le hkpos h0')
      _ ≤ t * (8 / 100 * (1 + 1 / 2 ^ 53)) * (1 + 1 / 2 ^ 53) :=
          double_le_of_nonneg (by positivity)
      _ = t * (8 / 100) * (1 + 1 / 2 ^ 53) ^ 2 := by ring
  calc args.bppKbps ≤ double (t * (8 / 100) * (1 + 1 / 2 ^ 53) ^ 2 / 1000) :=
        double_mono (div_le_div_of_nonneg_right hbits (by norm_num))
    _ ≤ t * (8 / 100) * (1 + 1 / 2 ^ 53) ^ 2 / 1000 * (1 + 1 / 2 ^ 53) :=
        double_le_of_nonneg (by positivity)
    _ = t * (8 / 100) * (1 + 1 / 2 ^ 53) ^ 3 / 1000 := by ring
    _ < k := by rwa [div_lt_iff₀ (by norm_num), mul_comm (k : ℚ)]

/-- **The default maximum fits exactly below this many pixels per second.** -/
theorem bppKbps_lt_iff (args : BitrateArgs) :
    args.bppKbps < 2147484 ↔ args.frameArea * args.fps < 26843550000 := by
  constructor
  · intro h
    refine lt_of_not_ge fun hle => h.not_ge ?_
    exact_mod_cast le_bppKbps (t := 26843550000) (k := 2147484) (by norm_num) (by norm_num)
      (by norm_num) (by norm_num) hle
  · intro h
    exact_mod_cast bppKbps_lt (t := 26843549999) (k := 2147484) (by norm_num) (by norm_num)
      (by norm_num) (by omega)

theorem neg_lt_bppKbps_iff (args : BitrateArgs) :
    -2147483649 < args.bppKbps ↔ -26843545612500 < args.frameArea * args.fps := by
  have hneg := bppKbps_neg_fps args
  have harea : { args with fps := -args.fps }.frameArea = args.frameArea := rfl
  rw [neg_lt, ← hneg, neg_lt, ← mul_neg]
  constructor
  · intro h
    refine lt_of_not_ge fun hle => h.not_ge ?_
    exact_mod_cast @le_bppKbps { args with fps := -args.fps } 26843545612500 2147483649
      (by norm_num) (by norm_num) (by norm_num) (by norm_num) hle
  · intro h
    exact_mod_cast @bppKbps_lt { args with fps := -args.fps } 26843545612499 2147483649
      (by norm_num) (by norm_num) (by norm_num) (Int.le_sub_one_of_lt h)

end BitrateArgs

/-! ### The floor of the Jetson encoder -/

theorem kJetsonMinBitsPerPixel_le : kJetsonMinBitsPerPixel ≤ 13 / 1000 * (1 + 1 / 2 ^ 53) :=
  double_le_of_nonneg (by norm_num)

theorem le_kJetsonMinBitsPerPixel : 13 / 1000 * (1 - 1 / 2 ^ 53) ≤ kJetsonMinBitsPerPixel :=
  le_double_of_nonneg (by norm_num)

/-- No multiple of 13 is so near to a bound that the roundings could cross it. -/
def Separated (k : ℤ) : Prop :=
  ∀ n : ℤ, (13 * n < 1000000 * k → 13 * n * (1 + 1 / 2 ^ 53 : ℚ) ^ 5 < 1000000 * k) ∧
    (1000000 * k ≤ 13 * n → 1000000 * k ≤ 13 * n * (1 - 1 / 2 ^ 53 : ℚ) ^ 2)

/-- The multiples of 13 on both sides of a bound decide. -/
theorem separated_of_le {k a b : ℤ} (ha : ∀ n : ℤ, 13 * n < 1000000 * k → 13 * n ≤ a)
    (hb : ∀ n : ℤ, 1000000 * k ≤ 13 * n → b ≤ 13 * n)
    (hup : a * (1 + 1 / 2 ^ 53 : ℚ) ^ 5 < 1000000 * k)
    (hlow : 1000000 * k ≤ b * (1 - 1 / 2 ^ 53 : ℚ) ^ 2) : Separated k := by
  intro n
  constructor
  · intro h
    have hcast : 13 * (n : ℚ) ≤ a := by exact_mod_cast ha n h
    exact lt_of_le_of_lt (mul_le_mul_of_nonneg_right hcast (by positivity)) hup
  · intro h
    have hcast : (b : ℚ) ≤ 13 * n := by exact_mod_cast hb n h
    exact hlow.trans (mul_le_mul_of_nonneg_right hcast (by positivity))

namespace BitrateArgs

/-- The floor in thousandths of a bit per second, without a rounding. -/
def floorRate (args : BitrateArgs) : ℤ := max (13 * args.frameArea) 20000000 * args.fps

theorem kJetsonMinFrameBits_le_frameBits (args : BitrateArgs) : 20000 ≤ args.frameBits :=
  le_max_right _ _

theorem jetsonKbps_nonpos {args : BitrateArgs} (h : args.fps ≤ 0) : args.jetsonKbps ≤ 0 := by
  have hfps : (args.fps : ℚ) ≤ 0 := by exact_mod_cast h
  have hbits : 0 ≤ args.frameBits :=
    le_trans (by norm_num) (kJetsonMinFrameBits_le_frameBits args)
  have hrate : double (args.frameBits * args.fps) ≤ 0 :=
    nearest_nonpos 52 (mul_nonpos_of_nonneg_of_nonpos hbits hfps)
  exact nearest_nonpos 52 (div_nonpos_of_nonpos_of_nonneg hrate (by norm_num))

theorem jetsonKbps_neg_fps (args : BitrateArgs) :
    { args with fps := -args.fps }.jetsonKbps = -args.jetsonKbps := by
  have hbits : { args with fps := -args.fps }.frameBits = args.frameBits := rfl
  unfold jetsonKbps
  dsimp only
  rw [hbits, Int.cast_neg, mul_neg, double_neg, neg_div, double_neg]

/-- A floor of this many bits in a frame is enough. -/
theorem le_jetsonKbps {args : BitrateArgs} {k : ℤ} (hk0 : 0 ≤ k) (hk : k ≤ 4294967296)
    (h : 1000 * (k : ℚ) ≤ args.frameBits * args.fps) : (k : ℚ) ≤ args.jetsonKbps := by
  have hrate : ((1000 * k : ℤ) : ℚ) ≤ double (args.frameBits * args.fps) :=
    le_double (abs_lt.mpr ⟨by omega, by omega⟩) (by push_cast; exact h)
  refine le_double (abs_lt.mpr ⟨by omega, by omega⟩) ?_
  rw [le_div_iff₀ (by norm_num), mul_comm]
  exact_mod_cast hrate

/-! A small frame has the constant floor. -/

theorem frameBits_of_small {args : BitrateArgs} (h : args.frameArea ≤ 1538461) :
    args.frameBits = 20000 := by
  refine max_eq_right ?_
  have hpixels : args.pixels ≤ (1538461 : ℤ) := double_le (by norm_num) (by exact_mod_cast h)
  have hk : 0 ≤ kJetsonMinBitsPerPixel := le_trans (by norm_num) le_kJetsonMinBitsPerPixel
  have hbits : args.pixels * kJetsonMinBitsPerPixel ≤ (20000 : ℤ) :=
    calc args.pixels * kJetsonMinBitsPerPixel
        ≤ (1538461 : ℤ) * (13 / 1000 * (1 + 1 / 2 ^ 53)) :=
          mul_le_mul hpixels kJetsonMinBitsPerPixel_le hk (by norm_num)
      _ ≤ (20000 : ℤ) := by norm_num
  exact_mod_cast double_le (by norm_num) hbits

theorem jetsonKbps_lt_iff_of_small {args : BitrateArgs} {k : ℤ} (hk0 : 0 < k)
    (hk : k ≤ 4294967296) (h : args.frameArea ≤ 1538461) :
    args.jetsonKbps < k ↔ args.floorRate < 1000000 * k := by
  have hbits := frameBits_of_small h
  have hrate : args.floorRate = 20000000 * args.fps := by
    rw [floorRate, max_eq_right (by omega)]
  rw [hrate]
  constructor
  · intro hlt
    by_contra hle
    refine hlt.not_ge (le_jetsonKbps hk0.le hk ?_)
    rw [hbits]
    exact_mod_cast (by omega : 1000 * k ≤ 20000 * args.fps)
  · intro hlt
    have hrate' : double (args.frameBits * args.fps) ≤ ((1000 * (k - 1) : ℤ) : ℚ) := by
      refine double_le (abs_lt.mpr ⟨by omega, by omega⟩) ?_
      rw [hbits]
      exact_mod_cast (by omega : 20000 * args.fps ≤ 1000 * (k - 1))
    have hle : args.jetsonKbps ≤ ((k - 1 : ℤ) : ℚ) := by
      refine double_le (abs_lt.mpr ⟨by omega, by omega⟩) ?_
      rw [div_le_iff₀ (by norm_num)]
      push_cast at hrate' ⊢
      linarith
    exact lt_of_le_of_lt hle (by exact_mod_cast sub_one_lt k)

/-! A large one has the floor of its pixels. -/

theorem frameBits_le_of_large {args : BitrateArgs} (h : 1538462 ≤ args.frameArea) :
    args.frameBits ≤ 13 * args.frameArea / 1000 * (1 + 1 / 2 ^ 53) ^ 3 := by
  have harea : (1538462 : ℚ) ≤ args.frameArea := by exact_mod_cast h
  have hpixels : args.pixels ≤ args.frameArea * (1 + 1 / 2 ^ 53) :=
    double_le_of_nonneg (by linarith)
  have hpixels0 : 0 ≤ args.pixels := nearest_nonneg 52 (by linarith)
  have hk : 0 ≤ kJetsonMinBitsPerPixel := le_trans (by norm_num) le_kJetsonMinBitsPerPixel
  refine max_le ?_ ?_
  · calc double (args.pixels * kJetsonMinBitsPerPixel)
        ≤ args.pixels * kJetsonMinBitsPerPixel * (1 + 1 / 2 ^ 53) :=
          double_le_of_nonneg (mul_nonneg hpixels0 hk)
      _ ≤ args.frameArea * (1 + 1 / 2 ^ 53) * (13 / 1000 * (1 + 1 / 2 ^ 53))
            * (1 + 1 / 2 ^ 53) := by
          refine mul_le_mul_of_nonneg_right ?_ (by positivity)
          exact mul_le_mul hpixels kJetsonMinBitsPerPixel_le hk (by positivity)
      _ = 13 * args.frameArea / 1000 * (1 + 1 / 2 ^ 53) ^ 3 := by ring
  · have hone : (1 : ℚ) ≤ (1 + 1 / 2 ^ 53) ^ 3 := by norm_num
    calc kJetsonMinFrameBits ≤ 13 * args.frameArea / 1000 := by
          rw [kJetsonMinFrameBits]
          linarith
      _ ≤ 13 * args.frameArea / 1000 * (1 + 1 / 2 ^ 53) ^ 3 :=
          le_mul_of_one_le_right (by positivity) hone

theorem le_frameBits {args : BitrateArgs} {a : ℚ} (ha : 0 ≤ a) (h : a ≤ args.pixels) :
    13 * a / 1000 * (1 - 1 / 2 ^ 53) ^ 2 ≤ args.frameBits := by
  have hk := le_kJetsonMinBitsPerPixel
  have hbits : a * (13 / 1000 * (1 - 1 / 2 ^ 53)) ≤ args.pixels * kJetsonMinBitsPerPixel :=
    mul_le_mul h hk (by norm_num) (ha.trans h)
  have hbits0 : 0 ≤ a * (13 / 1000 * (1 - 1 / 2 ^ 53)) := mul_nonneg ha (by norm_num)
  calc 13 * a / 1000 * (1 - 1 / 2 ^ 53) ^ 2
      = a * (13 / 1000 * (1 - 1 / 2 ^ 53)) * (1 - 1 / 2 ^ 53) := by ring
    _ ≤ args.pixels * kJetsonMinBitsPerPixel * (1 - 1 / 2 ^ 53) :=
        mul_le_mul_of_nonneg_right hbits (by norm_num)
    _ ≤ double (args.pixels * kJetsonMinBitsPerPixel) :=
        le_double_of_nonneg (hbits0.trans hbits)
    _ ≤ args.frameBits := le_max_left _ _

theorem jetsonKbps_lt_iff_of_large {args : BitrateArgs} {k : ℤ} (hk0 : 0 < k)
    (hk : k ≤ 4294967296) (hsep : Separated k) (h : 1538462 ≤ args.frameArea) :
    args.jetsonKbps < k ↔ args.floorRate < 1000000 * k := by
  have hrate : args.floorRate = 13 * (args.frameArea * args.fps) := by
    rw [floorRate, max_eq_left (by omega), mul_assoc]
  rw [hrate]
  obtain ⟨hup, hlow⟩ := hsep (args.frameArea * args.fps)
  obtain hfps | hfps := lt_or_ge 0 args.fps
  · have hfps1 : (1 : ℚ) ≤ args.fps := by exact_mod_cast hfps
    constructor
    · intro hlt
      by_contra hle
      have hlow := hlow (not_lt.mp hle)
      refine hlt.not_ge (le_jetsonKbps hk0.le hk ?_)
      obtain hsmall | hlong := lt_or_ge args.frameArea 9007199254740992
      · have harea : (args.frameArea : ℚ) ≤ args.pixels :=
          (double_intCast (abs_lt.mpr ⟨by omega, hsmall⟩)).ge
        have hbits := le_frameBits (by exact_mod_cast (by omega : 0 ≤ args.frameArea)) harea
        calc 1000 * (k : ℚ)
            ≤ 13 * args.frameArea / 1000 * (1 - 1 / 2 ^ 53) ^ 2 * args.fps := by
              push_cast at hlow
              linarith
          _ ≤ args.frameBits * args.fps :=
              mul_le_mul_of_nonneg_right hbits (by linarith)
      · -- the pixels do not fit in a double, and one frame is already far above the bound
        have harea : ((4503599627370496 : ℤ) : ℚ) ≤ args.pixels :=
          le_double (by norm_num) (by exact_mod_cast (by omega :
            (4503599627370496 : ℤ) ≤ args.frameArea))
        have hbits := le_frameBits (by norm_num) harea
        have hcast : (k : ℚ) ≤ 4294967296 := by exact_mod_cast hk
        calc 1000 * (k : ℚ) ≤ args.frameBits := by
              norm_num at hbits
              linarith
          _ ≤ args.frameBits * args.fps :=
              le_mul_of_one_le_right
                (le_trans (by norm_num) (kJetsonMinFrameBits_le_frameBits args)) hfps1
    · intro hlt
      have hup := hup hlt
      have hbits := frameBits_le_of_large h
      have hbits0 : 0 ≤ args.frameBits :=
        le_trans (by norm_num) (kJetsonMinFrameBits_le_frameBits args)
      have hprod : args.frameBits * args.fps ≤
          13 * args.frameArea / 1000 * (1 + 1 / 2 ^ 53) ^ 3 * args.fps :=
        mul_le_mul_of_nonneg_right hbits (by linarith)
      have hdouble : double (args.frameBits * args.fps) ≤
          args.frameBits * args.fps * (1 + 1 / 2 ^ 53) :=
        double_le_of_nonneg (mul_nonneg hbits0 (by linarith))
      calc args.jetsonKbps
          ≤ double (args.frameBits * args.fps) / 1000 * (1 + 1 / 2 ^ 53) :=
            double_le_of_nonneg (div_nonneg
              (nearest_nonneg 52 (mul_nonneg hbits0 (by linarith))) (by norm_num))
        _ ≤ 13 * (args.frameArea * args.fps) * (1 + 1 / 2 ^ 53) ^ 5 / 1000000 := by
            norm_num at hdouble hprod ⊢
            linarith
        _ < k := by
            rw [div_lt_iff₀ (by norm_num), mul_comm (k : ℚ)]
            push_cast at hup
            exact hup
  · refine ⟨fun _ => ?_, fun _ => ?_⟩
    · have hneg : args.frameArea * args.fps ≤ 0 :=
        mul_nonpos_of_nonneg_of_nonpos (by omega) hfps
      omega
    · exact lt_of_le_of_lt (jetsonKbps_nonpos hfps) (by exact_mod_cast hk0)

/-- **The derived floor against a bound**, in integers. -/
theorem jetsonKbps_lt_iff {args : BitrateArgs} {k : ℤ} (hk0 : 0 < k) (hk : k ≤ 4294967296)
    (hsep : Separated k) : args.jetsonKbps < k ↔ args.floorRate < 1000000 * k := by
  obtain h | h := le_or_gt args.frameArea 1538461
  · exact jetsonKbps_lt_iff_of_small hk0 hk h
  · exact jetsonKbps_lt_iff_of_large hk0 hk hsep h

theorem jetsonKbps_lt_limit_iff (args : BitrateArgs) :
    args.jetsonKbps < 2147484 ↔ args.floorRate < 2147484000000 := by
  have hsep : Separated 2147484 :=
    separated_of_le (a := 2147483999999) (b := 2147484000012) (fun n => by omega)
      (fun n => by omega) (by norm_num) (by norm_num)
  have h := @jetsonKbps_lt_iff args _ (by norm_num) (by norm_num) hsep
  norm_num at h
  exact h

theorem jetsonKbps_lt_int_iff (args : BitrateArgs) :
    args.jetsonKbps < 2147483648 ↔ args.floorRate < 2147483648000000 := by
  have hsep : Separated 2147483648 :=
    separated_of_le (a := 2147483647999989) (b := 2147483648000002) (fun n => by omega)
      (fun n => by omega) (by norm_num) (by norm_num)
  have h := @jetsonKbps_lt_iff args _ (by norm_num) (by norm_num) hsep
  norm_num at h
  exact h

theorem neg_lt_jetsonKbps_iff (args : BitrateArgs) :
    -2147483649 < args.jetsonKbps ↔ -2147483649000000 < args.floorRate := by
  have hsep : Separated 2147483649 :=
    separated_of_le (a := 2147483648999988) (b := 2147483649000001) (fun n => by omega)
      (fun n => by omega) (by norm_num) (by norm_num)
  have h := @jetsonKbps_lt_iff { args with fps := -args.fps } _ (by norm_num) (by norm_num) hsep
  have hrate : { args with fps := -args.fps }.floorRate = -args.floorRate := mul_neg _ _
  rw [jetsonKbps_neg_fps, hrate] at h
  norm_num at h
  rw [neg_lt, h, neg_lt]

end BitrateArgs

/-! ### The arguments whose bounds are acceptable -/

/-- The bounds are computed without an undefined conversion or an overflow, and those of a call
    are positive, in order and accepted. -/
def BoundsAcceptable (jetson : Bool) (setBitrate : BitrateSettings → Bool)
    (args : BitrateArgs) : Prop :=
  ∃ normalised, args.normaliseBitrates jetson = some normalised ∧
    ∃ call, applyBitrateSettings normalised = some call ∧
      ∀ s, call = some s →
        (∀ b ∈ s.bounds, 0 < b) ∧ s.bounds.Pairwise (· ≤ ·) ∧ setBitrate s = true

/-- The defaults that are derived have a conversion, and the highest bound that is set fits. -/
structure BoundsFit (jetson : Bool) (args : BitrateArgs) : Prop where
  adaptiveMax : args.noAdaptive = false → args.maxBitrate ≤ 0 →
    -26843545612500 < args.frameArea * args.fps ∧ args.frameArea * args.fps < 26843550000
  jetsonMin : args.derivesMin jetson = true →
    -2147483649000000 < args.floorRate ∧ args.floorRate < 2147483648000000
  max : 0 < args.maxBitrate → args.maxBitrate ≤ 2147483
  start : args.noAdaptive = true → args.maxBitrate ≤ 0 → 0 < args.startBitrate →
    args.startBitrate ≤ 2147483
  min : args.noAdaptive = true → args.maxBitrate ≤ 0 → args.startBitrate ≤ 0 →
    if args.derivesMin jetson then args.floorRate < 2147484000000 else args.minBitrate ≤ 2147483

namespace BitrateArgs

theorem toInt_bppKbps_isSome_iff (args : BitrateArgs) :
    (∃ kbps, toInt args.bppKbps = some kbps ∧ kbps ≤ 2147483) ↔
      -26843545612500 < args.frameArea * args.fps ∧
        args.frameArea * args.fps < 26843550000 := by
  rw [← bppKbps_lt_iff, ← neg_lt_bppKbps_iff]
  constructor
  · rintro ⟨kbps, hkbps, hle⟩
    obtain ⟨hlow, -, rfl⟩ := toInt_eq_some_iff.mp hkbps
    refine ⟨hlow, ?_⟩
    exact_mod_cast (truncate_lt_iff (n := 2147484) (by norm_num)).mp (by omega)
  · rintro ⟨hlow, hup⟩
    have htrunc : truncate args.bppKbps < 2147484 :=
      (truncate_lt_iff (by norm_num)).mpr (by exact_mod_cast hup)
    exact ⟨_, toInt_eq_some_iff.mpr ⟨hlow, hup.trans (by norm_num), rfl⟩, by omega⟩

theorem toInt_jetsonKbps_isSome_iff (args : BitrateArgs) :
    (∃ kbps, toInt args.jetsonKbps = some kbps) ↔
      -2147483649000000 < args.floorRate ∧ args.floorRate < 2147483648000000 := by
  rw [← jetsonKbps_lt_int_iff, ← neg_lt_jetsonKbps_iff, ← toInt_isSome_iff,
    Option.isSome_iff_exists]

theorem truncate_jetsonKbps_le_iff (args : BitrateArgs) :
    truncate args.jetsonKbps ≤ 2147483 ↔ args.floorRate < 2147484000000 := by
  rw [← jetsonKbps_lt_limit_iff, ← Int.lt_add_one_iff]
  exact_mod_cast truncate_lt_iff (x := args.jetsonKbps) (n := 2147484) (by norm_num)

theorem normaliseBitrates_eq_some_iff {jetson : Bool} {args n : BitrateArgs} :
    args.normaliseBitrates jetson = some n ↔
      ∃ a b, args.setAdaptiveMax = some a ∧ a.setJetsonMin jetson = some b ∧
        b.setAdaptiveStart.clampBounds = n := by
  unfold normaliseBitrates
  simp only [Option.bind_eq_bind, Option.bind_eq_some_iff, Option.pure_def, Option.some.injEq,
    exists_and_left]

@[simp] theorem setAdaptiveStart_maxBitrate (args : BitrateArgs) :
    args.setAdaptiveStart.maxBitrate = args.maxBitrate := by
  unfold setAdaptiveStart
  split_ifs <;> rfl

/-- Under a maximum that is set only the maximum counts. -/
theorem fit_clampBounds_iff_of_max {args : BitrateArgs} (h : 0 < args.maxBitrate) :
    args.setAdaptiveStart.clampBounds.Fit ↔ args.maxBitrate ≤ 2147483 := by
  rw [fit_clampBounds_iff, setAdaptiveStart_maxBitrate]
  exact ⟨fun hfit => hfit.1 h, fun hle => ⟨fun _ => hle, fun _ => by omega, fun _ => by omega⟩⟩

theorem setAdaptiveMax_of_max {args : BitrateArgs} (h : 0 < args.maxBitrate) :
    args.setAdaptiveMax = some args := by
  rw [setAdaptiveMax, decide_eq_false h.not_ge, Bool.and_false, if_neg Bool.false_ne_true]

theorem setAdaptiveMax_of_noAdaptive {args : BitrateArgs} (h : args.noAdaptive = true) :
    args.setAdaptiveMax = some args := by
  rw [setAdaptiveMax, h, Bool.not_true, Bool.false_and, if_neg Bool.false_ne_true]

theorem setAdaptiveMax_of_default {args : BitrateArgs} (h : args.noAdaptive = false)
    (hmax : args.maxBitrate ≤ 0) :
    args.setAdaptiveMax = (toInt args.bppKbps).map fun bpp_kbps =>
      { args with maxBitrate := max kAdaptiveMinMaxBitrateKbps bpp_kbps } := by
  rw [setAdaptiveMax, h, decide_eq_true hmax, Bool.not_false, Bool.and_self, if_pos rfl]

theorem setJetsonMin_of_adaptive {jetson : Bool} {args : BitrateArgs}
    (h : args.noAdaptive = false) : args.setJetsonMin jetson = some args := by
  rw [setJetsonMin, derivesMin, h, Bool.and_false, Bool.false_and, Bool.and_false,
    if_neg Bool.false_ne_true]

/-- An adaptive stream always has a maximum, the given one or the default one. -/
theorem fit_normaliseBitrates_iff_of_adaptive {jetson : Bool} {args : BitrateArgs}
    (h : args.noAdaptive = false) :
    (∃ n, args.normaliseBitrates jetson = some n ∧ n.Fit) ↔
      (args.maxBitrate ≤ 0 → ∃ kbps, toInt args.bppKbps = some kbps ∧ kbps ≤ 2147483) ∧
        (0 < args.maxBitrate → args.maxBitrate ≤ 2147483) := by
  simp only [normaliseBitrates_eq_some_iff]
  obtain hset | hunset := lt_or_ge 0 args.maxBitrate
  · constructor
    · rintro ⟨n, ⟨a, b, ha, hb, rfl⟩, hfit⟩
      rw [setAdaptiveMax_of_max hset] at ha
      obtain rfl := Option.some.inj ha
      rw [setJetsonMin_of_adaptive h] at hb
      obtain rfl := Option.some.inj hb
      have hle := (fit_clampBounds_iff_of_max hset).mp hfit
      exact ⟨fun hunset => absurd hset hunset.not_gt, fun _ => hle⟩
    · rintro ⟨-, hle⟩
      exact ⟨_, ⟨args, args, setAdaptiveMax_of_max hset, setJetsonMin_of_adaptive h, rfl⟩,
        (fit_clampBounds_iff_of_max hset).mpr (hle hset)⟩
  · have hpos : ∀ kbps, 0 < max kAdaptiveMinMaxBitrateKbps kbps := fun kbps =>
      lt_max_of_lt_left (by decide)
    constructor
    · rintro ⟨n, ⟨a, b, ha, hb, rfl⟩, hfit⟩
      rw [setAdaptiveMax_of_default h hunset] at ha
      obtain ⟨kbps, hkbps, rfl⟩ := Option.map_eq_some_iff.mp ha
      rw [setJetsonMin_of_adaptive (by exact h)] at hb
      obtain rfl := Option.some.inj hb
      have hle := (fit_clampBounds_iff_of_max (hpos kbps)).mp hfit
      exact ⟨fun _ => ⟨kbps, hkbps, (le_max_right _ _).trans hle⟩,
        fun hset => absurd hset hunset.not_gt⟩
    · rintro ⟨hkbps, -⟩
      obtain ⟨kbps, hkbps, hle⟩ := hkbps hunset
      refine ⟨_, ⟨{ args with maxBitrate := max kAdaptiveMinMaxBitrateKbps kbps }, _, ?_,
        setJetsonMin_of_adaptive h, rfl⟩, (fit_clampBounds_iff_of_max (hpos kbps)).mpr ?_⟩
      · rw [setAdaptiveMax_of_default h hunset, hkbps, Option.map_some]
      · exact max_le (by decide) hle

/-- Without the adaptive defaults the start is the given one. -/
theorem setAdaptiveStart_of_noAdaptive {args : BitrateArgs} (h : args.noAdaptive = true) :
    args.setAdaptiveStart = args := by
  rw [setAdaptiveStart, h, Bool.not_true, Bool.false_and, if_neg Bool.false_ne_true]

theorem noAdaptive_of_derivesMin {jetson : Bool} {args : BitrateArgs}
    (h : args.derivesMin jetson = true) : args.noAdaptive = true := by
  unfold derivesMin at h
  simp only [Bool.and_eq_true] at h
  exact h.2.1.2

/-- A fixed stream has the floor that was given or derived. -/
theorem fit_normaliseBitrates_iff_of_noAdaptive {jetson : Bool} {args : BitrateArgs}
    (h : args.noAdaptive = true) :
    (∃ n, args.normaliseBitrates jetson = some n ∧ n.Fit) ↔
      (args.derivesMin jetson = true → ∃ kbps, toInt args.jetsonKbps = some kbps) ∧
        (0 < args.maxBitrate → args.maxBitrate ≤ 2147483) ∧
          (args.maxBitrate ≤ 0 → 0 < args.startBitrate → args.startBitrate ≤ 2147483) ∧
            (args.maxBitrate ≤ 0 → args.startBitrate ≤ 0 →
              if args.derivesMin jetson then truncate args.jetsonKbps ≤ 2147483
              else args.minBitrate ≤ 2147483) := by
  simp only [normaliseBitrates_eq_some_iff, setAdaptiveMax_of_noAdaptive h, Option.some.injEq,
    exists_and_left, exists_eq_left']
  unfold setJetsonMin
  split_ifs with hderives
  · constructor
    · rintro ⟨n, ⟨b, hb, rfl⟩, hfit⟩
      obtain ⟨kbps, hkbps, rfl⟩ := Option.map_eq_some_iff.mp hb
      rw [setAdaptiveStart_of_noAdaptive (by exact h), fit_clampBounds_iff] at hfit
      obtain ⟨hmax, hstart, hmin⟩ := hfit
      have htrunc := (toInt_eq_some_iff.mp hkbps).2.2
      exact ⟨fun _ => ⟨kbps, hkbps⟩, hmax, hstart, fun hm hs => htrunc ▸ hmin hm hs⟩
    · rintro ⟨hcast, hmax, hstart, hmin⟩
      obtain ⟨kbps, hkbps⟩ := hcast hderives
      have htrunc := (toInt_eq_some_iff.mp hkbps).2.2
      refine ⟨_, ⟨{ args with minBitrate := kbps }, by rw [hkbps, Option.map_some], rfl⟩, ?_⟩
      rw [setAdaptiveStart_of_noAdaptive (by exact h), fit_clampBounds_iff]
      exact ⟨hmax, hstart, fun hm hs => htrunc ▸ hmin hm hs⟩
  · constructor
    · rintro ⟨n, ⟨b, hb, rfl⟩, hfit⟩
      obtain rfl := Option.some.inj hb
      rw [setAdaptiveStart_of_noAdaptive h, fit_clampBounds_iff] at hfit
      exact ⟨fun hyes => absurd hyes hderives, hfit⟩
    · rintro ⟨-, hfit⟩
      refine ⟨_, ⟨args, rfl, rfl⟩, ?_⟩
      rw [setAdaptiveStart_of_noAdaptive h, fit_clampBounds_iff]
      exact hfit

/-- **The normalised bounds fit exactly when the arguments do.** -/
theorem fit_normaliseBitrates_iff {jetson : Bool} {args : BitrateArgs} :
    (∃ n, args.normaliseBitrates jetson = some n ∧ n.Fit) ↔ BoundsFit jetson args := by
  cases h : args.noAdaptive with
  | false =>
    rw [fit_normaliseBitrates_iff_of_adaptive h, toInt_bppKbps_isSome_iff]
    constructor
    · rintro ⟨hdefault, hmax⟩
      refine ⟨fun _ => hdefault, fun hderives => ?_, hmax, fun hno => ?_, fun hno => ?_⟩
      · rw [noAdaptive_of_derivesMin hderives] at h
        exact nomatch h
      · rw [h] at hno
        exact nomatch hno
      · rw [h] at hno
        exact nomatch hno
    · intro hfit
      exact ⟨hfit.adaptiveMax h, hfit.max⟩
  | true =>
    rw [fit_normaliseBitrates_iff_of_noAdaptive h, toInt_jetsonKbps_isSome_iff,
      truncate_jetsonKbps_le_iff]
    constructor
    · rintro ⟨hderives, hmax, hstart, hmin⟩
      refine ⟨fun hno => ?_, hderives, hmax, fun _ => hstart, fun _ => hmin⟩
      rw [h] at hno
      exact nomatch hno
    · intro hfit
      exact ⟨hfit.jetsonMin, hfit.max, hfit.start h, hfit.min h⟩

theorem inOrder_normaliseBitrates {jetson : Bool} {args n : BitrateArgs}
    (h : args.normaliseBitrates jetson = some n) : n.InOrder := by
  obtain ⟨a, b, -, -, rfl⟩ := normaliseBitrates_eq_some_iff.mp h
  exact clampBounds_inOrder _

end BitrateArgs

section SetBitrate

/-! `SetBitrate` is the connection's; it accepts every `0 <= min <= start <= max`. -/

variable (setBitrate : BitrateSettings → Bool)

/-- **The bounds are acceptable exactly for the arguments that fit.** -/
theorem boundsAcceptable_iff (jetson : Bool) (args : BitrateArgs)
    (haccept : ∀ s : BitrateSettings, (∀ b ∈ s.bounds, 0 ≤ b) → s.bounds.Pairwise (· ≤ ·) →
      setBitrate s = true) :
    BoundsAcceptable jetson setBitrate args ↔ BoundsFit jetson args := by
  rw [← BitrateArgs.fit_normaliseBitrates_iff]
  constructor
  · rintro ⟨n, hn, call, hcall, -⟩
    exact ⟨n, hn, (applyBitrateSettings_isSome_iff n).mp ⟨call, hcall⟩⟩
  · rintro ⟨n, hn, hfit⟩
    obtain ⟨call, hcall⟩ := (applyBitrateSettings_isSome_iff n).mpr hfit
    refine ⟨n, hn, call, hcall, fun s hs => ?_⟩
    subst hs
    have hpos := bounds_pos hcall
    have horder := bounds_pairwise_le (BitrateArgs.inOrder_normaliseBitrates hn) hcall
    exact ⟨hpos, horder, haccept s (fun b hb => (hpos b hb).le) horder⟩

end SetBitrate

/-- The rule of `SetBitrate`: the bounds that are set are not negative and in order. -/
def setBitrateRule (s : BitrateSettings) : Bool :=
  decide (∀ b ∈ s.bounds, 0 ≤ b) && decide (s.bounds.Pairwise (· ≤ ·))

/-- The defaults of `Args`, for a camera at 1080p60 that keeps its resolution. -/
def fixed1080p60 : BitrateArgs where
  fps := 60
  width := 1920
  height := 1080
  subWidth := 0
  subHeight := 0
  liveStreamIdx := 0
  minBitrate := 0
  startBitrate := 0
  maxBitrate := 0
  hwAccel := true
  noAdaptive := true

/-- The floor that a Jetson derives at 1080p60 is acceptable. -/
theorem boundsAcceptable_iff_fixed1080p60 :
    BoundsAcceptable true setBitrateRule fixed1080p60 := by
  refine (boundsAcceptable_iff setBitrateRule true fixed1080p60 ?_).mpr ?_
  · intro s hpos horder
    rw [setBitrateRule, decide_eq_true hpos, decide_eq_true horder, Bool.and_self]
  · constructor <;> decide

/-- A maximum of 3 Gbps: `--max-bitrate 3000000`. -/
def threeGbps : BitrateArgs := { fixed1080p60 with maxBitrate := 3000000, noAdaptive := false }

/-- The maximum is above the largest `int` in bits per second. -/
theorem not_boundsAcceptable_threeGbps :
    ¬ BoundsAcceptable false setBitrateRule threeGbps := by
  rintro ⟨n, hn, call, hcall, -⟩
  have hfit : n.Fit := (applyBitrateSettings_isSome_iff n).mp ⟨call, hcall⟩
  have h := (BitrateArgs.fit_normaliseBitrates_iff.mp ⟨n, hn, hfit⟩).max
  exact absurd (h (by decide)) (by decide)

end PiWebrtc.Rtc
