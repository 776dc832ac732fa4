import PiWebrtc.Lib.Rounding
import Mathlib.Algebra.Order.Ring.Int

namespace PiWebrtc.Codecs

open Rounding

/-!
# The resolution gears of the Jetson encoder

`ScaleGears` takes the bitrates of a table, which are for 60 frames per second, to the frame rate
of the camera. The products are in `double`, the limits are truncated to `int`; the minimum has a
constant floor, and a gear without a cap gets a constant one.

* `gearsWellFormed_iff` — for every table whose gears are in order, the limits are well formed
  exactly when the lowest cap is not under the floor and the highest start is not over the
  constant cap.
* `scaleGears_wellFormed_iff` — the frame rates for which this holds, for both tables.
-/

structure Gear where
  width : ℤ
  height : ℤ
  minStartKbps : ℤ
  minKbps : ℤ
  maxKbps : ℤ
deriving DecidableEq, Repr

def kGearFps : ℤ := 60

def kH264Gears : List Gear :=
  [⟨480, 270, 0, 251, 750⟩, ⟨640, 360, 750, 570, 1350⟩, ⟨960, 540, 1350, 1026, 1350⟩,
    ⟨1280, 720, 1350, 1026, 2400⟩, ⟨1920, 1080, 2400, 1824, 0⟩]

def kAv1Gears : List Gear :=
  [⟨480, 270, 0, 342, 750⟩, ⟨640, 360, 750, 570, 1350⟩, ⟨960, 540, 1350, 1026, 1350⟩,
    ⟨1280, 720, 1350, 1026, 4500⟩, ⟨1920, 1080, 4500, 3420, 0⟩]

/-- `webrtc::VideoEncoder::ResolutionBitrateLimits`. -/
structure ResolutionBitrateLimits where
  frameSizePixels : ℤ
  minStartBitrateBps : ℤ
  minBitrateBps : ℤ
  maxBitrateBps : ℤ
deriving DecidableEq, Repr

/-- `1000.0 * fps / kGearFps`. -/
def scale (fps : ℤ) : ℚ := double (double (1000 * fps) / kGearFps)

/-- A bitrate of the table at a frame rate, before it is truncated. -/
def scaled (kbps fps : ℤ) : ℚ := double (kbps * scale fps)

/-- The cap of a gear; 100 Mbps stands in for "no cap". -/
def capBps (fps : ℤ) (g : Gear) : Option ℤ :=
  if g.maxKbps ≠ 0 then toInt (scaled g.maxKbps fps) else some 100000000

/-- One turn of the loop; `none` where a conversion to `int` is undefined. -/
def scaleGear (fps : ℤ) (g : Gear) : Option ResolutionBitrateLimits := do
  let maxBps ← capBps fps g
  let minStartBps ← toInt (scaled g.minStartKbps fps)
  let minBps ← toInt (scaled g.minKbps fps)
  return ⟨g.width * g.height, minStartBps, max minBps 30000, maxBps⟩

def scaleGears (gears : List Gear) (fps : ℤ) : Option (List ResolutionBitrateLimits) :=
  gears.mapM (scaleGear fps)

/-- The limits are computed without an overflow, each one is in order, and the minimum and the
    maximum do not decrease with the resolution. -/
def GearsWellFormed (gears : List Gear) (fps : ℤ) : Prop :=
  ∃ limits, scaleGears gears fps = some limits ∧
    (∀ l ∈ limits, l.minStartBitrateBps ≤ l.maxBitrateBps ∧ l.minBitrateBps ≤ l.maxBitrateBps) ∧
      ∀ l ∈ limits, ∀ l' ∈ limits, l.frameSizePixels ≤ l'.frameSizePixels →
        l.minBitrateBps ≤ l'.minBitrateBps ∧ l.maxBitrateBps ≤ l'.maxBitrateBps

/-! ### One bitrate -/

/-- The truncated bitrate. -/
def bps (kbps fps : ℤ) : ℤ := truncate (scaled kbps fps)

theorem le_scale {fps s : ℤ} (hs : |60 * s| < 9007199254740992) (h : 60 * s ≤ 1000 * fps) :
    (s : ℚ) ≤ scale fps := by
  have hnum : ((60 * s : ℤ) : ℚ) ≤ double (1000 * fps) := le_double hs (by exact_mod_cast h)
  refine le_double (lt_of_le_of_lt ?_ hs) ?_
  · rw [abs_mul]
    exact le_mul_of_one_le_left (abs_nonneg s) (by norm_num)
  · rw [kGearFps, le_div_iff₀ (by norm_num), mul_comm]
    exact_mod_cast hnum

theorem scale_le {fps s : ℤ} (hs : |60 * s| < 9007199254740992) (h : 1000 * fps ≤ 60 * s) :
    scale fps ≤ s := by
  have hnum : double (1000 * fps) ≤ ((60 * s : ℤ) : ℚ) := double_le hs (by exact_mod_cast h)
  refine double_le (lt_of_le_of_lt ?_ hs) ?_
  · rw [abs_mul]
    exact le_mul_of_one_le_left (abs_nonneg s) (by norm_num)
  · rw [kGearFps, div_le_iff₀ (by norm_num), mul_comm (s : ℚ)]
    exact_mod_cast hnum

theorem scale_nonneg {fps : ℤ} (h : 0 ≤ fps) : 0 ≤ scale fps := by
  have hle := @le_scale fps 0 (by norm_num) (by omega)
  exact_mod_cast hle

theorem scaled_mono {k k' fps : ℤ} (hfps : 0 ≤ fps) (h : k ≤ k') : scaled k fps ≤ scaled k' fps :=
  double_mono (mul_le_mul_of_nonneg_right (by exact_mod_cast h) (scale_nonneg hfps))

/-- A larger bitrate of the table is not smaller at the frame rate. -/
theorem bps_mono {k k' fps : ℤ} (hfps : 0 ≤ fps) (h : k ≤ k') : bps k fps ≤ bps k' fps :=
  truncate_mono (scaled_mono hfps h)

theorem scaled_nonneg {k fps : ℤ} (hk : 0 ≤ k) (hfps : 0 ≤ fps) : 0 ≤ scaled k fps :=
  nearest_nonneg 52 (mul_nonneg (by exact_mod_cast hk) (scale_nonneg hfps))

/-- Under the constant cap there is no overflow. -/
theorem toInt_scaled {k fps : ℤ} (hk : 0 ≤ k) (hfps : 0 ≤ fps) (h : bps k fps ≤ 100000000) :
    toInt (scaled k fps) = some (bps k fps) := by
  have hlt : scaled k fps < (100000001 : ℤ) :=
    (truncate_lt_iff (by norm_num)).mp (Int.lt_add_one_of_le h)
  refine toInt_eq_some_iff.mpr ⟨?_, hlt.trans (by norm_num), rfl⟩
  exact lt_of_lt_of_le (by norm_num) (scaled_nonneg hk hfps)

theorem bps_of_toInt {k fps n : ℤ} (h : toInt (scaled k fps) = some n) : bps k fps = n :=
  (toInt_eq_some_iff.mp h).2.2

/-! ### A table in order -/

/-- A table whose gears are in order, with its lowest cap and its highest bitrate, which is the
    start of a gear without a cap. -/
structure InGear (gears : List Gear) (low top : ℤ) : Prop where
  nonneg : ∀ g ∈ gears, 0 ≤ g.minStartKbps ∧ 0 ≤ g.minKbps ∧ 0 ≤ g.maxKbps
  capped : ∀ g ∈ gears, g.maxKbps ≠ 0 →
    g.minStartKbps ≤ g.maxKbps ∧ g.minKbps ≤ g.maxKbps ∧ low ≤ g.maxKbps
  ordered : ∀ g ∈ gears, ∀ g' ∈ gears, g.width * g.height ≤ g'.width * g'.height →
    g.minKbps ≤ g'.minKbps ∧ (g'.maxKbps = 0 ∨ g.maxKbps ≠ 0 ∧ g.maxKbps ≤ g'.maxKbps)
  le_top : ∀ g ∈ gears, g.minStartKbps ≤ top ∧ g.minKbps ≤ top ∧ g.maxKbps ≤ top
  exists_low : ∃ g ∈ gears, g.maxKbps = low ∧ low ≠ 0
  exists_top : ∃ g ∈ gears, g.maxKbps = 0 ∧ g.minStartKbps = top

/-- The limits of a gear, where nothing overflows. -/
def limitsOf (fps : ℤ) (g : Gear) : ResolutionBitrateLimits where
  frameSizePixels := g.width * g.height
  minStartBitrateBps := bps g.minStartKbps fps
  minBitrateBps := max (bps g.minKbps fps) 30000
  maxBitrateBps := if g.maxKbps ≠ 0 then bps g.maxKbps fps else 100000000

theorem limitsOf_of_scaleGear {fps : ℤ} {g : Gear} {l : ResolutionBitrateLimits}
    (h : scaleGear fps g = some l) : l = limitsOf fps g := by
  unfold scaleGear at h
  simp only [Option.bind_eq_bind, Option.bind_eq_some_iff] at h
  obtain ⟨hi, hhi, st, hst, lo, hlo, heq⟩ := h
  obtain rfl := Option.some.inj heq
  unfold capBps at hhi
  unfold limitsOf
  rw [bps_of_toInt hst, bps_of_toInt hlo]
  split_ifs at hhi ⊢
  · rw [bps_of_toInt hhi]
  · rw [Option.some.inj hhi]

variable {gears : List Gear} {low top fps : ℤ}

theorem scaleGear_of_le_cap (ht : InGear gears low top) (hfps : 0 ≤ fps)
    (htop : bps top fps ≤ 100000000) {g : Gear} (hg : g ∈ gears) :
    scaleGear fps g = some (limitsOf fps g) := by
  have hle : ∀ {k : ℤ}, k ≤ top → bps k fps ≤ 100000000 := fun h => (bps_mono hfps h).trans htop
  obtain ⟨hst0, hlo0, hhi0⟩ := ht.nonneg g hg
  obtain ⟨hst, hlo, hhi⟩ := ht.le_top g hg
  unfold scaleGear capBps limitsOf
  rw [toInt_scaled hst0 hfps (hle hst), toInt_scaled hlo0 hfps (hle hlo),
    toInt_scaled hhi0 hfps (hle hhi)]
  split_ifs <;> rfl

theorem scaleGears_of_le_cap (ht : InGear gears low top) (hfps : 0 ≤ fps)
    (htop : bps top fps ≤ 100000000) :
    scaleGears gears fps = some (gears.map (limitsOf fps)) := by
  have hall : ∀ gs : List Gear, (∀ g ∈ gs, g ∈ gears) →
      scaleGears gs fps = some (gs.map (limitsOf fps)) := by
    intro gs
    induction gs with
    | nil => exact fun _ => rfl
    | cons g gs ih =>
      intro h
      have hhead := scaleGear_of_le_cap ht hfps htop (h g List.mem_cons_self)
      have htail := ih fun g' hg' => h g' (List.mem_cons_of_mem g hg')
      unfold scaleGears at htail ⊢
      rw [List.mapM_cons, hhead, htail]
      rfl
  exact hall gears fun _ h => h

/-- The limits of a table are the limits of its gears. -/
theorem mem_limits_of_scaleGears {limits : List ResolutionBitrateLimits}
    (h : scaleGears gears fps = some limits) {g : Gear} (hg : g ∈ gears) :
    scaleGear fps g = some (limitsOf fps g) ∧ limitsOf fps g ∈ limits := by
  induction gears generalizing limits with
  | nil => exact absurd hg List.not_mem_nil
  | cons g' gs ih =>
    unfold scaleGears at h
    rw [List.mapM_cons] at h
    simp only [Option.bind_eq_bind, Option.bind_eq_some_iff] at h
    obtain ⟨l, hl, ls, hls, heq⟩ := h
    obtain rfl := Option.some.inj heq
    have hlimit := limitsOf_of_scaleGear hl
    obtain rfl | htail := List.mem_cons.mp hg
    · exact ⟨hlimit ▸ hl, hlimit ▸ List.mem_cons_self⟩
    · obtain ⟨hsome, hmem⟩ := ih hls htail
      exact ⟨hsome, List.mem_cons_of_mem l hmem⟩

/-- Between the floor and the constant cap the order of the table is the order of the limits. -/
theorem gearsWellFormed_of_le (ht : InGear gears low top) (hfps : 0 ≤ fps)
    (hlow : 30000 ≤ bps low fps) (htop : bps top fps ≤ 100000000) :
    GearsWellFormed gears fps := by
  have hcap : ∀ g ∈ gears, 30000 ≤ (limitsOf fps g).maxBitrateBps := by
    intro g hg
    unfold limitsOf
    dsimp only
    split_ifs with hmax
    · exact hlow.trans (bps_mono hfps (ht.capped g hg hmax).2.2)
    · norm_num
  have hle : ∀ {k : ℤ}, k ≤ top → bps k fps ≤ 100000000 := fun h => (bps_mono hfps h).trans htop
  refine ⟨_, scaleGears_of_le_cap ht hfps htop, ?_, ?_⟩
  · intro l hl
    obtain ⟨g, hg, rfl⟩ := List.mem_map.mp hl
    obtain ⟨hst, hlo, -⟩ := ht.le_top g hg
    have hfloor := hcap g hg
    unfold limitsOf at hfloor ⊢
    dsimp only at hfloor ⊢
    split_ifs at hfloor ⊢ with hmax
    · obtain ⟨hstart, hmin, -⟩ := ht.capped g hg hmax
      exact ⟨bps_mono hfps hstart, max_le (bps_mono hfps hmin) hfloor⟩
    · exact ⟨hle hst, max_le (hle hlo) hfloor⟩
  · intro l hl l' hl' hpixels
    obtain ⟨g, hg, rfl⟩ := List.mem_map.mp hl
    obtain ⟨g', hg', rfl⟩ := List.mem_map.mp hl'
    obtain ⟨hmin, hmax⟩ := ht.ordered g hg g' hg' hpixels
    refine ⟨max_le_max (bps_mono hfps hmin) le_rfl, ?_⟩
    have htop := hle (ht.le_top g hg).2.2
    unfold limitsOf
    dsimp only
    obtain huncapped | ⟨hcapped, hcaps⟩ := hmax
    · rw [if_neg (not_not.mpr huncapped)]
      split_ifs
      · exact htop
      · exact le_rfl
    · rw [if_pos hcapped]
      split_ifs
      · exact bps_mono hfps hcaps
      · exact htop

/-- A cap under the floor, or a start over the constant cap, is out of order. -/
theorem le_of_gearsWellFormed (ht : InGear gears low top) (h : GearsWellFormed gears fps) :
    30000 ≤ bps low fps ∧ bps top fps ≤ 100000000 := by
  obtain ⟨limits, hlimits, hrange, -⟩ := h
  constructor
  · obtain ⟨g, hg, hmax, hcapped⟩ := ht.exists_low
    have hmin := (hrange _ (mem_limits_of_scaleGears hlimits hg).2).2
    unfold limitsOf at hmin
    dsimp only at hmin
    rw [hmax, if_pos hcapped] at hmin
    exact (le_max_right _ _).trans hmin
  · obtain ⟨g, hg, hmax, htop⟩ := ht.exists_top
    have hstart := (hrange _ (mem_limits_of_scaleGears hlimits hg).2).1
    unfold limitsOf at hstart
    dsimp only at hstart
    rwa [if_neg (not_not.mpr hmax), htop] at hstart

/-- **The limits of a table in order are well formed exactly when its lowest cap is not under the
    floor and its highest start is not over the constant cap.** -/
theorem gearsWellFormed_iff (ht : InGear gears low top) (hfps : 0 ≤ fps) :
    GearsWellFormed gears fps ↔ 30000 ≤ bps low fps ∧ bps top fps ≤ 100000000 :=
  ⟨le_of_gearsWellFormed ht, fun h => gearsWellFormed_of_le ht hfps h.1 h.2⟩

/-! ### The two tables -/

theorem inGear_kH264Gears : InGear kH264Gears 750 2400 := by
  constructor <;> decide

theorem inGear_kAv1Gears : InGear kAv1Gears 750 4500 := by
  constructor <;> decide

theorem le_bps {k fps s : ℤ} (hk : 0 ≤ k) (hs : |60 * s| < 9007199254740992)
    (hks : |k * s| < 9007199254740992) (h : 60 * s ≤ 1000 * fps) : k * s ≤ bps k fps := by
  refine le_truncate (le_double hks ?_)
  push_cast
  exact mul_le_mul_of_nonneg_left (le_scale hs h) (by exact_mod_cast hk)

theorem bps_le {k fps s : ℤ} (hk : 0 ≤ k) (hs : |60 * s| < 9007199254740992)
    (hks : |k * s| < 9007199254740992) (h : 1000 * fps ≤ 60 * s) : bps k fps ≤ k * s := by
  refine truncate_le (double_le hks ?_)
  push_cast
  exact mul_le_mul_of_nonneg_left (scale_le hs h) (by exact_mod_cast hk)

/-- The lowest cap is over the floor from 3 frames per second on. -/
theorem floor_le_bps_iff {fps : ℤ} : 30000 ≤ bps 750 fps ↔ 3 ≤ fps := by
  constructor
  · intro h
    by_contra hlt
    have hle := @bps_le 750 fps 34 (by norm_num) (by norm_num)
      (by norm_num) (by omega)
    omega
  · intro h
    have hle := @le_bps 750 fps 50 (by norm_num) (by norm_num)
      (by norm_num) (by omega)
    omega

/-- At 2500 frames per second the start is the constant cap up to the roundings. -/
theorem bps_2400_le_iff {fps : ℤ} : bps 2400 fps ≤ 100000000 ↔ fps ≤ 2500 := by
  constructor
  · intro h
    by_contra hlt
    have hle := @le_bps 2400 fps 41683 (by norm_num) (by norm_num)
      (by norm_num) (by omega)
    omega
  · intro h
    have hcast : (fps : ℚ) ≤ 2500 := by exact_mod_cast h
    have hnum : double (1000 * fps) ≤ (2500000 : ℤ) :=
      double_le (by norm_num) (by push_cast; linarith)
    have hscale : scale fps ≤ 2500000 / 60 * (1 + 1 / 2 ^ 53) :=
      calc scale fps ≤ double (2500000 / 60) := by
            refine double_mono ?_
            rw [kGearFps]
            exact div_le_div_of_nonneg_right (by exact_mod_cast hnum) (by norm_num)
        _ ≤ 2500000 / 60 * (1 + 1 / 2 ^ 53) := double_le_of_nonneg (by norm_num)
    have hscaled : scaled 2400 fps < (100000001 : ℤ) :=
      calc scaled 2400 fps ≤ double (2400 * (2500000 / 60 * (1 + 1 / 2 ^ 53))) :=
            double_mono (by exact_mod_cast mul_le_mul_of_nonneg_left hscale (by norm_num))
        _ ≤ 2400 * (2500000 / 60 * (1 + 1 / 2 ^ 53)) * (1 + 1 / 2 ^ 53) :=
            double_le_of_nonneg (by norm_num)
        _ < (100000001 : ℤ) := by norm_num
    exact Int.lt_add_one_iff.mp ((truncate_lt_iff (by norm_num)).mpr hscaled)

theorem bps_4500_le_iff {fps : ℤ} : bps 4500 fps ≤ 100000000 ↔ fps ≤ 1333 := by
  constructor
  · intro h
    by_contra hlt
    have hle := @le_bps 4500 fps 22233 (by norm_num) (by norm_num)
      (by norm_num) (by omega)
    omega
  · intro h
    have hle := @bps_le 4500 fps 22217 (by norm_num) (by norm_num)
      (by norm_num) (by omega)
    omega

/-- **The limits are well formed exactly from 3 to 2500 frames per second, and with the table of
    AV1 to 1333.** -/
theorem scaleGears_wellFormed_iff (fps : ℤ) :
    (GearsWellFormed kH264Gears fps ↔ 3 ≤ fps ∧ fps ≤ 2500) ∧
      (GearsWellFormed kAv1Gears fps ↔ 3 ≤ fps ∧ fps ≤ 1333) := by
  constructor
  · constructor
    · intro h
      obtain ⟨hlow, htop⟩ := le_of_gearsWellFormed inGear_kH264Gears h
      have hfps := floor_le_bps_iff.mp hlow
      exact ⟨hfps, bps_2400_le_iff.mp htop⟩
    · rintro ⟨hlow, htop⟩
      exact gearsWellFormed_of_le inGear_kH264Gears (by omega) (floor_le_bps_iff.mpr hlow)
        (bps_2400_le_iff.mpr htop)
  · constructor
    · intro h
      obtain ⟨hlow, htop⟩ := le_of_gearsWellFormed inGear_kAv1Gears h
      exact ⟨floor_le_bps_iff.mp hlow, bps_4500_le_iff.mp htop⟩
    · rintro ⟨hlow, htop⟩
      exact gearsWellFormed_of_le inGear_kAv1Gears (by omega) (floor_le_bps_iff.mpr hlow)
        (bps_4500_le_iff.mpr htop)

/-- At one frame per second the lowest gear has a minimum of 30000 over a maximum of 12500. -/
theorem not_gearsWellFormed_oneFrame : ¬ GearsWellFormed kH264Gears 1 := by
  intro h
  have hlow := (le_of_gearsWellFormed inGear_kH264Gears h).1
  exact absurd (floor_le_bps_iff.mp hlow) (by decide)

end PiWebrtc.Codecs
