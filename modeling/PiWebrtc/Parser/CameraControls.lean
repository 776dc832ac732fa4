import PiWebrtc.Lib.Rounding
import PiWebrtc.Rtc.CFloat

namespace PiWebrtc.Parser

open Rounding
open Rtc (CFloat)

/-!
# The controls of libcamera

In a build with libcamera `ParseArgs` reads the controls of the camera: five numbers are clamped,
seven texts looked up in tables, and a time, two gains, a window and the position of the lens read
from texts.  A number that is not one stays so.

* `setControls_cases` — which controls are accepted, and what is set then.

How the C++ library reads a number from a text is a parameter.
-/

/-! ### Checks that throw -/

/-- `ParseEnum`, with the text of what it throws. -/
def parseEnum {α : Type} (table : List (String × α)) (str : String) : Except String α :=
  match table.lookup str with
  | none => .error ("Invalid enum string: " ++ str)
  | some value => .ok value

/-- A check succeeds exactly if `A`, and then with a result that has `P`. -/
def Checked {α : Type} (x : Except String α) (A : Prop) (P : α → Prop) : Prop :=
  (A ∧ ∃ a, x = .ok a ∧ P a) ∨ ¬ A ∧ ∃ e, x = .error e

/-- One check after the other. -/
theorem Checked.bind {α β : Type} {A B : Prop} {x : Except String α} {f : α → Except String β}
    {P : α → Prop} {Q : β → Prop} (hx : Checked x A P) (hf : ∀ a, P a → Checked (f a) B Q) :
    Checked (x >>= f) (A ∧ B) Q := by
  rcases hx with ⟨hA, a, rfl, ha⟩ | ⟨hA, e, rfl⟩
  · rcases hf a ha with ⟨hB, hb⟩ | ⟨hB, he⟩
    · exact .inl ⟨⟨hA, hB⟩, hb⟩
    · exact .inr ⟨fun h => hB h.2, he⟩
  · exact .inr ⟨fun h => hA h.1, e, rfl⟩

theorem Checked.mono {α : Type} {A : Prop} {x : Except String α} {P Q : α → Prop}
    (hx : Checked x A P) (h : ∀ a, P a → Q a) : Checked x A Q := by
  rcases hx with ⟨hA, a, heq, ha⟩ | herror
  · exact .inl ⟨hA, a, heq, h a ha⟩
  · exact .inr herror

/-- The condition may be put in another way. -/
theorem Checked.congr {α : Type} {A B : Prop} {x : Except String α} {P : α → Prop}
    (hx : Checked x A P) (h : A ↔ B) : Checked x B P := by
  rwa [Checked, ← h]

/-- What a check gives is put into something else. -/
theorem Checked.map {α β : Type} {A : Prop} {x : Except String α} {P : α → Prop} {Q : β → Prop}
    (hx : Checked x A P) (f : α → β) (h : ∀ a, P a → Q (f a)) :
    Checked (x.bind fun a => .ok (f a)) A Q := by
  rcases hx with ⟨hA, a, rfl, ha⟩ | ⟨hA, e, rfl⟩
  · exact .inl ⟨hA, f a, rfl, h a ha⟩
  · exact .inr ⟨hA, e, rfl⟩

/-- A text is looked up. -/
theorem parseEnum_cases {α : Type} (table : List (String × α)) (str : String) :
    Checked (parseEnum table str) (str ∈ table.map Prod.fst) fun value => (str, value) ∈ table := by
  unfold parseEnum
  cases hlookup : table.lookup str with
  | none =>
    refine .inr ⟨fun hmem => ?_, _, rfl⟩
    obtain ⟨entry, hentry, rfl⟩ := List.mem_map.mp hmem
    have hne := List.lookup_eq_none_iff.mp hlookup entry hentry
    rw [bne_self_eq_false] at hne
    cases hne
  | some value =>
    obtain ⟨l₁, l₂, rfl, -⟩ := List.lookup_eq_some_iff.mp hlookup
    have hmem : (str, value) ∈ l₁ ++ (str, value) :: l₂ :=
      List.mem_append_right _ (List.mem_cons_self ..)
    exact .inl ⟨List.mem_map_of_mem hmem, value, rfl, hmem⟩

/-! ### The controls -/

/-- `AeMeteringModeEnum`. -/
inductive AeMeteringMode where
  | centreWeighted
  | spot
  | matrix
  | custom
  deriving DecidableEq, Repr

/-- `AeExposureModeEnum`. -/
inductive AeExposureMode where
  | normal
  | short
  | long
  | custom
  deriving DecidableEq, Repr

/-- `AwbModeEnum`. -/
inductive AwbMode where
  | auto
  | incandescent
  | tungsten
  | fluorescent
  | indoor
  | daylight
  | cloudy
  | custom
  deriving DecidableEq, Repr

/-- `NoiseReductionModeEnum`. -/
inductive NoiseReductionMode where
  | off
  | fast
  | highQuality
  | minimal
  deriving DecidableEq, Repr

/-- `AfModeEnum`. -/
inductive AfMode where
  | manual
  | auto
  | continuous
  deriving DecidableEq, Repr

/-- `AfRangeEnum`. -/
inductive AfRange where
  | normal
  | macroRange
  | full
  deriving DecidableEq, Repr

/-- `AfSpeedEnum`. -/
inductive AfSpeed where
  | normal
  | fast
  deriving DecidableEq, Repr

def aeMeteringTable : List (String × AeMeteringMode) :=
  [("centre", .centreWeighted), ("spot", .spot), ("average", .matrix), ("matrix", .matrix),
    ("custom", .custom)]

def exposureTable : List (String × AeExposureMode) :=
  [("normal", .normal), ("sport", .short), ("short", .short), ("long", .long),
    ("custom", .custom)]

def awbTable : List (String × AwbMode) :=
  [("auto", .auto), ("normal", .auto), ("incandescent", .incandescent), ("tungsten", .tungsten),
    ("fluorescent", .fluorescent), ("indoor", .indoor), ("daylight", .daylight),
    ("cloudy", .cloudy), ("custom", .custom)]

def denoiseTable : List (String × NoiseReductionMode) :=
  [("auto", .fast), ("off", .off), ("cdn_off", .minimal), ("cdn_fast", .fast),
    ("cdn_hq", .highQuality)]

/-- `default` is -1 there, which stands for no mode. -/
def afModeTable : List (String × Option AfMode) :=
  [("default", none), ("manual", some .manual), ("auto", some .auto),
    ("continuous", some .continuous)]

def afRangeTable : List (String × AfRange) :=
  [("normal", .normal), ("macro", .macroRange), ("full", .full)]

def afSpeedTable : List (String × AfSpeed) := [("normal", .normal), ("fast", .fast)]

/-- The units of a time, in nanoseconds. -/
def timeUnits : List (List Char × ℤ) :=
  [("min".toList, 60000000000), ("sec".toList, 1000000000), ("s".toList, 1000000000),
    ("ms".toList, 1000000), ("us".toList, 1000), ("ns".toList, 1)]

/-- How numbers are read: `std::stof` and `%f`, with the text behind the number, and `>>`. -/
structure FloatReaders where
  stof : List Char → Option (CFloat × List Char)
  scan : List Char → Option (CFloat × List Char)
  extract : List Char → Option CFloat

/-- The controls: as they are given, and as they are set.  A time is `none` where its conversion is
    undefined. -/
structure Controls where
  sharpness : CFloat := .finite 1
  contrast : CFloat := .finite 1
  brightness : CFloat := .finite 0
  saturation : CFloat := .finite 1
  ev : CFloat := .finite 0
  shutterText : List Char := ['0']
  shutter : Option ℤ := some 0
  aeMetering : String := "centre"
  aeMeteringMode : AeMeteringMode := .centreWeighted
  exposure : String := "normal"
  aeMode : AeExposureMode := .normal
  awb : String := "auto"
  awbMode : AwbMode := .auto
  autofocusMode : String := "default"
  afMode : Option AfMode := none
  awbgains : List Char := "0,0".toList
  awbGains : CFloat × CFloat := (.finite 0, .finite 0)
  denoise : String := "auto"
  denoiseMode : NoiseReductionMode := .off
  tuningFile : String := "-"
  tuningVariable : Option String := none
  afRange : String := "normal"
  afRangeMode : AfRange := .normal
  afSpeed : String := "normal"
  afSpeedMode : AfSpeed := .normal
  afWindow : List Char := "0,0,0,0".toList
  afWindowRect : List CFloat := .replicate 4 (.finite 0)
  lensPositionText : List Char := []
  lensPosition : Option CFloat := none
  setDefaultLensPosition : Bool := false
  deriving DecidableEq

/-- `duration_cast` of so many units to nanoseconds. -/
def nanoseconds (unit : ℤ) : CFloat → Option ℤ
  | .finite q => castInt (-9223372036854775808) 9223372036854775807 (single (q * single unit))
  | _ => none

/-- `TimeVal::set`, where a number without a unit counts microseconds; it is converted so at first
    in any case. -/
def setTime (readers : FloatReaders) (s : List Char) : Except String (Option ℤ) :=
  match readers.stof s with
  | none => .error "Invalid time string provided"
  | some (f, rest) =>
    .ok ((nanoseconds 1000 f).bind fun value =>
      match timeUnits.lookup rest with
      | none => some value
      | some unit => nanoseconds unit f)

/-- The numbers that `sscanf` reads, of at most `n` with a comma between them. -/
def sscanf (readers : FloatReaders) : ℕ → List Char → List CFloat
  | 0, _ => []
  | n + 1, text =>
    match readers.scan text with
    | none => []
    | some (f, ',' :: rest) => f :: sscanf readers n rest
    | some (f, _) => [f]

/-- `--awbgains`. -/
def setAwbGains (readers : FloatReaders) (text : List Char) : Except String (CFloat × CFloat) :=
  match sscanf readers 2 text with
  | [r, b] => .ok (r, b)
  | _ => .error "Invalid AWB gains"

/-- `--autofocus-window`. -/
def setAfWindow (readers : FloatReaders) (text : List Char) : List CFloat :=
  let rect := sscanf readers 4 text
  if rect.length ≠ 4 then .replicate 4 (.finite 0) else rect

/-- `--lens-position`: the position, if there is one, and whether it is the default one. -/
def setLensPosition (readers : FloatReaders) (c : Controls) :
    Except String (Option CFloat × Bool) :=
  match readers.extract c.lensPositionText with
  | some f => .ok (some f, c.setDefaultLensPosition)
  | none =>
    if c.lensPositionText = "default".toList then .ok (c.lensPosition, true)
    else if c.lensPositionText ≠ [] then
      .error ("Invalid lens position: " ++ String.ofList c.lensPositionText)
    else .ok (c.lensPosition, c.setDefaultLensPosition)

/-- `15.99f`. -/
def maxControl : ℚ := single (1599 / 100)

/-- What `ParseArgs` makes of the controls. -/
def setControls (readers : FloatReaders) (c : Controls) : Except String Controls := do
  let shutter ← setTime readers c.shutterText
  let aeMeteringMode ← parseEnum aeMeteringTable c.aeMetering
  let aeMode ← parseEnum exposureTable c.exposure
  let awbMode ← parseEnum awbTable c.awb
  let awbGains ← setAwbGains readers c.awbgains
  let denoiseMode ← parseEnum denoiseTable c.denoise
  let afMode ← parseEnum afModeTable c.autofocusMode
  let afRangeMode ← parseEnum afRangeTable c.afRange
  let afSpeedMode ← parseEnum afSpeedTable c.afSpeed
  let lens ← setLensPosition readers c
  .ok { c with
    sharpness := c.sharpness.clamp 0 maxControl
    contrast := c.contrast.clamp 0 maxControl
    brightness := c.brightness.clamp (-1) 1
    saturation := c.saturation.clamp 0 maxControl
    ev := c.ev.clamp (-10) 10
    shutter := shutter
    aeMeteringMode := aeMeteringMode
    aeMode := aeMode
    awbMode := awbMode
    awbGains := awbGains
    denoiseMode := denoiseMode
    tuningVariable := if c.tuningFile ≠ "-" then some c.tuningFile else c.tuningVariable
    afMode := afMode
    afRangeMode := afRangeMode
    afSpeedMode := afSpeedMode
    afWindowRect := setAfWindow readers c.afWindow
    lensPosition := lens.1
    setDefaultLensPosition := lens.2 }

/-! ### What is accepted -/

/-- **The controls are right**: the time and the gains can be read, so can the position of the lens
    where it is given as a number, and the other texts are in their tables. -/
structure ControlsAcceptable (readers : FloatReaders) (c : Controls) : Prop where
  shutter : (readers.stof c.shutterText).isSome = true
  aeMetering : c.aeMetering ∈ aeMeteringTable.map Prod.fst
  exposure : c.exposure ∈ exposureTable.map Prod.fst
  awb : c.awb ∈ awbTable.map Prod.fst
  awbgains : (sscanf readers 2 c.awbgains).length = 2
  denoise : c.denoise ∈ denoiseTable.map Prod.fst
  autofocusMode : c.autofocusMode ∈ afModeTable.map Prod.fst
  afRange : c.afRange ∈ afRangeTable.map Prod.fst
  afSpeed : c.afSpeed ∈ afSpeedTable.map Prod.fst
  lensPosition : (readers.extract c.lensPositionText).isSome = true ∨
    c.lensPositionText = "default".toList ∨ c.lensPositionText = []

/-- **What is set**, of the controls `c'` that were given as `c`. -/
structure ControlsSet (readers : FloatReaders) (c c' : Controls) : Prop where
  sharpness : CFloat.InRange 0 maxControl c.sharpness c'.sharpness
  contrast : CFloat.InRange 0 maxControl c.contrast c'.contrast
  brightness : CFloat.InRange (-1) 1 c.brightness c'.brightness
  saturation : CFloat.InRange 0 maxControl c.saturation c'.saturation
  ev : CFloat.InRange (-10) 10 c.ev c'.ev
  shutter : setTime readers c.shutterText = .ok c'.shutter
  aeMeteringMode : (c.aeMetering, c'.aeMeteringMode) ∈ aeMeteringTable
  aeMode : (c.exposure, c'.aeMode) ∈ exposureTable
  awbMode : (c.awb, c'.awbMode) ∈ awbTable
  awbGains : sscanf readers 2 c.awbgains = [c'.awbGains.1, c'.awbGains.2]
  denoiseMode : (c.denoise, c'.denoiseMode) ∈ denoiseTable
  tuningVariable : c.tuningFile ≠ "-" → c'.tuningVariable = some c.tuningFile
  afMode : (c.autofocusMode, c'.afMode) ∈ afModeTable
  afRangeMode : (c.afRange, c'.afRangeMode) ∈ afRangeTable
  afSpeedMode : (c.afSpeed, c'.afSpeedMode) ∈ afSpeedTable
  afWindow : c'.afWindowRect.length = 4
  lensPosition : ∀ f, readers.extract c.lensPositionText = some f → c'.lensPosition = some f
  setDefaultLensPosition : readers.extract c.lensPositionText = none →
    c.lensPositionText = "default".toList → c'.setDefaultLensPosition = true

theorem maxControl_nonneg : 0 ≤ maxControl := nearest_nonneg 23 (by norm_num)

section Controls

variable (readers : FloatReaders)

theorem setTime_cases (s : List Char) :
    Checked (setTime readers s) ((readers.stof s).isSome = true)
      fun value => setTime readers s = .ok value := by
  unfold setTime
  cases readers.stof s with
  | none => exact .inr ⟨Bool.false_ne_true, _, rfl⟩
  | some x => exact .inl ⟨rfl, _, rfl, rfl⟩

theorem setAwbGains_cases (text : List Char) :
    Checked (setAwbGains readers text) ((sscanf readers 2 text).length = 2)
      fun gains => sscanf readers 2 text = [gains.1, gains.2] := by
  unfold setAwbGains
  split
  case h_1 r b hread =>
    rw [hread]
    exact .inl ⟨rfl, _, rfl, rfl⟩
  case h_2 hread =>
    refine .inr ⟨fun hlength => ?_, _, rfl⟩
    obtain ⟨r, b, htwo⟩ := List.length_eq_two.mp hlength
    exact hread r b htwo

theorem setAfWindow_length (text : List Char) : (setAfWindow readers text).length = 4 := by
  unfold setAfWindow
  dsimp only
  split_ifs with hlength
  · exact List.length_replicate
  · exact not_not.mp hlength

theorem setLensPosition_cases (c : Controls) :
    Checked (setLensPosition readers c)
      ((readers.extract c.lensPositionText).isSome = true ∨
        c.lensPositionText = "default".toList ∨ c.lensPositionText = [])
      fun lens => (∀ f, readers.extract c.lensPositionText = some f → lens.1 = some f) ∧
        (readers.extract c.lensPositionText = none →
          c.lensPositionText = "default".toList → lens.2 = true) := by
  unfold setLensPosition
  cases readers.extract c.lensPositionText with
  | some f =>
    -- a number is taken, also one that is followed by something else
    refine .inl ⟨.inl rfl, _, rfl, fun f' hf => hf, ?_⟩
    rintro ⟨⟩
  | none =>
    dsimp only
    split_ifs with hdefault htext
    · refine .inl ⟨.inr (.inl hdefault), _, rfl, ?_, fun _ _ => rfl⟩
      rintro f ⟨⟩
    · refine .inr ⟨?_, _, rfl⟩
      rintro (h | h | h)
      · cases h
      · exact hdefault h
      · exact htext h
    · refine .inl ⟨.inr (.inr (not_not.mp htext)), _, rfl, ?_, fun _ h => absurd h hdefault⟩
      rintro f ⟨⟩

/-- **Which controls are accepted**: exactly those of which each is right. -/
theorem setControls_cases (c : Controls) :
    Checked (setControls readers c) (ControlsAcceptable readers c) (ControlsSet readers c) := by
  have hchecked : Checked (setControls readers c)
      ((readers.stof c.shutterText).isSome = true ∧ c.aeMetering ∈ aeMeteringTable.map Prod.fst ∧
        c.exposure ∈ exposureTable.map Prod.fst ∧ c.awb ∈ awbTable.map Prod.fst ∧
        (sscanf readers 2 c.awbgains).length = 2 ∧ c.denoise ∈ denoiseTable.map Prod.fst ∧
        c.autofocusMode ∈ afModeTable.map Prod.fst ∧ c.afRange ∈ afRangeTable.map Prod.fst ∧
        c.afSpeed ∈ afSpeedTable.map Prod.fst ∧
        ((readers.extract c.lensPositionText).isSome = true ∨
          c.lensPositionText = "default".toList ∨ c.lensPositionText = []))
      (ControlsSet readers c) := by
    -- one check after the other, in the order of the source
    refine (setTime_cases readers _).bind fun shutter hshutter => ?_
    refine (parseEnum_cases aeMeteringTable _).bind fun aeMeteringMode hmetering => ?_
    refine (parseEnum_cases exposureTable _).bind fun aeMode hexposure => ?_
    refine (parseEnum_cases awbTable _).bind fun awbMode hawb => ?_
    refine (setAwbGains_cases readers _).bind fun awbGains hgains => ?_
    refine (parseEnum_cases denoiseTable _).bind fun denoiseMode hdenoise => ?_
    refine (parseEnum_cases afModeTable _).bind fun afMode hmode => ?_
    refine (parseEnum_cases afRangeTable _).bind fun afRangeMode hrange => ?_
    refine (parseEnum_cases afSpeedTable _).bind fun afSpeedMode hspeed => ?_
    refine (setLensPosition_cases readers c).map _ fun lens hlens => ?_
    exact {
      sharpness := CFloat.clamp_inRange maxControl_nonneg _
      contrast := CFloat.clamp_inRange maxControl_nonneg _
      brightness := CFloat.clamp_inRange (by norm_num) _
      saturation := CFloat.clamp_inRange maxControl_nonneg _
      ev := CFloat.clamp_inRange (by norm_num) _
      shutter := hshutter
      aeMeteringMode := hmetering
      aeMode := hexposure
      awbMode := hawb
      awbGains := hgains
      denoiseMode := hdenoise
      tuningVariable := fun h => if_pos h
      afMode := hmode
      afRangeMode := hrange
      afSpeedMode := hspeed
      afWindow := setAfWindow_length readers _
      lensPosition := hlens.1
      setDefaultLensPosition := hlens.2 }
  refine hchecked.congr ⟨?_, fun h => ?_⟩
  · rintro ⟨h₁, h₂, h₃, h₄, h₅, h₆, h₇, h₈, h₉, h₁₀⟩
    exact ⟨h₁, h₂, h₃, h₄, h₅, h₆, h₇, h₈, h₉, h₁₀⟩
  · exact ⟨h.shutter, h.aeMetering, h.exposure, h.awb, h.awbgains, h.denoise, h.autofocusMode,
      h.afRange, h.afSpeed, h.lensPosition⟩

end Controls

end PiWebrtc.Parser
