import PiWebrtc.Common.FrameBuffer

namespace PiWebrtc.Codecs

open Raster Common

/-!
# Decoded frames

`FfmpegDecoder::Output` has libavutil pack the planes of a decoded frame without gaps, the
chroma rounded up, and gives the packed frame away as one with the layout of its size.

* `packed_sample` — where libavutil puts each sample;
* `output_whole` — `ToI420` reads only inside of the buffer, for every size;
* `output_agrees_iff` — it finds the samples where they are exactly when both sides are even.
-/

/-- `AVPixelFormat`, as far as `Output` tells its values apart. -/
inductive AVPixelFormat where
  | yuv420p
  | yuvj420p
  | other (number : ℕ)
  deriving DecidableEq, Repr

/-- `AVFrame`.  The bytes of a plane are counted from where its pointer points to, and a line
    size may be negative. -/
structure AVFrame where
  format : AVPixelFormat
  width : ℕ
  height : ℕ
  data : Component → ℤ → UInt8
  linesize : Component → ℤ

namespace AVFrame

/-- The frame is 8-bit 4:2:0. -/
def Planar (frame : AVFrame) : Prop := frame.format = .yuv420p ∨ frame.format = .yuvj420p

/-- A sample of the decoded picture. -/
def sample (frame : AVFrame) (j : Component) (r c : ℕ) : UInt8 :=
  frame.data j (r * frame.linesize j + c)

end AVFrame

/-- libavutil, for `AV_PIX_FMT_YUV420P`. -/
structure Libav where
  imageGetBufferSize (width height align : ℕ) : ℕ
  imageCopyToBuffer (dst : List UInt8) (size : ℕ) (data : Component → ℤ → UInt8)
    (linesize : Component → ℤ) (width height align : ℕ) : List UInt8
  getPixFmtName (format : AVPixelFormat) : String

/-- The planes without gaps, one after the other. -/
def packed (frame : AVFrame) : List UInt8 :=
  tight frame.width frame.height (frame.sample .y) ++
    (tight (half frame.width) (half frame.height) (frame.sample .u) ++
      tight (half frame.width) (half frame.height) (frame.sample .v))

/-- What is relied on: with an alignment of one, the planes are packed without gaps, the chroma
    being half as wide and half as high, rounded up. -/
structure Libav.Documented (av : Libav) : Prop where
  size_eq : ∀ width height, av.imageGetBufferSize width height 1 =
    width * height + 2 * (half width * half height)
  copy_eq : ∀ (frame : AVFrame) (dst : List UInt8),
    dst.length = av.imageGetBufferSize frame.width frame.height 1 →
      av.imageCopyToBuffer dst dst.length frame.data frame.linesize frame.width frame.height 1 =
        packed frame

/-- A libavutil that packs the planes whatever the alignment is. -/
def Libav.packing : Libav where
  imageGetBufferSize width height _ := width * height + 2 * (half width * half height)
  imageCopyToBuffer _ _ data linesize width height _ :=
    packed ⟨.yuv420p, width, height, data, linesize⟩
  getPixFmtName
    | .yuv420p => "yuv420p"
    | .yuvj420p => "yuvj420p"
    | .other _ => "unknown"

theorem Libav.packing_documented : Libav.packing.Documented :=
  ⟨fun _ _ => rfl, fun _ _ _ => rfl⟩

/-- `FfmpegDecoder`: whether an unsupported format was reported. -/
structure FfmpegDecoder where
  formatReported : Bool
  deriving DecidableEq, Repr

/-- What a call of `Output` leaves behind: what was printed and what `on_capture` got. -/
structure DecoderOutput where
  decoder : FfmpegDecoder
  errors : List String
  captured : Option V4L2FrameBuffer
  deriving DecidableEq, Repr

/-- `Output`, with the memory that `AlignedMalloc` gives for a size. -/
def FfmpegDecoder.output (av : Libav) (malloc : ℕ → List UInt8) (d : FfmpegDecoder)
    (frame : AVFrame) : DecoderOutput :=
  if frame.format ≠ .yuv420p ∧ frame.format ≠ .yuvj420p then
    if d.formatReported then ⟨d, [], none⟩
    else
      ⟨{ d with formatReported := true }, ["Decoded frames are " ++ av.getPixFmtName frame.format ++
        "; only 8-bit 4:2:0 is supported."], none⟩
  else
    let size := av.imageGetBufferSize frame.width frame.height 1
    let buffer := V4L2FrameBuffer.create frame.width frame.height size .yuv420 (malloc size)
    ⟨d, [], some { buffer with
      data := av.imageCopyToBuffer buffer.data size frame.data frame.linesize frame.width
        frame.height 1 }⟩

/-- **The buffer that is given away, converted, is the decoded picture**, for every frame of
    that size. -/
def OutputAgrees (av : Libav) (yuv : Libyuv) (width height : ℕ) : Prop :=
  ∀ (d : FfmpegDecoder) (malloc : ℕ → List UInt8) (frame : AVFrame), frame.Planar →
    frame.width = width → frame.height = height → (∀ size, (malloc size).length = size) →
      ∃ buffer, (d.output av malloc frame).captured = some buffer ∧
        ∀ j r c, Component.Within j width height r c →
          buffer.toI420 yuv j r c = some (frame.sample j r c)

/-! ### The packed planes -/

section Packed

variable {frame : AVFrame} {j : Component} {r c : ℕ}

theorem length_packed (frame : AVFrame) : (packed frame).length =
    frame.width * frame.height + 2 * (half frame.width * half frame.height) := by
  rw [packed, List.length_append, List.length_append, length_tight, length_tight, length_tight,
    Nat.two_mul, Nat.mul_comm frame.height, Nat.mul_comm (half frame.height)]

/-- Where a sample is in the packed planes. -/
def packedAt (width height : ℕ) : Component → ℕ → ℕ → ℕ :=
  planarAt 0 width (height * width) (half width)
    (height * width + half height * half width) (half width)

/-- **Each sample is at its place.** -/
theorem packed_sample (frame : AVFrame) (hin : j.Within frame.width frame.height r c) :
    (packed frame)[packedAt frame.width frame.height j r c]? = some (frame.sample j r c) := by
  obtain ⟨hr, hc⟩ := hin
  have hlt := row_col_lt hr hc
  cases j
  case y =>
    rw [packed, packedAt, planarAt, Nat.zero_add, List.getElem?_append_left]
    · exact getElem?_tight hr hc
    · rw [length_tight]
      exact hlt
  case u =>
    rw [packed, packedAt, planarAt, Nat.add_assoc, List.getElem?_append_right, length_tight,
      Nat.add_sub_cancel_left, List.getElem?_append_left]
    · exact getElem?_tight hr hc
    · rw [length_tight]
      exact hlt
    · rw [length_tight]
      exact Nat.le_add_right _ _
  case v =>
    rw [packed, packedAt, planarAt, Nat.add_assoc, Nat.add_assoc, List.getElem?_append_right,
      length_tight, Nat.add_sub_cancel_left, List.getElem?_append_right, length_tight,
      Nat.add_sub_cancel_left]
    · exact getElem?_tight hr hc
    · rw [length_tight]
      exact Nat.le_add_right _ _
    · rw [length_tight]
      exact Nat.le_add_right _ _

end Packed

/-! ### The converted buffer -/

section Output

variable {av : Libav} {yuv : Libyuv} {malloc : ℕ → List UInt8} {frame : AVFrame} {j : Component}
  {r c : ℕ}

/-- What `Output` gives away for a frame it supports. -/
theorem output_captured (hav : av.Documented) (hplanar : frame.Planar)
    (hmalloc : ∀ size, (malloc size).length = size) (d : FfmpegDecoder) :
    (d.output av malloc frame).captured = some
      { V4L2FrameBuffer.create frame.width frame.height
          (av.imageGetBufferSize frame.width frame.height 1) .yuv420 [] with
        data := packed frame } := by
  have hsupported : ¬ (frame.format ≠ .yuv420p ∧ frame.format ≠ .yuvj420p) := by
    rintro ⟨hp, hj⟩
    exact hplanar.elim hp hj
  have hcopy := hav.copy_eq frame (malloc (av.imageGetBufferSize frame.width frame.height 1))
    (hmalloc _)
  rw [hmalloc] at hcopy
  rw [FfmpegDecoder.output, if_neg hsupported]
  dsimp only [V4L2FrameBuffer.create]
  rw [hcopy]

/-- The byte that `ToI420` takes for a sample. -/
theorem toI420_packed (hyuv : yuv.Documented) (frame : AVFrame) (size : ℕ)
    (hin : j.Within frame.width frame.height r c) :
    V4L2FrameBuffer.toI420 yuv
        { V4L2FrameBuffer.create frame.width frame.height size .yuv420 [] with
          data := packed frame } j r c =
      (packed frame)[sampleAt .yuv420 frame.width frame.height j r c]? :=
  toI420_eq hyuv _ (.inl rfl) hin

/-- **`ToI420` reads only inside of the buffer**, for a picture of any size. -/
theorem output_whole (hyuv : yuv.Documented) (size : ℕ) :
    I420.Whole frame.width frame.height (V4L2FrameBuffer.toI420 yuv
      { V4L2FrameBuffer.create frame.width frame.height size .yuv420 [] with
        data := packed frame }) := by
  intro j r c hin
  rw [toI420_packed hyuv frame size hin, Ne, List.getElem?_eq_none_iff, Nat.not_le, length_packed]
  obtain ⟨hr, hc⟩ := hin
  have hlt := row_col_lt hr hc
  -- the rows are read closer together than they are
  have hclose : r * (frame.width / 2) ≤ r * half frame.width :=
    Nat.mul_le_mul_left r (div_two_le_half _)
  have hskip : frame.width / 2 * (frame.height / 2) ≤ half frame.width * half frame.height :=
    Nat.mul_le_mul (div_two_le_half _) (div_two_le_half _)
  have hsize : frame.height * frame.width = frame.width * frame.height := Nat.mul_comm _ _
  have hhalf : half frame.height * half frame.width = half frame.width * half frame.height :=
    Nat.mul_comm _ _
  cases j <;> simp only [sampleAt, planarAt, Component.rows, Component.columns] at hlt ⊢ <;> omega

/-- With even sides, the samples are where `ToI420` looks for them. -/
theorem sampleAt_of_even (hw : Even frame.width) (hh : Even frame.height) :
    sampleAt .yuv420 frame.width frame.height = packedAt frame.width frame.height := by
  rw [packedAt, half_of_even hw, half_of_even hh, Nat.mul_comm frame.height,
    Nat.mul_comm (frame.height / 2)]
  rfl

/-- With an odd side, the first sample of `v` is taken from among those of `u`. -/
theorem exists_u_of_odd {width height : ℕ} (hw : 1 ≤ width) (hh : 1 ≤ height)
    (hodd : ¬ (Even width ∧ Even height)) :
    ∃ r c, Component.Within .u width height r c ∧
      sampleAt .yuv420 width height .v 0 0 = packedAt width height .u r c := by
  have hlt : width / 2 * (height / 2) < half height * half width := by
    rw [Nat.mul_comm]
    by_cases heven : Even height
    · have hwodd : ¬ Even width := fun h => hodd ⟨h, heven⟩
      refine Nat.mul_lt_mul_of_le_of_lt (div_two_le_half _) ?_ (half_pos hh)
      rw [half_of_not_even hwodd]
      exact Nat.lt_succ_self _
    · refine Nat.mul_lt_mul_of_lt_of_le ?_ (div_two_le_half _) (half_pos hw)
      rw [half_of_not_even heven]
      exact Nat.lt_succ_self _
  refine ⟨width / 2 * (height / 2) / half width, width / 2 * (height / 2) % half width,
    ⟨(Nat.div_lt_iff_lt_mul (half_pos hw)).mpr hlt, Nat.mod_lt _ (half_pos hw)⟩, ?_⟩
  rw [packedAt, planarAt, Nat.add_assoc, Nat.div_add_mod', Nat.mul_comm height]
  show width * height + width / 2 * (height / 2) + 0 * (width / 2) + 0 = _
  rw [Nat.zero_mul, Nat.add_zero]

/-- A frame whose second chroma component is not like the rest. -/
def tintedFrame (width height : ℕ) : AVFrame where
  format := .yuv420p
  width := width
  height := height
  data j _ := if j = .v then 1 else 0
  linesize j := j.columns width

theorem not_outputAgrees_of_odd {width height : ℕ} (hav : av.Documented) (hyuv : yuv.Documented)
    (hw : 1 ≤ width) (hh : 1 ≤ height) (hodd : ¬ (Even width ∧ Even height)) :
    ¬ OutputAgrees av yuv width height := by
  intro hagrees
  obtain ⟨buffer, hcaptured, hsamples⟩ := hagrees ⟨false⟩ (fun size => List.replicate size 0)
    (tintedFrame width height) (.inl rfl) rfl rfl fun size => List.length_replicate
  rw [output_captured hav (.inl rfl) fun size => List.length_replicate] at hcaptured
  obtain rfl := Option.some.inj hcaptured
  obtain ⟨r, c, hin, hplace⟩ := exists_u_of_odd hw hh hodd
  have hfirst : Component.Within .v width height 0 0 := ⟨half_pos hh, half_pos hw⟩
  have hread : some (0 : UInt8) = some 1 :=
    calc some (0 : UInt8) = (packed (tintedFrame width height))[packedAt width height .u r c]? :=
          (packed_sample (tintedFrame width height) hin).symm
      _ = (packed (tintedFrame width height))[sampleAt .yuv420 width height .v 0 0]? := by
          rw [hplace]
      _ = _ := (toI420_packed hyuv (tintedFrame width height) _ hfirst).symm
      _ = some 1 := hsamples .v 0 0 hfirst
  exact absurd hread (by decide)

/-- **The converted buffer is the decoded picture exactly when both sides are even.** -/
theorem output_agrees_iff (hav : av.Documented) (hyuv : yuv.Documented) {width height : ℕ}
    (hw : 1 ≤ width) (hh : 1 ≤ height) :
    OutputAgrees av yuv width height ↔ Even width ∧ Even height := by
  constructor
  · intro hagrees
    by_contra hodd
    exact not_outputAgrees_of_odd hav hyuv hw hh hodd hagrees
  · rintro ⟨hweven, hheven⟩ d malloc frame hplanar rfl rfl hmalloc
    refine ⟨_, output_captured hav hplanar hmalloc d, fun j r c hin => ?_⟩
    rw [toI420_packed hyuv frame _ hin, sampleAt_of_even hweven hheven]
    exact packed_sample frame hin

/-- In a frame of three by two, a sample of `u` is shown as one of `v`. -/
theorem not_outputAgrees_oddWidth : ¬ OutputAgrees Libav.packing Libyuv.reading 3 2 :=
  not_outputAgrees_of_odd Libav.packing_documented Libyuv.reading_documented (by decide)
    (by decide) (by decide)

theorem output_agrees_iff_vga : OutputAgrees Libav.packing Libyuv.reading 640 480 :=
  (output_agrees_iff Libav.packing_documented Libyuv.reading_documented (by decide)
    (by decide)).mpr ⟨by decide, by decide⟩

end Output

end PiWebrtc.Codecs
