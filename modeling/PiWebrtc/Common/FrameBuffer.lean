import Mathlib.Algebra.Ring.Parity
import PiWebrtc.Lib.Raster

namespace PiWebrtc.Common

/-!
# Frame buffers

`V4L2FrameBuffer` keeps a frame in one piece of memory: rows of luma, `stride` bytes apart,
`plane_height` of them, and the chroma behind these.  `ToI420` finds the planes in there and
leaves the copying to libyuv, which rounds the size of the chroma up.

* `toI420_eq` — which byte of the buffer each sample of the picture is.
-/

/-- The formats that `ToI420` takes apart itself; any other one is libyuv's to know. -/
inductive PixelFormat where
  | yuv420
  | nv12
  | other (fourcc : UInt32)
  deriving DecidableEq, Repr

/-- A component of a picture. -/
inductive Component where
  | y
  | u
  | v
  deriving DecidableEq, Repr

/-- Half of a width or of a height, rounded up. -/
def half (n : ℕ) : ℕ := (n + 1) / 2

namespace Component

/-- The samples in a row. -/
def columns (width : ℕ) : Component → ℕ
  | y => width
  | u | v => half width

/-- The rows. -/
def rows (height : ℕ) : Component → ℕ
  | y => height
  | u | v => half height

/-- There is such a sample in a picture of that size. -/
def Within (j : Component) (width height r c : ℕ) : Prop :=
  r < j.rows height ∧ c < j.columns width

end Component

/-- A 4:2:0 picture: the sample of a component in a row and a column.  It is `none` when it
    was read outside of the memory. -/
abbrev I420 := Component → ℕ → ℕ → Option UInt8

namespace I420

/-- Every sample is there. -/
def Whole (width height : ℕ) (p : I420) : Prop :=
  ∀ j r c, Component.Within j width height r c → p j r c ≠ none

/-- The same picture. -/
def Agree (width height : ℕ) (p q : I420) : Prop :=
  ∀ j r c, Component.Within j width height r c → p j r c = q j r c

end I420

/-- libyuv.  A plane is given by its place in the memory and its stride. -/
structure Libyuv where
  i420Copy (mem : List UInt8) (y strideY u strideU v strideV width height : ℕ) : I420
  nv12ToI420 (mem : List UInt8) (y strideY uv strideUV width height : ℕ) : I420
  convertToI420 (mem : List UInt8) (size width height : ℕ) (fourcc : UInt32) : I420

/-- Where a sample is when the components are planes of their own. -/
def planarAt (y strideY u strideU v strideV : ℕ) : Component → ℕ → ℕ → ℕ
  | .y, r, c => y + r * strideY + c
  | .u, r, c => u + r * strideU + c
  | .v, r, c => v + r * strideV + c

/-- Where a sample is when the chroma components take turns. -/
def interleavedAt (y strideY uv strideUV : ℕ) : Component → ℕ → ℕ → ℕ
  | .y, r, c => y + r * strideY + c
  | .u, r, c => uv + r * strideUV + 2 * c
  | .v, r, c => uv + r * strideUV + (2 * c + 1)

/-- What is relied on: libyuv takes every sample of a picture from its place, the chroma being
    half as wide and half as high, rounded up. -/
structure Libyuv.Documented (lib : Libyuv) : Prop where
  i420Copy_eq : ∀ mem y strideY u strideU v strideV width height j r c,
    Component.Within j width height r c →
      lib.i420Copy mem y strideY u strideU v strideV width height j r c =
        mem[planarAt y strideY u strideU v strideV j r c]?
  nv12ToI420_eq : ∀ mem y strideY uv strideUV width height j r c,
    Component.Within j width height r c →
      lib.nv12ToI420 mem y strideY uv strideUV width height j r c =
        mem[interleavedAt y strideY uv strideUV j r c]?

/-- A libyuv that reads every sample from its place, also outside of the picture. -/
def Libyuv.reading : Libyuv where
  i420Copy mem y strideY u strideU v strideV _ _ := fun j r c =>
    mem[planarAt y strideY u strideU v strideV j r c]?
  nv12ToI420 mem y strideY uv strideUV _ _ := fun j r c =>
    mem[interleavedAt y strideY uv strideUV j r c]?
  convertToI420 _ _ _ _ _ := fun _ _ _ => none

theorem Libyuv.reading_documented : Libyuv.reading.Documented :=
  ⟨fun _ _ _ _ _ _ _ _ _ _ _ _ _ => rfl, fun _ _ _ _ _ _ _ _ _ _ _ => rfl⟩

/-- `V4L2FrameBuffer`, with the memory behind `Data`. -/
structure V4L2FrameBuffer where
  width : ℕ
  height : ℕ
  format : PixelFormat
  size : ℕ
  stride : ℕ
  planeHeight : ℕ
  data : List UInt8
  deriving DecidableEq, Repr

namespace V4L2FrameBuffer

/-- `Create`, with the memory that `AlignedMalloc` gives. -/
def create (width height size : ℕ) (format : PixelFormat) (memory : List UInt8) :
    V4L2FrameBuffer :=
  { width := width, height := height, format := format, size := size, stride := width,
    planeHeight := height, data := memory }

/-- `SetLayout`. -/
def setLayout (f : V4L2FrameBuffer) (stride planeHeight : ℕ) : V4L2FrameBuffer :=
  { f with stride := stride, planeHeight := planeHeight }

/-- `ToI420`. -/
def toI420 (lib : Libyuv) (f : V4L2FrameBuffer) : I420 :=
  match f.format with
  | .yuv420 =>
    let srcU := f.stride * f.planeHeight
    let srcV := srcU + (f.stride / 2) * (f.planeHeight / 2)
    lib.i420Copy f.data 0 f.stride srcU (f.stride / 2) srcV (f.stride / 2) f.width f.height
  | .nv12 =>
    lib.nv12ToI420 f.data 0 f.stride (f.stride * f.planeHeight) f.stride f.width f.height
  | .other fourcc => lib.convertToI420 f.data f.size f.width f.height fourcc

end V4L2FrameBuffer

/-- Where `ToI420` finds a sample in the memory of a frame, for the formats it knows. -/
def sampleAt (format : PixelFormat) (stride planeHeight : ℕ) : Component → ℕ → ℕ → ℕ :=
  match format with
  | .nv12 => interleavedAt 0 stride (stride * planeHeight) stride
  | _ => planarAt 0 stride (stride * planeHeight) (stride / 2)
      (stride * planeHeight + (stride / 2) * (planeHeight / 2)) (stride / 2)

/-- One of the formats that `ToI420` takes apart itself. -/
def PixelFormat.Raw (format : PixelFormat) : Prop := format = .yuv420 ∨ format = .nv12

/-- **The byte of the buffer that a sample is.** -/
theorem toI420_eq {lib : Libyuv} (hlib : lib.Documented) (f : V4L2FrameBuffer)
    (hformat : f.format.Raw) {j : Component} {r c : ℕ} (hin : j.Within f.width f.height r c) :
    f.toI420 lib j r c = f.data[sampleAt f.format f.stride f.planeHeight j r c]? := by
  rcases hformat with hformat | hformat <;> rw [V4L2FrameBuffer.toI420, hformat]
  · exact hlib.i420Copy_eq _ _ _ _ _ _ _ _ _ j r c hin
  · exact hlib.nv12ToI420_eq _ _ _ _ _ _ _ j r c hin

/-! ### Halves -/

theorem half_of_even {n : ℕ} (h : Even n) : half n = n / 2 := by
  obtain ⟨k, rfl⟩ := h
  rw [half]
  omega

theorem half_of_not_even {n : ℕ} (h : ¬ Even n) : half n = n / 2 + 1 := by
  rw [Nat.not_even_iff_odd] at h
  obtain ⟨k, rfl⟩ := h
  rw [half]
  omega

theorem half_pos {n : ℕ} (h : 1 ≤ n) : 0 < half n := by
  rw [half]
  omega

theorem half_le (n : ℕ) : half n ≤ n := by
  rw [half]
  omega

theorem div_two_le_half (n : ℕ) : n / 2 ≤ half n := Nat.div_le_div_right (Nat.le_succ n)

end PiWebrtc.Common
