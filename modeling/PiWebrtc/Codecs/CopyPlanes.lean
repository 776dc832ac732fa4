import PiWebrtc.Common.FrameBuffer

namespace PiWebrtc.Codecs

open Raster Common

/-!
# Repacking a frame

When the driver has another layout than the frame, `EmplaceBuffer` does not copy the frame as
it is, but row by row with `CopyPlanes`.  That halves the size of the picture for the chroma
without rounding up.

* `copyPlanes_yuv420_spec`, `copyPlanes_nv12_spec` — what is copied, and that nothing is
  written outside the driver's frame;
* `last_not_copied` — the last chroma sample of a picture with an odd side is not;
* `copyPlanes_preserves_iff` — the driver sees the same picture exactly when both sides are
  even.
-/

/-- The layout of `output_`. -/
structure OutputLayout where
  bytesperline : ℕ
  height : ℕ
  deriving DecidableEq, Repr

/-- `NeedsRepack`. -/
def needsRepack (output : OutputLayout) (buffer : V4L2FrameBuffer) : Bool :=
  (buffer.format = .yuv420 || buffer.format = .nv12) &&
    (buffer.stride != output.bytesperline || buffer.planeHeight != output.height)

/-- `CopyRows`; `none` if that reaches outside of one of the memories. -/
def copyRows (dst : List UInt8) (dstStart dstStride : ℕ) (src : List UInt8)
    (srcStart srcStride rowBytes rows : ℕ) : Option (List UInt8) :=
  blit dst ⟨dstStart, dstStride, rowBytes, rows⟩ src ⟨srcStart, srcStride, rowBytes, rows⟩ rows

/-- `CopyPlanes`, with the memory that is written. -/
def copyPlanes (output : OutputLayout) (buffer : V4L2FrameBuffer) (dst : List UInt8) :
    Option (List UInt8) :=
  let src := buffer.data
  let width := buffer.width
  let height := buffer.height
  let srcStride := buffer.stride
  let dstStride := output.bytesperline
  let srcChroma := srcStride * buffer.planeHeight
  let dstChroma := dstStride * output.height
  (copyRows dst 0 dstStride src 0 srcStride width height).bind fun dst =>
    if buffer.format = .nv12 then
      copyRows dst dstChroma dstStride src srcChroma srcStride width (height / 2)
    else
      let srcUSize := (srcStride / 2) * (buffer.planeHeight / 2)
      let dstUSize := (dstStride / 2) * (output.height / 2)
      (copyRows dst dstChroma (dstStride / 2) src srcChroma (srcStride / 2) (width / 2)
        (height / 2)).bind fun dst =>
          copyRows dst (dstChroma + dstUSize) (dstStride / 2) src (srcChroma + srcUSize)
            (srcStride / 2) (width / 2) (height / 2)

/-- The bytes of a frame with this layout. -/
def frameBytes (format : PixelFormat) (stride planeHeight : ℕ) : ℕ :=
  match format with
  | .nv12 => stride * planeHeight + stride * (planeHeight / 2)
  | _ => stride * planeHeight + 2 * ((stride / 2) * (planeHeight / 2))

/-- The driver sees the picture of the frame, and nothing outside its own frame was written. -/
def Repacks (lib : Libyuv) (output : OutputLayout) (buffer : V4L2FrameBuffer)
    (dst : List UInt8) : Prop :=
  ∃ d, copyPlanes output buffer dst = some d ∧ d.length = dst.length ∧
    (∀ a, frameBytes buffer.format output.bytesperline output.height ≤ a → d[a]? = dst[a]?) ∧
    I420.Agree buffer.width buffer.height
      (({ buffer with data := d }.setLayout output.bytesperline output.height).toI420 lib)
      (buffer.toI420 lib)

/-- **Repacking preserves the picture**, whatever is in the frame and in the driver's memory:
    the frame holds the whole picture, and both have the size of their layout. -/
def PreservesPicture (lib : Libyuv) (output : OutputLayout) (shape : V4L2FrameBuffer) : Prop :=
  ∀ data dst : List UInt8,
    I420.Whole shape.width shape.height ({ shape with data := data }.toI420 lib) →
    frameBytes shape.format shape.stride shape.planeHeight ≤ data.length →
    frameBytes shape.format output.bytesperline output.height ≤ dst.length →
      Repacks lib output { shape with data := data } dst

/-! ### The planes that are copied -/

section Planes

variable {w h stride planeHeight : ℕ}

/-- The luma rows of the picture. -/
def lumaPlane (w h stride : ℕ) : Plane := ⟨0, stride, w, h⟩

/-- The rows of the first chroma plane, as far as they are copied. -/
def uPlane (w h stride planeHeight : ℕ) : Plane :=
  ⟨stride * planeHeight, stride / 2, w / 2, h / 2⟩

/-- The rows of the second one. -/
def vPlane (w h stride planeHeight : ℕ) : Plane :=
  ⟨stride * planeHeight + (stride / 2) * (planeHeight / 2), stride / 2, w / 2, h / 2⟩

/-- The rows of the plane that both chroma components share. -/
def uvPlane (w h stride planeHeight : ℕ) : Plane := ⟨stride * planeHeight, stride, w, h / 2⟩

/-- The planes that are copied of a picture of that size. -/
def planes (format : PixelFormat) (w h stride planeHeight : ℕ) : List Plane :=
  match format with
  | .nv12 => [lumaPlane w h stride, uvPlane w h stride planeHeight]
  | _ => [lumaPlane w h stride, uPlane w h stride planeHeight, vPlane w h stride planeHeight]

theorem luma_rows_le (stride : ℕ) (hh : h ≤ planeHeight) : h * stride ≤ stride * planeHeight := by
  rw [Nat.mul_comm stride]
  exact Nat.mul_le_mul_right _ hh

theorem chroma_rows_le (stride : ℕ) (hh : h ≤ planeHeight) :
    h / 2 * stride ≤ stride * (planeHeight / 2) :=
  luma_rows_le stride (Nat.div_le_div_right hh)

/-- They are inside the frame. -/
theorem planes_inside (format : PixelFormat) (hw : w ≤ stride) (hh : h ≤ planeHeight) :
    ∀ p ∈ planes format w h stride planeHeight,
      p.Inside (frameBytes format stride planeHeight) := by
  have hw2 : w / 2 ≤ stride / 2 := Nat.div_le_div_right hw
  have hluma : h * stride ≤ stride * planeHeight := luma_rows_le _ hh
  have hu : h / 2 * (stride / 2) ≤ stride / 2 * (planeHeight / 2) := chroma_rows_le _ hh
  have huv : h / 2 * stride ≤ stride * (planeHeight / 2) := chroma_rows_le _ hh
  cases format <;> simp only [planes, frameBytes, List.forall_mem_cons, List.not_mem_nil,
    false_imp_iff, implies_true, and_true]
  case nv12 => exact ⟨⟨hw, by dsimp only [lumaPlane]; omega⟩, ⟨hw, by dsimp only [uvPlane]; omega⟩⟩
  all_goals
    exact ⟨⟨hw, by dsimp only [lumaPlane]; omega⟩, ⟨hw2, by dsimp only [uPlane]; omega⟩,
      ⟨hw2, by dsimp only [vPlane]; omega⟩⟩

/-- They follow each other. -/
theorem planes_before (format : PixelFormat) (w stride : ℕ) (hh : h ≤ planeHeight) :
    (planes format w h stride planeHeight).Pairwise Plane.Before := by
  have hluma : h * stride ≤ stride * planeHeight := luma_rows_le _ hh
  have hu : h / 2 * (stride / 2) ≤ stride / 2 * (planeHeight / 2) := chroma_rows_le _ hh
  cases format <;> simp only [planes, List.pairwise_cons, List.forall_mem_cons, List.not_mem_nil,
    false_imp_iff, implies_true, and_true, List.Pairwise.nil, Plane.Before, lumaPlane, uPlane,
    vPlane, uvPlane] <;> omega

end Planes

/-! ### What is copied -/

section Copies

variable {output : OutputLayout} {buffer : V4L2FrameBuffer}

/-- The planes of the driver's frame, each with the plane it is copied from. -/
def copies (output : OutputLayout) (buffer : V4L2FrameBuffer) : List (Plane × Plane) :=
  (planes buffer.format buffer.width buffer.height output.bytesperline output.height).zip
    (planes buffer.format buffer.width buffer.height buffer.stride buffer.planeHeight)

theorem copyPlanes_eq (output : OutputLayout) (buffer : V4L2FrameBuffer) (dst : List UInt8) :
    copyPlanes output buffer dst = blits buffer.data (copies output buffer) dst := by
  have hlast : ∀ o : Option (List UInt8), (o.bind fun d => some d) = o := Option.bind_fun_some
  cases hformat : buffer.format <;>
    simp only [copyPlanes, copyRows, copies, planes, hformat, blits, List.zip_cons_cons,
      List.zip_nil_right, reduceCtorEq, if_true, if_false, lumaPlane, uPlane, vPlane, uvPlane,
      hlast]

/-- Both sides of a copy have the same rows. -/
theorem copies_same : ∀ x ∈ copies output buffer, x.1.width = x.2.width ∧ x.1.rows = x.2.rows := by
  cases hformat : buffer.format <;>
    simp only [copies, planes, hformat, List.zip_cons_cons, List.zip_nil_right,
      List.forall_mem_cons, List.not_mem_nil, false_imp_iff, implies_true, and_true, lumaPlane,
      uPlane, vPlane, uvPlane]

/-- A layout with room for the picture. -/
structure Roomy (buffer : V4L2FrameBuffer) (stride planeHeight : ℕ) : Prop where
  width_le : buffer.width ≤ stride
  height_le : buffer.height ≤ planeHeight

theorem copies_inside (hout : Roomy buffer output.bytesperline output.height) :
    ∀ x ∈ copies output buffer,
      x.1.Inside (frameBytes buffer.format output.bytesperline output.height) :=
  fun _ hx => planes_inside _ hout.width_le hout.height_le _ (List.of_mem_zip hx).1

theorem copies_fit {m n : ℕ} (hsrc : Roomy buffer buffer.stride buffer.planeHeight)
    (hout : Roomy buffer output.bytesperline output.height)
    (hm : frameBytes buffer.format buffer.stride buffer.planeHeight ≤ m)
    (hn : frameBytes buffer.format output.bytesperline output.height ≤ n) :
    ∀ x ∈ copies output buffer, Fits m n x.1 x.2 := by
  intro x hx
  obtain ⟨hwidth, hrows⟩ := copies_same x hx
  exact ⟨(copies_inside hout x hx).mono hn,
    (planes_inside _ hsrc.width_le hsrc.height_le _ (List.of_mem_zip hx).2).mono hm,
    hwidth.le, hrows.le⟩

theorem copies_before (hout : Roomy buffer output.bytesperline output.height) :
    (copies output buffer).Pairwise fun x x' => x.1.Before x'.1 := by
  have h := planes_before buffer.format buffer.width output.bytesperline hout.height_le
  refine List.Pairwise.of_map Prod.fst (S := Plane.Before) (fun _ _ h => h) ?_
  rw [copies, List.map_fst_zip]
  · exact h
  · cases buffer.format <;> rfl

/-- **What `CopyPlanes` does** when both layouts have room for the picture. -/
theorem copyPlanes_spec (buffer : V4L2FrameBuffer) {dst : List UInt8}
    (hsrc : Roomy buffer buffer.stride buffer.planeHeight)
    (hout : Roomy buffer output.bytesperline output.height)
    (hdata : frameBytes buffer.format buffer.stride buffer.planeHeight ≤ buffer.data.length)
    (hdst : frameBytes buffer.format output.bytesperline output.height ≤ dst.length) :
    ∃ d, copyPlanes output buffer dst = some d ∧ d.length = dst.length ∧
      (∀ x ∈ copies output buffer, ∀ r < x.1.rows, ∀ c < x.1.width,
        d[x.1.place r c]? = buffer.data[x.2.place r c]?) ∧
      ∀ a, (∀ x ∈ copies output buffer, ∀ r < x.1.rows, ∀ c < x.1.width, a ≠ x.1.place r c) →
        d[a]? = dst[a]? := by
  rw [copyPlanes_eq]
  exact blits_spec (copies_fit hsrc hout hdata hdst) (copies_before hout)

/-- With even sides, every sample of the picture is copied. -/
theorem sample_copied (output : OutputLayout) (buffer : V4L2FrameBuffer)
    (hw : Even buffer.width) (hh : Even buffer.height) {j : Component} {r c : ℕ}
    (hin : j.Within buffer.width buffer.height r c) :
    ∃ x ∈ copies output buffer, ∃ c', r < x.1.rows ∧ c' < x.1.width ∧
      sampleAt buffer.format output.bytesperline output.height j r c = x.1.place r c' ∧
      sampleAt buffer.format buffer.stride buffer.planeHeight j r c = x.2.place r c' := by
  obtain ⟨hr, hc⟩ := hin
  have hw2 : half buffer.width = buffer.width / 2 := half_of_even hw
  have hh2 : half buffer.height = buffer.height / 2 := half_of_even hh
  have hwidth : 2 * (buffer.width / 2) = buffer.width := Nat.two_mul_div_two_of_even hw
  cases hformat : buffer.format
  case nv12 =>
    rw [copies, hformat]
    cases j <;> simp only [Component.rows, Component.columns, hw2, hh2] at hr hc
    case y => exact ⟨_, .head _, c, hr, hc, rfl, rfl⟩
    case u => exact ⟨_, .tail _ (.head _), 2 * c, hr, by dsimp only [uvPlane]; omega, rfl, rfl⟩
    case v => exact ⟨_, .tail _ (.head _), 2 * c + 1, hr, by dsimp only [uvPlane]; omega, rfl, rfl⟩
  all_goals
    rw [copies, hformat]
    cases j <;> simp only [Component.rows, Component.columns, hw2, hh2] at hr hc
    case y => exact ⟨_, .head _, c, hr, hc, rfl, rfl⟩
    case u => exact ⟨_, .tail _ (.head _), c, hr, hc, rfl, rfl⟩
    case v => exact ⟨_, .tail _ (.tail _ (.head _)), c, hr, hc, rfl, rfl⟩

/-- With an odd side, the last chroma sample is behind everything that is copied. -/
theorem last_not_copied (buffer : V4L2FrameBuffer)
    (hout : Roomy buffer output.bytesperline output.height)
    (hodd : ¬ (Even buffer.width ∧ Even buffer.height)) :
    ∀ x ∈ copies output buffer, ∀ r < x.1.rows, ∀ c < x.1.width,
      x.1.place r c < sampleAt buffer.format output.bytesperline output.height .v
        (half buffer.height - 1) (half buffer.width - 1) := by
  obtain ⟨hwidth, hheight⟩ := hout
  have hluma := luma_rows_le output.bytesperline hheight
  have hu := chroma_rows_le (output.bytesperline / 2) hheight
  -- where the last sample is in its plane, for any width of the rows that are copied
  have hlast : ∀ s n C r c, r < buffer.height / 2 → c < n → n ≤ s →
      (¬ Even buffer.width → n ≤ C) → r * s + c < (half buffer.height - 1) * s + C := by
    intro s n C r c hr hc hn hC
    by_cases heven : Even buffer.height
    · -- further to the right, and not in an earlier row
      refine Nat.add_lt_add_of_le_of_lt (Nat.mul_le_mul_right s ?_)
        (hc.trans_le (hC fun hw => hodd ⟨hw, heven⟩))
      rw [half_of_even heven]
      omega
    · refine (row_col_lt ?_ (hc.trans_le hn)).trans_le (Nat.le_add_right _ _)
      rw [half_of_not_even heven]
      omega
  have hcol : ¬ Even buffer.width → half buffer.width - 1 = buffer.width / 2 := by
    intro h
    rw [half_of_not_even h, Nat.add_sub_cancel]
  cases hformat : buffer.format <;>
    simp only [copies, hformat, planes, List.zip_cons_cons, List.zip_nil_right,
      List.forall_mem_cons, List.not_mem_nil, false_imp_iff, implies_true, and_true, sampleAt,
      planarAt, interleavedAt]
  case nv12 =>
    refine ⟨fun r hr c hc => ?_, fun r hr c hc => ?_⟩
    · have hend := Plane.place_lt_end hr (hc.trans_le hwidth)
      dsimp only [lumaPlane] at hend ⊢
      omega
    · have hrow := hlast output.bytesperline buffer.width (2 * (half buffer.width - 1) + 1) r c hr
        hc hwidth fun h => by rw [hcol h]; omega
      dsimp only [Plane.place, uvPlane] at hrow ⊢
      omega
  all_goals
    refine ⟨fun r hr c hc => ?_, fun r hr c hc => ?_, fun r hr c hc => ?_⟩
    · have hend := Plane.place_lt_end hr (hc.trans_le hwidth)
      dsimp only [lumaPlane] at hend ⊢
      omega
    · have hend := Plane.place_lt_end hr (hc.trans_le (Nat.div_le_div_right hwidth))
      dsimp only [uPlane] at hend ⊢
      omega
    · have hrow := hlast (output.bytesperline / 2) (buffer.width / 2) (half buffer.width - 1) r c
        hr hc (Nat.div_le_div_right hwidth) fun h => (hcol h).ge
      dsimp only [Plane.place, vPlane] at hrow ⊢
      omega

end Copies

/-! ### The picture -/

/-- How far the samples of a picture reach in the memory, at most. -/
theorem sampleAt_lt {format : PixelFormat} {w h stride planeHeight : ℕ} {j : Component}
    {r c : ℕ} (hin : j.Within w h r c) :
    sampleAt format stride planeHeight j r c <
      stride * planeHeight + stride / 2 * (planeHeight / 2) + h * stride + 2 * w := by
  obtain ⟨hr, hc⟩ := hin
  have hrh : r ≤ h := by
    cases j
    · exact hr.le
    all_goals exact hr.le.trans (half_le h)
  have hcw : c < w := by
    cases j
    · exact hc
    all_goals exact Nat.lt_of_lt_of_le hc (half_le w)
  have hrow : r * stride ≤ h * stride := Nat.mul_le_mul_right _ hrh
  have hhalf : r * (stride / 2) ≤ h * stride := Nat.mul_le_mul hrh (Nat.div_le_self _ _)
  cases format <;> cases j <;> simp only [sampleAt, planarAt, interleavedAt] <;> omega

section Preserves

variable {lib : Libyuv} {output : OutputLayout} {shape : V4L2FrameBuffer}

/-- What is read of a frame with that memory. -/
theorem toI420_memory (hlib : lib.Documented) (shape : V4L2FrameBuffer)
    (hformat : shape.format.Raw) (data : List UInt8) {j : Component} {r c : ℕ}
    (hin : j.Within shape.width shape.height r c) :
    V4L2FrameBuffer.toI420 lib { shape with data := data } j r c =
      data[sampleAt shape.format shape.stride shape.planeHeight j r c]? :=
  toI420_eq hlib { shape with data := data } hformat hin

/-- What the driver reads of its frame. -/
theorem toI420_output (hlib : lib.Documented) (hformat : shape.format.Raw) (data d : List UInt8)
    {j : Component} {r c : ℕ} (hin : j.Within shape.width shape.height r c) :
    ({ { shape with data := data } with data := d }.setLayout output.bytesperline
        output.height).toI420 lib j r c =
      d[sampleAt shape.format output.bytesperline output.height j r c]? :=
  toI420_memory hlib (shape.setLayout output.bytesperline output.height) hformat d hin

theorem preservesPicture_of_even (hlib : lib.Documented) (hformat : shape.format.Raw)
    (hsrc : Roomy shape shape.stride shape.planeHeight)
    (hout : Roomy shape output.bytesperline output.height) (hw : Even shape.width)
    (hh : Even shape.height) : PreservesPicture lib output shape := by
  intro data dst _ hdata hdst
  obtain ⟨d, hd, hlen, hcopied, hframe⟩ :=
    copyPlanes_spec { shape with data := data } ⟨hsrc.1, hsrc.2⟩ ⟨hout.1, hout.2⟩
      hdata hdst
  refine ⟨d, hd, hlen, fun a ha => ?_, fun j r c hin => ?_⟩
  · refine hframe a fun x hx r hr c hc => ne_of_gt ?_
    exact (Plane.Inside.place_lt (copies_inside ⟨hout.1, hout.2⟩ x hx) hr hc).trans_le ha
  · rw [toI420_memory hlib shape hformat data hin, toI420_output hlib hformat data d hin]
    obtain ⟨x, hx, c', hr, hc, hto, hfrom⟩ :=
      sample_copied output { shape with data := data } hw hh hin
    rw [hto, hfrom]
    exact hcopied x hx r hr c' hc

/-- A white frame over a black one: the last chroma sample stays black. -/
theorem not_preservesPicture_of_odd (hlib : lib.Documented) (hformat : shape.format.Raw)
    (hsrc : Roomy shape shape.stride shape.planeHeight)
    (hout : Roomy shape output.bytesperline output.height) (hw : 1 ≤ shape.width)
    (hh : 1 ≤ shape.height) (hodd : ¬ (Even shape.width ∧ Even shape.height)) :
    ¬ PreservesPicture lib output shape := by
  intro hpreserves
  have hlast : Component.Within .v shape.width shape.height (half shape.height - 1)
      (half shape.width - 1) :=
    ⟨Nat.sub_one_lt (half_pos hh).ne', Nat.sub_one_lt (half_pos hw).ne'⟩
  let bytes := frameBytes shape.format
  let lastAt := sampleAt shape.format output.bytesperline output.height .v (half shape.height - 1)
    (half shape.width - 1)
  -- both memories are long enough for everything
  let size := bytes shape.stride shape.planeHeight + (shape.stride * shape.planeHeight +
    shape.stride / 2 * (shape.planeHeight / 2) + shape.height * shape.stride + 2 * shape.width)
  let white : List UInt8 := List.replicate size 1
  let black : List UInt8 :=
    List.replicate (bytes output.bytesperline output.height + (lastAt + 1)) 0
  have hread : ∀ j r c, Component.Within j shape.width shape.height r c →
      V4L2FrameBuffer.toI420 lib { shape with data := white } j r c = some 1 := by
    intro j r c hin
    refine (toI420_memory hlib shape hformat white hin).trans (List.getElem?_replicate_of_lt ?_)
    exact (sampleAt_lt hin).trans_le (Nat.le_add_left _ _)
  have hwhite : bytes shape.stride shape.planeHeight ≤ white.length := by
    rw [List.length_replicate]
    exact Nat.le_add_right _ _
  have hblack : bytes output.bytesperline output.height ≤ black.length := by
    rw [List.length_replicate]
    exact Nat.le_add_right _ _
  obtain ⟨d, hd, -, -, hagree⟩ := hpreserves white black
    (fun j r c hin => by rw [hread j r c hin]; exact Option.some_ne_none _) hwhite hblack
  obtain ⟨d', hd', -, -, hframe⟩ :=
    copyPlanes_spec { shape with data := white } ⟨hsrc.1, hsrc.2⟩ ⟨hout.1, hout.2⟩
      hwhite hblack
  obtain rfl : d = d' := Option.some.inj (hd.symm.trans hd')
  have hkept : d[lastAt]? = some 0 := by
    rw [hframe lastAt fun x hx r hr c hc => ne_of_gt ?_]
    · refine List.getElem?_replicate_of_lt ?_
      exact Nat.lt_of_lt_of_le (Nat.lt_succ_self _) (Nat.le_add_left _ _)
    · exact last_not_copied { shape with data := white } ⟨hout.1, hout.2⟩ hodd x hx r
        hr c hc
  have hseen : d[lastAt]? = some 1 :=
    calc d[lastAt]? = _ := (toI420_output hlib hformat white d hlast).symm
      _ = _ := hagree _ _ _ hlast
      _ = some 1 := hread _ _ _ hlast
  rw [hkept] at hseen
  exact absurd hseen (by decide)

/-- **Repacking preserves the picture exactly when both sides are even.** -/
theorem copyPlanes_preserves_iff (hlib : lib.Documented) (hformat : shape.format.Raw)
    (hw : 1 ≤ shape.width) (hh : 1 ≤ shape.height)
    (hsrc : Roomy shape shape.stride shape.planeHeight)
    (hout : Roomy shape output.bytesperline output.height) :
    PreservesPicture lib output shape ↔ Even shape.width ∧ Even shape.height := by
  constructor
  · intro hpreserves
    by_contra hodd
    exact not_preservesPicture_of_odd hlib hformat hsrc hout hw hh hodd hpreserves
  · exact fun ⟨hweven, hheven⟩ =>
      preservesPicture_of_even hlib hformat hsrc hout hweven hheven

/-- The last chroma row of a frame of four by three is lost. -/
theorem not_preservesPicture_oddHeight :
    let shape := (V4L2FrameBuffer.create 4 3 24 .yuv420 []).setLayout 4 4
    needsRepack ⟨8, 4⟩ shape = true ∧ ¬ PreservesPicture Libyuv.reading ⟨8, 4⟩ shape :=
  ⟨by decide, not_preservesPicture_of_odd Libyuv.reading_documented (.inl rfl)
    ⟨by decide, by decide⟩ ⟨by decide, by decide⟩ (by decide) (by decide) (by decide)⟩

theorem copyPlanes_preserves_iff_paddedRows :
    PreservesPicture Libyuv.reading ⟨128, 64⟩ (V4L2FrameBuffer.create 96 48 6912 .nv12 []) :=
  (copyPlanes_preserves_iff Libyuv.reading_documented (.inr rfl) (by decide) (by decide)
    ⟨by decide, by decide⟩ ⟨by decide, by decide⟩).mpr ⟨by decide, by decide⟩

end Preserves

end PiWebrtc.Codecs
