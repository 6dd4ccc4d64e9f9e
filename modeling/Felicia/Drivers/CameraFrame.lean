import Felicia.Support.Lists
import Felicia.Drivers.CameraFormat
import Mathlib.Tactic.Ring
import Mathlib.Tactic.Linarith

/-!
# Converting frames of cameras

`AllocationSize` rounds the sides of a frame up to even numbers before it adds up the planes, and
`ConvertToRequestedPixelFormat` computes where the planes are from the sides as they are. Both agree
on a frame with several planes only when both sides are even (`inBuffer_iff`).
-/

set_option autoImplicit false
set_option relaxedAutoImplicit false

namespace Felicia.Cameras

/-- The product of two ints. -/
def intMul (a b : ℤ) : ℤ := (a * b).bmod (2 ^ 32)

theorem intMul_eq {a b : ℤ} (hlower : -2 ^ 31 ≤ a * b) (hupper : a * b < 2 ^ 31) :
    intMul a b = a * b := by
  rw [intMul]
  apply Int.bmod_eq_of_le <;> omega

/-- A product that overflows once is negative. -/
theorem intMul_of_overflow {a b : ℤ} (hlower : 2 ^ 31 ≤ a * b) (hupper : a * b < 2 ^ 32) :
    intMul a b = a * b - 2 ^ 32 := by
  have hsplit : a * b = a * b - 2 ^ 32 + ((2 ^ 32 : ℕ) : ℤ) := by
    push_cast
    ring
  rw [intMul, hsplit, Int.add_bmod_right, ← hsplit]
  apply Int.bmod_eq_of_le <;> omega

/-! ### What is allocated -/

def requiresEvenSizeAllocation : PixelFormat → Bool
  | .nv12 | .nv21 | .i420 | .mjpeg | .yuy2 | .yv12 | .uyvy => true
  | _ => false

/-- `RGBX` is in none of the cases of the source. -/
def numPlanes : PixelFormat → ℕ
  | .uyvy | .yuy2 | .bgra | .bgr | .bgrx | .mjpeg | .y8 | .y16 | .z16 | .rgba | .rgb | .argb => 1
  | .nv12 | .nv21 => 2
  | .i420 | .yv12 => 3
  | _ => 0

/-- The sides of `SampleSize`, which are the same. -/
def sampleSide (pixelFormat : PixelFormat) (plane : ℕ) : ℤ :=
  if plane = 0 ∨ plane = 3 then 1
  else
    match pixelFormat with
    | .y8 | .y16 | .z16 => 1
    | .yv12 | .i420 | .nv12 | .nv21 => 2
    | _ => 0

def bytesPerElement (pixelFormat : PixelFormat) (plane : ℕ) : ℤ :=
  match pixelFormat with
  | .bgra | .bgrx | .rgba | .rgbx | .argb => 4
  | .bgr | .rgb => 3
  | .y16 | .z16 | .uyvy | .yuy2 => 2
  | .nv12 | .nv21 => if plane = 0 then 1 else 2
  | .y8 | .yv12 | .i420 => 1
  | _ => 0

/-- `base::bits::Align(side, 2)`. -/
def alignTwo (side : ℤ) : ℤ := (side + 1) / 2 * 2

def alignedSide (pixelFormat : PixelFormat) (side : ℤ) : ℤ :=
  if requiresEvenSizeAllocation pixelFormat then alignTwo side else side

def planeSize (cameraFormat : CameraFormat) (plane : ℕ) : Size :=
  let pixelFormat := cameraFormat.pixelFormat
  let width := alignedSide pixelFormat cameraFormat.width
  let height := alignedSide pixelFormat cameraFormat.height
  let subsample := sampleSide pixelFormat plane
  Size.make ((bytesPerElement pixelFormat plane * width).tdiv subsample) (height.tdiv subsample)

/-- `Size::area`, which ends the process when it overflows. -/
def Size.area (size : Size) : Option ℤ :=
  if size.width * size.height < 2 ^ 31 then some (size.width * size.height) else none

/-- The areas of the first planes of a format. -/
def planeAreas (cameraFormat : CameraFormat) : ℕ → Option ℤ
  | 0 => some 0
  | n + 1 => do
    let total ← planeAreas cameraFormat n
    let area ← (planeSize cameraFormat n).area
    return total + area

def allocationSize (cameraFormat : CameraFormat) : Option ℤ :=
  planeAreas cameraFormat (numPlanes cameraFormat.pixelFormat)

/-! ### What is written -/

/-- Where libyuv writes the rows of a plane. -/
structure Plane where
  offset : ℤ
  stride : ℤ
  rowBytes : ℤ
  rows : ℤ

/-- A side of a plane with one sample for two pixels. -/
def halfUp (side : ℤ) : ℤ := (side + 1) / 2

/-- The planes of the destination that `ConvertToRequestedPixelFormat` passes to libyuv, for the
formats that it has a conversion for. `BGRA` is what `ConvertToBGRA` writes. -/
def destination (pixelFormat : PixelFormat) (width height : ℤ) : Option (List Plane) :=
  let packed (bytes : ℤ) : Option (List Plane) :=
    some [⟨0, intMul width bytes, width * bytes, height⟩]
  let packedPairs : Option (List Plane) := some [⟨0, intMul width 2, 4 * halfUp width, height⟩]
  match pixelFormat with
  | .i420 => some [
      ⟨0, width, width, height⟩,
      ⟨intMul width height, width.tdiv 2, halfUp width, halfUp height⟩,
      ⟨(intMul (intMul width height) 5).tdiv 4, width.tdiv 2, halfUp width, halfUp height⟩]
  | .nv12 | .nv21 => some [
      ⟨0, width, width, height⟩,
      ⟨intMul width height, width, 2 * halfUp width, halfUp height⟩]
  | .uyvy | .yuy2 => packedPairs
  | .bgr | .rgb => packed 3
  | .bgra | .rgba | .argb => packed 4
  | _ => none

/-- A call of libyuv, with the format and the size of the buffer that it writes to. -/
structure Call where
  cameraFormat : CameraFormat
  size : ℤ
  planes : List Plane

/-- A buffer is allocated for a format, and libyuv is called for it. -/
def callFor (cameraFormat : CameraFormat) : Option Call := do
  let size ← allocationSize cameraFormat
  let planes ← destination cameraFormat.pixelFormat cameraFormat.width cameraFormat.height
  return ⟨cameraFormat, size, planes⟩

/-- `ToLibyuvPixelFormat` has a format. -/
def hasLibyuvFormat : PixelFormat → Bool
  | .i420 | .yv12 | .nv12 | .nv21 | .uyvy | .yuy2 | .bgra | .bgr | .mjpeg | .rgba | .rgb | .argb =>
    true
  | _ => false

/-- The calls of libyuv that `ConvertToRequestedPixelFormat` makes when each of them succeeds. -/
def libyuvCalls (cameraFormat : CameraFormat) (requested : PixelFormat) : List Call :=
  if requested = .mjpeg then []
  else if hasLibyuvFormat cameraFormat.pixelFormat then
    let bgra : CameraFormat :=
      ⟨Size.make cameraFormat.width cameraFormat.height, .bgra, cameraFormat.frameRate⟩
    match callFor bgra with
    | none => []
    | some toBgra =>
      if requested = .bgra then [toBgra]
      else toBgra :: (callFor { bgra with pixelFormat := requested }).toList
  else []

/-! ### Staying in the buffer -/

namespace Plane

variable (plane other : Plane)

def rowStart (i : ℤ) : ℤ := plane.offset + i * plane.stride

def rowFinish (i : ℤ) : ℤ := plane.rowStart i + plane.rowBytes

/-- No byte of one is a byte of the other. -/
def Disjoint : Prop := ∀ i j, 0 ≤ i → i < plane.rows → 0 ≤ j → j < other.rows →
  plane.rowFinish i ≤ other.rowStart j ∨ other.rowFinish j ≤ plane.rowStart i

/-- Every byte is in a buffer of a size. -/
def Inside (size : ℤ) : Prop :=
  ∀ i, 0 ≤ i → i < plane.rows → 0 ≤ plane.rowStart i ∧ plane.rowFinish i ≤ size

end Plane

/-- What libyuv writes for a call is in the buffer, plane after plane. -/
structure Call.InBuffer (call : Call) : Prop where
  inside : ∀ plane ∈ call.planes, plane.Inside call.size
  disjoint : call.planes.Pairwise Plane.Disjoint
  starts : ∀ k plane, call.planes[k]? = some plane →
    planeAreas call.cameraFormat k = some plane.offset

/-- A format whose planes are where they are allocated. -/
def Even (cameraFormat : CameraFormat) : Prop :=
  match cameraFormat.pixelFormat with
  | .i420 => cameraFormat.width % 2 = 0 ∧ cameraFormat.height % 2 = 0 ∧
      cameraFormat.width * cameraFormat.height * 5 < 2 ^ 31
  | .nv12 | .nv21 => cameraFormat.width % 2 = 0 ∧ cameraFormat.height % 2 = 0
  | _ => True

variable {cameraFormat : CameraFormat} {call : Call} {plane other : Plane} {size w h : ℤ}

/-! ### Rows -/

/-- Assumes: rows that go forward. They are between the first and the end of the last. -/
theorem Plane.row_bounds (hstride : 0 ≤ plane.stride) {i : ℤ} (hi : 0 ≤ i) (hlt : i < plane.rows) :
    plane.offset ≤ plane.rowStart i ∧
      plane.rowFinish i ≤ plane.offset + (plane.rows - 1) * plane.stride + plane.rowBytes := by
  have hfirst : 0 ≤ i * plane.stride := mul_nonneg hi hstride
  have hlast : i * plane.stride ≤ (plane.rows - 1) * plane.stride :=
    mul_le_mul_of_nonneg_right (by omega) hstride
  rw [rowFinish, rowStart]
  constructor <;> omega

theorem Plane.inside_of_le (hstride : 0 ≤ plane.stride) (hoffset : 0 ≤ plane.offset)
    (hlast : plane.offset + (plane.rows - 1) * plane.stride + plane.rowBytes ≤ size) :
    plane.Inside size := by
  intro i hi hlt
  obtain ⟨hfirst, hfinish⟩ := plane.row_bounds hstride hi hlt
  exact ⟨hoffset.trans hfirst, hfinish.trans hlast⟩

theorem Plane.disjoint_of_le (hstride : 0 ≤ plane.stride) (hstride' : 0 ≤ other.stride)
    (hlast : plane.offset + (plane.rows - 1) * plane.stride + plane.rowBytes ≤ other.offset) :
    plane.Disjoint other := by
  intro i j hi hlt hj hlt'
  exact .inl (((plane.row_bounds hstride hi hlt).2.trans hlast).trans
    (other.row_bounds hstride' hj hlt').1)

/-! ### Areas -/

theorem alignTwo_bounds (side : ℤ) :
    side ≤ alignTwo side ∧ alignTwo side ≤ side + 1 ∧ alignTwo side % 2 = 0 := by
  rw [alignTwo]
  omega

theorem alignTwo_eq_iff (side : ℤ) : alignTwo side = side ↔ side % 2 = 0 := by
  rw [alignTwo]
  omega

/-- Both sides are even when rounding them up does not change their product. -/
theorem even_of_alignTwo_mul (hw : 0 < w) (hh : 0 < h) (heq : alignTwo w * alignTwo h = w * h) :
    w % 2 = 0 ∧ h % 2 = 0 := by
  obtain ⟨hw', -, -⟩ := alignTwo_bounds w
  obtain ⟨hh', -, -⟩ := alignTwo_bounds h
  constructor
  · rw [← alignTwo_eq_iff]
    by_contra hne
    have hlt : w + 1 ≤ alignTwo w := by omega
    have hle := mul_le_mul hlt hh' hh.le (by omega)
    rw [heq, add_mul] at hle
    omega
  · rw [← alignTwo_eq_iff]
    by_contra hne
    have hlt : h + 1 ≤ alignTwo h := by omega
    have hle := mul_le_mul hw' hlt (by omega) (by omega)
    rw [heq, mul_add] at hle
    omega

theorem area_eq_some_iff (size : Size) (area : ℤ) :
    size.area = some area ↔
      size.width * size.height < 2 ^ 31 ∧ size.width * size.height = area := by
  rw [Size.area]
  split_ifs with hlt
  · exact ⟨fun h ↦ ⟨hlt, Option.some.inj h⟩, fun h ↦ congrArg some h.2⟩
  · exact iff_of_false (by simp) fun h ↦ hlt h.1

theorem planeAreas_succ_eq_some_iff (n : ℕ) (total : ℤ) :
    planeAreas cameraFormat (n + 1) = some total ↔
      ∃ before, planeAreas cameraFormat n = some before ∧
        (planeSize cameraFormat n).width * (planeSize cameraFormat n).height < 2 ^ 31 ∧
        before + (planeSize cameraFormat n).width * (planeSize cameraFormat n).height = total := by
  simp [planeAreas, Option.bind_eq_some_iff, area_eq_some_iff, and_assoc]

theorem planeAreas_one_eq_some_iff (total : ℤ) :
    planeAreas cameraFormat 1 = some total ↔
      (planeSize cameraFormat 0).width * (planeSize cameraFormat 0).height < 2 ^ 31 ∧
        (planeSize cameraFormat 0).width * (planeSize cameraFormat 0).height = total := by
  rw [planeAreas_succ_eq_some_iff]
  simp [planeAreas]

theorem callFor_eq_some (h : callFor cameraFormat = some call) :
    ∃ size planes, call = ⟨cameraFormat, size, planes⟩ ∧ allocationSize cameraFormat = some size ∧
      destination cameraFormat.pixelFormat cameraFormat.width cameraFormat.height =
        some planes := by
  simp only [callFor, Option.bind_eq_bind, Option.bind_eq_some_iff] at h
  obtain ⟨size, hsize, planes, hplanes, hcall⟩ := h
  exact ⟨size, planes, (Option.some.inj hcall).symm, hsize, hplanes⟩

/-! ### One plane -/

theorem inBuffer_of_single (hplanes : call.planes = [plane]) (hoffset : plane.offset = 0)
    (hinside : plane.Inside call.size) : call.InBuffer where
  inside := by
    rw [hplanes]
    exact List.forall_mem_singleton.mpr hinside
  disjoint := by
    rw [hplanes]
    exact List.pairwise_singleton _ _
  starts k other hk := by
    rw [hplanes, List.getElem?_singleton] at hk
    split_ifs at hk with hzero
    rw [hzero, ← Option.some.inj hk, hoffset]
    rfl

theorem make_eq (hw : 0 < w) (hh : 0 < h) : Size.make w h = ⟨w, h⟩ := by
  rw [Size.make, if_pos hw, if_pos hh]

theorem sampleSide_zero (pixelFormat : PixelFormat) : sampleSide pixelFormat 0 = 1 :=
  if_pos (.inl rfl)

theorem planeSize_packed (hw : 0 < w) (hh : 0 < h) {pixelFormat : PixelFormat} {bytes : ℤ}
    {frameRate : ℚ} (hbytes : bytesPerElement pixelFormat 0 = bytes) (hpos : 0 < bytes)
    (hodd : requiresEvenSizeAllocation pixelFormat = false) :
    planeSize ⟨⟨w, h⟩, pixelFormat, frameRate⟩ 0 = ⟨bytes * w, h⟩ := by
  have haligned (side : ℤ) : alignedSide pixelFormat side = side := by
    rw [alignedSide, hodd, if_neg Bool.false_ne_true]
  rw [planeSize]
  dsimp only [CameraFormat.width, CameraFormat.height]
  rw [haligned, haligned, hbytes, sampleSide_zero, Int.tdiv_one, Int.tdiv_one,
    make_eq (mul_pos hpos hw) hh]

/-- Rows of whole pixels fill the buffer. -/
theorem inBuffer_packed (hw : 0 < w) (hh : 0 < h) (harea : w * h * 4 < 2 ^ 31)
    {pixelFormat : PixelFormat} {bytes : ℤ} {frameRate : ℚ}
    (hbytes : bytesPerElement pixelFormat 0 = bytes) (hpos : 0 < bytes) (hle : bytes ≤ 4)
    (hodd : requiresEvenSizeAllocation pixelFormat = false) (hplanes : numPlanes pixelFormat = 1)
    (hdestination : destination pixelFormat w h =
      some [⟨0, intMul w bytes, w * bytes, h⟩])
    (hcall : callFor ⟨⟨w, h⟩, pixelFormat, frameRate⟩ = some call) : call.InBuffer := by
  obtain ⟨size, planes, rfl, hsize, hplanes'⟩ := callFor_eq_some hcall
  obtain rfl := Option.some.inj (hplanes'.symm.trans hdestination)
  rw [allocationSize, hplanes, planeAreas_one_eq_some_iff,
    planeSize_packed hw hh hbytes hpos hodd] at hsize
  have hstride : intMul w bytes = w * bytes := by
    have hwpos : w * bytes ≤ w * 4 := mul_le_mul_of_nonneg_left hle hw.le
    have hrow : w * 4 ≤ w * h * 4 := by nlinarith
    have hnonneg : 0 ≤ w * bytes := mul_nonneg hw.le hpos.le
    exact intMul_eq (by omega) (by omega)
  refine inBuffer_of_single rfl rfl (Plane.inside_of_le ?_ le_rfl ?_)
  · rw [hstride]
    exact mul_nonneg hw.le hpos.le
  · dsimp only at hsize ⊢
    rw [hstride, ← hsize.2]
    exact le_of_eq (by ring)

theorem planeSize_aligned (hw : 0 < w) (hh : 0 < h) {pixelFormat : PixelFormat} {bytes : ℤ}
    {frameRate : ℚ} (hbytes : bytesPerElement pixelFormat 0 = bytes) (hpos : 0 < bytes)
    (heven : requiresEvenSizeAllocation pixelFormat = true) :
    planeSize ⟨⟨w, h⟩, pixelFormat, frameRate⟩ 0 = ⟨bytes * alignTwo w, alignTwo h⟩ := by
  have haligned (side : ℤ) : alignedSide pixelFormat side = alignTwo side := by
    rw [alignedSide, heven, if_pos rfl]
  have hw' : 0 < alignTwo w := hw.trans_le (alignTwo_bounds w).1
  have hh' : 0 < alignTwo h := hh.trans_le (alignTwo_bounds h).1
  rw [planeSize]
  dsimp only [CameraFormat.width, CameraFormat.height]
  rw [haligned, haligned, hbytes, sampleSide_zero, Int.tdiv_one, Int.tdiv_one,
    make_eq (mul_pos hpos hw') hh']

/-- Rows of pairs of pixels may be longer than their stride, and the buffer has room for the last.
-/
theorem inBuffer_pairs (hw : 0 < w) (hh : 0 < h) (harea : w * h * 4 < 2 ^ 31)
    {pixelFormat : PixelFormat} {frameRate : ℚ} (hbytes : bytesPerElement pixelFormat 0 = 2)
    (heven : requiresEvenSizeAllocation pixelFormat = true) (hplanes : numPlanes pixelFormat = 1)
    (hdestination : destination pixelFormat w h = some [⟨0, intMul w 2, 4 * halfUp w, h⟩])
    (hcall : callFor ⟨⟨w, h⟩, pixelFormat, frameRate⟩ = some call) : call.InBuffer := by
  obtain ⟨size, planes, rfl, hsize, hplanes'⟩ := callFor_eq_some hcall
  obtain rfl := Option.some.inj (hplanes'.symm.trans hdestination)
  rw [allocationSize, hplanes, planeAreas_one_eq_some_iff,
    planeSize_aligned hw hh hbytes (by omega) heven] at hsize
  have hstride : intMul w 2 = w * 2 := by
    have hrow : w * 4 ≤ w * h * 4 := by nlinarith
    exact intMul_eq (by omega) (by omega)
  obtain ⟨hw', -, -⟩ := alignTwo_bounds w
  obtain ⟨hh', -, -⟩ := alignTwo_bounds h
  have hrow : 4 * halfUp w = 2 * alignTwo w := by
    rw [halfUp, alignTwo]
    ring
  refine inBuffer_of_single rfl rfl (Plane.inside_of_le ?_ le_rfl ?_)
  · rw [hstride]
    exact mul_nonneg hw.le (by decide)
  · dsimp only at hsize ⊢
    have hrows : (h - 1) * (w * 2) ≤ (h - 1) * (2 * alignTwo w) :=
      mul_le_mul_of_nonneg_left (by omega) (by omega)
    have hheight : 2 * alignTwo w * h ≤ 2 * alignTwo w * alignTwo h :=
      mul_le_mul_of_nonneg_left hh' (by omega)
    rw [hstride, hrow, ← hsize.2]
    calc 0 + (h - 1) * (w * 2) + 2 * alignTwo w
        ≤ (h - 1) * (2 * alignTwo w) + 2 * alignTwo w := by omega
      _ = 2 * alignTwo w * h := by ring
      _ ≤ 2 * alignTwo w * alignTwo h := hheight

/-! ### Several planes -/

theorem alignTwo_eq (side : ℤ) : alignTwo side = halfUp side * 2 := rfl

theorem halfUp_pos (hw : 0 < w) : 0 < halfUp w := by
  rw [halfUp]
  omega

theorem eq_halfUp_mul (h : w % 2 = 0) : w = halfUp w * 2 := by
  rw [halfUp]
  omega

theorem tdiv_two_of_even (h : w % 2 = 0) : w.tdiv 2 = halfUp w := by
  rw [eq_halfUp_mul h, Int.mul_tdiv_cancel _ two_ne_zero, ← eq_halfUp_mul h]

theorem planeSize_chroma (hw : 0 < w) (hh : 0 < h) {pixelFormat : PixelFormat} {n : ℕ} {bytes : ℤ}
    {frameRate : ℚ} (hbytes : bytesPerElement pixelFormat n = bytes) (hpos : 0 < bytes)
    (hside : sampleSide pixelFormat n = 2)
    (heven : requiresEvenSizeAllocation pixelFormat = true) :
    planeSize ⟨⟨w, h⟩, pixelFormat, frameRate⟩ n = ⟨bytes * halfUp w, halfUp h⟩ := by
  have haligned (side : ℤ) : alignedSide pixelFormat side = halfUp side * 2 := by
    rw [alignedSide, heven, if_pos rfl, alignTwo_eq]
  rw [planeSize]
  dsimp only [CameraFormat.width, CameraFormat.height]
  rw [haligned, haligned, hbytes, hside, ← mul_assoc, Int.mul_tdiv_cancel _ two_ne_zero,
    Int.mul_tdiv_cancel _ two_ne_zero, make_eq (mul_pos hpos (halfUp_pos hw)) (halfUp_pos hh)]

/-- The formats with a plane of colors behind that of the brightness. -/
structure Planar (pixelFormat : PixelFormat) (bytes : ℤ) : Prop where
  even : requiresEvenSizeAllocation pixelFormat = true
  bytesY : bytesPerElement pixelFormat 0 = 1
  bytesU : bytesPerElement pixelFormat 1 = bytes
  side : sampleSide pixelFormat 1 = 2

theorem planeAreas_one_of_planar (hw : 0 < w) (hh : 0 < h) {pixelFormat : PixelFormat} {bytes : ℤ}
    {frameRate : ℚ} (hplanar : Planar pixelFormat bytes) (total : ℤ) :
    planeAreas ⟨⟨w, h⟩, pixelFormat, frameRate⟩ 1 = some total ↔
      alignTwo w * alignTwo h < 2 ^ 31 ∧ alignTwo w * alignTwo h = total := by
  rw [planeAreas_one_eq_some_iff, planeSize_aligned hw hh hplanar.bytesY Int.one_pos hplanar.even]
  dsimp only
  rw [one_mul]

/-- The second plane is where the first ends only when both sides are even. -/
theorem even_of_starts (hw : 0 < w) (hh : 0 < h) (harea : w * h * 4 < 2 ^ 31)
    {pixelFormat : PixelFormat} {bytes : ℤ} {frameRate : ℚ} (hplanar : Planar pixelFormat bytes)
    (hcall : call.cameraFormat = ⟨⟨w, h⟩, pixelFormat, frameRate⟩)
    (hplane : call.planes[1]? = some plane) (hoffset : plane.offset = intMul w h)
    (h' : call.InBuffer) : w % 2 = 0 ∧ h % 2 = 0 := by
  have hpos : 0 < w * h := mul_pos hw hh
  have hproduct : intMul w h = w * h := intMul_eq (by omega) (by omega)
  have hstart := h'.starts 1 plane hplane
  rw [hcall, planeAreas_one_of_planar hw hh hplanar, hoffset, hproduct] at hstart
  exact even_of_alignTwo_mul hw hh hstart.2

/-- The areas of the planes of an even frame. -/
theorem areas_of_even (hw : w % 2 = 0) (hh : h % 2 = 0) :
    alignTwo w * alignTwo h = w * h ∧ w * h = halfUp w * halfUp h * 4 := by
  rw [(alignTwo_eq_iff w).mpr hw, (alignTwo_eq_iff h).mpr hh]
  refine ⟨rfl, ?_⟩
  calc w * h = halfUp w * 2 * (halfUp h * 2) := by
        rw [← eq_halfUp_mul hw, ← eq_halfUp_mul hh]
    _ = halfUp w * halfUp h * 4 := by ring

theorem planeAreas_one_of_even (hw : 0 < w) (hh : 0 < h) (harea : w * h * 4 < 2 ^ 31)
    {pixelFormat : PixelFormat} {bytes : ℤ} (frameRate : ℚ) (hplanar : Planar pixelFormat bytes)
    (heven : w % 2 = 0 ∧ h % 2 = 0) :
    planeAreas ⟨⟨w, h⟩, pixelFormat, frameRate⟩ 1 = some (w * h) :=
  (planeAreas_one_of_planar hw hh hplanar _).mpr
    ⟨by have := mul_pos hw hh; have := areas_of_even heven.1 heven.2; omega,
      (areas_of_even heven.1 heven.2).1⟩

/-! ### Planes one after the other -/

section Consecutive

/-- Each plane has its rows next to each other, and ends where its area does. -/
structure Consecutive (cameraFormat : CameraFormat) (planes : List Plane) : Prop where
  stride : ∀ plane ∈ planes, 0 ≤ plane.stride ∧ plane.rowBytes = plane.stride ∧ 0 ≤ plane.rows
  starts : ∀ k plane, planes[k]? = some plane → planeAreas cameraFormat k = some plane.offset
  ends : ∀ k plane, planes[k]? = some plane →
    planeAreas cameraFormat (k + 1) = some (plane.offset + plane.rows * plane.stride)

variable {planes : List Plane}

theorem Consecutive.area_nonneg (hconsecutive : Consecutive cameraFormat planes)
    (hmem : plane ∈ planes) : 0 ≤ plane.rows * plane.stride := by
  obtain ⟨hstride, -, hrows⟩ := hconsecutive.stride plane hmem
  exact mul_nonneg hrows hstride

theorem Consecutive.total_nonneg (hconsecutive : Consecutive cameraFormat planes) {k : ℕ}
    {total : ℤ} (hk : k ≤ planes.length) (htotal : planeAreas cameraFormat k = some total) :
    0 ≤ total := by
  induction k generalizing total with
  | zero => exact (Option.some.inj htotal).le
  | succ k ih =>
    have hplane := List.getElem?_eq_getElem (show k < planes.length by omega)
    have hbefore := ih (by omega) (hconsecutive.starts k _ hplane)
    have harea := hconsecutive.area_nonneg (List.getElem_mem (show k < planes.length by omega))
    rw [← Option.some.inj ((hconsecutive.ends k _ hplane).symm.trans htotal)]
    omega

/-- A plane ends before what comes after it starts. -/
theorem Consecutive.finish_le (hconsecutive : Consecutive cameraFormat planes) {k j : ℕ} {total : ℤ}
    (hplane : planes[k]? = some plane) (hkj : k < j) (hj : j ≤ planes.length)
    (htotal : planeAreas cameraFormat j = some total) :
    plane.offset + plane.rows * plane.stride ≤ total := by
  induction j generalizing total with
  | zero => exact absurd hkj (Nat.not_lt_zero k)
  | succ j ih =>
    by_cases heq : k = j
    · subst heq
      exact (Option.some.inj ((hconsecutive.ends k plane hplane).symm.trans htotal)).le
    · have hnext := List.getElem?_eq_getElem (show j < planes.length by omega)
      have hbefore := ih (by omega) (by omega) (hconsecutive.starts j _ hnext)
      have harea := hconsecutive.area_nonneg (List.getElem_mem (show j < planes.length by omega))
      rw [← Option.some.inj ((hconsecutive.ends j _ hnext).symm.trans htotal)]
      omega

theorem Consecutive.inBuffer (hconsecutive : Consecutive cameraFormat planes)
    (hsize : planeAreas cameraFormat planes.length = some size) :
    (Call.mk cameraFormat size planes).InBuffer where
  inside plane hmem := by
    obtain ⟨hstride, hrow, -⟩ := hconsecutive.stride plane hmem
    obtain ⟨k, hplane⟩ := List.mem_iff_getElem?.mp hmem
    have hk : k < planes.length := (List.getElem?_eq_some_iff.mp hplane).1
    have hfinish := hconsecutive.finish_le hplane hk le_rfl hsize
    refine Plane.inside_of_le hstride
      (hconsecutive.total_nonneg hk.le (hconsecutive.starts k plane hplane)) ?_
    rw [hrow, sub_one_mul]
    dsimp only
    omega
  disjoint := by
    rw [List.pairwise_iff_getElem]
    intro i j hi hj hij
    obtain ⟨hstride, hrow, -⟩ := hconsecutive.stride _ (List.getElem_mem hi)
    obtain ⟨hstride', -, -⟩ := hconsecutive.stride _ (List.getElem_mem hj)
    have hfinish := hconsecutive.finish_le (List.getElem?_eq_getElem hi) hij hj.le
      (hconsecutive.starts j _ (List.getElem?_eq_getElem hj))
    refine Plane.disjoint_of_le hstride hstride' ?_
    rw [hrow, sub_one_mul]
    omega
  starts := hconsecutive.starts

end Consecutive

/-- A plane of colors takes half of the brightness for each byte of a sample. -/
theorem planeAreas_succ_of_even (hw : 0 < w) (hh : 0 < h) (harea : w * h * 4 < 2 ^ 31)
    {pixelFormat : PixelFormat} {n : ℕ} {bytes before : ℤ} {frameRate : ℚ}
    (hbytes : bytesPerElement pixelFormat n = bytes) (hpos : 0 < bytes) (hle : bytes ≤ 4)
    (hside : sampleSide pixelFormat n = 2)
    (hround : requiresEvenSizeAllocation pixelFormat = true) (heven : w % 2 = 0 ∧ h % 2 = 0)
    (hbefore : planeAreas ⟨⟨w, h⟩, pixelFormat, frameRate⟩ n = some before) :
    planeAreas ⟨⟨w, h⟩, pixelFormat, frameRate⟩ (n + 1) =
      some (before + halfUp h * (bytes * halfUp w)) := by
  have hquarter := (areas_of_even heven.1 heven.2).2
  have hnonneg : 0 ≤ halfUp w * halfUp h := mul_nonneg (halfUp_pos hw).le (halfUp_pos hh).le
  rw [planeAreas_succ_eq_some_iff]
  refine ⟨before, hbefore, ?_⟩
  rw [planeSize_chroma hw hh hbytes hpos hside hround]
  dsimp only
  have hchroma : bytes * halfUp w * halfUp h ≤ w * h := by
    rw [hquarter, mul_assoc, mul_comm (halfUp w * halfUp h) 4]
    exact mul_le_mul_of_nonneg_right hle hnonneg
  exact ⟨by omega, by ring⟩

/-- Two planes, of the brightness and of both colors. -/
theorem inBuffer_two_iff (hw : 0 < w) (hh : 0 < h) (harea : w * h * 4 < 2 ^ 31)
    {pixelFormat : PixelFormat} {frameRate : ℚ} (hplanar : Planar pixelFormat 2)
    (hplanes : numPlanes pixelFormat = 2)
    (hdestination : destination pixelFormat w h = some [⟨0, w, w, h⟩,
      ⟨intMul w h, w, 2 * halfUp w, halfUp h⟩])
    (hcall : callFor ⟨⟨w, h⟩, pixelFormat, frameRate⟩ = some call) :
    call.InBuffer ↔ w % 2 = 0 ∧ h % 2 = 0 := by
  obtain ⟨size, planes, rfl, hsize, hplanes'⟩ := callFor_eq_some hcall
  obtain rfl := Option.some.inj (hplanes'.symm.trans hdestination)
  refine ⟨even_of_starts hw hh harea hplanar rfl rfl rfl, fun heven ↦ ?_⟩
  have hpos : 0 < w * h := mul_pos hw hh
  have hproduct : intMul w h = w * h := intMul_eq (by omega) (by omega)
  have hone := planeAreas_one_of_even hw hh harea frameRate hplanar heven
  have htwo := planeAreas_succ_of_even hw hh harea hplanar.bytesU two_pos (by decide) hplanar.side
    hplanar.even heven hone
  have hrow : 2 * halfUp w = w := by rw [mul_comm, ← eq_halfUp_mul heven.1]
  rw [hrow] at htwo
  rw [allocationSize, hplanes] at hsize
  rw [hproduct, hrow]
  have hluma : 0 + h * w = w * h := by ring
  refine Consecutive.inBuffer ⟨?_, ?_, ?_⟩ hsize
  · simp only [List.forall_mem_cons]
    exact ⟨⟨hw.le, trivial, hh.le⟩, ⟨hw.le, trivial, (halfUp_pos hh).le⟩, List.forall_mem_nil _⟩
  · simp only [Support.forall_getElem?_cons]
    exact ⟨rfl, hone, Support.forall_getElem?_nil⟩
  · simp only [Support.forall_getElem?_cons]
    exact ⟨hluma ▸ hone, htwo, Support.forall_getElem?_nil⟩

/-- The start of the last of three planes is computed with a product that can overflow. -/
theorem lastOffset_eq_iff (hw : 0 < w) (hh : 0 < h) (harea : w * h * 4 < 2 ^ 31)
    (heven : w % 2 = 0 ∧ h % 2 = 0) :
    (intMul (intMul w h) 5).tdiv 4 = w * h + halfUp h * (1 * halfUp w) ↔ w * h * 5 < 2 ^ 31 := by
  have hpos : 0 < w * h := mul_pos hw hh
  have hproduct : intMul w h = w * h := intMul_eq (by omega) (by omega)
  rw [hproduct]
  constructor
  · intro hequal
    by_contra hlarge
    rw [intMul_of_overflow (by omega) (by omega), ← neg_neg (w * h * 5 - 2 ^ 32),
      Int.neg_tdiv] at hequal
    have hwrapped : 0 ≤ (-(w * h * 5 - 2 ^ 32)).tdiv 4 := Int.tdiv_nonneg (by omega) (by decide)
    have hchroma : 0 ≤ halfUp h * (1 * halfUp w) :=
      mul_nonneg (halfUp_pos hh).le (mul_nonneg one_pos.le (halfUp_pos hw).le)
    omega
  · intro hfits
    have hfive : halfUp w * halfUp h * 4 * 5 = halfUp w * halfUp h * 5 * 4 := by ring
    rw [intMul_eq (by omega) hfits, (areas_of_even heven.1 heven.2).2, hfive,
      Int.mul_tdiv_cancel _ four_ne_zero]
    ring

/-- Three planes. -/
theorem inBuffer_three_iff (hw : 0 < w) (hh : 0 < h) (harea : w * h * 4 < 2 ^ 31) {frameRate : ℚ}
    (hcall : callFor ⟨⟨w, h⟩, .i420, frameRate⟩ = some call) :
    call.InBuffer ↔ w % 2 = 0 ∧ h % 2 = 0 ∧ w * h * 5 < 2 ^ 31 := by
  obtain ⟨size, planes, rfl, hsize, hplanes'⟩ := callFor_eq_some hcall
  have hdestination : destination .i420 w h = some [⟨0, w, w, h⟩,
      ⟨intMul w h, w.tdiv 2, halfUp w, halfUp h⟩,
      ⟨(intMul (intMul w h) 5).tdiv 4, w.tdiv 2, halfUp w, halfUp h⟩] := rfl
  obtain rfl := Option.some.inj (hplanes'.symm.trans hdestination)
  have hplanar : Planar .i420 1 := ⟨rfl, rfl, rfl, rfl⟩
  have hpos : 0 < w * h := mul_pos hw hh
  have hproduct : intMul w h = w * h := intMul_eq (by omega) (by omega)
  have hone (heven : w % 2 = 0 ∧ h % 2 = 0) :=
    planeAreas_one_of_even hw hh harea frameRate hplanar heven
  have htwo (heven : w % 2 = 0 ∧ h % 2 = 0) :=
    planeAreas_succ_of_even hw hh harea hplanar.bytesU one_pos (by decide) hplanar.side
      hplanar.even heven (hone heven)
  have hthree (heven : w % 2 = 0 ∧ h % 2 = 0) :=
    planeAreas_succ_of_even hw hh harea (show bytesPerElement .i420 2 = 1 from rfl) one_pos
      (by decide) rfl rfl heven (htwo heven)
  constructor
  · intro hin
    have heven := even_of_starts hw hh harea hplanar rfl rfl rfl hin
    have hstart := hin.starts 2 _ rfl
    dsimp only at hstart
    rw [htwo heven] at hstart
    exact ⟨heven.1, heven.2,
      (lastOffset_eq_iff hw hh harea heven).mp (Option.some.inj hstart).symm⟩
  · rintro ⟨heven, heven', hfits⟩
    have hboth := And.intro heven heven'
    have hoffset := (lastOffset_eq_iff hw hh harea hboth).mpr hfits
    have hhalf := (halfUp_pos hw).le
    have hluma : 0 + h * w = w * h := by ring
    have hone' := hone hboth
    have htwo' := htwo hboth
    have hthree' := hthree hboth
    rw [one_mul] at htwo' hthree' hoffset
    rw [hoffset, hproduct, tdiv_two_of_even heven]
    refine Consecutive.inBuffer ⟨?_, ?_, ?_⟩ hsize
    · simp only [List.forall_mem_cons]
      exact ⟨⟨hw.le, trivial, hh.le⟩, ⟨hhalf, trivial, (halfUp_pos hh).le⟩,
        ⟨hhalf, trivial, (halfUp_pos hh).le⟩, List.forall_mem_nil _⟩
    · simp only [Support.forall_getElem?_cons]
      exact ⟨rfl, hone', htwo', Support.forall_getElem?_nil⟩
    · simp only [Support.forall_getElem?_cons]
      exact ⟨hluma ▸ hone', htwo', hthree', Support.forall_getElem?_nil⟩

/-! ### Every call -/

/-- The planes of a frame that is not too large are where they are allocated, and what libyuv writes
is in the buffer, exactly when the frame has one plane or two even sides. -/
theorem inBuffer_callFor_iff (hw : 0 < w) (hh : 0 < h) (harea : w * h * 4 < 2 ^ 31)
    {pixelFormat : PixelFormat} {frameRate : ℚ}
    (hcall : callFor ⟨⟨w, h⟩, pixelFormat, frameRate⟩ = some call) :
    call.InBuffer ↔ Even ⟨⟨w, h⟩, pixelFormat, frameRate⟩ := by
  have hnone (h' : destination pixelFormat w h = none) : False := by
    obtain ⟨size, planes, -, -, hplanes⟩ := callFor_eq_some hcall
    exact absurd (hplanes.symm.trans h') (by simp)
  cases pixelFormat with
  | i420 => exact inBuffer_three_iff hw hh harea hcall
  | nv12 | nv21 => exact inBuffer_two_iff hw hh harea ⟨rfl, rfl, rfl, rfl⟩ rfl rfl hcall
  | uyvy | yuy2 => exact iff_of_true (inBuffer_pairs hw hh harea rfl rfl rfl rfl hcall) trivial
  | bgr | rgb =>
    exact iff_of_true (inBuffer_packed hw hh harea rfl three_pos (by decide) rfl rfl rfl hcall)
      trivial
  | bgra | rgba | argb =>
    exact iff_of_true (inBuffer_packed hw hh harea rfl four_pos le_rfl rfl rfl rfl hcall) trivial
  | unknown | yv12 | bgrx | mjpeg | y8 | y16 | rgbx | z16 | other => exact (hnone rfl).elim

/-- A call is made for the format of the camera or the requested one, with the sides of the frame.
-/
theorem callFor_of_mem {requested : PixelFormat} (hw : 0 < cameraFormat.width)
    (hh : 0 < cameraFormat.height) (hmem : call ∈ libyuvCalls cameraFormat requested) :
    ∃ pixelFormat,
      callFor ⟨cameraFormat.size, pixelFormat, cameraFormat.frameRate⟩ = some call := by
  have hsize : Size.make cameraFormat.width cameraFormat.height = cameraFormat.size :=
    make_eq hw hh
  rw [libyuvCalls, hsize] at hmem
  by_cases hmjpeg : requested = .mjpeg
  · rw [if_pos hmjpeg] at hmem
    exact absurd hmem List.not_mem_nil
  by_cases hhas : hasLibyuvFormat cameraFormat.pixelFormat
  · rw [if_neg hmjpeg, if_pos hhas] at hmem
    dsimp only at hmem
    cases hbgra : callFor ⟨cameraFormat.size, .bgra, cameraFormat.frameRate⟩ with
    | none =>
      rw [hbgra] at hmem
      exact absurd hmem List.not_mem_nil
    | some toBgra =>
      rw [hbgra] at hmem
      dsimp only at hmem
      by_cases hrequested : requested = .bgra
      · rw [if_pos hrequested, List.mem_singleton] at hmem
        exact ⟨.bgra, hmem ▸ hbgra⟩
      · rw [if_neg hrequested] at hmem
        obtain rfl | hmem := List.mem_cons.mp hmem
        · exact ⟨.bgra, hbgra⟩
        · exact ⟨requested, Option.mem_toList.mp hmem⟩
  · rw [if_neg hmjpeg, if_neg hhas] at hmem
    exact absurd hmem List.not_mem_nil

namespace Scenario

/-- A frame of three by three pixels. -/
def oddFormat : CameraFormat := ⟨⟨3, 3⟩, .bgra, 30⟩

/-- A frame of the usual size. -/
def evenFormat : CameraFormat := ⟨⟨640, 480⟩, .yuy2, 30⟩

/-- Its conversion to I420. -/
def evenCall : Call :=
  ⟨⟨⟨640, 480⟩, .i420, 30⟩, 460800,
    [⟨0, 640, 640, 480⟩, ⟨307200, 320, 320, 240⟩, ⟨384000, 320, 320, 240⟩]⟩

end Scenario

end Felicia.Cameras
