import Felicia.Drivers.CameraFormat
import Mathlib.Tactic.Ring
import Mathlib.Tactic.NormNum

/-!
# Decoding PNG files

`DecodeInfoCallback` asks libpng for transformations and allocates for a number of channels that it
takes from the requested format. It compares that number with the constants of `PixelFormat`, which
it never is, so that no row is stripped to eight bits or converted to gray. A row takes what was
allocated for it only where the file happens to have the requested channels
(`inBuffer_iff_matches`).
-/

set_option autoImplicit false
set_option relaxedAutoImplicit false

namespace Felicia.PngCodec

open Cameras

/-- The numbers of the formats of `ui.proto` that the channels are compared with. -/
def pixelFormatY8 : ℤ := 25
def pixelFormatY16 : ℤ := 26
def pixelFormatZ16 : ℤ := 31

/-! ### Files -/

/-- `PNG_COLOR_TYPE_GRAY` and so on. -/
inductive ColorType
  | gray | rgb | palette | grayAlpha | rgbAlpha
  deriving DecidableEq

namespace ColorType

/-- `PNG_COLOR_MASK_ALPHA`. -/
def hasAlpha : ColorType → Bool
  | grayAlpha | rgbAlpha => true
  | gray | rgb | palette => false

def isGray : ColorType → Bool
  | gray | grayAlpha => true
  | rgb | palette | rgbAlpha => false

/-- The bit depths that the specification allows. -/
def bitDepths : ColorType → List ℕ
  | gray => [1, 2, 4, 8, 16]
  | palette => [1, 2, 4, 8]
  | rgb | grayAlpha | rgbAlpha => [8, 16]

end ColorType

/-- What `png_get_IHDR` and `png_get_valid` give for a legal file. -/
structure Header where
  width : ℕ
  height : ℕ
  bitDepth : ℕ
  colorType : ColorType
  /-- There is a chunk `tRNS`. -/
  hasTrns : Bool
  width_pos : 0 < width
  height_pos : 0 < height
  bitDepth_mem : bitDepth ∈ colorType.bitDepths
  noAlpha : hasTrns → colorType.hasAlpha = false

/-- What libpng is asked for. -/
structure Transformations where
  expand : Bool
  strip16 : Bool
  swap : Bool
  bgr : Bool
  addAlpha : Bool
  rgbToGray : Bool

/-- The bits of a sample after the transformations. -/
def outputDepth (header : Header) (transformations : Transformations) : ℕ :=
  if transformations.expand ∧ header.bitDepth < 8 then 8
  else if transformations.strip16 ∧ header.bitDepth = 16 then 8
  else header.bitDepth

/-- How many samples a pixel has after the transformations. -/
def outputSamples (header : Header) (transformations : Transformations) : ℕ :=
  let colors :=
    if header.colorType.isGray ∨ transformations.rgbToGray then 1
    else if header.colorType = .palette ∧ ¬transformations.expand then 1
    else 3
  let hasAlpha := header.colorType.hasAlpha || (transformations.expand && header.hasTrns)
  if hasAlpha ∨ transformations.addAlpha then colors + 1 else colors

/-- `png_get_rowbytes` after `png_read_update_info`. -/
def rowBytes (header : Header) (transformations : Transformations) : ℕ :=
  (header.width * (outputSamples header transformations * outputDepth header transformations) + 7)
    / 8

/-! ### The callbacks -/

/-- `output_channels`, whether `png_set_bgr` and whether `png_set_add_alpha` is called. -/
structure RowFormat where
  outputChannels : ℤ
  bgr : Bool := false
  addAlpha : Bool := false

/-- The row format for a file without alpha. -/
def opaqueFormat : PixelFormat → RowFormat
  | .bgra => ⟨4, true, true⟩
  | .bgr => ⟨3, true, false⟩
  | .y8 => ⟨1, false, false⟩
  | .y16 | .z16 => ⟨2, false, false⟩
  | .rgba => ⟨4, false, true⟩
  | .rgb => ⟨3, false, false⟩
  | _ => ⟨0, false, false⟩

/-- The row format for a file with alpha. -/
def alphaFormat : PixelFormat → RowFormat
  | .bgr | .bgra => ⟨4, true, false⟩
  | .y8 => ⟨2, false, false⟩
  | .y16 | .z16 => ⟨3, false, false⟩
  | .rgb | .rgba => ⟨4, false, false⟩
  | _ => ⟨0, false, false⟩

/-- What `DecodeInfoCallback` leaves behind. -/
structure DecoderState where
  width : ℕ
  height : ℕ
  outputChannels : ℤ
  transformations : Transformations
  /-- The size of the data of the image. -/
  dataSize : ℤ

/-- `DecodeInfoCallback`, where a jump out of it is none. The number of channels is 0 before it is
chosen. -/
def decodeInfoCallback (header : Header) (outputFormat : PixelFormat) : Option DecoderState :=
  if header.width * header.height > 2 ^ 29 - 1 then none
  else
    let outputChannels : ℤ := 0
    let expand := header.colorType = .palette ∨ (header.colorType = .gray ∧ header.bitDepth < 8)
    let inputHasAlpha := header.colorType.hasAlpha
    let expand := expand ∨ header.hasTrns
    let inputHasAlpha := inputHasAlpha || header.hasTrns
    let strip16 := header.bitDepth = 16 ∧ outputChannels = pixelFormatY8
    if header.bitDepth ≠ 16 ∧
        (outputChannels = pixelFormatY16 ∨ outputChannels = pixelFormatZ16) then none
    else
      let format := if inputHasAlpha then alphaFormat outputFormat else opaqueFormat outputFormat
      let outputChannels := format.outputChannels
      let rgbToGray := ¬header.colorType.isGray ∧ (outputChannels = pixelFormatY8 ∨
        outputChannels = pixelFormatY16 ∨ outputChannels = pixelFormatZ16)
      some {
        width := header.width
        height := header.height
        outputChannels := outputChannels
        transformations := {
          expand := expand
          strip16 := strip16
          swap := header.bitDepth = 16
          bgr := format.bgr
          addAlpha := format.addAlpha
          rgbToGray := rgbToGray }
        dataSize := (header.width * header.height : ℕ) * outputChannels }

/-- The stride that `DecodeRowCallback` uses. -/
def DecoderState.stride (state : DecoderState) : ℤ := state.width * state.outputChannels

/-- Every row fits the data of the image, and the rows are next to each other. -/
def InBuffer (header : Header) (state : DecoderState) : Prop :=
  (header.height * rowBytes header state.transformations : ℕ) ≤ state.dataSize ∧
    state.stride = rowBytes header state.transformations

/-! ### What matches -/

/-- The formats that are decoded to. -/
def Handled (outputFormat : PixelFormat) : Prop :=
  outputFormat ∈ [PixelFormat.bgra, .bgr, .y8, .y16, .z16, .rgba, .rgb]

/-- The file has alpha, or makes a color transparent. -/
def Header.alpha (header : Header) : Bool := header.colorType.hasAlpha || header.hasTrns

/-- The files that have the channels of a format. -/
def Matches (header : Header) (outputFormat : PixelFormat) : Prop :=
  match outputFormat with
  | .y8 => header.colorType.isGray ∧ header.bitDepth ≤ 8
  | .y16 | .z16 => header.colorType.isGray ∧ header.bitDepth = 16 ∧ header.alpha = false
  | .bgr | .rgb =>
    (¬header.colorType.isGray ∧ header.bitDepth ≤ 8) ∨
      (header.colorType.isGray ∧ header.bitDepth = 16 ∧ header.alpha)
  | .bgra | .rgba =>
    (¬header.colorType.isGray ∧ header.bitDepth ≤ 8) ∨
      (header.colorType.isGray ∧ header.bitDepth = 16)
  | _ => False

variable {header : Header} {outputFormat : PixelFormat} {state : DecoderState}

/-! ### The transformations that are asked for -/

/-- The row format that is picked for a file. -/
def rowFormat (header : Header) (outputFormat : PixelFormat) : RowFormat :=
  if header.alpha then alphaFormat outputFormat else opaqueFormat outputFormat

/-- No number of channels is a constant of `PixelFormat`. -/
theorem outputChannels_le (header : Header) (outputFormat : PixelFormat) :
    0 ≤ (rowFormat header outputFormat).outputChannels ∧
      (rowFormat header outputFormat).outputChannels ≤ 4 := by
  rw [rowFormat]
  cases header.alpha <;> cases outputFormat <;> simp [alphaFormat, opaqueFormat]

/-- Rows are neither stripped nor converted to gray, and what needs to be expanded is. -/
structure Asked (header : Header) (outputFormat : PixelFormat) (state : DecoderState) : Prop where
  width : state.width = header.width
  outputChannels : state.outputChannels = (rowFormat header outputFormat).outputChannels
  dataSize : state.dataSize = (header.width * header.height : ℕ) * state.outputChannels
  strip16 : state.transformations.strip16 = false
  rgbToGray : state.transformations.rgbToGray = false
  addAlpha : state.transformations.addAlpha = (rowFormat header outputFormat).addAlpha
  expand : state.transformations.expand ↔
    (header.colorType = .palette ∨ (header.colorType = .gray ∧ header.bitDepth < 8)) ∨
      header.hasTrns

theorem asked_of_decodeInfoCallback (h : decodeInfoCallback header outputFormat = some state) :
    Asked header outputFormat state := by
  have hchannels := outputChannels_le header outputFormat
  have hnumbers : ¬((rowFormat header outputFormat).outputChannels = pixelFormatY8 ∨
      (rowFormat header outputFormat).outputChannels = pixelFormatY16 ∨
      (rowFormat header outputFormat).outputChannels = pixelFormatZ16) := by
    rw [pixelFormatY8, pixelFormatY16, pixelFormatZ16]
    omega
  have hzero : ¬((0 : ℤ) = pixelFormatY16 ∨ (0 : ℤ) = pixelFormatZ16) := by decide
  have hzero' : ¬(0 : ℤ) = pixelFormatY8 := by decide
  unfold decodeInfoCallback at h
  split_ifs at h with hsize
  dsimp only at h
  rw [if_neg fun hboth ↦ hzero hboth.2] at h
  obtain rfl := Option.some.inj h
  exact {
    width := rfl
    outputChannels := rfl
    dataSize := rfl
    strip16 := decide_eq_false fun hboth ↦ hzero' hboth.2
    rgbToGray := decide_eq_false fun hboth ↦ hnumbers hboth.2
    addAlpha := rfl
    expand := by simp }

/-! ### The bytes of a pixel -/

/-- How many bytes a pixel of a decoded row has. -/
def pixelBytes (header : Header) (outputFormat : PixelFormat) : ℕ :=
  ((if header.colorType.isGray then 1 else 3) +
    if header.alpha ∨ (rowFormat header outputFormat).addAlpha then 1 else 0) *
  if header.bitDepth = 16 then 2 else 1

/-- Assumes: what is asked for. A sample of fewer than eight bits is expanded. -/
theorem outputDepth_eq (h : Asked header outputFormat state) :
    outputDepth header state.transformations = if header.bitDepth = 16 then 16 else 8 := by
  have hmem := header.bitDepth_mem
  rw [outputDepth, h.strip16]
  by_cases hlow : header.bitDepth < 8
  · have hexpand : state.transformations.expand := by
      rw [h.expand]
      cases hcolor : header.colorType with
      | palette => exact .inl (.inl rfl)
      | gray => exact .inl (.inr ⟨rfl, hlow⟩)
      | rgb | grayAlpha | rgbAlpha =>
        rw [hcolor] at hmem
        simp only [ColorType.bitDepths, List.mem_cons, List.not_mem_nil, or_false] at hmem
        omega
    rw [if_pos ⟨hexpand, hlow⟩, if_neg (by omega)]
  · have hdepth : header.bitDepth = 8 ∨ header.bitDepth = 16 := by
      cases hcolor : header.colorType <;> rw [hcolor] at hmem <;>
        simp only [ColorType.bitDepths, List.mem_cons, List.not_mem_nil, or_false] at hmem <;> omega
    obtain hdepth | hdepth := hdepth <;> simp [hdepth]

theorem outputSamples_eq (h : Asked header outputFormat state) :
    outputSamples header state.transformations =
      (if header.colorType.isGray then 1 else 3) +
        if header.alpha ∨ (rowFormat header outputFormat).addAlpha then 1 else 0 := by
  have halpha : (header.colorType.hasAlpha || (state.transformations.expand && header.hasTrns)) =
      header.alpha := by
    rw [Header.alpha]
    cases htrns : header.hasTrns with
    | false => simp
    | true => rw [h.expand.mpr (.inr htrns), Bool.true_and]
  have hpalette : ¬(header.colorType = .palette ∧ ¬state.transformations.expand) :=
    fun hboth ↦ hboth.2 (h.expand.mpr (.inl (.inl hboth.1)))
  rw [outputSamples, h.rgbToGray, h.addAlpha, halpha]
  simp only [if_neg hpalette, Bool.false_eq_true, or_false]
  split_ifs <;> rfl

theorem rowBytes_eq (h : Asked header outputFormat state) :
    rowBytes header state.transformations = header.width * pixelBytes header outputFormat := by
  rw [rowBytes, outputSamples_eq h, outputDepth_eq h, pixelBytes]
  have hbytes (bytes : ℕ) : (header.width * (bytes * 8) + 7) / 8 = header.width * bytes := by
    rw [← Nat.mul_assoc]
    omega
  have hbytes' (bytes : ℕ) :
      (header.width * (bytes * 16) + 7) / 8 = header.width * (bytes * 2) := by
    rw [← Nat.mul_assoc, ← Nat.mul_assoc]
    omega
  by_cases hwide : header.bitDepth = 16
  · rw [if_pos hwide, if_pos hwide, hbytes']
  · rw [if_neg hwide, if_neg hwide, hbytes, Nat.mul_one]

theorem inBuffer_iff_pixelBytes (h : Asked header outputFormat state) :
    InBuffer header state ↔
      (rowFormat header outputFormat).outputChannels = pixelBytes header outputFormat := by
  have hpos : (header.width : ℤ) ≠ 0 := by
    have := header.width_pos
    omega
  rw [InBuffer, rowBytes_eq h, DecoderState.stride, h.width, h.dataSize, h.outputChannels]
  push_cast
  rw [mul_right_inj' hpos]
  refine and_iff_right_of_imp fun heq ↦ ?_
  rw [heq]
  exact le_of_eq (by ring)

/-- The channels that are allocated are the bytes of a pixel. -/
theorem outputChannels_eq_iff (hhandled : Handled outputFormat) :
    (rowFormat header outputFormat).outputChannels = pixelBytes header outputFormat ↔
      Matches header outputFormat := by
  have hdepth : header.bitDepth ≤ 8 ↔ header.bitDepth ≠ 16 := by
    have hmem := header.bitDepth_mem
    cases hcolor : header.colorType <;> rw [hcolor] at hmem <;>
      simp only [ColorType.bitDepths, List.mem_cons, List.not_mem_nil, or_false] at hmem <;> omega
  simp only [Handled, List.mem_cons, List.not_mem_nil, or_false] at hhandled
  rw [pixelBytes, rowFormat]
  obtain rfl | rfl | rfl | rfl | rfl | rfl | rfl := hhandled <;>
    simp only [Matches, hdepth, alphaFormat, opaqueFormat] <;>
    cases header.alpha <;> cases header.colorType.isGray <;>
    by_cases hwide : header.bitDepth = 16 <;> simp [hwide]

/-- A row of a decoded file is in the data of the image, and as long as the stride, exactly when the
file has the channels of the requested format. -/
theorem inBuffer_iff_matches (header : Header) (outputFormat : PixelFormat)
    (hhandled : Handled outputFormat) :
    ∀ state, decodeInfoCallback header outputFormat = some state →
      (InBuffer header state ↔ Matches header outputFormat) := by
  intro state h
  rw [inBuffer_iff_pixelBytes (asked_of_decodeInfoCallback h), outputChannels_eq_iff hhandled]

namespace Scenario

/-- A photograph. -/
def rgbHeader : Header where
  width := 640
  height := 480
  bitDepth := 8
  colorType := .rgb
  hasTrns := false
  width_pos := by decide
  height_pos := by decide
  bitDepth_mem := by decide
  noAlpha _ := rfl

end Scenario

open Scenario in
theorem rgbHeader_inBuffer :
    ∃ state, decodeInfoCallback rgbHeader .rgb = some state ∧ InBuffer rgbHeader state :=
  ⟨_, rfl, (inBuffer_iff_matches rgbHeader .rgb (by simp [Handled]) _ rfl).mpr (.inl (by decide))⟩

open Scenario in
/-- A photograph that is decoded to gray: rows of three bytes a pixel, and room for one. -/
theorem rgbHeader_overflows :
    ∃ state, decodeInfoCallback rgbHeader .y8 = some state ∧ state.dataSize = 640 * 480 ∧
      rowBytes rgbHeader state.transformations = 3 * 640 ∧ ¬InBuffer rgbHeader state := by
  exact ⟨_, rfl, by decide, by decide, fun h ↦ absurd h.2 (by decide)⟩

end Felicia.PngCodec
