import Felicia.Support.WeakOrder
import Mathlib.Data.Prod.Lex
import Mathlib.Data.Rat.Lemmas
import Mathlib.Algebra.Order.Ring.Rat
import Mathlib.Algebra.Order.Group.Unbundled.Abs

/-!
# Formats of cameras

`CompareCapability` compares two formats by a rank that a requested format gives them: whether they
have its pixel format, the distances of their heights, widths and frame rates from its own, and a
list of preferences (`compareCapability_iff`). The list lacks some formats, which all come last.
-/

set_option autoImplicit false
set_option relaxedAutoImplicit false

namespace Felicia.Cameras

open Support

/-- `PixelFormat` of `felicia/core/protobuf/ui.proto`. A message can bring other numbers. -/
inductive PixelFormat
  | unknown | i420 | yv12 | nv12 | nv21 | uyvy | yuy2 | bgra | bgr | bgrx | mjpeg | y8 | y16 | rgba
  | rgbx | rgb | argb | z16
  | other (number : ℤ)
  deriving DecidableEq

/-- `Sizei`. -/
structure Size where
  width : ℤ := 0
  height : ℤ := 0
  deriving DecidableEq

/-- The constructor of `Size`. -/
def Size.make (width height : ℤ) : Size where
  width := if 0 < width then width else 0
  height := if 0 < height then height else 0

structure CameraFormat where
  size : Size := {}
  pixelFormat : PixelFormat := .unknown
  frameRate : ℚ := 0
  deriving DecidableEq

namespace CameraFormat

variable (format : CameraFormat)

def width : ℤ := format.size.width

def height : ℤ := format.size.height

end CameraFormat

/-! ### Messages -/

/-- `SizeiMessage`. -/
structure SizeMessage where
  width : ℤ := 0
  height : ℤ := 0

/-- `CameraFormatMessage`. What is not set has its default. -/
structure CameraFormatMessage where
  size : Option SizeMessage := none
  pixelFormat : PixelFormat := .unknown
  frameRate : ℚ := 0

/-- The size of a message, or the default instance where it is not set. -/
def CameraFormatMessage.getSize (message : CameraFormatMessage) : SizeMessage :=
  message.size.getD {}

/-- What `FromCameraFormatMessage` assigns. It never fails. -/
def CameraFormat.fromCameraFormatMessage (message : CameraFormatMessage) : CameraFormat where
  size := Size.make message.getSize.width message.getSize.height
  pixelFormat := message.pixelFormat
  frameRate := message.frameRate

/-! ### The best of some formats -/

/-- This list is ordered by precedence of use. -/
def supportedCapturePixelFormats : List PixelFormat :=
  [.i420, .yv12, .nv12, .nv21, .uyvy, .yuy2, .bgr, .rgb, .bgra, .bgrx, .rgba, .argb, .mjpeg]

/-- What `std::find` gives, as an index: that of the end for a format that the list lacks. -/
def preference (format : PixelFormat) : ℕ := supportedCapturePixelFormats.idxOf format

def comparePixelFormatPreference (lhs rhs : PixelFormat) : Bool := preference lhs < preference rhs

def compareCapability (requested lhs rhs : CameraFormat) : Bool :=
  if lhs.pixelFormat = requested.pixelFormat ∧ rhs.pixelFormat ≠ requested.pixelFormat then true
  else if lhs.pixelFormat ≠ requested.pixelFormat ∧ rhs.pixelFormat = requested.pixelFormat then
    false
  else
    let diffHeightLhs := |lhs.height - requested.height|
    let diffHeightRhs := |rhs.height - requested.height|
    if diffHeightLhs ≠ diffHeightRhs then diffHeightLhs < diffHeightRhs
    else
      let diffWidthLhs := |lhs.width - requested.width|
      let diffWidthRhs := |rhs.width - requested.width|
      if diffWidthLhs ≠ diffWidthRhs then diffWidthLhs < diffWidthRhs
      else
        let diffFpsLhs := |lhs.frameRate - requested.frameRate|
        let diffFpsRhs := |rhs.frameRate - requested.frameRate|
        if diffFpsLhs ≠ diffFpsRhs then diffFpsLhs < diffFpsRhs
        else comparePixelFormatPreference lhs.pixelFormat rhs.pixelFormat

/-- `GetBestMatchedCameraFormat`, which checks that there is a format. -/
def getBestMatchedCameraFormat (requested : CameraFormat) :
    List CameraFormat → Option CameraFormat
  | [] => none
  | first :: rest => some ((first :: rest).foldl (fun bestMatch cameraFormat ↦
      if compareCapability requested cameraFormat bestMatch then cameraFormat else bestMatch) first)

/-! ### The rank of a format -/

variable {requested format lhs rhs best : CameraFormat} {formats formats' : List CameraFormat}

abbrev Rank : Type := ℕ ×ₗ ℤ ×ₗ ℤ ×ₗ ℚ ×ₗ ℕ

/-- What `CompareCapability` compares, in the order in which it does. -/
def rank (requested format : CameraFormat) : Rank :=
  toLex (if format.pixelFormat = requested.pixelFormat then 0 else 1,
    toLex (|format.height - requested.height|,
      toLex (|format.width - requested.width|,
        toLex (|format.frameRate - requested.frameRate|, preference format.pixelFormat))))

/-- A comparison that goes on only where both sides are equal is lexicographic. -/
theorem ite_ne_iff {α : Type} [LinearOrder α] {a b : α} {rest : Bool} :
    (if a ≠ b then decide (a < b) else rest) = true ↔ a < b ∨ a = b ∧ rest = true := by
  by_cases heq : a = b
  · simp [heq]
  · simp [heq]

/-- `CompareCapability` where both formats have the requested pixel format, or neither has. -/
theorem compareCapability_of_iff
    (h : lhs.pixelFormat = requested.pixelFormat ↔ rhs.pixelFormat = requested.pixelFormat) :
    compareCapability requested lhs rhs ↔
      |lhs.height - requested.height| < |rhs.height - requested.height| ∨
      |lhs.height - requested.height| = |rhs.height - requested.height| ∧
        (|lhs.width - requested.width| < |rhs.width - requested.width| ∨
        |lhs.width - requested.width| = |rhs.width - requested.width| ∧
          (|lhs.frameRate - requested.frameRate| < |rhs.frameRate - requested.frameRate| ∨
          |lhs.frameRate - requested.frameRate| = |rhs.frameRate - requested.frameRate| ∧
            preference lhs.pixelFormat < preference rhs.pixelFormat)) := by
  have hfirst : ¬(lhs.pixelFormat = requested.pixelFormat ∧
      rhs.pixelFormat ≠ requested.pixelFormat) := fun both ↦ both.2 (h.mp both.1)
  have hsecond : ¬(lhs.pixelFormat ≠ requested.pixelFormat ∧
      rhs.pixelFormat = requested.pixelFormat) := fun both ↦ both.1 (h.mpr both.2)
  rw [compareCapability, if_neg hfirst, if_neg hsecond]
  dsimp only
  rw [ite_ne_iff, ite_ne_iff, ite_ne_iff, comparePixelFormatPreference, decide_eq_true_iff]

theorem compareCapability_iff :
    compareCapability requested lhs rhs ↔ rank requested lhs < rank requested rhs := by
  rw [rank, rank]
  simp only [Prod.Lex.toLex_lt_toLex]
  by_cases hlhs : lhs.pixelFormat = requested.pixelFormat
  · by_cases hrhs : rhs.pixelFormat = requested.pixelFormat
    · rw [compareCapability_of_iff (iff_of_true hlhs hrhs), if_pos hlhs, if_pos hrhs]
      simp
    · rw [compareCapability, if_pos ⟨hlhs, hrhs⟩, if_pos hlhs, if_neg hrhs]
      simp
  · by_cases hrhs : rhs.pixelFormat = requested.pixelFormat
    · rw [compareCapability, if_neg fun h ↦ hlhs h.1, if_pos ⟨hlhs, hrhs⟩, if_neg hlhs, if_pos hrhs]
      simp
    · rw [compareCapability_of_iff (iff_of_false hlhs hrhs), if_neg hlhs, if_neg hrhs]
      simp

/-- A format compares less than another. -/
def Less (requested lhs rhs : CameraFormat) : Prop := compareCapability requested lhs rhs

instance less_isStrictWeakOrder (requested : CameraFormat) :
    IsStrictWeakOrder CameraFormat (Less requested) :=
  isStrictWeakOrder_of_rank (rank requested) fun _ _ ↦ compareCapability_iff

theorem getBestMatchedCameraFormat_cons (first : CameraFormat) (rest : List CameraFormat) :
    getBestMatchedCameraFormat requested (first :: rest) =
      some (scan (compareCapability requested) first (first :: rest)) :=
  rfl

theorem isFirstLeast_best (h : getBestMatchedCameraFormat requested formats = some best) :
    IsFirstLeast (Less requested) formats best := by
  cases formats with
  | nil => cases h
  | cons first rest =>
    rw [getBestMatchedCameraFormat_cons] at h
    rw [← Option.some.inj h]
    exact isFirstLeast_scan fun _ _ ↦ Iff.rfl

/-- A format with the requested pixel format is less than any without. -/
theorem pixelFormat_of_isFirstLeast (h : IsFirstLeast (Less requested) formats best)
    (hmem : format ∈ formats) (hformat : format.pixelFormat = requested.pixelFormat) :
    best.pixelFormat = requested.pixelFormat := by
  by_contra hbest
  refine h.1 format hmem ?_
  rw [Less, compareCapability, if_pos ⟨hformat, hbest⟩]

/-- `CompareCapability` is a strict weak order, and the best of some formats is the first that none
is less than: one with the requested pixel format where there is any, and an equivalent one for any
order of the formats. -/
theorem getBestMatchedCameraFormat_isFirstLeast (requested : CameraFormat) :
    IsStrictWeakOrder CameraFormat (Less requested) ∧
    ∀ formats, formats ≠ [] →
      ∃ best, getBestMatchedCameraFormat requested formats = some best ∧
        IsFirstLeast (Less requested) formats best ∧
        ((∃ format ∈ formats, format.pixelFormat = requested.pixelFormat) →
          best.pixelFormat = requested.pixelFormat) ∧
        ∀ formats', formats.Perm formats' →
          ∃ best', getBestMatchedCameraFormat requested formats' = some best' ∧
            Incomparable (Less requested) best best' := by
  have hsome {formats : List CameraFormat} (hne : formats ≠ []) :
      ∃ best, getBestMatchedCameraFormat requested formats = some best := by
    obtain ⟨first, rest, rfl⟩ := List.exists_cons_of_ne_nil hne
    exact ⟨_, rfl⟩
  refine ⟨less_isStrictWeakOrder requested, fun formats hne ↦ ?_⟩
  obtain ⟨best, hbest⟩ := hsome hne
  have hleast := isFirstLeast_best hbest
  refine ⟨best, hbest, hleast, ?_, fun formats' hperm ↦ ?_⟩
  · rintro ⟨format, hmem, hformat⟩
    exact pixelFormat_of_isFirstLeast hleast hmem hformat
  · obtain ⟨best', hbest'⟩ := hsome fun hnil ↦ hne (hperm.trans (.of_eq hnil)).eq_nil
    exact ⟨best', hbest', incomparable_of_perm hleast (isFirstLeast_best hbest') hperm⟩

namespace Scenario

/-- What a camera is asked for. -/
def requestedFormat : CameraFormat := ⟨Size.make 640 480, .yuy2, 30⟩

def offeredFormats : List CameraFormat :=
  [⟨Size.make 640 480, .mjpeg, 30⟩, ⟨Size.make 320 240, .yuy2, 15⟩]

end Scenario

open Scenario in
/-- The requested pixel format comes before the requested size. -/
theorem best_of_offeredFormats :
    ∃ best, getBestMatchedCameraFormat requestedFormat offeredFormats = some best ∧
      best.pixelFormat = .yuy2 := by
  obtain ⟨best, hbest, -, hformat, -⟩ :=
    (getBestMatchedCameraFormat_isFirstLeast requestedFormat).2 offeredFormats (by decide)
  exact ⟨best, hbest, hformat ⟨_, List.mem_cons_of_mem _ List.mem_cons_self, rfl⟩⟩

end Felicia.Cameras
