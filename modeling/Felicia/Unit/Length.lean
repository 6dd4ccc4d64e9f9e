import Felicia.Unit.UnitHelper
import Mathlib.Tactic.NormNum

/-!
# Lengths

A length is a number of millimeters. The conversions to centimeters, meters and kilometers divide
integers before they convert to `double`, and those to feet and inches divide by the unit of the
other (`inUnit_mul_iff`). What is left of a number that was converted to a length is close to it
only where nothing of this matters (`abs_inUnit_fromUnit_lt_iff`).
-/

set_option autoImplicit false
set_option relaxedAutoImplicit false

namespace Felicia.Units

open Support

/-! ### Lengths -/

/-- `saturated_cast<int64_t>` of a number that is not NaN. -/
def saturatedCast (q : ℚ) : ℤ := saturate int64Min int64Max (truncate q)

theorem inInt64_saturatedCast (q : ℚ) : InInt64 (saturatedCast q) :=
  saturate_mem (by decide)

@[ext] structure Length where
  /-- In millimeters. -/
  length : ℤ
  inInt64 : InInt64 length

def kCentimeter : ℤ := 10
def kMeter : ℤ := 100 * kCentimeter
def kKillometer : ℤ := 1000 * kMeter
def kInch : ℚ := 254 / 10
def kFeet : ℚ := 12 * kInch

theorem kCentimeter_pos : 0 < kCentimeter := by decide
theorem kMeter_pos : 0 < kMeter := by decide
theorem kKillometer_pos : 0 < kKillometer := by decide

namespace Length

def fromDouble (value : ℚ) : Length := ⟨saturatedCast value, inInt64_saturatedCast value⟩

def fromMillimeter (millimeter : Int64Value) : Length := ⟨millimeter.1, millimeter.2⟩

def fromCentimeter (centimeter : Int64Value) : Length :=
  ⟨fromProduct centimeter kCentimeter, inInt64_fromProduct centimeter kCentimeter_pos⟩

def fromCentimeterD (centimeter : ℚ) : Length := fromDouble (centimeter * kCentimeter)

def fromMeter (meter : Int64Value) : Length :=
  ⟨fromProduct meter kMeter, inInt64_fromProduct meter kMeter_pos⟩

def fromMeterD (meter : ℚ) : Length := fromDouble (meter * kMeter)

def fromKillometer (killometer : Int64Value) : Length :=
  ⟨fromProduct killometer kKillometer, inInt64_fromProduct killometer kKillometer_pos⟩

def fromKillometerD (killometer : ℚ) : Length := fromDouble (killometer * kKillometer)

def fromFeet (feet : Int64Value) : Length := fromDouble (feet.1 * kFeet)

def fromFeetD (feet : ℚ) : Length := fromDouble (feet * kFeet)

def fromInch (inch : Int64Value) : Length := fromDouble (inch.1 * kInch)

def fromInchD (inch : ℚ) : Length := fromDouble (inch * kInch)

variable (length : Length)

def inMillimeter : ℤ := length.length

def inCentimeter : ℚ := (length.length.tdiv kCentimeter : ℤ)

def inMeter : ℚ := (length.length.tdiv kMeter : ℤ)

def inKillometer : ℚ := (length.length.tdiv kKillometer : ℤ)

def inFeet : ℚ := length.length / kInch

def inInch : ℚ := length.length / kFeet

/-- `operator/(Length)`. The division of integers has no result for a zero divisor, and for the
smallest number and -1. -/
def ratio (a : Length) : Option ℚ :=
  if a.length = 0 ∨ (length.length = int64Min ∧ a.length = -1) then none
  else some (length.length.tdiv a.length : ℤ)

end Length

/-! ### Units -/

/-- The units that are no millimeters. -/
inductive LengthUnit
  | centimeter | meter | killometer | feet | inch
  deriving DecidableEq

namespace LengthUnit

/-- The millimeters of a unit. -/
def millimeters : LengthUnit → ℚ
  | centimeter => kCentimeter
  | meter => kMeter
  | killometer => kKillometer
  | feet => kFeet
  | inch => kInch

def fromUnit : LengthUnit → Int64Value → Length
  | centimeter => Length.fromCentimeter
  | meter => Length.fromMeter
  | killometer => Length.fromKillometer
  | feet => Length.fromFeet
  | inch => Length.fromInch

def fromUnitD : LengthUnit → ℚ → Length
  | centimeter => Length.fromCentimeterD
  | meter => Length.fromMeterD
  | killometer => Length.fromKillometerD
  | feet => Length.fromFeetD
  | inch => Length.fromInchD

def inUnit : LengthUnit → Length → ℚ
  | centimeter => Length.inCentimeter
  | meter => Length.inMeter
  | killometer => Length.inKillometer
  | feet => Length.inFeet
  | inch => Length.inInch

/-- A number of a unit is a length without saturation. -/
def Fits (unit : LengthUnit) (n : ℚ) : Prop := InInt64 (truncate (n * unit.millimeters))

/-- The lengths that a conversion keeps. -/
def Keeps (unit : LengthUnit) (length : ℤ) : Prop :=
  match unit with
  | centimeter => kCentimeter ∣ length
  | meter => kMeter ∣ length
  | killometer => kKillometer ∣ length
  | feet | inch => length = 0

/-- The numbers that are converted to a length and back with a loss of less than a millimeter. -/
def Returns (unit : LengthUnit) (n : ℚ) : Prop :=
  match unit with
  | centimeter => kCentimeter ∣ truncate (n * kCentimeter)
  | meter => kMeter ∣ truncate (n * kMeter)
  | killometer => kKillometer ∣ truncate (n * kKillometer)
  | feet => |n * kFeet| < 1
  | inch => |n * kInch| < 13 / 12

end LengthUnit

open LengthUnit

variable {unit : LengthUnit} {length : Length}

/-! ### Conversions of a length -/

theorem inUnit_mul_iff (unit : LengthUnit) (length : Length) :
    unit.inUnit length * unit.millimeters = length.length ↔ unit.Keeps length.length := by
  cases unit with
  | centimeter | meter | killometer => exact tdiv_mul_eq_iff
  | feet =>
    have htwelve : (length.length : ℚ) / kInch * kFeet = length.length * 12 := by
      rw [kFeet, kInch]
      ring
    simp only [inUnit, Length.inFeet, millimeters, Keeps, htwelve]
    constructor
    · intro h
      exact_mod_cast (by linarith : (length.length : ℚ) = 0)
    · intro h
      rw [h]
      norm_num
  | inch =>
    have htwelve : (length.length : ℚ) / kFeet * kInch = length.length / 12 := by
      rw [kFeet, kInch]
      ring
    simp only [inUnit, Length.inInch, millimeters, Keeps, htwelve]
    constructor
    · intro h
      exact_mod_cast (by linarith : (length.length : ℚ) = 0)
    · intro h
      rw [h]
      norm_num

theorem ratio_eq_iff (a b : Length) (hb : b.length ≠ 0) :
    a.ratio b = some ((a.length : ℚ) / b.length) ↔
      b.length ∣ a.length ∧ ¬(a.length = int64Min ∧ b.length = -1) := by
  rw [Length.ratio]
  by_cases hoverflow : a.length = int64Min ∧ b.length = -1
  · rw [if_pos (.inr hoverflow)]
    simp [hoverflow]
  · rw [if_neg (not_or.mpr ⟨hb, hoverflow⟩), Option.some_inj, tdiv_eq_div_iff hb]
    exact (and_iff_left hoverflow).symm

/-! ### Conversions to a length and back -/

theorem length_fromDouble {q : ℚ} (h : InInt64 (truncate q)) :
    (Length.fromDouble q).length = truncate q :=
  saturate_of_mem h.1 h.2

theorem fromUnitD_eq (unit : LengthUnit) (n : ℚ) :
    unit.fromUnitD n = Length.fromDouble (n * unit.millimeters) := by
  cases unit <;> rfl

theorem millimeters_pos (unit : LengthUnit) : 0 < unit.millimeters := by
  cases unit <;> norm_num [millimeters, kCentimeter, kMeter, kKillometer, kFeet, kInch]

theorem abs_sub_mul_millimeters (unit : LengthUnit) (a b : ℚ) :
    |a - b| * unit.millimeters = |a * unit.millimeters - b * unit.millimeters| := by
  rw [← sub_mul, abs_mul, abs_of_pos (millimeters_pos unit)]

/-- Twelve times what is left of a number is close to it only for what is left of nothing. -/
theorem abs_truncate_mul_twelve_sub_lt_iff (q : ℚ) :
    |(truncate q : ℚ) * 12 - q| < 1 ↔ |q| < 1 := by
  induction q using neg_induction with
  | neg q ih =>
    have hneg : -(truncate q : ℚ) * 12 - -q = -((truncate q : ℚ) * 12 - q) := by ring
    rwa [truncate_neg, Int.cast_neg, hneg, abs_neg, abs_neg]
  | nonneg q h =>
    obtain ⟨hnonneg, hle, hlt⟩ := truncate_of_nonneg h
    rw [← truncate_eq_zero_iff q, abs_lt]
    constructor
    · rintro ⟨-, hupper⟩
      have hsmall : (truncate q : ℚ) < 1 := by linarith
      have hsmall' : truncate q < 1 := by exact_mod_cast hsmall
      omega
    · intro hzero
      rw [hzero, Int.cast_zero] at hlt ⊢
      constructor <;> linarith

/-- A twelfth of what is left of a number is close to it only where that is at most one. -/
theorem abs_truncate_div_twelve_sub_lt_iff (q : ℚ) :
    |(truncate q : ℚ) / 12 - q| < 1 ↔ |q| < 13 / 12 := by
  induction q using neg_induction with
  | neg q ih =>
    have hneg : -(truncate q : ℚ) / 12 - -q = -((truncate q : ℚ) / 12 - q) := by ring
    rwa [truncate_neg, Int.cast_neg, hneg, abs_neg, abs_neg]
  | nonneg q h =>
    obtain ⟨hnonneg, hle, hlt⟩ := truncate_of_nonneg h
    have hnonneg' : (0 : ℚ) ≤ truncate q := by exact_mod_cast hnonneg
    rw [abs_lt, abs_of_nonneg h]
    constructor
    · rintro ⟨hlower, -⟩
      have hsmall : (truncate q : ℚ) < 2 := by linarith
      have hsmall' : truncate q < 2 := by exact_mod_cast hsmall
      have hone : (truncate q : ℚ) ≤ 1 := by exact_mod_cast (show truncate q ≤ 1 by omega)
      linarith
    · intro hupper
      have hsmall : (truncate q : ℚ) < 2 := by linarith
      have hsmall' : truncate q < 2 := by exact_mod_cast hsmall
      obtain hzero | hone : truncate q = 0 ∨ truncate q = 1 := by omega
      · rw [hzero, Int.cast_zero] at hlt ⊢
        constructor <;> linarith
      · rw [hone, Int.cast_one] at hlt ⊢
        constructor <;> linarith

/-- Assumes: no saturation. -/
theorem abs_inUnit_fromUnitD_lt_iff {n : ℚ} (h : unit.Fits n) :
    |unit.inUnit (unit.fromUnitD n) - n| * unit.millimeters < 1 ↔ unit.Returns n := by
  have hlength : (unit.fromUnitD n).length = truncate (n * unit.millimeters) := by
    rw [fromUnitD_eq, length_fromDouble h]
  rw [abs_sub_mul_millimeters]
  cases unit with
  | centimeter | meter | killometer =>
    simp only [inUnit, Length.inCentimeter, Length.inMeter, Length.inKillometer, hlength]
    exact abs_tdiv_mul_sub_lt_iff _
  | feet =>
    have htwelve : (truncate (n * kFeet) : ℚ) / kInch * kFeet = truncate (n * kFeet) * 12 := by
      rw [kFeet, kInch]
      ring
    simp only [inUnit, Length.inFeet, hlength, millimeters, htwelve]
    exact abs_truncate_mul_twelve_sub_lt_iff _
  | inch =>
    have htwelve : (truncate (n * kInch) : ℚ) / kFeet * kInch = truncate (n * kInch) / 12 := by
      rw [kFeet, kInch]
      ring
    simp only [inUnit, Length.inInch, hlength, millimeters, htwelve]
    exact abs_truncate_div_twelve_sub_lt_iff _

/-- An integer is converted to a length as a `double` of the same value is. -/
theorem fromUnit_eq (unit : LengthUnit) (n : Int64Value) :
    unit.fromUnit n = unit.fromUnitD n.1 := by
  have hproduct (k : ℤ) (hk : 0 < k) : fromProduct n.1 k = saturatedCast (n.1 * k) := by
    rw [fromProduct_eq hk, saturatedCast, ← Int.cast_mul, truncate_intCast]
  cases unit with
  | centimeter => exact Length.ext (hproduct _ kCentimeter_pos)
  | meter => exact Length.ext (hproduct _ kMeter_pos)
  | killometer => exact Length.ext (hproduct _ kKillometer_pos)
  | feet | inch => rfl

/-- Whole centimeters, meters and kilometers come back, and of feet and inches only none. -/
theorem returns_intCast_iff (unit : LengthUnit) (n : ℤ) :
    unit.Returns n ↔ (unit = .feet ∨ unit = .inch → n = 0) := by
  have hwhole (k : ℤ) : k ∣ truncate ((n : ℚ) * k) := by
    rw [← Int.cast_mul, truncate_intCast]
    exact dvd_mul_left k n
  have hone (h : n ≠ 0) : (1 : ℚ) ≤ |(n : ℚ)| := by exact_mod_cast Int.one_le_abs h
  cases unit with
  | centimeter | meter | killometer => simpa [Returns] using hwhole _
  | feet =>
    simp only [Returns, forall_const, reduceCtorEq, or_false]
    constructor
    · intro hclose
      by_contra hne
      have := hone hne
      rw [abs_mul, kFeet, kInch] at hclose
      norm_num at hclose
      linarith
    · rintro rfl
      simp
  | inch =>
    simp only [Returns, or_true, forall_const, reduceCtorEq]
    constructor
    · intro hclose
      by_contra hne
      have := hone hne
      rw [abs_mul, kInch] at hclose
      norm_num at hclose
      linarith
    · rintro rfl
      norm_num

/-- What the conversions of lengths keep, for each unit: a length that is converted to the unit, the
ratio of two lengths, and numbers that are converted to a length and back without saturation. -/
theorem length_conversions_iff (unit : LengthUnit) (length a b : Length) (n : Int64Value) (x : ℚ) :
    (unit.inUnit length * unit.millimeters = length.length ↔ unit.Keeps length.length) ∧
    (a.length ≠ 0 → b.length ≠ 0 →
      (a.ratio b = some ((a.length : ℚ) / b.length) ↔
        b.length ∣ a.length ∧ ¬(a.length = int64Min ∧ b.length = -1))) ∧
    (unit.Fits n.1 →
      (|unit.inUnit (unit.fromUnit n) - n.1| * unit.millimeters < 1 ↔
        (unit = .feet ∨ unit = .inch → n.1 = 0))) ∧
    (unit.Fits x →
      (|unit.inUnit (unit.fromUnitD x) - x| * unit.millimeters < 1 ↔ unit.Returns x)) ∧
    (Length.fromMillimeter n).inMillimeter = n.1 := by
  refine ⟨inUnit_mul_iff unit length, fun _ hb ↦ ratio_eq_iff a b hb, fun h ↦ ?_,
    abs_inUnit_fromUnitD_lt_iff, rfl⟩
  rw [fromUnit_eq, abs_inUnit_fromUnitD_lt_iff h, returns_intCast_iff]

namespace Scenario

/-- A meter and a half. -/
def meterAndHalf : Length := ⟨1500, by decide⟩

def oneMeter : Length := ⟨1000, by decide⟩

end Scenario

open Scenario in
theorem meterAndHalf_kept :
    inUnit .centimeter meterAndHalf * millimeters .centimeter = meterAndHalf.length ∧
      |inUnit .meter (fromUnit .meter ⟨1, by decide⟩) - 1| * millimeters .meter < 1 := by
  have h (unit : LengthUnit) :=
    length_conversions_iff unit meterAndHalf meterAndHalf oneMeter ⟨1, by decide⟩ 0
  have hfits : (LengthUnit.meter).Fits ((1 : ℤ) : ℚ) := by
    rw [Fits, millimeters, ← Int.cast_mul, truncate_intCast]
    decide
  refine ⟨(h .centimeter).1.mpr (show kCentimeter ∣ 1500 by decide), ?_⟩
  exact_mod_cast ((h .meter).2.2.1 hfits).mpr (by simp)

open Scenario in
/-- A meter and a half is one meter and one length of a meter, and its inches are not its length. -/
theorem meterAndHalf_lost :
    ¬(inUnit .meter meterAndHalf * millimeters .meter = meterAndHalf.length) ∧
      ¬(inUnit .inch meterAndHalf * millimeters .inch = meterAndHalf.length) ∧
      ¬(meterAndHalf.ratio oneMeter =
        some ((meterAndHalf.length : ℚ) / (oneMeter.length : ℚ))) := by
  refine ⟨?_, ?_, ?_⟩
  · rw [inUnit_mul_iff]
    exact show ¬kMeter ∣ 1500 by decide
  · rw [inUnit_mul_iff]
    exact show ¬(1500 : ℤ) = 0 by decide
  · rw [ratio_eq_iff _ _ (by decide)]
    decide

end Felicia.Units
