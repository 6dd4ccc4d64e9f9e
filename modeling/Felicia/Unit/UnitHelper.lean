import Felicia.Unit.CheckedNumeric
import Felicia.Support.Truncation

/-!
# Saturating arithmetic

`felicia/core/lib/unit/unit_helper.h`. Where a checked number is not valid, the side to saturate to
comes from the signs of the operands. The outcome is always the exact result, saturated
(`toInt_saturateAdd`, `toInt_saturateSub`, `toInt_saturateMul`, `toInt_saturateDiv`,
`fromProduct_eq`).
-/

set_option autoImplicit false
set_option relaxedAutoImplicit false

namespace Felicia.Units

open Support

/-! ### Functions -/

section

-- whether the compiler has the built-ins
variable (isSupported : Bool)

def saturateAdd (value value2 : BitVec 64) : BitVec 64 :=
  let rv := CheckedNumeric.mathOp (checkedAddOp isSupported) ⟨true, value⟩ value2
  if rv.isValid then rv.value
  else if value2.toInt < 0 then BitVec.intMin 64
  else BitVec.intMax 64

def saturateSub (value value2 : BitVec 64) : BitVec 64 :=
  let rv := CheckedNumeric.mathOp (checkedSubOp isSupported) ⟨true, value⟩ value2
  if rv.isValid then rv.value
  else if value2.toInt < 0 then BitVec.intMax 64
  else BitVec.intMin 64

def saturateMul (value value2 : BitVec 64) : BitVec 64 :=
  let rv := CheckedNumeric.mathOp (checkedMulOp isSupported) ⟨true, value⟩ value2
  if rv.isValid then rv.value
  else if decide (value.toInt < 0) ^^ decide (value2.toInt < 0) then BitVec.intMin 64
  else BitVec.intMax 64

end

def saturateDiv (value value2 : BitVec 64) : BitVec 64 :=
  let rv := CheckedNumeric.mathOp checkedDivOp ⟨true, value⟩ value2
  if rv.isValid then rv.value
  else if decide (value.toInt < 0) ^^ decide (value2.toInt < 0) then BitVec.intMin 64
  else BitVec.intMax 64

/-- `FromProduct`, which checks that the multiplier is positive. -/
def fromProduct (value positiveMultiplier : ℤ) : ℤ :=
  if value > int64Max.tdiv positiveMultiplier then int64Max
  else if value < int64Min.tdiv positiveMultiplier then int64Min
  else value * positiveMultiplier

/-! ### Saturation -/

/-- What is out of range is saturated to the side that the limit is on. -/
theorem toInt_ite_eq_saturate {rv : CheckedNumeric} {limit : BitVec 64} {exact : ℤ}
    (h : rv.Denotes exact) (hmin : exact < int64Min → limit = BitVec.intMin 64)
    (hmax : int64Max < exact → limit = BitVec.intMax 64) :
    (if rv.isValid then rv.value else limit).toInt = saturate int64Min int64Max exact := by
  by_cases hvalid : rv.isValid
  · obtain ⟨hlower, hupper⟩ := h.isValid_iff.mp hvalid
    rw [if_pos hvalid, h.toInt_value hvalid, saturate_of_mem hlower hupper]
  · rw [if_neg hvalid]
    by_cases hunder : exact < int64Min
    · rw [hmin hunder, saturate_of_lt hunder]
      decide
    · have hover : int64Max < exact :=
        lt_of_not_ge fun hle ↦ hvalid (h.isValid_iff.mpr ⟨not_lt.mp hunder, hle⟩)
      rw [hmax hover, saturate_of_gt (by decide) hover]
      decide

theorem toInt_saturateAdd (isSupported : Bool) (a b : BitVec 64) :
    (saturateAdd isSupported a b).toInt = saturate int64Min int64Max (a.toInt + b.toInt) := by
  have ha := inInt64_toInt a
  apply toInt_ite_eq_saturate (checkedAddOp_denotes isSupported a b)
  · intro hunder
    exact if_pos (by have := ha.1; omega)
  · intro hover
    exact if_neg (by have := ha.2; omega)

theorem toInt_saturateSub (isSupported : Bool) (a b : BitVec 64) :
    (saturateSub isSupported a b).toInt = saturate int64Min int64Max (a.toInt - b.toInt) := by
  have ha := inInt64_toInt a
  apply toInt_ite_eq_saturate (checkedSubOp_denotes isSupported a b)
  · intro hunder
    exact if_neg (by have := ha.1; omega)
  · intro hover
    exact if_pos (by have := ha.2; omega)

/-- A result that is negative only for operands of different signs, and positive only for others. -/
structure HasSigns (a b exact : ℤ) : Prop where
  neg : exact < 0 → (a < 0 ↔ ¬b < 0)
  pos : 0 < exact → (a < 0 ↔ b < 0)

theorem hasSigns_mul (a b : ℤ) : HasSigns a b (a * b) where
  neg h := by
    have := mul_neg_iff.mp h
    omega
  pos h := by
    have := mul_pos_iff.mp h
    omega

theorem hasSigns_tdiv (a b : ℤ) : HasSigns a b (a.tdiv b) where
  neg h := by
    by_contra hsame
    by_cases hb : b < 0
    · have := Int.tdiv_nonneg_of_nonpos_of_nonpos (a := a) (b := b) (by omega) (by omega)
      omega
    · have := Int.tdiv_nonneg (a := a) (b := b) (by omega) (by omega)
      omega
  pos h := by
    by_contra hdiffer
    by_cases hb : b < 0
    · have := Int.tdiv_nonpos_of_nonneg_of_nonpos (a := a) (b := b) (by omega) (by omega)
      omega
    · have := Int.tdiv_nonneg (a := -a) (b := b) (by omega) (by omega)
      rw [Int.neg_tdiv] at this
      omega

/-- The limit that is chosen by the signs of the operands is the right one. -/
theorem HasSigns.toInt_ite_eq_saturate {rv : CheckedNumeric} {a b exact : ℤ}
    (hsigns : HasSigns a b exact) (h : rv.Denotes exact) :
    (if rv.isValid then rv.value
      else if decide (a < 0) ^^ decide (b < 0) then BitVec.intMin 64
      else BitVec.intMax 64).toInt = saturate int64Min int64Max exact := by
  apply Units.toInt_ite_eq_saturate h
  · intro hunder
    have hneg := hsigns.neg (hunder.trans (by decide))
    by_cases hb : b < 0 <;> simp [hneg, hb]
  · intro hover
    have hpos := hsigns.pos (lt_trans (by decide) hover)
    by_cases hb : b < 0 <;> simp [hpos, hb]

theorem toInt_saturateMul (isSupported : Bool) (a b : BitVec 64) :
    (saturateMul isSupported a b).toInt = saturate int64Min int64Max (a.toInt * b.toInt) :=
  (hasSigns_mul a.toInt b.toInt).toInt_ite_eq_saturate (checkedMulOp_denotes isSupported a b)

/-- Assumes: a divisor that is not zero. -/
theorem toInt_saturateDiv (a : BitVec 64) {b : BitVec 64} (hb : b ≠ 0#64) :
    (saturateDiv a b).toInt = saturate int64Min int64Max (a.toInt.tdiv b.toInt) :=
  (hasSigns_tdiv a.toInt b.toInt).toInt_ite_eq_saturate (checkedDivOp_denotes a hb)

/-- A product with a positive multiplier saturates exactly when it is out of range. -/
theorem fromProduct_eq {value k : ℤ} (hk : 0 < k) :
    fromProduct value k = saturate int64Min int64Max (value * k) := by
  have hmax := Int.tdiv_eq_ediv_of_nonneg (b := k) (show 0 ≤ int64Max by decide)
  have hmin : int64Min.tdiv k = -((2 ^ 63 : ℤ) / k) := by
    rw [int64Min, Int.neg_tdiv, Int.tdiv_eq_ediv_of_nonneg (by decide)]
  have habove : value > int64Max / k ↔ int64Max < value * k := Int.ediv_lt_iff_lt_mul hk
  have hbelow : value < -((2 ^ 63 : ℤ) / k) ↔ value * k < int64Min := by
    rw [lt_neg, Int.ediv_lt_iff_lt_mul hk, neg_mul, int64Min]
    omega
  rw [fromProduct, hmax, hmin]
  by_cases hover : value > int64Max / k
  · rw [if_pos hover, saturate_of_gt (by decide) (habove.mp hover)]
  · rw [if_neg hover]
    by_cases hunder : value < -((2 ^ 63 : ℤ) / k)
    · rw [if_pos hunder, saturate_of_lt (hbelow.mp hunder)]
    · rw [if_neg hunder, saturate_of_mem (not_lt.mp (mt hbelow.mpr hunder))
        (not_lt.mp (mt habove.mpr hover))]

theorem inInt64_fromProduct (value : ℤ) {k : ℤ} (hk : 0 < k) : InInt64 (fromProduct value k) := by
  rw [fromProduct_eq hk]
  exact saturate_mem (by decide)

end Felicia.Units
