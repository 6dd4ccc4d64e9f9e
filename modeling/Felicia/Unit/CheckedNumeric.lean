import Mathlib.Tactic.Linarith
import Mathlib.Tactic.Tauto

/-!
# Checked numbers

`CheckedNumeric<int64_t>` of `base/numerics/checked_math.h`. An operation is a built-in of the
compiler, or unsigned arithmetic whose result is checked by signs and by a division. Either way its
result is valid exactly when the exact one fits (`checkedAddOp_denotes`, `checkedSubOp_denotes`,
`checkedMulOp_denotes`, `checkedDivOp_denotes`).
-/

set_option autoImplicit false
set_option relaxedAutoImplicit false

namespace Felicia.Units

/-! ### Numbers of 64 bits -/

/-- The limits of `int64_t`. -/
def int64Min : ℤ := -2 ^ 63
def int64Max : ℤ := 2 ^ 63 - 1

def InInt64 (n : ℤ) : Prop := int64Min ≤ n ∧ n ≤ int64Max

instance (n : ℤ) : Decidable (InInt64 n) := inferInstanceAs (Decidable (_ ∧ _))

abbrev Int64Value : Type := {n : ℤ // InInt64 n}

variable {x y : BitVec 64} {n : ℤ}

theorem inInt64_iff : InInt64 n ↔ -2 ^ 63 ≤ n ∧ n < 2 ^ 63 := by
  unfold InInt64 int64Min int64Max
  omega

theorem inInt64_toInt (x : BitVec 64) : InInt64 x.toInt :=
  inInt64_iff.mpr ⟨x.le_toInt, x.toInt_lt⟩

theorem toInt_ofInt_of_inInt64 (h : InInt64 n) : (BitVec.ofInt 64 n).toInt = n := by
  obtain ⟨hlower, hupper⟩ := inInt64_iff.mp h
  exact BitVec.toInt_ofInt_eq_self (by decide) hlower hupper

/-! ### Functions -/

/-- `CheckedNumericState`. -/
structure CheckedNumeric where
  isValid : Bool
  value : BitVec 64

namespace CheckedNumeric

/-- `MathOp`, whose result is zero at first. -/
def mathOp (op : BitVec 64 → BitVec 64 → CheckedNumeric) (rv : CheckedNumeric) (rhs : BitVec 64) :
    CheckedNumeric :=
  if rv.isValid then op rv.value rhs else ⟨false, 0#64⟩

/-- The outcome of an operation with an exact result. -/
structure Denotes (rv : CheckedNumeric) (exact : ℤ) : Prop where
  isValid_iff : rv.isValid ↔ InInt64 exact
  toInt_value : rv.isValid → rv.value.toInt = exact

end CheckedNumeric

/-- `__builtin_add_overflow`, and so on for the others. -/
def checkedAddFastOp (x y : BitVec 64) : CheckedNumeric := ⟨!x.saddOverflow y, x + y⟩

def checkedSubFastOp (x y : BitVec 64) : CheckedNumeric := ⟨!x.ssubOverflow y, x - y⟩

def checkedMulFastOp (x y : BitVec 64) : CheckedNumeric := ⟨!x.smulOverflow y, x * y⟩

def checkedAddImpl (x y : BitVec 64) : CheckedNumeric :=
  let uresult := x + y
  ⟨decide (0 ≤ ((uresult ^^^ x) &&& (uresult ^^^ y)).toInt), uresult⟩

def checkedSubImpl (x y : BitVec 64) : CheckedNumeric :=
  let uresult := x - y
  ⟨decide (0 ≤ ((uresult ^^^ x) &&& (x ^^^ y)).toInt), uresult⟩

def safeUnsignedAbs (value : BitVec 64) : BitVec 64 :=
  if value.toInt < 0 then 0#64 - value else value

/-- What `is_negative` adds to the largest absolute value of a product. -/
def negativeBound (x y : BitVec 64) : BitVec 64 := if (x ^^^ y).toInt < 0 then 1#64 else 0#64

def checkedMulImpl (x y : BitVec 64) : CheckedNumeric :=
  let ux := safeUnsignedAbs x
  let uy := safeUnsignedAbs y
  let uresult := ux * uy
  ⟨decide (uy ≤ negativeBound x y) || decide (ux ≤ (BitVec.intMax 64 + negativeBound x y) / uy),
    if (x ^^^ y).toInt < 0 then 0#64 - uresult else uresult⟩

section

-- whether the compiler has the built-ins
variable (isSupported : Bool)

def checkedAddOp (x y : BitVec 64) : CheckedNumeric :=
  if isSupported then checkedAddFastOp x y else checkedAddImpl x y

def checkedSubOp (x y : BitVec 64) : CheckedNumeric :=
  if isSupported then checkedSubFastOp x y else checkedSubImpl x y

def checkedMulOp (x y : BitVec 64) : CheckedNumeric :=
  if isSupported then checkedMulFastOp x y else checkedMulImpl x y

end

def checkedDivOp (x y : BitVec 64) : CheckedNumeric :=
  if y = 0#64 then ⟨false, 0#64⟩
  else if x = BitVec.intMin 64 ∧ y = -1#64 then ⟨false, 0#64⟩
  else ⟨true, x.sdiv y⟩

/-! ### Addition and subtraction -/

theorem checkedAddFastOp_denotes (x y : BitVec 64) :
    (checkedAddFastOp x y).Denotes (x.toInt + y.toInt) where
  isValid_iff := by
    rw [checkedAddFastOp, BitVec.saddOverflow, inInt64_iff]
    simp
    omega
  toInt_value h := BitVec.toInt_add_of_not_saddOverflow (by simpa [checkedAddFastOp] using h)

theorem checkedSubFastOp_denotes (x y : BitVec 64) :
    (checkedSubFastOp x y).Denotes (x.toInt - y.toInt) where
  isValid_iff := by
    rw [checkedSubFastOp, BitVec.ssubOverflow, inInt64_iff]
    simp
    omega
  toInt_value h := BitVec.toInt_sub_of_not_ssubOverflow (by simpa [checkedSubFastOp] using h)

theorem decide_toInt_nonneg (x : BitVec 64) : decide (0 ≤ x.toInt) = !x.msb := by
  rw [BitVec.msb_eq_toInt, ← decide_not, decide_eq_decide, not_lt]

/-- The sign of a sum is that of a summand exactly when nothing overflows. -/
theorem checkedAddImpl_eq (x y : BitVec 64) : checkedAddImpl x y = checkedAddFastOp x y := by
  simp only [checkedAddImpl, checkedAddFastOp, decide_toInt_nonneg, BitVec.msb_and, BitVec.msb_xor,
    BitVec.saddOverflow_eq, CheckedNumeric.mk.injEq, and_true]
  cases x.msb <;> cases y.msb <;> cases (x + y).msb <;> rfl

theorem checkedSubImpl_eq (x y : BitVec 64) : checkedSubImpl x y = checkedSubFastOp x y := by
  simp only [checkedSubImpl, checkedSubFastOp, decide_toInt_nonneg, BitVec.msb_and, BitVec.msb_xor,
    BitVec.ssubOverflow_eq, CheckedNumeric.mk.injEq, and_true]
  cases x.msb <;> cases y.msb <;> cases (x - y).msb <;> rfl

theorem checkedAddOp_denotes (isSupported : Bool) (x y : BitVec 64) :
    (checkedAddOp isSupported x y).Denotes (x.toInt + y.toInt) := by
  rw [checkedAddOp, checkedAddImpl_eq, ite_self]
  exact checkedAddFastOp_denotes x y

theorem checkedSubOp_denotes (isSupported : Bool) (x y : BitVec 64) :
    (checkedSubOp isSupported x y).Denotes (x.toInt - y.toInt) := by
  rw [checkedSubOp, checkedSubImpl_eq, ite_self]
  exact checkedSubFastOp_denotes x y

/-! ### Multiplication -/

theorem checkedMulFastOp_denotes (x y : BitVec 64) :
    (checkedMulFastOp x y).Denotes (x.toInt * y.toInt) where
  isValid_iff := by
    rw [checkedMulFastOp, BitVec.smulOverflow, inInt64_iff]
    simp
    omega
  toInt_value h := BitVec.toInt_mul_of_not_smulOverflow (by simpa [checkedMulFastOp] using h)

theorem toNat_safeUnsignedAbs (x : BitVec 64) : (safeUnsignedAbs x).toNat = x.toInt.natAbs := by
  rw [safeUnsignedAbs, BitVec.toInt_eq_toNat_cond]
  have hlt := x.isLt
  by_cases hneg : 2 * x.toNat < 2 ^ 64
  · rw [if_pos hneg, if_neg (by omega)]
    omega
  · rw [if_neg hneg, if_pos (by omega), BitVec.zero_sub, BitVec.toNat_neg]
    omega

theorem toInt_xor_neg_iff (x y : BitVec 64) :
    (x ^^^ y).toInt < 0 ↔ ¬(x.toInt < 0 ↔ y.toInt < 0) := by
  rw [← decide_eq_true_iff (p := (x ^^^ y).toInt < 0), ← BitVec.msb_eq_toInt, BitVec.msb_xor,
    BitVec.msb_eq_toInt, BitVec.msb_eq_toInt]
  by_cases hx : x.toInt < 0 <;> by_cases hy : y.toInt < 0 <;> simp [hx, hy]

/-- A product is as far from zero as that of the absolute values. -/
theorem toInt_mul_toInt (x y : BitVec 64) :
    x.toInt * y.toInt =
      if (x ^^^ y).toInt < 0 then -((x.toInt.natAbs * y.toInt.natAbs : ℕ) : ℤ)
      else ((x.toInt.natAbs * y.toInt.natAbs : ℕ) : ℤ) := by
  have hsign := toInt_xor_neg_iff x y
  rw [Nat.cast_mul, Int.natCast_natAbs, Int.natCast_natAbs]
  by_cases hx : x.toInt < 0
  · by_cases hy : y.toInt < 0
    · rw [if_neg (by tauto), abs_of_neg hx, abs_of_neg hy, neg_mul_neg]
    · rw [if_pos (by tauto), abs_of_neg hx, abs_of_nonneg (not_lt.mp hy), neg_mul, neg_neg]
  · by_cases hy : y.toInt < 0
    · rw [if_pos (by tauto), abs_of_nonneg (not_lt.mp hx), abs_of_neg hy, mul_neg, neg_neg]
    · rw [if_neg (by tauto), abs_of_nonneg (not_lt.mp hx), abs_of_nonneg (not_lt.mp hy)]

/-- A bound of a product is checked by a division, unless the second factor is small. -/
theorem le_or_le_div_iff {a extra : ℕ} (b bound : ℕ) (ha : a ≤ bound + 1) (hextra : extra ≤ 1) :
    b ≤ extra ∨ a ≤ (bound + extra) / b ↔ a * b ≤ bound + extra := by
  obtain rfl | hb := Nat.eq_zero_or_pos b
  · simp
  · rw [Nat.le_div_iff_mul_le hb]
    constructor
    · rintro (hle | hle)
      · have hone : b = 1 := by omega
        rw [hone, mul_one]
        omega
      · exact hle
    · exact .inr

theorem toNat_negativeBound_le (x y : BitVec 64) : (negativeBound x y).toNat ≤ 1 := by
  rw [negativeBound]
  by_cases hneg : (x ^^^ y).toInt < 0
  · rw [if_pos hneg]
    rfl
  · rw [if_neg hneg]
    decide

/-- The bound of the absolute value of a product is that of the numbers of its sign. -/
theorem natAbs_le_bound_iff (x y : BitVec 64) :
    x.toInt.natAbs * y.toInt.natAbs ≤ 2 ^ 63 - 1 + (negativeBound x y).toNat ↔
      InInt64 (x.toInt * y.toInt) := by
  rw [toInt_mul_toInt, negativeBound, inInt64_iff]
  generalize x.toInt.natAbs * y.toInt.natAbs = product
  by_cases hneg : (x ^^^ y).toInt < 0
  · rw [if_pos hneg, if_pos hneg, BitVec.toNat_ofNat]
    omega
  · rw [if_neg hneg, if_neg hneg, BitVec.toNat_ofNat]
    omega

theorem natAbs_toInt_le (x : BitVec 64) : x.toInt.natAbs ≤ 2 ^ 63 := by
  have hmin := x.le_toInt
  have hmax := x.toInt_lt
  omega

/-- The check for a product finds those that fit. -/
theorem isValid_checkedMulImpl_iff (x y : BitVec 64) :
    (checkedMulImpl x y).isValid ↔ InInt64 (x.toInt * y.toInt) := by
  have hiff := le_or_le_div_iff y.toInt.natAbs (2 ^ 63 - 1) (natAbs_toInt_le x)
    (toNat_negativeBound_le x y)
  have hbound : (BitVec.intMax 64 + negativeBound x y).toNat =
      2 ^ 63 - 1 + (negativeBound x y).toNat := by
    have hextra := toNat_negativeBound_le x y
    rw [BitVec.toNat_add, BitVec.toNat_intMax]
    omega
  rw [← natAbs_le_bound_iff, ← hiff]
  simp only [checkedMulImpl, Bool.or_eq_true, decide_eq_true_eq, BitVec.le_def, BitVec.toNat_udiv,
    toNat_safeUnsignedAbs, hbound]

theorem value_checkedMulImpl (x y : BitVec 64) : (checkedMulImpl x y).value = x * y := by
  have hsign := toInt_xor_neg_iff x y
  simp only [checkedMulImpl, safeUnsignedAbs, BitVec.zero_sub]
  by_cases hx : x.toInt < 0
  · by_cases hy : y.toInt < 0
    · rw [if_neg (by tauto), if_pos hx, if_pos hy, BitVec.neg_mul, BitVec.mul_neg, BitVec.neg_neg]
    · rw [if_pos (by tauto), if_pos hx, if_neg hy, BitVec.neg_mul, BitVec.neg_neg]
  · by_cases hy : y.toInt < 0
    · rw [if_pos (by tauto), if_neg hx, if_pos hy, BitVec.mul_neg, BitVec.neg_neg]
    · rw [if_neg (by tauto), if_neg hx, if_neg hy]

theorem checkedMulOp_denotes (isSupported : Bool) (x y : BitVec 64) :
    (checkedMulOp isSupported x y).Denotes (x.toInt * y.toInt) := by
  cases isSupported with
  | true => exact checkedMulFastOp_denotes x y
  | false =>
    refine ⟨isValid_checkedMulImpl_iff x y, fun hvalid ↦ ?_⟩
    have hfits := (isValid_checkedMulImpl_iff x y).mp hvalid
    have hfast := checkedMulFastOp_denotes x y
    rw [checkedMulOp, if_neg Bool.false_ne_true, value_checkedMulImpl]
    exact hfast.toInt_value (hfast.isValid_iff.mpr hfits)

/-! ### Division -/

theorem not_inInt64_intMin_tdiv : ¬InInt64 ((BitVec.intMin 64).toInt.tdiv (-1#64).toInt) := by
  decide

theorem checkedDivOp_denotes (x : BitVec 64) (hy : y ≠ 0#64) :
    (checkedDivOp x y).Denotes (x.toInt.tdiv y.toInt) := by
  rw [checkedDivOp, if_neg hy]
  by_cases hoverflow : x = BitVec.intMin 64 ∧ y = -1#64
  · rw [if_pos hoverflow, hoverflow.1, hoverflow.2]
    exact ⟨⟨fun h ↦ absurd h Bool.false_ne_true, fun h ↦ absurd h not_inInt64_intMin_tdiv⟩,
      fun h ↦ absurd h Bool.false_ne_true⟩
  · rw [if_neg hoverflow, ← BitVec.toInt_sdiv_of_ne_or_ne x y (not_and_or.mp hoverflow)]
    exact ⟨iff_of_true rfl (inInt64_toInt _), fun _ ↦ rfl⟩

end Felicia.Units
