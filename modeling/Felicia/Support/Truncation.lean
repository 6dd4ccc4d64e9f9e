import Mathlib.Data.Rat.Floor
import Mathlib.Tactic.Linarith
import Mathlib.Tactic.FieldSimp

/-!
# Truncation towards zero

A rational and its truncation are less than one apart, on the same side of zero
(`truncate_of_nonneg`, `truncate_neg`). What truncation and then truncating division leave of a
rational is on that side too, so that nothing of the division makes up for the truncation
(`abs_tdiv_mul_sub_lt_iff`). Saturation keeps the numbers of a range and takes the nearest bound for
the others.
-/

set_option autoImplicit false
set_option relaxedAutoImplicit false

namespace Felicia.Support

variable {q : ℚ} {a k lower upper : ℤ}

/-! ### Truncation -/

def truncate (q : ℚ) : ℤ := if 0 ≤ q then ⌊q⌋ else ⌈q⌉

theorem truncate_of_nonneg (h : 0 ≤ q) : 0 ≤ truncate q ∧ truncate q ≤ q ∧ q < truncate q + 1 := by
  rw [truncate, if_pos h]
  exact ⟨Int.floor_nonneg.mpr h, Int.floor_le q, Int.lt_floor_add_one q⟩

@[simp] theorem truncate_intCast (a : ℤ) : truncate a = a := by
  rw [truncate, Int.floor_intCast, Int.ceil_intCast, ite_self]

@[simp] theorem truncate_neg (q : ℚ) : truncate (-q) = -truncate q := by
  obtain h | rfl | h := lt_trichotomy q 0
  · rw [truncate, truncate, if_pos (by linarith), if_neg (by linarith), Int.floor_neg]
  · rw [neg_zero, ← Int.cast_zero, truncate_intCast, neg_zero]
  · rw [truncate, truncate, if_neg (by linarith), if_pos h.le, Int.ceil_neg]

/-- What goes over to the negation of a rational is shown for those that are not negative. -/
@[elab_as_elim] theorem neg_induction {p : ℚ → Prop} (neg : ∀ q, p q → p (-q))
    (nonneg : ∀ q, 0 ≤ q → p q) (q : ℚ) : p q := by
  obtain h | h := le_total 0 q
  · exact nonneg q h
  · rw [← neg_neg q]
    exact neg (-q) (nonneg (-q) (neg_nonneg.mpr h))

theorem truncate_eq_zero_iff (q : ℚ) : truncate q = 0 ↔ |q| < 1 := by
  induction q using neg_induction with
  | neg q ih => rwa [truncate_neg, neg_eq_zero, abs_neg]
  | nonneg q h =>
    obtain ⟨hnonneg, hle, hlt⟩ := truncate_of_nonneg h
    rw [abs_of_nonneg h]
    constructor
    · intro hzero
      rw [hzero] at hlt
      simpa using hlt
    · intro hsmall
      have htruncate : (truncate q : ℚ) < 1 := hle.trans_lt hsmall
      have htruncate' : truncate q < 1 := by exact_mod_cast htruncate
      omega

/-! ### Truncating division -/

/-- Dividing and multiplying back loses what is no multiple. -/
theorem tdiv_mul_eq_iff : ((a.tdiv k : ℤ) : ℚ) * k = a ↔ k ∣ a := by
  rw [← Int.cast_mul, Int.cast_inj]
  constructor
  · intro h
    exact ⟨a.tdiv k, by rw [mul_comm]; exact h.symm⟩
  · exact Int.tdiv_mul_cancel

/-- A truncating quotient is the exact one for multiples only. -/
theorem tdiv_eq_div_iff (hk : k ≠ 0) : ((a.tdiv k : ℤ) : ℚ) = a / k ↔ k ∣ a := by
  rw [eq_div_iff (by exact_mod_cast hk), tdiv_mul_eq_iff]

/-- The quotient of what is left of a rational is less than one away from it, in units of the
divisor, only where the division loses nothing. -/
theorem abs_tdiv_mul_sub_lt_iff (q : ℚ) :
    |(((truncate q).tdiv k : ℤ) : ℚ) * k - q| < 1 ↔ k ∣ truncate q := by
  induction q using neg_induction with
  | neg q ih =>
    have hneg : -(((truncate q).tdiv k : ℤ) : ℚ) * k - -q =
        -((((truncate q).tdiv k : ℤ) : ℚ) * k - q) := by ring
    rwa [truncate_neg, Int.neg_tdiv, Int.cast_neg, hneg, abs_neg, Int.dvd_neg]
  | nonneg q h =>
    obtain ⟨hnonneg, hle, hlt⟩ := truncate_of_nonneg h
    have hsplit : (((truncate q).tdiv k : ℤ) : ℚ) * k = truncate q - (truncate q).tmod k := by
      rw [eq_sub_iff_add_eq]
      exact_mod_cast Int.tdiv_mul_add_tmod (truncate q) k
    have hrest : 0 ≤ (truncate q).tmod k := Int.tmod_nonneg k hnonneg
    rw [hsplit, Int.dvd_iff_tmod_eq_zero, abs_lt]
    constructor
    · rintro ⟨hlower, -⟩
      have hsmall : ((truncate q).tmod k : ℚ) < 1 := by linarith
      have hsmall' : (truncate q).tmod k < 1 := by exact_mod_cast hsmall
      omega
    · intro hzero
      rw [hzero, Int.cast_zero]
      constructor <;> linarith

/-! ### Saturation -/

/-- The nearest number of a range. -/
def saturate (lower upper a : ℤ) : ℤ := max lower (min upper a)

theorem saturate_mem (h : lower ≤ upper) :
    lower ≤ saturate lower upper a ∧ saturate lower upper a ≤ upper := by
  rw [saturate]
  omega

theorem saturate_of_mem (hlower : lower ≤ a) (hupper : a ≤ upper) :
    saturate lower upper a = a := by
  rw [saturate]
  omega

theorem saturate_of_lt (h : a < lower) : saturate lower upper a = lower := by
  rw [saturate]
  omega

theorem saturate_of_gt (hrange : lower ≤ upper) (h : upper < a) :
    saturate lower upper a = upper := by
  rw [saturate]
  omega

/-- Saturation takes a number to the other side of one in the range only from its ends. -/
theorem le_saturate_iff {b : ℤ} (hlower : lower ≤ a) (hupper : a ≤ upper) :
    a ≤ saturate lower upper b ↔ a ≤ b ∨ a = lower := by
  rw [saturate]
  omega

theorem saturate_le_iff {b : ℤ} (hlower : lower ≤ a) (hupper : a ≤ upper) :
    saturate lower upper b ≤ a ↔ b ≤ a ∨ a = upper := by
  rw [saturate]
  omega

theorem saturate_mono (lower upper : ℤ) {m n : ℤ} (h : m ≤ n) :
    saturate lower upper m ≤ saturate lower upper n :=
  max_le_max_left lower (min_le_min_left upper h)

end Felicia.Support
