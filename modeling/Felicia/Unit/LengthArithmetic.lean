import Felicia.Unit.Length

/-!
# Arithmetic of lengths

The operators of `Length`. Each gives the exact result, saturated (`length_add`, `length_sub`), and
saturation keeps the order. A sum is monotone in both lengths, and a difference goes down with the
length that is taken away (`saturating_units`).
-/

set_option autoImplicit false
set_option relaxedAutoImplicit false

namespace Felicia.Units

open Support

namespace Length

theorem length_injective : Function.Injective Length.length := fun _ _ ↦ Length.ext

/-- `operator<` and the other comparisons. -/
instance : LinearOrder Length := LinearOrder.lift' Length.length length_injective

/-- `length_`. -/
def bits (length : Length) : BitVec 64 := BitVec.ofInt 64 length.length

def ofBits (length : BitVec 64) : Length := ⟨length.toInt, inInt64_toInt length⟩

section

-- whether the compiler has the built-ins
variable (isSupported : Bool)

/-- `operator+`, and so on for the others. -/
def add (length other : Length) : Length :=
  ofBits (saturateAdd isSupported length.bits other.bits)

def sub (length other : Length) : Length :=
  ofBits (saturateSub isSupported length.bits other.bits)

/-- `operator*`, where a factor of a narrower type is extended. -/
def mul (length : Length) (a : BitVec 64) : Length :=
  ofBits (saturateMul isSupported length.bits a)

end

def div (length : Length) (a : BitVec 64) : Length := ofBits (saturateDiv length.bits a)

variable (isSupported : Bool) (length other : Length)

@[simp] theorem toInt_bits : length.bits.toInt = length.length :=
  toInt_ofInt_of_inInt64 length.inInt64

theorem length_ofBits (x : BitVec 64) : (ofBits x).length = x.toInt := rfl

theorem length_add :
    (length.add isSupported other).length =
      saturate int64Min int64Max (length.length + other.length) := by
  rw [add, length_ofBits, toInt_saturateAdd, toInt_bits, toInt_bits]

theorem length_sub :
    (length.sub isSupported other).length =
      saturate int64Min int64Max (length.length - other.length) := by
  rw [sub, length_ofBits, toInt_saturateSub, toInt_bits, toInt_bits]

theorem length_mul (a : BitVec 64) :
    (length.mul isSupported a).length = saturate int64Min int64Max (length.length * a.toInt) := by
  rw [mul, length_ofBits, toInt_saturateMul, toInt_bits]

/-- Assumes: a divisor that is not zero. -/
theorem length_div {a : BitVec 64} (ha : a ≠ 0#64) :
    (length.div a).length = saturate int64Min int64Max (length.length.tdiv a.toInt) := by
  rw [div, length_ofBits, toInt_saturateDiv length.bits ha, toInt_bits]

/-! ### Order -/

theorem le_iff : length ≤ other ↔ length.length ≤ other.length := Iff.rfl

theorem add_le_add {a b c d : Length} (h : a ≤ b) (h' : c ≤ d) :
    a.add isSupported c ≤ b.add isSupported d := by
  rw [le_iff] at h h' ⊢
  rw [length_add, length_add]
  exact saturate_mono _ _ (Int.add_le_add h h')

theorem sub_le_sub {a b c d : Length} (h : a ≤ b) (h' : d ≤ c) :
    a.sub isSupported c ≤ b.sub isSupported d := by
  rw [le_iff] at h h' ⊢
  rw [length_sub, length_sub]
  exact saturate_mono _ _ (Int.sub_le_sub h h')

/-- A sum is not less than a length exactly when the other one is not negative, unless nothing is
less than the length, and so on for the others. -/
theorem le_add_iff :
    length ≤ length.add isSupported other ↔ 0 ≤ other.length ∨ length.length = int64Min := by
  obtain ⟨hlower, hupper⟩ := length.inInt64
  rw [le_iff, length_add, le_saturate_iff hlower hupper]
  omega

theorem add_le_iff :
    length.add isSupported other ≤ length ↔ other.length ≤ 0 ∨ length.length = int64Max := by
  obtain ⟨hlower, hupper⟩ := length.inInt64
  rw [le_iff, length_add, saturate_le_iff hlower hupper]
  omega

theorem le_sub_iff :
    length ≤ length.sub isSupported other ↔ other.length ≤ 0 ∨ length.length = int64Min := by
  obtain ⟨hlower, hupper⟩ := length.inInt64
  rw [le_iff, length_sub, le_saturate_iff hlower hupper]
  omega

theorem sub_le_iff :
    length.sub isSupported other ≤ length ↔ 0 ≤ other.length ∨ length.length = int64Max := by
  obtain ⟨hlower, hupper⟩ := length.inInt64
  rw [le_iff, length_sub, saturate_le_iff hlower hupper]
  omega

end Length

/-! ### Both -/

/-- Saturating arithmetic gives the exact result, saturated: for two numbers of 64 bits, where a
divisor is not zero and the multiplier of `FromProduct` is positive, and for lengths. Sums of
lengths are monotone in both, and differences in the first, while they go down with the second; and
none wraps to the other side of the first. -/
theorem saturating_units (isSupported : Bool) (a b : BitVec 64) (length other : Length) :
    (saturateAdd isSupported a b).toInt = saturate int64Min int64Max (a.toInt + b.toInt) ∧
    (saturateSub isSupported a b).toInt = saturate int64Min int64Max (a.toInt - b.toInt) ∧
    (saturateMul isSupported a b).toInt = saturate int64Min int64Max (a.toInt * b.toInt) ∧
    (b ≠ 0#64 →
      (saturateDiv a b).toInt = saturate int64Min int64Max (a.toInt.tdiv b.toInt)) ∧
    (0 < b.toInt →
      fromProduct a.toInt b.toInt = saturate int64Min int64Max (a.toInt * b.toInt)) ∧
    ((length.add isSupported other).length =
        saturate int64Min int64Max (length.length + other.length) ∧
      Monotone (length.add isSupported) ∧
      Monotone (fun length : Length ↦ length.add isSupported other) ∧
      (length ≤ length.add isSupported other ↔ 0 ≤ other.length ∨ length.length = int64Min) ∧
      (length.add isSupported other ≤ length ↔ other.length ≤ 0 ∨ length.length = int64Max)) ∧
    (length.sub isSupported other).length =
        saturate int64Min int64Max (length.length - other.length) ∧
      Antitone (length.sub isSupported) ∧
      Monotone (fun length : Length ↦ length.sub isSupported other) ∧
      (length ≤ length.sub isSupported other ↔ other.length ≤ 0 ∨ length.length = int64Min) ∧
      (length.sub isSupported other ≤ length ↔ 0 ≤ other.length ∨ length.length = int64Max) :=
  ⟨toInt_saturateAdd isSupported a b, toInt_saturateSub isSupported a b,
    toInt_saturateMul isSupported a b, toInt_saturateDiv a, fromProduct_eq,
    ⟨length.length_add isSupported other,
      fun _ _ h ↦ Length.add_le_add isSupported le_rfl h,
      fun _ _ h ↦ Length.add_le_add isSupported h le_rfl,
      length.le_add_iff isSupported other, length.add_le_iff isSupported other⟩,
    length.length_sub isSupported other,
    fun _ _ h ↦ Length.sub_le_sub isSupported le_rfl h,
    fun _ _ h ↦ Length.sub_le_sub isSupported h le_rfl,
    length.le_sub_iff isSupported other, length.sub_le_iff isSupported other⟩

namespace Scenario

def minLength : Length := ⟨int64Min, by decide⟩

def maxLength : Length := ⟨int64Max, by decide⟩

end Scenario

open Scenario in
/-- The smallest number divided by -1 is the largest, and so is a product next to the limit. -/
theorem saturating_limits :
    (saturateDiv (BitVec.intMin 64) (-1#64)).toInt = int64Max ∧
      fromProduct (BitVec.intMax 64).toInt (10#64).toInt = int64Max ∧
      (maxLength.add false maxLength).length = int64Max := by
  have hdiv := (saturating_units true (BitVec.intMin 64) (-1#64) minLength maxLength).2.2.2.1
  have hproduct := (saturating_units true (BitVec.intMax 64) 10#64 minLength maxLength).2.2.2.2.1
  have hsum := (saturating_units false 0#64 0#64 maxLength maxLength).2.2.2.2.2.1.1
  refine ⟨?_, ?_, ?_⟩
  · rw [hdiv (by decide)]
    decide
  · rw [hproduct (by decide)]
    decide
  · rw [hsum]
    decide

end Felicia.Units
