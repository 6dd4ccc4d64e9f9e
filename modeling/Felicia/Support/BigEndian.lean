import Mathlib.Algebra.Order.Ring.Nat
import Mathlib.Data.List.Basic
import Mathlib.Data.List.Induction

/-!
# Numbers as bytes

A number is written to a fixed width, the most significant byte first. Writing and reading undo each
other: a number that fits the width is read back, and what was read from some bytes is written as
the same bytes.
-/

set_option autoImplicit false
set_option relaxedAutoImplicit false

namespace Felicia.Support

/-- The number that some bytes stand for, the most significant first. -/
def ofBigEndian (bytes : List UInt8) : ℕ := bytes.foldl (fun n b ↦ n * 256 + b.toNat) 0

/-- The last bytes of a number, the most significant first. -/
def toBigEndian : ℕ → ℕ → List UInt8
  | 0, _ => []
  | width + 1, n => toBigEndian width (n / 256) ++ [UInt8.ofNat n]

@[simp] theorem ofBigEndian_concat (bytes : List UInt8) (b : UInt8) :
    ofBigEndian (bytes ++ [b]) = ofBigEndian bytes * 256 + b.toNat := by
  simp [ofBigEndian]

@[simp] theorem length_toBigEndian (width n : ℕ) : (toBigEndian width n).length = width := by
  induction width generalizing n with
  | zero => rfl
  | succ width ih => simp [toBigEndian, ih]

theorem ofBigEndian_lt (bytes : List UInt8) : ofBigEndian bytes < 256 ^ bytes.length := by
  induction bytes using List.reverseRecOn with
  | nil => exact Nat.one_pos
  | append_singleton bytes b ih =>
    have hb := b.toNat_lt
    rw [ofBigEndian_concat, List.length_append, List.length_singleton, pow_succ]
    omega

/-- Assumes: a number that fits the width. -/
theorem ofBigEndian_toBigEndian {width n : ℕ} (h : n < 256 ^ width) :
    ofBigEndian (toBigEndian width n) = n := by
  induction width generalizing n with
  | zero =>
    rw [pow_zero] at h
    have hzero : n = 0 := by omega
    rw [hzero]
    rfl
  | succ width ih =>
    have hhigh : n / 256 < 256 ^ width := by
      rw [pow_succ] at h
      exact Nat.div_lt_of_lt_mul (by rwa [mul_comm])
    rw [toBigEndian, ofBigEndian_concat, ih hhigh, UInt8.toNat_ofNat']
    omega

theorem toBigEndian_ofBigEndian (bytes : List UInt8) :
    toBigEndian bytes.length (ofBigEndian bytes) = bytes := by
  induction bytes using List.reverseRecOn with
  | nil => rfl
  | append_singleton bytes b ih =>
    have hb := b.toNat_lt
    have hhigh : (ofBigEndian bytes * 256 + b.toNat) / 256 = ofBigEndian bytes := by omega
    have hlow : UInt8.ofNat (ofBigEndian bytes * 256 + b.toNat) = b := by
      apply UInt8.toNat_inj.mp
      rw [UInt8.toNat_ofNat']
      omega
    rw [List.length_append, List.length_singleton, ofBigEndian_concat, toBigEndian, hhigh, hlow, ih]

/-- Assumes: bytes of the width. What was read from them is written as the same bytes. -/
theorem toBigEndian_of_length {bytes : List UInt8} {width : ℕ} (h : bytes.length = width) :
    toBigEndian width (ofBigEndian bytes) = bytes := by
  rw [← h]
  exact toBigEndian_ofBigEndian bytes

end Felicia.Support
