import Mathlib.Data.Int.GCD
import Mathlib.Data.Nat.ModEq
import Mathlib.Tactic.Ring

/-!
# Carrying accumulators

A count that grows by `step` in every round and gives `full` back as soon as it reaches it, as
lines are drawn with integers. `carries` is how often it has done so after some rounds, and
`carries_succ` what one round adds to it. `mod_gcd_le` and `exists_mod_eq_mod_gcd` are the least
count that is ever left over.
-/

set_option autoImplicit false
set_option relaxedAutoImplicit false

namespace Felicia.Support

variable {full step start k : ℕ}

/-- How often an accumulator has been full after some rounds. One that is full at nothing is full in
every round. -/
def carries (full step start k : ℕ) : ℕ :=
  if full = 0 then k else (start + k * step) / full

theorem carries_zero (h : start < full ∨ full = 0) : carries full step start 0 = 0 := by
  unfold carries
  split_ifs with hfull
  · rfl
  · rw [Nat.zero_mul, Nat.add_zero, Nat.div_eq_of_lt (h.resolve_right hfull)]

/-- Assumes: a step that is not more than what is given back. -/
theorem carries_succ (start : ℕ) (hstep : step ≤ full) (k : ℕ) :
    if full ≤ (start + k * step) % full + step then
      carries full step start (k + 1) = carries full step start k + 1 ∧
        (start + (k + 1) * step) % full = (start + k * step) % full + step - full
    else
      carries full step start (k + 1) = carries full step start k ∧
        (start + (k + 1) * step) % full = (start + k * step) % full + step := by
  have hnext : start + (k + 1) * step = start + k * step + step := by ring
  rw [hnext]
  obtain rfl | hfull := Nat.eq_zero_or_pos full
  · obtain rfl : step = 0 := by omega
    simp [carries]
  · have hsplit := Nat.div_add_mod (start + k * step) full
    have hlt := Nat.mod_lt (start + k * step) hfull
    simp only [carries, hfull.ne', ↓reduceIte, hnext]
    split_ifs with hfull'
    · have hunique := (Nat.div_mod_unique hfull (a := start + k * step + step)
        (c := (start + k * step) % full + step - full)
        (d := (start + k * step) / full + 1)).mpr ⟨by rw [Nat.mul_add]; omega, by omega⟩
      exact hunique
    · have hunique := (Nat.div_mod_unique hfull (a := start + k * step + step)
        (c := (start + k * step) % full + step)
        (d := (start + k * step) / full)).mpr ⟨by omega, by omega⟩
      exact hunique

theorem carries_mono (hstep : step ≤ full) {l : ℕ} (h : k ≤ l) :
    carries full step start k ≤ carries full step start l := by
  induction h with
  | refl => exact Nat.le_refl _
  | @step l hle ih =>
    refine ih.trans ?_
    have hsucc := carries_succ start hstep l
    split_ifs at hsucc
    · exact hsucc.1 ▸ Nat.le_succ _
    · exact hsucc.1.ge

/-! ### What is left over -/

/-- What is left over is never less than what is left over by the common divisor. -/
theorem mod_gcd_le (start full step j : ℕ) :
    start % Nat.gcd step full ≤ (start + j * step) % full := by
  have hmod : (start + j * step) % full ≡ start [MOD Nat.gcd step full] := calc
    (start + j * step) % full
      ≡ start + j * step [MOD Nat.gcd step full] :=
        (Nat.mod_modEq _ full).of_dvd (Nat.gcd_dvd_right step full)
    _ ≡ start + 0 [MOD Nat.gcd step full] :=
        Nat.ModEq.add_left start
          ((Nat.modEq_zero_iff_dvd).mpr ((Nat.gcd_dvd_left step full).mul_left j))
  calc start % Nat.gcd step full = (start + j * step) % full % Nat.gcd step full := hmod.symm
    _ ≤ (start + j * step) % full := Nat.mod_le _ _

/-- Some round within the first `full` ones leaves just that over. -/
theorem exists_mod_eq_mod_gcd (start step : ℕ) (hfull : 0 < full) :
    ∃ j < full, (start + (j + 1) * step) % full = start % Nat.gcd step full := by
  obtain ⟨i, hi⟩ : ∃ i, start + i * step ≡ start % Nat.gcd step full [MOD full] := by
    obtain heq | hlt := (Nat.gcd_le_right step hfull).eq_or_lt
    · refine ⟨0, ?_⟩
      rw [Nat.zero_mul, Nat.add_zero, heq]
      exact (Nat.mod_modEq start full).symm
    · obtain ⟨m, -, hm⟩ := Nat.exists_mul_mod_eq_gcd hlt
      have hmod : step * m ≡ Nat.gcd step full [MOD full] := by
        rw [Nat.ModEq, hm, Nat.mod_eq_of_lt hlt]
      obtain ⟨rest, hrest⟩ : ∃ rest, full = rest + 1 := ⟨full - 1, by omega⟩
      refine ⟨rest * (start / Nat.gcd step full) * m, ?_⟩
      have hstart := Nat.mod_add_div start (Nat.gcd step full)
      calc start + rest * (start / Nat.gcd step full) * m * step
          = start + rest * (start / Nat.gcd step full) * (step * m) := by ring
        _ ≡ start + rest * (start / Nat.gcd step full) * Nat.gcd step full [MOD full] :=
            Nat.ModEq.add_left start (Nat.ModEq.mul_left _ hmod)
        _ = start % Nat.gcd step full + Nat.gcd step full * (start / Nat.gcd step full) +
              rest * (start / Nat.gcd step full) * Nat.gcd step full := by rw [hstart]
        _ = start % Nat.gcd step full +
              (rest + 1) * (Nat.gcd step full * (start / Nat.gcd step full)) := by ring
        _ ≡ start % Nat.gcd step full + 0 [MOD full] :=
            Nat.ModEq.add_left _ (Nat.modEq_zero_iff_dvd.mpr ⟨_, congrArg (· * _) hrest.symm⟩)
  have hround : (i + (full - 1)) % full + 1 ≡ i [MOD full] := calc
    (i + (full - 1)) % full + 1
      ≡ i + (full - 1) + 1 [MOD full] := Nat.ModEq.add_right 1 (Nat.mod_modEq _ full)
    _ = i + full := by omega
    _ ≡ i [MOD full] := Nat.add_mod_right i full
  have hlt : start % Nat.gcd step full < full :=
    (Nat.mod_lt _ (Nat.gcd_pos_of_pos_right step hfull)).trans_le (Nat.gcd_le_right step hfull)
  refine ⟨(i + (full - 1)) % full, Nat.mod_lt _ hfull, ?_⟩
  calc (start + ((i + (full - 1)) % full + 1) * step) % full
      = (start + i * step) % full := Nat.ModEq.add_left start (Nat.ModEq.mul_right step hround)
    _ = start % Nat.gcd step full % full := hi
    _ = start % Nat.gcd step full := Nat.mod_eq_of_lt hlt

end Felicia.Support
