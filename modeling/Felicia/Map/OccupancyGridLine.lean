import Felicia.Map.OccupancyGridMap
import Mathlib.Tactic.FieldSimp

/-!
# The line of a ray

Between points with integer coordinates a ray is to follow the line through them. The step across
its axis comes before a cell is marked, so that a cell can lie ahead of the line by more than one:
by how much depends on what the accumulator leaves over (`distance_freeCell_iff`), and so on the
common divisor of the two differences. `isLine_iff` says which rays keep to their lines.
-/

set_option autoImplicit false
set_option relaxedAutoImplicit false

namespace Felicia.OccupancyGrid

open Felicia.Support

def Cell.toPoint (c : Cell) : Point := ⟨c.x, c.y⟩

@[simp] theorem toCell_toPoint (c : Cell) : c.toPoint.toCell = c := by
  simp [Cell.toPoint, Point.toCell]

/-- The exact line through two cells, along an axis. -/
def lineAt (axis : Axis) (start stop : Cell) (z : ℤ) : ℚ :=
  axis.across start + (z - axis.along start) *
    ((axis.across stop - axis.across start) / (axis.along stop - axis.along start))

/-- Each free cell is within one cell of the line, measured across its axis, and all coordinates
along the axis before the last one occur. -/
def IsLine (axis : Axis) (start stop : Cell) (marks : List Mark) : Prop :=
  (∀ c, .free c ∈ marks → |(axis.across c : ℚ) - lineAt axis start stop (axis.along c)| ≤ 1) ∧
    ∀ z, (axis.along start ≤ z ∧ z < axis.along stop) ∨
      (axis.along stop < z ∧ z ≤ axis.along start) → ∃ c, .free c ∈ marks ∧ axis.along c = z

/-- The accumulator of the ray never leaves too little over. -/
def KeepsToLine (a b : ℕ) : Prop := a ≤ (b + 1) / 2 + b / 2 % Nat.gcd a b

/-! ### The walk between two cells -/

section Walk

variable {axis : Axis} {start stop : Cell} {d : Cell}

theorem sign_mul_natAbs (z : ℤ) : sign z * z.natAbs = z := by
  unfold sign
  split_ifs
  · omega
  · omega

/-- Assumes: the difference of the two cells along the axis. -/
theorem isAhead_natAbs (halong : axis.along d = axis.along stop - axis.along start) :
    IsAhead axis d start stop (axis.along d).natAbs := by
  rw [IsAhead, sign_mul_natAbs, halong]
  ring

/-- Steps of either sign along and across an axis are as far from the line as steps ahead are. -/
theorem abs_offset_le_iff {s t : ℤ} (hs : s = 1 ∨ s = -1) (ht : t = 1 ∨ t = -1) {a b : ℕ}
    (hb : 0 < b) (m j : ℕ) :
    |(t * m : ℚ) - s * j * (t * a / (s * b))| ≤ 1 ↔ ((m * b : ℕ) - (j * a : ℕ) : ℤ).natAbs ≤ b := by
  have hb' : (0 : ℚ) < b := by exact_mod_cast hb
  have hoffset : (t * m : ℚ) - s * j * (t * a / (s * b)) =
      t * (((m * b : ℕ) - (j * a : ℕ) : ℤ) / b : ℚ) := by
    obtain rfl | rfl := hs
    · push_cast
      field_simp
    · push_cast
      field_simp
  have hsign : |(t : ℚ)| = 1 := by
    obtain rfl | rfl := ht
    · norm_num
    · norm_num
  rw [hoffset, abs_mul, hsign, one_mul, abs_div, abs_of_pos hb', div_le_one hb']
  rw [← Int.cast_abs, ← Int.natCast_natAbs]
  exact_mod_cast Iff.rfl

/-- Assumes: two cells that differ along the axis. -/
theorem distance_freeCell_iff (halong : axis.along d = axis.along stop - axis.along start)
    (hacross : axis.across d = axis.across stop - axis.across start) (hne : axis.along d ≠ 0)
    (j : ℕ) :
    |(axis.across (freeCell axis d start (j + 1)) : ℚ) -
        lineAt axis start stop (axis.along (freeCell axis d start (j + 1)))| ≤ 1 ↔
      (axis.along d).natAbs / 2 + (axis.across d).natAbs ≤ (axis.along d).natAbs +
        ((axis.along d).natAbs / 2 + (j + 1) * (axis.across d).natAbs) %
          (axis.along d).natAbs := by
  have hpos : 0 < (axis.along d).natAbs := Int.natAbs_pos.mpr hne
  have hsteps : acrossSteps axis d (j + 1) =
      ((axis.along d).natAbs / 2 + (j + 1) * (axis.across d).natAbs) / (axis.along d).natAbs :=
    if_neg hpos.ne'
  have halong' := (sign_mul_natAbs (axis.along d)).trans halong
  have hacross' := (sign_mul_natAbs (axis.across d)).trans hacross
  rw [freeCell_succ, Axis.across_cell, Axis.along_cell, hsteps]
  generalize (axis.along d).natAbs = b at *
  generalize (axis.across d).natAbs = a at *
  have hdiv := Nat.div_add_mod (b / 2 + (j + 1) * a) b
  have hlt := Nat.mod_lt (b / 2 + (j + 1) * a) hpos
  generalize (b / 2 + (j + 1) * a) / b = m at *
  have hoffset := abs_offset_le_iff (a := a) (sign_eq (axis.along d)) (sign_eq (axis.across d))
    hpos m j
  have hslope :
      ((axis.across stop : ℚ) - axis.across start) / (axis.along stop - axis.along start) =
        sign (axis.across d) * a / (sign (axis.along d) * b) := by
    have hnum : (axis.across stop : ℚ) - axis.across start = sign (axis.across d) * a := by
      exact_mod_cast hacross'.symm
    have hden : (axis.along stop : ℚ) - axis.along start = sign (axis.along d) * b := by
      exact_mod_cast halong'.symm
    rw [hnum, hden]
  rw [lineAt, hslope]
  have hshift : ((axis.across start + sign (axis.across d) * m : ℤ) : ℚ) -
      (axis.across start + (((axis.along start + sign (axis.along d) * j : ℤ) : ℚ) -
        axis.along start) * (sign (axis.across d) * a / (sign (axis.along d) * b))) =
      sign (axis.across d) * m -
        sign (axis.along d) * j * (sign (axis.across d) * a / (sign (axis.along d) * b)) := by
    push_cast
    ring
  rw [hshift, hoffset]
  have hnext : (j + 1) * a = j * a + a := by ring
  rw [Nat.mul_comm b] at hdiv
  omega

/-- The count that is left over is least where only the common divisor matters. -/
theorem keepsToLine_iff {a b : ℕ} (hb : 0 < b) :
    KeepsToLine a b ↔ ∀ j < b, b / 2 + a ≤ b + (b / 2 + (j + 1) * a) % b := by
  unfold KeepsToLine
  constructor
  · intro hkeeps j _
    have hle := mod_gcd_le (b / 2) b a (j + 1)
    omega
  · intro hall
    obtain ⟨j, hj, hleast⟩ := exists_mod_eq_mod_gcd (b / 2) a hb
    have hle := hall j hj
    omega

/-- What a walk between two cells leaves behind. -/
def walkMarks (axis : Axis) (d start stop : Cell) : List Mark :=
  (List.range ((axis.along d).natAbs + 1)).map (fun k ↦ .free (freeCell axis d start k)) ++
    [.occupied stop]

/-- Assumes: a walk along the longer axis between two different cells. -/
theorem isLine_walk_iff (hlong : (axis.across d).natAbs ≤ (axis.along d).natAbs)
    (halong : axis.along d = axis.along stop - axis.along start)
    (hacross : axis.across d = axis.across stop - axis.across start) (hne : start ≠ stop) :
    IsLine axis start stop (walkMarks axis d start stop) ↔
      KeepsToLine (axis.across d).natAbs (axis.along d).natAbs := by
  have hfar : axis.along d ≠ 0 := by
    intro hzero
    refine hne ((axis.eq_iff start stop).mpr ?_)
    omega
  have hmem : ∀ c, Mark.free c ∈ walkMarks axis d start stop ↔
      ∃ k ≤ (axis.along d).natAbs, freeCell axis d start k = c := by
    intro c
    simp [walkMarks, Nat.lt_succ_iff]
  rw [keepsToLine_iff (Int.natAbs_pos.mpr hfar)]
  unfold IsLine
  simp only [hmem]
  constructor
  · rintro ⟨hnear, -⟩ j hj
    exact (distance_freeCell_iff halong hacross hfar j).mp (hnear _ ⟨j + 1, hj, rfl⟩)
  · intro hall
    refine ⟨?_, fun z hz ↦ ?_⟩
    · rintro c ⟨k, hk, rfl⟩
      cases k with
      | zero => simp [freeCell_zero, lineAt]
      | succ j => exact (distance_freeCell_iff halong hacross hfar j).mpr (hall j hk)
    · refine ⟨_, ⟨(z - axis.along start).natAbs + 1, ?_, rfl⟩, ?_⟩
      · omega
      · rw [freeCell_succ, Axis.along_cell, sign, halong]
        split_ifs
        · omega
        · omega

end Walk

/-! ### The line -/

/-- The difference of two cells. -/
def between (start stop : Cell) : Cell := ⟨stop.x - start.x, stop.y - start.y⟩

theorem difference_toPoint (start stop : Cell) :
    difference start.toPoint stop.toPoint = between start stop := by
  have hcast : ∀ z w : ℤ, toInt ((z : ℚ) - w) = z - w := fun z w ↦ by
    rw [← Int.cast_sub, toInt_intCast]
  simp [difference, Cell.toPoint, between, hcast]

theorem along_between (axis : Axis) (start stop : Cell) :
    axis.along (between start stop) = axis.along stop - axis.along start := by
  cases axis <;> rfl

theorem across_between (axis : Axis) (start stop : Cell) :
    axis.across (between start stop) = axis.across stop - axis.across start := by
  cases axis <;> rfl

theorem natAbs_walkAxis (d : Cell) :
    ((walkAxis d).across d).natAbs = min d.x.natAbs d.y.natAbs ∧
      ((walkAxis d).along d).natAbs = max d.x.natAbs d.y.natAbs := by
  unfold walkAxis
  split_ifs with h
  · exact ⟨(min_eq_left h).symm, (max_eq_right h).symm⟩
  · exact ⟨(min_eq_right (not_le.mp h).le).symm, (max_eq_left (not_le.mp h).le).symm⟩

variable {hasValue : Cell → Bool} {start stop : Cell}

/-- Assumes: two different cells of the grid, with integer coordinates. -/
theorem exists_update_toPoint_iff (hvalue : hasValue start = true ∧ hasValue stop = true)
    (hne : start ≠ stop) {marks : List Mark} :
    (∃ rounds, update hasValue rounds start.toPoint stop.toPoint = .finished marks) ↔
      marks = walkMarks (walkAxis (between start stop)) (between start stop) start stop := by
  have hahead := isAhead_natAbs (along_between (walkAxis (between start stop)) start stop)
  rw [exists_update_eq_iff (by simpa using hvalue) (by simpa using hne)]
  simp only [RayIsAhead, rayCell, rayAxis, difference_toPoint, toCell_toPoint]
  constructor
  · rintro ⟨n, hn, rfl⟩
    rw [hn.unique hahead, walkMarks]
  · rintro rfl
    exact ⟨_, hahead, rfl⟩

/-- Assumes: two cells of the grid, with integer coordinates. A ray follows its line exactly if the
shorter of the two differences is not too long for the longer one. -/
theorem isLine_iff (hvalue : hasValue start = true ∧ hasValue stop = true) :
    (∃ marks, (∃ rounds, update hasValue rounds start.toPoint stop.toPoint = .finished marks) ∧
      IsLine (walkAxis (between start stop)) start stop marks) ↔
      KeepsToLine (min (stop.x - start.x).natAbs (stop.y - start.y).natAbs)
        (max (stop.x - start.x).natAbs (stop.y - start.y).natAbs) := by
  by_cases hne : start = stop
  · subst hne
    refine iff_of_true ⟨[], ⟨0, update_of_eq rfl 0⟩, by simp, fun z hz ↦ by omega⟩ ?_
    simp [KeepsToLine]
  · have hline := isLine_walk_iff (walkAxis_long (between start stop)) (along_between _ start stop)
      (across_between _ start stop) hne
    have hsizes := natAbs_walkAxis (between start stop)
    simp only [exists_update_toPoint_iff hvalue hne, exists_eq_left]
    rw [hline, hsizes.1, hsizes.2]
    rfl

theorem isLine_diagonal :
    (∃ marks, (∃ rounds, update Scenario.everywhere rounds (Cell.toPoint ⟨0, 0⟩)
        (Cell.toPoint ⟨2, 2⟩) = .finished marks) ∧
      IsLine (walkAxis (between ⟨0, 0⟩ ⟨2, 2⟩)) ⟨0, 0⟩ ⟨2, 2⟩ marks) ↔ KeepsToLine 2 2 :=
  isLine_iff ⟨rfl, rfl⟩

/-- A ray of three cells to the side and four up. -/
theorem isLine_wrong :
    ¬ ∀ (hasValue : Cell → Bool) (start stop : Cell),
      hasValue start = true ∧ hasValue stop = true →
        ∃ marks, (∃ rounds,
            update hasValue rounds start.toPoint stop.toPoint = .finished marks) ∧
          IsLine (walkAxis (between start stop)) start stop marks := by
  intro hall
  obtain ⟨marks, hupdate, hline⟩ := hall Scenario.everywhere ⟨0, 0⟩ ⟨3, 4⟩ ⟨rfl, rfl⟩
  rw [exists_update_toPoint_iff ⟨rfl, rfl⟩ (by decide)] at hupdate
  subst hupdate
  have hkeeps := (isLine_walk_iff (walkAxis_long _) (along_between _ _ _) (across_between _ _ _)
    (by decide)).mp hline
  revert hkeeps
  unfold KeepsToLine
  decide

end Felicia.OccupancyGrid
