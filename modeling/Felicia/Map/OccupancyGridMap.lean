import Felicia.Support.Accumulator
import Felicia.Support.Loops
import Mathlib.Data.Rat.Floor
import Mathlib.Tactic.Linarith

/-!
# A ray over a grid

`update` marks the cells that a ray passes before its end free, and its last cell occupied. The
axis along which it walks is the one along which the points are further apart, and an accumulator
says where it also steps across it (`walkRound`). The direction of the steps, and the accumulator,
come from the differences of the points, cut off to integers; the walk ends at the cell that comes
from the end point, cut off to integers.

`walkRound_walkAfter` is where a walk is after some rounds, and `exists_update_eq_iff` what a ray
leaves behind. `exists_update_iff` says when a ray ends.
-/

set_option autoImplicit false
set_option relaxedAutoImplicit false

namespace Felicia.OccupancyGrid

open Felicia.Support

structure Cell where
  x : ℤ
  y : ℤ
  deriving DecidableEq

structure Point where
  x : ℚ
  y : ℚ

/-- A cast to an integer cuts off what is behind the point. -/
def toInt (q : ℚ) : ℤ := if 0 ≤ q then ⌊q⌋ else ⌈q⌉

/-- There is no third sign. -/
def sign (value : ℤ) : ℤ := if 0 < value then 1 else -1

def Point.toCell (point : Point) : Cell := ⟨toInt point.x, toInt point.y⟩

/-- The difference of two points, cut off to integers. -/
def difference (point point2 : Point) : Cell :=
  ⟨toInt (point2.x - point.x), toInt (point2.y - point.y)⟩

inductive Mark
  | free (cell : Cell)
  | occupied (cell : Cell)
  deriving DecidableEq

/-- The axis that a walk goes along. -/
inductive Axis
  | x
  | y

namespace Axis

def along : Axis → Cell → ℤ
  | x, cell => cell.x
  | y, cell => cell.y

def across : Axis → Cell → ℤ
  | x, cell => cell.y
  | y, cell => cell.x

def cell : Axis → ℤ → ℤ → Cell
  | x, along, across => ⟨along, across⟩
  | y, along, across => ⟨across, along⟩

@[simp] theorem along_cell (axis : Axis) (m n : ℤ) : axis.along (axis.cell m n) = m := by
  cases axis <;> rfl

@[simp] theorem across_cell (axis : Axis) (m n : ℤ) : axis.across (axis.cell m n) = n := by
  cases axis <;> rfl

@[simp] theorem cell_along_across (axis : Axis) (c : Cell) :
    axis.cell (axis.along c) (axis.across c) = c := by
  cases axis <;> rfl

theorem eq_iff (axis : Axis) (c d : Cell) :
    c = d ↔ axis.along c = axis.along d ∧ axis.across c = axis.across d := by
  constructor
  · rintro rfl
    exact ⟨rfl, rfl⟩
  · rintro ⟨halong, hacross⟩
    rw [← axis.cell_along_across c, halong, hacross, cell_along_across]

end Axis

/-- The state of the walk. -/
@[ext] structure Walk where
  cell : Cell
  error : ℕ
  marks : List Mark

/-- A round of the walk along an axis. The step across it comes before the cell is marked. -/
def walkRound (axis : Axis) (d stop : Cell) (s : Walk) : LoopRound Walk (List Mark) :=
  if axis.along s.cell = axis.along stop then .done s.marks
  else
    let error := s.error + (axis.across d).natAbs
    let full := (axis.along d).natAbs ≤ error
    let across :=
      if full then axis.across s.cell + sign (axis.across d) else axis.across s.cell
    .again {
      cell := axis.cell (axis.along s.cell + sign (axis.along d)) across
      error := if full then error - (axis.along d).natAbs else error
      marks := s.marks ++ [.free (axis.cell (axis.along s.cell) across)] }

def walkAxis (d : Cell) : Axis := if d.x.natAbs ≤ d.y.natAbs then .y else .x

/-- At most some rounds of the walk are made. -/
def update (hasValue : Cell → Bool) (rounds : ℕ) (point point2 : Point) : LoopEnd (List Mark) :=
  let start := point.toCell
  let stop := point2.toCell
  if ¬ (hasValue start ∧ hasValue stop) then .finished []
  else if start = stop then .finished []
  else
    let d := difference point point2
    let axis := walkAxis d
    (runLoop (walkRound axis d stop) rounds
      ⟨start, (axis.along d).natAbs / 2, [.free start]⟩).bind fun marks ↦
        .finished (marks ++ [.occupied stop])

/-! ### Cutting off -/

theorem toInt_of_one_le {q : ℚ} (h : 1 ≤ q) : 0 < toInt q := by
  rw [toInt, if_pos (by linarith)]
  exact Int.floor_pos.mpr h

theorem toInt_of_le_neg_one {q : ℚ} (h : q ≤ -1) : toInt q < 0 := by
  rw [toInt, if_neg (by linarith)]
  have hle : ⌈q⌉ ≤ -1 := Int.ceil_le.mpr (by exact_mod_cast h)
  omega

theorem toInt_of_abs_lt {q : ℚ} (h : |q| < 1) : toInt q = 0 := by
  obtain ⟨hlower, hupper⟩ := abs_lt.mp h
  unfold toInt
  split_ifs with hsign
  · exact Int.floor_eq_zero_iff.mpr ⟨hsign, hupper⟩
  · exact Int.ceil_eq_iff.mpr ⟨by push_cast; linarith, by push_cast; linarith⟩

theorem toInt_eq_zero_iff {q : ℚ} : toInt q = 0 ↔ |q| < 1 := by
  refine ⟨fun h ↦ ?_, toInt_of_abs_lt⟩
  by_contra hle
  obtain hle | hle := le_abs'.mp (not_lt.mp hle)
  · exact (toInt_of_le_neg_one hle).ne h
  · exact (toInt_of_one_le hle).ne' h

theorem toInt_mono {p q : ℚ} (h : p ≤ q) : toInt p ≤ toInt q := by
  unfold toInt
  split_ifs with hp hq hq
  · exact Int.floor_le_floor h
  · exact absurd (hp.trans h) hq
  · have hceil : ⌈p⌉ ≤ 0 := Int.ceil_le.mpr (by push_cast; linarith)
    have hfloor : 0 ≤ ⌊q⌋ := Int.floor_nonneg.mpr hq
    omega
  · exact Int.ceil_le_ceil h

@[simp] theorem toInt_intCast (z : ℤ) : toInt z = z := by
  unfold toInt
  split_ifs
  · exact Int.floor_intCast z
  · exact Int.ceil_intCast z

/-! ### The walk -/

section Walk

variable {axis : Axis} {d start stop : Cell}

/-- How often the walk has stepped across its axis. -/
def acrossSteps (axis : Axis) (d : Cell) (k : ℕ) : ℕ :=
  carries (axis.along d).natAbs (axis.across d).natAbs ((axis.along d).natAbs / 2) k

/-- The cells that are marked free, the first one before the walk. -/
def freeCell (axis : Axis) (d start : Cell) (k : ℕ) : Cell :=
  axis.cell (axis.along start + sign (axis.along d) * (k - 1 : ℕ))
    (axis.across start + sign (axis.across d) * acrossSteps axis d k)

/-- Where the walk is after some rounds. -/
def walkAfter (axis : Axis) (d start : Cell) (k : ℕ) : Walk where
  cell := axis.cell (axis.along start + sign (axis.along d) * k)
    (axis.across start + sign (axis.across d) * acrossSteps axis d k)
  error := ((axis.along d).natAbs / 2 + k * (axis.across d).natAbs) % (axis.along d).natAbs
  marks := (List.range (k + 1)).map fun i ↦ .free (freeCell axis d start i)

theorem acrossSteps_zero (axis : Axis) (d : Cell) : acrossSteps axis d 0 = 0 :=
  carries_zero (by omega)

theorem freeCell_zero (axis : Axis) (d start : Cell) : freeCell axis d start 0 = start := by
  simp [freeCell, acrossSteps_zero]

theorem walkAfter_zero (axis : Axis) (d start : Cell) :
    walkAfter axis d start 0 = ⟨start, (axis.along d).natAbs / 2, [.free start]⟩ := by
  have herror : (axis.along d).natAbs / 2 % (axis.along d).natAbs = (axis.along d).natAbs / 2 := by
    obtain hzero | hpos := Nat.eq_zero_or_pos (axis.along d).natAbs
    · simp [hzero]
    · exact Nat.mod_eq_of_lt (by omega)
  simp [walkAfter, acrossSteps_zero, freeCell_zero, herror]

theorem freeCell_succ (axis : Axis) (d start : Cell) (k : ℕ) :
    freeCell axis d start (k + 1) = axis.cell (axis.along start + sign (axis.along d) * k)
      (axis.across start + sign (axis.across d) * acrossSteps axis d (k + 1)) := by
  simp [freeCell]

/-- Assumes: a walk along the longer axis. A round that does not end the walk is one of these. -/
theorem walkRound_walkAfter (hlong : (axis.across d).natAbs ≤ (axis.along d).natAbs) {k : ℕ}
    (hgoes : axis.along start + sign (axis.along d) * k ≠ axis.along stop) :
    walkRound axis d stop (walkAfter axis d start k) = .again (walkAfter axis d start (k + 1)) := by
  have hsucc := carries_succ ((axis.along d).natAbs / 2) hlong k
  have hacross : axis.across (walkAfter axis d start k).cell =
      axis.across start + sign (axis.across d) * acrossSteps axis d k := by simp [walkAfter]
  have halong : axis.along (walkAfter axis d start k).cell =
      axis.along start + sign (axis.along d) * k := by simp [walkAfter]
  have halong' : axis.along start + sign (axis.along d) * k + sign (axis.along d) =
      axis.along start + sign (axis.along d) * (k + 1 : ℕ) := by
    push_cast
    ring
  have hmarks : (walkAfter axis d start (k + 1)).marks =
      (walkAfter axis d start k).marks ++ [.free (freeCell axis d start (k + 1))] := by
    simp [walkAfter, List.range_succ]
  rw [walkRound, if_neg (halong ▸ hgoes)]
  refine congrArg LoopRound.again ?_
  by_cases hfull : (axis.along d).natAbs ≤
      (walkAfter axis d start k).error + (axis.across d).natAbs
  · rw [if_pos (show _ ≤ (_ + _ * _) % _ + _ from hfull)] at hsucc
    have hnext : axis.across start + sign (axis.across d) * acrossSteps axis d k +
        sign (axis.across d) =
          axis.across start + sign (axis.across d) * acrossSteps axis d (k + 1) := by
      rw [acrossSteps, acrossSteps, hsucc.1]
      push_cast
      ring
    simp only [if_pos hfull, hacross, halong, halong', hnext]
    exact Walk.ext rfl hsucc.2.symm (by rw [hmarks, freeCell_succ])
  · rw [if_neg (show ¬ _ ≤ (_ + _ * _) % _ + _ from hfull)] at hsucc
    have hnext : acrossSteps axis d k = acrossSteps axis d (k + 1) := hsucc.1.symm
    simp only [if_neg hfull, hacross, halong, halong', hnext]
    exact Walk.ext rfl hsucc.2.symm (by rw [hmarks, freeCell_succ])

theorem sign_eq (z : ℤ) : sign z = 1 ∨ sign z = -1 := by
  unfold sign
  split_ifs
  · exact .inl rfl
  · exact .inr rfl

/-- The cell that a walk stops at is so many cells ahead. -/
def IsAhead (axis : Axis) (d start stop : Cell) (n : ℕ) : Prop :=
  axis.along start + sign (axis.along d) * n = axis.along stop

theorem IsAhead.unique {n k : ℕ} (h : IsAhead axis d start stop n)
    (h' : IsAhead axis d start stop k) : n = k := by
  unfold IsAhead at h h'
  obtain hsign | hsign := sign_eq (axis.along d)
  · rw [hsign] at h h'
    omega
  · rw [hsign] at h h'
    omega

/-- Assumes: a walk along the longer axis, to a cell that is ahead. -/
theorem runLoop_walkAfter (hlong : (axis.across d).natAbs ≤ (axis.along d).natAbs) {n : ℕ}
    (hahead : IsAhead axis d start stop n) {k rounds : ℕ} (hk : k ≤ n) (hrounds : n - k < rounds) :
    runLoop (walkRound axis d stop) rounds (walkAfter axis d start k) =
      .finished (walkAfter axis d start n).marks := by
  induction rounds generalizing k with
  | zero => omega
  | succ rounds ih =>
    obtain rfl | hlt := hk.eq_or_lt
    · have hround : walkRound axis d stop (walkAfter axis d start k) =
          .done (walkAfter axis d start k).marks := by
        rw [walkRound, if_pos (by rw [walkAfter, Axis.along_cell]; exact hahead)]
      rw [runLoop, hround]
    · rw [runLoop, walkRound_walkAfter hlong fun hk' ↦ hlt.ne' (hahead.unique hk')]
      exact ih hlt (by omega)

/-- Assumes: a walk along the longer axis, to a cell that is not ahead. -/
theorem runLoop_ne_finished (hlong : (axis.across d).natAbs ≤ (axis.along d).natAbs)
    (hahead : ¬ ∃ n, IsAhead axis d start stop n) (rounds : ℕ) (marks : List Mark) :
    runLoop (walkRound axis d stop) rounds (walkAfter axis d start 0) ≠ .finished marks := by
  intro hrun
  refine runLoop_keeps (P := fun s ↦ ∃ k, s = walkAfter axis d start k) (Q := fun _ ↦ False)
    (fun s hs ↦ ?_) ⟨0, rfl⟩ hrun
  obtain ⟨k, rfl⟩ := hs
  rw [walkRound_walkAfter hlong fun hk ↦ hahead ⟨k, hk⟩]
  exact ⟨k + 1, rfl⟩

end Walk

/-! ### A ray -/

section Ray

variable {hasValue : Cell → Bool} {point point2 : Point}

theorem walkAxis_long (d : Cell) :
    ((walkAxis d).across d).natAbs ≤ ((walkAxis d).along d).natAbs := by
  unfold walkAxis
  split_ifs with h
  · exact h
  · exact (not_le.mp h).le

/-- The axis of a ray, how many cells it goes along it, and the cells that it marks free. -/
abbrev rayAxis (point point2 : Point) : Axis := walkAxis (difference point point2)

def RayIsAhead (point point2 : Point) (n : ℕ) : Prop :=
  IsAhead (rayAxis point point2) (difference point point2) point.toCell point2.toCell n

def rayCell (point point2 : Point) (k : ℕ) : Cell :=
  freeCell (rayAxis point point2) (difference point point2) point.toCell k

theorem update_of_eq (heq : point.toCell = point2.toCell) (rounds : ℕ) :
    update hasValue rounds point point2 = .finished [] := by
  simp [update, heq]

/-- Assumes: two cells of the grid. -/
theorem update_of_ne (hvalue : hasValue point.toCell = true ∧ hasValue point2.toCell = true)
    (hne : point.toCell ≠ point2.toCell) (rounds : ℕ) :
    update hasValue rounds point point2 =
      (runLoop (walkRound (rayAxis point point2) (difference point point2) point2.toCell) rounds
        (walkAfter (rayAxis point point2) (difference point point2) point.toCell 0)).bind
          fun marks ↦ .finished (marks ++ [.occupied point2.toCell]) := by
  simp [update, hvalue, hne, walkAfter_zero]

/-- Assumes: two cells of the grid. What a ray that ends leaves behind. -/
theorem exists_update_eq_iff
    (hvalue : hasValue point.toCell = true ∧ hasValue point2.toCell = true)
    (hne : point.toCell ≠ point2.toCell) {marks : List Mark} :
    (∃ rounds, update hasValue rounds point point2 = .finished marks) ↔
      ∃ n, RayIsAhead point point2 n ∧
        marks = (List.range (n + 1)).map (fun k ↦ .free (rayCell point point2 k)) ++
          [.occupied point2.toCell] := by
  simp only [update_of_ne hvalue hne, LoopEnd.bind_eq_finished_iff]
  constructor
  · rintro ⟨rounds, walked, hrun, hmarks⟩
    obtain ⟨n, hahead⟩ : ∃ n, RayIsAhead point point2 n := by
      by_contra hnot
      exact runLoop_ne_finished (walkAxis_long _) hnot rounds walked hrun
    have hend := runLoop_walkAfter (walkAxis_long _) hahead (Nat.zero_le n)
      (show n - 0 < rounds + (n + 1) by omega)
    cases (runLoop_mono hrun (Nat.le_add_right rounds (n + 1))).symm.trans hend
    cases hmarks
    exact ⟨n, hahead, rfl⟩
  · rintro ⟨n, hahead, rfl⟩
    exact ⟨n + 1, _, runLoop_walkAfter (walkAxis_long _) hahead (Nat.zero_le n) (by omega), rfl⟩

theorem toInt_le_of_difference {p q : ℚ} :
    (0 < toInt (q - p) → toInt p ≤ toInt q) ∧ (toInt (q - p) < 0 → toInt q ≤ toInt p) := by
  have hzero : toInt 0 = 0 := toInt_intCast 0
  constructor
  · intro hpos
    refine toInt_mono (not_lt.mp fun hlt ↦ ?_)
    have hle := toInt_mono (show q - p ≤ 0 by linarith)
    omega
  · intro hneg
    refine toInt_mono (not_lt.mp fun hlt ↦ ?_)
    have hle := toInt_mono (show 0 ≤ q - p by linarith)
    omega

theorem exists_isAhead_iff {axis : Axis} {d start stop : Cell} :
    (∃ n, IsAhead axis d start stop n) ↔
      if 0 < axis.along d then axis.along start ≤ axis.along stop
      else axis.along stop ≤ axis.along start := by
  unfold IsAhead sign
  split_ifs with hsign
  · constructor
    · rintro ⟨n, hn⟩
      omega
    · intro hle
      exact ⟨(axis.along stop - axis.along start).toNat, by omega⟩
  · constructor
    · rintro ⟨n, hn⟩
      omega
    · intro hle
      exact ⟨(axis.along start - axis.along stop).toNat, by omega⟩

/-- The points are less than one apart in both coordinates, and the end cell lies above. -/
def GoesAway (point point2 : Point) : Prop :=
  |point2.x - point.x| < 1 ∧ |point2.y - point.y| < 1 ∧ toInt point.y < toInt point2.y

theorem exists_rayIsAhead_iff : (∃ n, RayIsAhead point point2 n) ↔ ¬ GoesAway point point2 := by
  have hx := toInt_le_of_difference (p := point.x) (q := point2.x)
  have hy := toInt_le_of_difference (p := point.y) (q := point2.y)
  have hx0 := toInt_eq_zero_iff (q := point2.x - point.x)
  have hy0 := toInt_eq_zero_iff (q := point2.y - point.y)
  unfold RayIsAhead GoesAway
  rw [exists_isAhead_iff, ← hx0, ← hy0]
  by_cases haxis : (toInt (point2.x - point.x)).natAbs ≤ (toInt (point2.y - point.y)).natAbs
  · have hwalk : rayAxis point point2 = .y := if_pos haxis
    simp only [hwalk, difference, Axis.along, Point.toCell]
    split_ifs <;> omega
  · have hwalk : rayAxis point point2 = .x := if_neg haxis
    simp only [hwalk, difference, Axis.along, Point.toCell]
    split_ifs <;> omega

/-- Assumes: two cells of the grid. A ray ends unless its direction, which comes from the points,
leads away from its end cell. -/
theorem exists_update_iff
    (hvalue : hasValue point.toCell = true ∧ hasValue point2.toCell = true) :
    (∃ rounds marks, update hasValue rounds point point2 = .finished marks) ↔
      ¬ GoesAway point point2 := by
  by_cases heq : point.toCell = point2.toCell
  · have hsame : ¬ GoesAway point point2 := fun haway ↦
      haway.2.2.ne (congrArg Cell.y heq)
    exact iff_of_true ⟨0, [], update_of_eq heq 0⟩ hsame
  · rw [← exists_rayIsAhead_iff, exists_comm]
    simp only [exists_update_eq_iff hvalue heq]
    constructor
    · rintro ⟨marks, n, hahead, -⟩
      exact ⟨n, hahead⟩
    · rintro ⟨n, hahead⟩
      exact ⟨_, n, hahead, rfl⟩

/-- A grid without bounds. -/
def Scenario.everywhere (_ : Cell) : Bool := true

/-- A ray along an axis. -/
theorem exists_update_straight :
    (∃ rounds marks, update Scenario.everywhere rounds ⟨0, 0⟩ ⟨2, 0⟩ = .finished marks) ↔
      ¬ GoesAway ⟨0, 0⟩ ⟨2, 0⟩ :=
  exists_update_iff ⟨rfl, rfl⟩

/-- A ray that is shorter than a cell and ends above its first cell. -/
theorem exists_update_wrong :
    ¬ ∀ (hasValue : Cell → Bool) (point point2 : Point),
      hasValue point.toCell = true ∧ hasValue point2.toCell = true →
        ∃ rounds marks, update hasValue rounds point point2 = .finished marks := by
  intro hall
  have haway : GoesAway ⟨1 / 2, 9 / 10⟩ ⟨1 / 2, 11 / 10⟩ := by
    norm_num [GoesAway, toInt]
  have hne : (⟨1 / 2, 9 / 10⟩ : Point).toCell ≠ (⟨1 / 2, 11 / 10⟩ : Point).toCell :=
    fun heq ↦ haway.2.2.ne (congrArg Cell.y heq)
  obtain ⟨rounds, marks, hupdate⟩ := hall Scenario.everywhere _ _ ⟨rfl, rfl⟩
  obtain ⟨n, hahead, -⟩ := (exists_update_eq_iff ⟨rfl, rfl⟩ hne).mp ⟨rounds, hupdate⟩
  exact exists_rayIsAhead_iff.mp ⟨n, hahead⟩ haway

end Ray

end Felicia.OccupancyGrid
