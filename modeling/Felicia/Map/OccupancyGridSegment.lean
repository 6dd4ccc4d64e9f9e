import Felicia.Map.OccupancyGridMap
import Mathlib.Data.List.Range

/-!
# The segment of a ray

A ray that stays on its segment marks free cells within the box of its end cells, each next to the
one before, up to a cell next to its end, and only its end occupied (`OnSegment`). How far a ray has
gone across its axis when it ends depends on its accumulator alone: `onSegment_iff` says which rays
stay on their segments by comparing that with where their end cells lie (`MeetsEnd`).
-/

set_option autoImplicit false
set_option relaxedAutoImplicit false

namespace Felicia.OccupancyGrid

open Felicia.Support

/-- Two cells are the same, or share a side or a corner. -/
def Near (c d : Cell) : Prop := (c.x - d.x).natAbs ≤ 1 ∧ (c.y - d.y).natAbs ≤ 1

/-- A cell lies in the bounding box of two others. -/
def InBox (start stop c : Cell) : Prop :=
  (min start.x stop.x ≤ c.x ∧ c.x ≤ max start.x stop.x) ∧
    min start.y stop.y ≤ c.y ∧ c.y ≤ max start.y stop.y

def OnSegment (start stop : Cell) (marks : List Mark) : Prop :=
  ∃ free : List Cell, marks = free.map .free ++ [.occupied stop] ∧ free.head? = some start ∧
    free.IsChain Near ∧ (∀ c ∈ free, InBox start stop c) ∧ stop ∉ free ∧
      ∃ last, free.getLast? = some last ∧ Near last stop

/-! ### The cells of a walk -/

section Walk

variable {axis : Axis} {d start stop : Cell} {n : ℕ}

theorem near_iff (axis : Axis) (c d : Cell) :
    Near c d ↔ (axis.along c - axis.along d).natAbs ≤ 1 ∧
      (axis.across c - axis.across d).natAbs ≤ 1 := by
  cases axis with
  | x => rfl
  | y => exact and_comm

theorem inBox_iff (axis : Axis) (start stop c : Cell) :
    InBox start stop c ↔
      (min (axis.along start) (axis.along stop) ≤ axis.along c ∧
        axis.along c ≤ max (axis.along start) (axis.along stop)) ∧
      min (axis.across start) (axis.across stop) ≤ axis.across c ∧
        axis.across c ≤ max (axis.across start) (axis.across stop) := by
  cases axis with
  | x => rfl
  | y => exact and_comm

theorem acrossSteps_succ (hlong : (axis.across d).natAbs ≤ (axis.along d).natAbs) (k : ℕ) :
    acrossSteps axis d k ≤ acrossSteps axis d (k + 1) ∧
      acrossSteps axis d (k + 1) ≤ acrossSteps axis d k + 1 := by
  have hsucc := carries_succ ((axis.along d).natAbs / 2) hlong k
  unfold acrossSteps
  split_ifs at hsucc
  · omega
  · omega

theorem acrossSteps_mono (hlong : (axis.across d).natAbs ≤ (axis.along d).natAbs) {k : ℕ}
    (hk : k ≤ n) : acrossSteps axis d k ≤ acrossSteps axis d n :=
  carries_mono hlong hk

theorem natAbs_sign_mul (z w : ℤ) : (sign z * w).natAbs = w.natAbs := by
  obtain hsign | hsign := sign_eq z
  · rw [hsign, one_mul]
  · rw [hsign, neg_one_mul, Int.natAbs_neg]

theorem near_freeCell (hlong : (axis.across d).natAbs ≤ (axis.along d).natAbs) (k : ℕ) :
    Near (freeCell axis d start k) (freeCell axis d start (k + 1)) := by
  have hsteps := acrossSteps_succ hlong k
  rw [near_iff axis]
  simp only [freeCell, Axis.along_cell, Axis.across_cell, add_sub_add_left_eq_sub, ← mul_sub,
    natAbs_sign_mul]
  omega

theorem freeCell_ne_stop (hahead : IsAhead axis d start stop n) (hne : start ≠ stop) {k : ℕ}
    (hk : k ≤ n) : freeCell axis d start k ≠ stop := by
  rintro rfl
  have hlast : IsAhead axis d start (freeCell axis d start k) (k - 1) := by
    rw [IsAhead, freeCell, Axis.along_cell]
  have hkn := hahead.unique hlast
  obtain rfl : k = 0 := by omega
  exact hne (freeCell_zero axis d start).symm

/-- How far the end cell is from the first one, in the direction of the steps across the axis. -/
def acrossDistance (axis : Axis) (d start stop : Cell) : ℤ :=
  sign (axis.across d) * (axis.across stop - axis.across start)

/-- Assumes: a walk along the longer axis to its end cell. The cells of the walk lie in the box of
its end cells if the last one does. -/
theorem inBox_freeCell_iff (hlong : (axis.across d).natAbs ≤ (axis.along d).natAbs)
    (hahead : IsAhead axis d start stop n) :
    (∀ k ≤ n, InBox start stop (freeCell axis d start k)) ↔
      acrossSteps axis d n = 0 ∨ (acrossSteps axis d n : ℤ) ≤ acrossDistance axis d start stop := by
  have halong : ∀ k ≤ n, min (axis.along start) (axis.along stop) ≤
        axis.along start + sign (axis.along d) * (k - 1 : ℕ) ∧
      axis.along start + sign (axis.along d) * (k - 1 : ℕ) ≤
        max (axis.along start) (axis.along stop) := by
    intro k hk
    unfold IsAhead at hahead
    obtain hsign | hsign := sign_eq (axis.along d)
    · rw [hsign] at hahead ⊢
      omega
    · rw [hsign] at hahead ⊢
      omega
  have hacross : ∀ m : ℕ, (min (axis.across start) (axis.across stop) ≤
        axis.across start + sign (axis.across d) * m ∧
      axis.across start + sign (axis.across d) * m ≤
        max (axis.across start) (axis.across stop)) ↔
      m = 0 ∨ (m : ℤ) ≤ acrossDistance axis d start stop := by
    intro m
    unfold acrossDistance
    obtain hsign | hsign := sign_eq (axis.across d)
    · rw [hsign]
      omega
    · rw [hsign]
      omega
  simp only [inBox_iff axis, freeCell, Axis.along_cell, Axis.across_cell, hacross]
  constructor
  · intro hall
    exact (hall n le_rfl).2
  · intro hlast k hk
    have hle := acrossSteps_mono hlong hk
    exact ⟨halong k hk, by omega⟩

/-- Assumes: a walk to its end cell. -/
theorem near_stop_iff (hahead : IsAhead axis d start stop n) :
    Near (freeCell axis d start n) stop ↔
      (acrossSteps axis d n - acrossDistance axis d start stop).natAbs ≤ 1 := by
  have halong : (axis.along start + sign (axis.along d) * (n - 1 : ℕ) -
      axis.along stop).natAbs ≤ 1 := by
    rw [← hahead, add_sub_add_left_eq_sub, ← mul_sub, natAbs_sign_mul]
    omega
  have hacross : (axis.across start + sign (axis.across d) * acrossSteps axis d n -
      axis.across stop).natAbs =
        (acrossSteps axis d n - acrossDistance axis d start stop).natAbs := by
    unfold acrossDistance
    obtain hsign | hsign := sign_eq (axis.across d)
    · rw [hsign]
      omega
    · rw [hsign]
      omega
  rw [near_iff axis, freeCell, Axis.along_cell, Axis.across_cell, hacross]
  exact and_iff_right halong

end Walk

/-! ### The segment -/

section Ray

variable {hasValue : Cell → Bool} {point point2 : Point}

/-- The ray comes to its end cell, with as many steps across its axis as its end cell is away, or
one less. A ray without such steps may also end one cell to the other side. -/
def MeetsEnd (point point2 : Point) : Prop :=
  ∃ n, RayIsAhead point point2 n ∧
    (acrossSteps (rayAxis point point2) (difference point point2) n = 0 ∨
      (acrossSteps (rayAxis point point2) (difference point point2) n : ℤ) ≤
        acrossDistance (rayAxis point point2) (difference point point2) point.toCell
          point2.toCell) ∧
    (acrossSteps (rayAxis point point2) (difference point point2) n -
      acrossDistance (rayAxis point point2) (difference point point2) point.toCell
        point2.toCell).natAbs ≤ 1

theorem onSegment_marks_iff (start stop : Cell) (cells : List Cell) :
    OnSegment start stop (cells.map .free ++ [.occupied stop]) ↔
      cells.head? = some start ∧ cells.IsChain Near ∧ (∀ c ∈ cells, InBox start stop c) ∧
        stop ∉ cells ∧ ∃ last, cells.getLast? = some last ∧ Near last stop := by
  constructor
  · rintro ⟨free, hmarks, hfree⟩
    have heq := List.append_cancel_right hmarks
    rw [List.map_injective_iff.mpr (fun c d h ↦ by cases h; rfl) heq]
    exact hfree
  · exact fun h ↦ ⟨cells, rfl, h⟩

/-- Assumes: two different end cells. The cells of a ray are in order, whatever its steps across. -/
theorem onSegment_ray_iff (hne : point.toCell ≠ point2.toCell) {n : ℕ}
    (hahead : RayIsAhead point point2 n) :
    OnSegment point.toCell point2.toCell
        ((List.range (n + 1)).map (fun k ↦ .free (rayCell point point2 k)) ++
          [.occupied point2.toCell]) ↔
      (∀ k ≤ n, InBox point.toCell point2.toCell (rayCell point point2 k)) ∧
        Near (rayCell point point2 n) point2.toCell := by
  have hmap : (List.range (n + 1)).map (fun k ↦ Mark.free (rayCell point point2 k)) =
      ((List.range (n + 1)).map (rayCell point point2)).map .free := by
    rw [List.map_map]
    rfl
  have hhead : ((List.range (n + 1)).map (rayCell point point2)).head? = some point.toCell := by
    simp [List.head?_range, rayCell, freeCell_zero]
  have hlast : ((List.range (n + 1)).map (rayCell point point2)).getLast? =
      some (rayCell point point2 n) := by
    simp [List.range_succ]
  have hchain : ((List.range (n + 1)).map (rayCell point point2)).IsChain Near := by
    rw [List.isChain_map, List.isChain_range_succ]
    exact fun k _ ↦ near_freeCell (walkAxis_long _) k
  have hstop : point2.toCell ∉ (List.range (n + 1)).map (rayCell point point2) := by
    intro hmem
    obtain ⟨k, hk, heq⟩ := List.mem_map.mp hmem
    exact freeCell_ne_stop hahead hne (Nat.lt_succ_iff.mp (List.mem_range.mp hk)) heq
  have hbox : (∀ c ∈ (List.range (n + 1)).map (rayCell point point2),
      InBox point.toCell point2.toCell c) ↔
        ∀ k ≤ n, InBox point.toCell point2.toCell (rayCell point point2 k) := by
    simp [Nat.lt_succ_iff]
  rw [hmap, onSegment_marks_iff, hbox, hlast]
  simp only [hhead, hchain, hstop, Option.some.injEq, exists_eq_left', true_and,
    not_false_eq_true]

/-- Assumes: two different cells of the grid. -/
theorem onSegment_iff (hvalue : hasValue point.toCell = true ∧ hasValue point2.toCell = true)
    (hne : point.toCell ≠ point2.toCell) :
    (∃ marks, (∃ rounds, update hasValue rounds point point2 = .finished marks) ∧
      OnSegment point.toCell point2.toCell marks) ↔ MeetsEnd point point2 := by
  simp only [exists_update_eq_iff hvalue hne]
  constructor
  · rintro ⟨marks, ⟨n, hahead, rfl⟩, hsegment⟩
    obtain ⟨hbox, hnear⟩ := (onSegment_ray_iff hne hahead).mp hsegment
    exact ⟨n, hahead, (inBox_freeCell_iff (walkAxis_long _) hahead).mp hbox,
      (near_stop_iff hahead).mp hnear⟩
  · rintro ⟨n, hahead, hsteps, hdistance⟩
    have hbox := (inBox_freeCell_iff (walkAxis_long _) hahead).mpr hsteps
    have hnear := (near_stop_iff hahead).mpr hdistance
    exact ⟨_, ⟨n, hahead, rfl⟩, (onSegment_ray_iff hne hahead).mpr ⟨hbox, hnear⟩⟩

/-- The cells with a value are those of a rectangle. -/
def IsRectangular (hasValue : Cell → Bool) : Prop :=
  ∃ low high : Cell, ∀ c, hasValue c = true ↔
    (low.x ≤ c.x ∧ c.x ≤ high.x) ∧ low.y ≤ c.y ∧ c.y ≤ high.y

theorem hasValue_of_inBox {start stop c : Cell} (hgrid : IsRectangular hasValue)
    (hvalue : hasValue start = true ∧ hasValue stop = true) (hbox : InBox start stop c) :
    hasValue c = true := by
  obtain ⟨low, high, hgrid⟩ := hgrid
  rw [hgrid, hgrid] at hvalue
  rw [hgrid]
  unfold InBox at hbox
  omega

/-- Assumes: two different cells of the grid. A ray stays on its segment, and within a grid that is
rectangular, exactly if its steps across its axis come out at its end cell. -/
theorem staysOnSegment_iff (hvalue : hasValue point.toCell = true ∧ hasValue point2.toCell = true)
    (hne : point.toCell ≠ point2.toCell) :
    (∃ marks, (∃ rounds, update hasValue rounds point point2 = .finished marks) ∧
      OnSegment point.toCell point2.toCell marks ∧
        (IsRectangular hasValue → ∀ c, .free c ∈ marks → hasValue c = true)) ↔
      MeetsEnd point point2 := by
  rw [← onSegment_iff hvalue hne]
  constructor
  · rintro ⟨marks, hupdate, hsegment, -⟩
    exact ⟨marks, hupdate, hsegment⟩
  · rintro ⟨marks, hupdate, hsegment⟩
    refine ⟨marks, hupdate, hsegment, fun hgrid c hc ↦ ?_⟩
    obtain ⟨free, rfl, -, -, hbox, -⟩ := hsegment
    have hmem : c ∈ free := by simpa using hc
    exact hasValue_of_inBox hgrid hvalue (hbox c hmem)

theorem staysOnSegment_straight :
    (∃ marks, (∃ rounds, update Scenario.everywhere rounds ⟨0, 0⟩ ⟨2, 0⟩ = .finished marks) ∧
      OnSegment (⟨0, 0⟩ : Point).toCell (⟨2, 0⟩ : Point).toCell marks ∧
        (IsRectangular Scenario.everywhere →
          ∀ c, .free c ∈ marks → Scenario.everywhere c = true)) ↔
      MeetsEnd ⟨0, 0⟩ ⟨2, 0⟩ :=
  staysOnSegment_iff ⟨rfl, rfl⟩ (by
    have hx : (⟨0, 0⟩ : Point).toCell.x < (⟨2, 0⟩ : Point).toCell.x := by
      norm_num [Point.toCell, toInt]
    exact fun heq ↦ hx.ne (congrArg Cell.x heq))

/-- A ray from just below the border of a cell makes a step too many. -/
theorem staysOnSegment_wrong :
    ¬ ∀ (hasValue : Cell → Bool) (point point2 : Point),
      hasValue point.toCell = true ∧ hasValue point2.toCell = true →
        point.toCell ≠ point2.toCell →
          ∃ marks, (∃ rounds, update hasValue rounds point point2 = .finished marks) ∧
            OnSegment point.toCell point2.toCell marks := by
  intro hall
  have hstart : (⟨0, 9 / 10⟩ : Point).toCell = ⟨0, 0⟩ := by norm_num [Point.toCell, toInt]
  have hstop : (⟨3 / 2, 2⟩ : Point).toCell = ⟨1, 2⟩ := by norm_num [Point.toCell, toInt]
  have hd : difference ⟨0, 9 / 10⟩ ⟨3 / 2, 2⟩ = ⟨1, 1⟩ := by norm_num [difference, toInt]
  have hne : (⟨0, 9 / 10⟩ : Point).toCell ≠ (⟨3 / 2, 2⟩ : Point).toCell := by
    rw [hstart, hstop]
    decide
  obtain ⟨n, hahead, hsteps, -⟩ := (onSegment_iff ⟨rfl, rfl⟩ hne).mp
    (hall Scenario.everywhere _ _ ⟨rfl, rfl⟩ hne)
  simp only [RayIsAhead, rayAxis, hd, hstart, hstop] at hahead hsteps
  obtain rfl : n = 2 := hahead.unique (by unfold IsAhead; decide)
  revert hsteps
  decide

end Ray

end Felicia.OccupancyGrid
