import Mathlib.Data.List.Basic
import Mathlib.Logic.Function.Basic

/-!
# Pool

`felicia/core/lib/containers/pool.h`: a ring buffer that drops its oldest element when it is pushed
to after its push index went around. The indices stay below the capacity, the push index does not
pass the pop index while elements are alive after it, and the pop index does not pass the push index
otherwise, so that the differences of `size` are not negative. `Pool.Sound` says so, and that the
cells between the indices hold values; `Sound.push` and `Sound.pop` keep it, and by
`Sound.front?_isSome` a pool that is not empty has a front.
-/

set_option autoImplicit false
set_option relaxedAutoImplicit false

namespace Felicia

/-- `PoolIndex`. -/
structure PoolIndex where
  capacity : ℕ
  popIndex : ℕ := 0
  pushIndex : ℕ := 0
  isAliveAfterPushIndex : Bool := false
  deriving DecidableEq

namespace PoolIndex

variable (p : PoolIndex)

def incIndex (index : ℕ) : ℕ := if index = p.capacity - 1 then 0 else index + 1

def incPushIndex : PoolIndex :=
  { p with
    pushIndex := p.incIndex p.pushIndex
    isAliveAfterPushIndex := p.incIndex p.pushIndex = 0 || p.isAliveAfterPushIndex }

def incPopIndex : PoolIndex :=
  { p with
    popIndex := p.incIndex p.popIndex
    isAliveAfterPushIndex := !decide (p.incIndex p.popIndex = 0) && p.isAliveAfterPushIndex }

def size : ℕ :=
  if p.isAliveAfterPushIndex then p.capacity - (p.popIndex - p.pushIndex)
  else p.pushIndex - p.popIndex

end PoolIndex

/-- `Pool`. A cell without a value holds no object. -/
structure Pool (α : Type) where
  index : PoolIndex
  buffer : ℕ → Option α := fun _ ↦ none

namespace Pool

variable {α : Type} (p : Pool α)

def empty : Bool := p.index.size = 0

/-- `front` of a pool that is not empty. -/
def front? : Option α := if p.empty then none else p.buffer p.index.popIndex

def pop : Pool α :=
  if p.empty then p
  else { index := p.index.incPopIndex, buffer := Function.update p.buffer p.index.popIndex none }

def push (v : α) : Pool α :=
  let p := if p.index.isAliveAfterPushIndex then p.pop else p
  { index := p.index.incPushIndex, buffer := Function.update p.buffer p.index.pushIndex (some v) }

/-- Pushes the front elements of one pool to another, and pops them. -/
def moveInto : ℕ → Pool α → Pool α → Pool α
  | 0, _, target => target
  | n + 1, source, target =>
    match source.front? with
    | none => target
    | some v => moveInto n source.pop (target.push v)

def reserve (capacity : ℕ) : Pool α := moveInto p.index.size p { index := { capacity } }

/-- A pool without cells, as `clear` leaves it. -/
def cleared : Pool α := { index := { capacity := 0 } }

end Pool

/-! ### The cells between the indices -/

namespace PoolIndex

variable {p : PoolIndex} {i : ℕ}

/-- The order of the indices. -/
structure Ordered (p : PoolIndex) : Prop where
  pop_le : p.popIndex ≤ p.capacity - 1
  push_le : p.pushIndex ≤ p.capacity - 1
  push_le_pop : p.isAliveAfterPushIndex = true → p.pushIndex ≤ p.popIndex
  pop_le_push : p.isAliveAfterPushIndex = false → p.popIndex ≤ p.pushIndex

/-- A cell that holds an element. -/
def Occupied (p : PoolIndex) (i : ℕ) : Prop :=
  if p.isAliveAfterPushIndex then p.popIndex ≤ i ∧ i < p.capacity ∨ i < p.pushIndex
  else p.popIndex ≤ i ∧ i < p.pushIndex

theorem occupied_popIndex (h : p.Ordered) (hsize : p.size ≠ 0) : p.Occupied p.popIndex := by
  obtain ⟨hpop, hpush, htrue, hfalse⟩ := h
  unfold size at hsize
  unfold Occupied
  split_ifs at hsize ⊢ <;> omega

theorem Ordered.incPopIndex (h : p.Ordered) (hsize : p.size ≠ 0) : p.incPopIndex.Ordered := by
  obtain ⟨hpop, hpush, htrue, hfalse⟩ := h
  unfold size at hsize
  by_cases hwrap : p.popIndex = p.capacity - 1
  · constructor <;> simp [PoolIndex.incPopIndex, incIndex, hwrap, hpush]
  · constructor <;> simp only [PoolIndex.incPopIndex, incIndex, if_neg hwrap] <;>
      split_ifs at hsize <;> simp_all <;> omega

theorem occupied_of_incPopIndex (h : p.Ordered) (hsize : p.size ≠ 0)
    (hi : p.incPopIndex.Occupied i) : p.Occupied i ∧ i ≠ p.popIndex := by
  obtain ⟨hpop, hpush, htrue, hfalse⟩ := h
  unfold size at hsize
  unfold Occupied PoolIndex.incPopIndex incIndex at hi
  unfold Occupied
  by_cases hwrap : p.popIndex = p.capacity - 1 <;>
    cases hflag : p.isAliveAfterPushIndex <;> simp_all <;> omega

theorem size_incPopIndex (h : p.Ordered) (hsize : p.size ≠ 0) :
    p.incPopIndex.size + 1 = p.size := by
  obtain ⟨hpop, hpush, htrue, hfalse⟩ := h
  unfold size at hsize ⊢
  unfold PoolIndex.incPopIndex incIndex
  by_cases hwrap : p.popIndex = p.capacity - 1 <;>
    cases hflag : p.isAliveAfterPushIndex <;> simp_all <;> omega

/-- The cell at the push index holds no element, or there is no cell at all. -/
def Free (p : PoolIndex) : Prop :=
  p.isAliveAfterPushIndex = true → p.pushIndex < p.popIndex ∨ p.capacity = 0

theorem free_incPopIndex (h : p.Ordered) : p.incPopIndex.Free := by
  intro hflag
  by_cases hwrap : p.popIndex = p.capacity - 1
  · simp [PoolIndex.incPopIndex, incIndex, hwrap] at hflag
  · simp only [PoolIndex.incPopIndex, incIndex, if_neg hwrap, Bool.and_eq_true] at hflag ⊢
    exact Or.inl (Nat.lt_succ_of_le (h.push_le_pop hflag.2))

theorem Ordered.incPushIndex (h : p.Ordered) (hfree : p.Free) : p.incPushIndex.Ordered := by
  obtain ⟨hpop, hpush, htrue, hfalse⟩ := h
  unfold Free at hfree
  by_cases hwrap : p.pushIndex = p.capacity - 1
  · constructor <;> simp [PoolIndex.incPushIndex, incIndex, hwrap, hpop]
  · refine ⟨hpop, ?_, ?_, ?_⟩ <;> simp only [PoolIndex.incPushIndex, incIndex, if_neg hwrap]
    · omega
    · intro hflag
      have hflag' : p.isAliveAfterPushIndex = true := by simpa using hflag
      have := hfree hflag'
      omega
    · intro hflag
      have hflag' : p.isAliveAfterPushIndex = false := by simpa using hflag
      have := hfalse hflag'
      omega

theorem occupied_of_incPushIndex (h : p.Ordered) (hi : p.incPushIndex.Occupied i) :
    p.Occupied i ∨ i = p.pushIndex := by
  obtain ⟨hpop, hpush, htrue, hfalse⟩ := h
  unfold Occupied PoolIndex.incPushIndex incIndex at hi
  unfold Occupied
  by_cases hwrap : p.pushIndex = p.capacity - 1 <;>
    cases hflag : p.isAliveAfterPushIndex <;> simp_all <;> omega

end PoolIndex

namespace Pool

variable {α : Type} {p : Pool α}

/-- The indices are in order, and the cells between them hold elements. -/
structure Sound (p : Pool α) : Prop where
  ordered : p.index.Ordered
  alive : ∀ i, p.index.Occupied i → (p.buffer i).isSome

theorem sound_of_capacity (capacity : ℕ) : Sound ({ index := { capacity } } : Pool α) where
  ordered := ⟨Nat.zero_le _, Nat.zero_le _, nofun, fun _ ↦ Nat.le_refl 0⟩
  alive := fun i hi ↦ absurd hi.2 (Nat.not_lt_zero i)

@[simp]
theorem empty_of_capacity (capacity : ℕ) :
    ({ index := { capacity } } : Pool α).empty = true := by
  simp [empty, PoolIndex.size]

theorem Sound.front?_isSome (h : p.Sound) (hempty : p.empty = false) : p.front?.isSome := by
  have hsize : p.index.size ≠ 0 := by simpa [empty] using hempty
  rw [front?, if_neg (by simp [hempty])]
  exact h.alive _ (PoolIndex.occupied_popIndex h.ordered hsize)

theorem Sound.pop (h : p.Sound) : p.pop.Sound := by
  unfold Pool.pop
  split_ifs with hempty
  · exact h
  · have hsize : p.index.size ≠ 0 := by simpa [empty] using hempty
    refine ⟨h.ordered.incPopIndex hsize, fun i hi ↦ ?_⟩
    obtain ⟨hold, hne⟩ := PoolIndex.occupied_of_incPopIndex h.ordered hsize hi
    show (Function.update p.buffer p.index.popIndex none i).isSome
    rw [Function.update_of_ne hne]
    exact h.alive i hold

/-- Assumes: the cell at the push index is free. -/
theorem Sound.store (h : p.Sound) (v : α) (hfree : p.index.Free) :
    Sound
      { index := p.index.incPushIndex
        buffer := Function.update p.buffer p.index.pushIndex (some v) } := by
  refine ⟨h.ordered.incPushIndex hfree, fun i hi ↦ ?_⟩
  show (Function.update p.buffer p.index.pushIndex (some v) i).isSome
  by_cases hi' : i = p.index.pushIndex
  · rw [hi', Function.update_self]
    rfl
  · rw [Function.update_of_ne hi']
    exact h.alive i ((PoolIndex.occupied_of_incPushIndex h.ordered hi).resolve_right hi')

theorem Sound.push (h : p.Sound) (v : α) : (p.push v).Sound := by
  unfold Pool.push
  split_ifs with hflag
  · refine h.pop.store v ?_
    unfold Pool.pop
    split_ifs with hempty
    · -- Elements are alive, yet there is none: the pool has no cells.
      intro _
      have hsize : p.index.size = 0 := by simpa [empty] using hempty
      rw [PoolIndex.size, if_pos hflag] at hsize
      have hpop := h.ordered.pop_le
      omega
    · exact PoolIndex.free_incPopIndex h.ordered
  · exact h.store v fun hflag' ↦ absurd hflag' hflag

theorem Sound.moveInto {n : ℕ} {source target : Pool α} (h : target.Sound) :
    (Pool.moveInto n source target).Sound := by
  induction n generalizing source target with
  | zero => exact h
  | succ n ih =>
    unfold Pool.moveInto
    split
    · exact h
    · exact ih (h.push _)

theorem sound_reserve (p : Pool α) (capacity : ℕ) : (p.reserve capacity).Sound :=
  (sound_of_capacity capacity).moveInto

/-- Assumes: a pool that is not empty. -/
theorem Sound.size_pop (h : p.Sound) (hempty : p.empty = false) :
    p.pop.index.size + 1 = p.index.size := by
  rw [Pool.pop, if_neg (by simp [hempty])]
  exact PoolIndex.size_incPopIndex h.ordered (by simpa [empty] using hempty)

end Pool

end Felicia
