import Felicia.Util.PoolFifo

/-!
# Iterators over pools

`Pool::ConstIterator` of `felicia/core/lib/containers/pool.h`, and the access by index that goes
through it. `operator++` moves an iterator to the next element, so that `begin()` reaches each
element after as many increments as elements are older. `operator+` computes the index that it
should move to, but does not store it: `getElem_eq` says that `operator[]` returns the oldest
element for every index.
-/

set_option autoImplicit false
set_option relaxedAutoImplicit false

namespace Felicia

open Support TransitionSystem

namespace PoolIndex

/-- `inc_index`, by more than one. -/
def incIndexBy (p : PoolIndex) (index delta : ℕ) : ℕ := (index + delta) % p.capacity

end PoolIndex

/-- `Pool::ConstIterator`. -/
structure ConstIterator (α : Type) where
  poolIndex : PoolIndex
  buffer : ℕ → Option α

namespace ConstIterator

variable {α : Type} (it : ConstIterator α)

/-- `operator++`, of an iterator that has not reached the end. -/
def next : ConstIterator α := { it with poolIndex := it.poolIndex.incPopIndex }

/-- `operator+`. The index that `inc_index` returns is not stored. -/
def add (delta : ℕ) : ConstIterator α :=
  let ret := it
  let _ := ret.poolIndex.incIndexBy it.poolIndex.popIndex delta
  ret

/-- `operator*`, which checks that the iterator has not reached the end. -/
def deref : Option α :=
  if it.poolIndex.size = 0 then none else it.buffer it.poolIndex.popIndex

end ConstIterator

namespace Pool

variable {α : Type} (p : Pool α)

def cbegin : ConstIterator α := ⟨p.index, p.buffer⟩

/-- `operator[]`. -/
def getElem (idx : ℕ) : Option α := (p.cbegin.add idx).deref

/-- The element that `begin()` reaches after some increments. -/
def nthElem (i : ℕ) : Option α := (ConstIterator.next^[i] p.cbegin).deref

/-- `at`, with the text of what it throws. -/
def constAt (idx : ℕ) : Except String (Option α) :=
  if p.size ≤ idx then .error s!"Pool::range_check: ({idx} >= {p.size})"
  else .ok (p.getElem idx)

variable {p} {l : List α}

/-- `operator[]` returns the oldest element. -/
theorem getElem_eq (idx : ℕ) : p.getElem idx = p.nthElem 0 := rfl

/-- An iterator with some elements left, the first of which is at some place. -/
structure Reaches (p : Pool α) (l : List α) (i : ℕ) (it : ConstIterator α) : Prop where
  buffer : it.buffer = p.buffer
  capacity : it.poolIndex.capacity = p.index.capacity
  ordered : it.poolIndex.Ordered
  size : it.poolIndex.size = l.length - i
  slot : ∀ k, i + k < p.index.capacity → it.poolIndex.slot k = p.index.slot (i + k)

theorem Represents.reaches_iterate (h : p.Represents l) {i : ℕ} (hi : i ≤ l.length) :
    Reaches p l i (ConstIterator.next^[i] p.cbegin) := by
  induction i with
  | zero => exact ⟨rfl, rfl, h.ordered, h.size, fun k _ ↦ by rw [zero_add]; rfl⟩
  | succ i ih =>
    have hreaches := ih (by omega)
    have hsize : (ConstIterator.next^[i] p.cbegin).poolIndex.size ≠ 0 := by
      rw [hreaches.size]
      omega
    rw [Function.iterate_succ_apply']
    refine ⟨hreaches.buffer, hreaches.capacity, hreaches.ordered.incPopIndex hsize, ?_,
      fun k hk ↦ ?_⟩
    · have hnext := PoolIndex.size_incPopIndex hreaches.ordered hsize
      rw [hreaches.size] at hnext
      show (ConstIterator.next^[i] p.cbegin).poolIndex.incPopIndex.size = _
      omega
    · have hpositive := h.positive
      have hslot := PoolIndex.slot_incPopIndex (k := k) hreaches.ordered
        (by rw [hreaches.capacity]; exact hpositive) (by rw [hreaches.capacity]; omega)
      refine hslot.trans ((hreaches.slot (k + 1) (by omega)).trans ?_)
      rw [show i + (k + 1) = i + 1 + k by omega]

/-- Increments reach the elements in order. -/
theorem Represents.nthElem_eq (h : p.Represents l) {i : ℕ} (hi : i < l.length) :
    p.nthElem i = l[i]? := by
  have hreaches := h.reaches_iterate hi.le
  have hlength := h.length_le
  have hsize : (ConstIterator.next^[i] p.cbegin).poolIndex.size ≠ 0 := by
    rw [hreaches.size]
    omega
  rw [nthElem, ConstIterator.deref, if_neg hsize, hreaches.buffer,
    ← PoolIndex.slot_zero hreaches.ordered (by rw [hreaches.capacity]; exact h.positive),
    hreaches.slot 0 (by omega), add_zero, h.alive i hi]

/-- The index is checked exactly. -/
theorem Represents.constAt_eq_error_iff (h : p.Represents l) (idx : ℕ) :
    (∃ message, p.constAt idx = .error message) ↔ l.length ≤ idx := by
  rw [← h.size]
  unfold constAt
  split_ifs with hrange
  · exact iff_of_true ⟨_, rfl⟩ hrange
  · exact iff_of_false (by simp) hrange

theorem Represents.constAt_eq_ok (h : p.Represents l) {idx : ℕ} (hidx : idx < l.length) :
    p.constAt idx = .ok (p.getElem idx) := by
  rw [constAt, if_neg (by rw [Pool.size, h.size]; omega)]

/-! ### Contents -/

/-- The elements, oldest first. -/
def contents (p : Pool α) : List α := (List.range p.size).filterMap p.nthElem

theorem filterMap_range (l : List α) : (List.range l.length).filterMap (l[·]?) = l := by
  induction l with
  | nil => rfl
  | cons first rest ih =>
    rw [List.length_cons, List.range_succ_eq_map, List.filterMap_cons, List.filterMap_map]
    exact congrArg (first :: ·) ih

theorem Represents.contents_eq (h : p.Represents l) : p.contents = l := by
  have hcongr : (List.range l.length).filterMap p.nthElem =
      (List.range l.length).filterMap (l[·]?) :=
    List.filterMap_congr fun i hi ↦ h.nthElem_eq (List.mem_range.mp hi)
  rw [contents, Pool.size, h.size, hcongr, filterMap_range]

/-! ### Reachable pools -/

/-- Every pool, after any calls, holds some elements. -/
theorem exists_represents_of_run {capacity : ℕ+} {guard : Pool α → PoolOp α → Prop}
    {ops : List (PoolOp α)} (run : Run (pooling capacity) guard p ops) : ∃ l, p.Represents l := by
  refine run.invariant (I := fun p _ ↦ ∃ l, p.Represents l) ?_ ?_
  · rintro s rfl
    exact ⟨[], represents_ofCapacity capacity.pos⟩
  · rintro s op s' ops observed _ ⟨l, hl⟩ _ hstep
    cases hstep
    cases op with
    | push v | pushMove v | emplace v => exact ⟨_, hl.push v⟩
    | pop => exact ⟨_, hl.pop⟩
    | reserve capacity => exact ⟨_, hl.reserve capacity⟩

end Pool

end Felicia
