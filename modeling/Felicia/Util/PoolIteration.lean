import Felicia.Support.Iteration
import Felicia.Util.PoolIterator
import Mathlib.Data.List.Nodup

/-!
# Iteration over pools

The loops from `begin()` to `end()` and from `cbegin()` to `cend()` of
`felicia/core/lib/containers/pool.h`. An iterator is a copy of the pool's index, and the last one
has its pop index at the push index and no elements behind that. Incrementing the first one clears
the flag when it goes round, so that it gets there (`leads_slots`), and on the way it is at the
cells of the elements, the oldest first (`iteration_of_run`).
-/

set_option autoImplicit false
set_option relaxedAutoImplicit false

namespace Felicia

open Support TransitionSystem

/-! ### Iterators -/

namespace PoolIndex

/-- The index of an iterator at the end. -/
def atEnd (p : PoolIndex) : PoolIndex :=
  { p with popIndex := p.pushIndex, isAliveAfterPushIndex := false }

/-- What iterators do with their indices. -/
def forward : ForwardIterator PoolIndex ℕ where
  equal a b := decide (a = b)
  increment p := if p.size = 0 then none else some p.incPopIndex
  dereference p := if p.size = 0 then none else some p.popIndex

end PoolIndex

/-- `Pool::Iterator`. -/
structure Iterator (α : Type) where
  poolIndex : PoolIndex
  buffer : ℕ → Option α

variable {α : Type}

/-- The operators of an iterator. A reference is the cell that it refers to. -/
def Iterator.forward : ForwardIterator (Iterator α) ℕ where
  equal it other := decide (it.poolIndex = other.poolIndex)
  increment it :=
    if it.poolIndex.size = 0 then none
    else some { it with poolIndex := it.poolIndex.incPopIndex }
  dereference it := if it.poolIndex.size = 0 then none else some it.poolIndex.popIndex

/-- The conversion from an iterator. -/
def ConstIterator.ofIterator (other : Iterator α) : ConstIterator α :=
  ⟨other.poolIndex, other.buffer⟩

def ConstIterator.forward : ForwardIterator (ConstIterator α) ℕ where
  equal it other := decide (it.poolIndex = other.poolIndex)
  increment it := if it.poolIndex.size = 0 then none else some it.next
  dereference it := if it.poolIndex.size = 0 then none else some it.poolIndex.popIndex

namespace Pool

variable (p : Pool α)

/-- `begin()`. -/
def beginIterator : Iterator α := ⟨p.index, p.buffer⟩

/-- `end()`. -/
def endIterator : Iterator α := ⟨p.index.atEnd, p.buffer⟩

def cend : ConstIterator α := ConstIterator.ofIterator p.endIterator

theorem cbegin_eq : p.cbegin = ConstIterator.ofIterator p.beginIterator := rfl

end Pool

/-- The values that a call stores. -/
def PoolOp.stored : PoolOp α → List α
  | .push v | .pushMove v | .emplace v => [v]
  | .pop | .reserve _ => []

/-! ### Cells -/

namespace PoolIndex

variable {p : PoolIndex}

/-- An index without elements is the one at the end. -/
theorem eq_atEnd_iff (h : p.Ordered) (hpos : 0 < p.capacity) : p = p.atEnd ↔ p.size = 0 := by
  constructor
  · intro heq
    rw [heq]
    exact Nat.sub_self p.pushIndex
  · intro hsize
    have hflag : p.isAliveAfterPushIndex = false := by
      by_contra hflag
      have := size_pos_of_flag h hpos (Bool.eq_true_of_not_eq_false hflag)
      omega
    have hle := h.pop_le_push hflag
    rw [size, if_neg (by simp [hflag])] at hsize
    have hindex : p.popIndex = p.pushIndex := by omega
    cases p
    simp_all [atEnd]

/-- Increments lead to the end, by the cells of all elements. -/
theorem leads_slots (h : p.Ordered) (hpos : 0 < p.capacity) :
    forward.Leads p.atEnd p ((List.range p.size).map p.slot) := by
  induction hn : p.size generalizing p with
  | zero => exact .here (decide_eq_true ((eq_atEnd_iff h hpos).mpr hn))
  | succ n ih =>
    have hne : p.size ≠ 0 := by omega
    have hnext := size_incPopIndex h hne
    have hcapacity := h.size_le
    have hrest := ih (h.incPopIndex hne) hpos (by omega)
    have hslots : (List.range n).map p.incPopIndex.slot =
        (List.range n).map (p.slot ∘ Nat.succ) := by
      refine List.map_congr_left fun k hk ↦ slot_incPopIndex h hpos ?_
      have := List.mem_range.mp hk
      omega
    rw [List.range_succ_eq_map, List.map_cons, List.map_map, slot_zero h hpos, ← hslots]
    exact .step (decide_eq_false (mt (eq_atEnd_iff h hpos).mp hne)) (if_neg hne) (if_neg hne) hrest

end PoolIndex

/-! ### Elements -/

namespace Pool

variable {p : Pool α} {l : List α}

/-- The cells of the elements, the oldest first. -/
def cells (p : Pool α) : List ℕ := (List.range p.size).map p.index.slot

/-- Each element is in one of the cells, from that of `front` to that of `back`. -/
structure GoesOver (p : Pool α) (cells : List ℕ) (l : List α) : Prop where
  length : cells.length = p.size
  nodup : cells.Nodup
  mem_iff : ∀ i, i ∈ cells ↔ (p.buffer i).isSome
  values : cells.map p.buffer = l.map some
  head : p.empty = false → cells.head? = some p.index.popIndex
  getLast : p.empty = false → cells.getLast? = some (p.index.decIndex p.index.pushIndex)

theorem Represents.nodup_cells (h : p.Represents l) : p.cells.Nodup := by
  have hlength := h.length_le
  refine List.Nodup.map_on ?_ List.nodup_range
  intro i hi j hj hslot
  rw [List.mem_range, Pool.size, h.size] at hi hj
  exact PoolIndex.slot_injective h.ordered h.positive (by omega) (by omega) hslot

theorem Represents.values_cells (h : p.Represents l) : p.cells.map p.buffer = l.map some := by
  rw [cells, List.map_map, Pool.size, h.size]
  apply List.ext_getElem?
  intro i
  by_cases hi : i < l.length
  · simp [hi, h.alive i hi]
  · simp [hi]

theorem Represents.mem_cells_iff (h : p.Represents l) (i : ℕ) :
    i ∈ p.cells ↔ (p.buffer i).isSome := by
  have hvalues := h.values_cells
  constructor
  · intro hmem
    have hvalue : p.buffer i ∈ l.map some := hvalues ▸ List.mem_map_of_mem hmem
    obtain ⟨v, -, hv⟩ := List.mem_map.mp hvalue
    rw [← hv]
    rfl
  · intro hsome
    by_contra hnot
    rw [h.dead i] at hsome
    · cases hsome
    · rintro k hk rfl
      refine hnot (List.mem_map_of_mem (List.mem_range.mpr ?_))
      rw [Pool.size, h.size]
      exact hk

theorem Represents.goesOver (h : p.Represents l) : p.GoesOver p.cells l where
  length := by rw [cells, List.length_map, List.length_range]
  nodup := h.nodup_cells
  mem_iff := h.mem_cells_iff
  values := h.values_cells
  head hempty := by
    have hsize : p.size ≠ 0 := by simpa [Pool.empty, Pool.size] using hempty
    rw [cells, List.head?_map, List.head?_range, if_neg hsize, Option.map_some,
      PoolIndex.slot_zero h.ordered h.positive]
  getLast hempty := by
    have hsize : p.size ≠ 0 := by simpa [Pool.empty, Pool.size] using hempty
    rw [cells, List.getLast?_map, List.getLast?_range, if_neg hsize, Option.map_some,
      PoolIndex.decIndex_pushIndex h.ordered h.positive (Nat.pos_of_ne_zero hsize)]
    rfl

/-! ### Loops -/

theorem Represents.leads (h : p.Represents l) :
    Iterator.forward.Leads p.endIterator p.beginIterator p.cells := by
  refine (PoolIndex.leads_slots h.ordered h.positive).map (J := Iterator.forward)
    (fun index ↦ (⟨index, p.buffer⟩ : Iterator α)) (fun _ _ ↦ rfl) (fun _ ↦ rfl) fun index ↦ ?_
  by_cases hsize : index.size = 0 <;> simp [Iterator.forward, PoolIndex.forward, hsize]

theorem Represents.leads_const (h : p.Represents l) :
    ConstIterator.forward.Leads p.cend p.cbegin p.cells := by
  rw [cbegin_eq]
  refine h.leads.map ConstIterator.ofIterator (fun _ _ ↦ rfl) (fun _ ↦ rfl) fun it ↦ ?_
  by_cases hsize : it.poolIndex.size = 0 <;>
    simp [Iterator.forward, ConstIterator.forward, ConstIterator.ofIterator, ConstIterator.next,
      hsize]

/-- A pool holds the last of the values that were stored. -/
theorem exists_suffix_of_run {capacity : ℕ+} {ops : List (PoolOp α)}
    (run : Run (pooling capacity) unguarded p ops) :
    ∃ l, p.Represents l ∧ l <:+ ops.flatMap PoolOp.stored := by
  refine run.invariant
    (I := fun p ops ↦ ∃ l, p.Represents l ∧ l <:+ ops.flatMap PoolOp.stored) ?_ ?_
  · rintro s rfl
    exact ⟨[], represents_ofCapacity capacity.pos, List.nil_suffix⟩
  · rintro s op s' ops observed _ ⟨l, hl, hsuffix⟩ _ hstep
    cases hstep
    rw [List.flatMap_append, List.flatMap_singleton]
    have hpush (v : α) : (if s.index.isAliveAfterPushIndex then l.tail else l) ++ [v] <:+
        ops.flatMap PoolOp.stored ++ [v] := by
      apply List.suffix_append_self_iff.mpr
      by_cases hflag : s.index.isAliveAfterPushIndex = true
      · rw [if_pos hflag]
        exact (List.tail_suffix l).trans hsuffix
      · rwa [if_neg hflag]
    cases op with
    | push v | pushMove v | emplace v => exact ⟨_, hl.push v, hpush v⟩
    | pop => exact ⟨_, hl.pop, by simpa [PoolOp.stored] using (List.tail_suffix l).trans hsuffix⟩
    | reserve capacity =>
      exact ⟨_, hl.reserve capacity, by
        simpa [PoolOp.stored] using (List.drop_suffix _ l).trans hsuffix⟩

/-- In every run of a pool, a loop with either kind of iterators goes over the elements, in as many
steps as there are, and no check fails; and the first iterator is the last one of an empty pool
only. -/
theorem iteration_of_run {capacity : ℕ+} {ops : List (PoolOp α)}
    (run : Run (pooling capacity) unguarded p ops) :
    ∃ cells l, p.GoesOver cells l ∧ l <:+ ops.flatMap PoolOp.stored ∧
      (∀ rounds, Iterator.forward.iterate p.beginIterator p.endIterator rounds =
        if rounds ≤ p.size then .unfinished else .finished cells) ∧
      (∀ rounds, ConstIterator.forward.iterate p.cbegin p.cend rounds =
        if rounds ≤ p.size then .unfinished else .finished cells) ∧
      (Iterator.forward.equal p.beginIterator p.endIterator = true ↔ p.empty = true) ∧
      (ConstIterator.forward.equal p.cbegin p.cend = true ↔ p.empty = true) := by
  obtain ⟨l, hl, hsuffix⟩ := exists_suffix_of_run run
  have hover := hl.goesOver
  have hempty : p.cells = [] ↔ p.empty = true := by
    rw [← List.length_eq_zero_iff, hover.length, Pool.empty, decide_eq_true_iff, Pool.size]
  refine ⟨p.cells, l, hover, hsuffix, ?_, ?_, ?_, ?_⟩
  · intro rounds
    rw [hl.leads.iterate_eq, hover.length]
  · intro rounds
    rw [hl.leads_const.iterate_eq, hover.length]
  · rw [hl.leads.equal_iff, hempty]
  · rw [hl.leads_const.equal_iff, hempty]

end Pool

namespace Scenario

/-- A pool of three elements goes round, and one is popped. -/
def goRound : List (PoolOp ℕ) := [.push 0, .push 1, .push 2, .push 3, .pop]

end Scenario

namespace Pool

/-- Two elements are left, one of them behind the push index. -/
theorem iteration_of_goRound :
    ∃ (p : Pool ℕ) (cells : List ℕ) (l : List ℕ), p.size = 2 ∧ p.GoesOver cells l ∧
      Iterator.forward.iterate p.beginIterator p.endIterator 3 = .finished cells ∧
      ConstIterator.forward.iterate p.cbegin p.cend 3 = .finished cells := by
  have hexec : ((pooling (α := ℕ) 3).exec unguarded (ofCapacity 3) [] Scenario.goRound).map
      (fun result ↦ result.1.size) = some 2 := by
    decide
  obtain ⟨⟨p, ops⟩, hrun, hsize⟩ := Option.map_eq_some_iff.mp hexec
  have run := (Run.start rfl).of_exec hrun
  obtain ⟨cells, l, hover, -, hloop, hloop', -, -⟩ := iteration_of_run run
  have hrounds : ¬3 ≤ p.size := by
    rw [show p.size = 2 from hsize]
    decide
  exact ⟨p, cells, l, hsize, hover, (hloop 3).trans (if_neg hrounds),
    (hloop' 3).trans (if_neg hrounds)⟩

end Pool

end Felicia
