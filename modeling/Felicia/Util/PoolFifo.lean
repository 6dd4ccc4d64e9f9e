import Felicia.Support.Fifo
import Felicia.Support.Transition
import Felicia.Util.Pool

/-!
# Pools as bounded queues

`Pool` of `felicia/core/lib/containers/pool.h` against `Fifo`. The cells of a pool go round: the
cell of its oldest element is at the pop index, and its elements end before the push index.

`push` removes the oldest element whenever elements are alive behind the push index, also when there
is room: that is a pool that wrapped round and from which elements were popped since. `HasGap` is
this state, and `pool_fifo_iff` says that a pool is a bounded queue until an element is stored in
it.

Indices are below the capacity and no operation computes a number above it, so that a capacity that
its size type can represent does not overflow.
-/

set_option autoImplicit false
set_option relaxedAutoImplicit false

namespace Felicia

open Support TransitionSystem

/-! ### Operations -/

namespace PoolIndex

variable (p : PoolIndex)

def decIndex (index : ℕ) : ℕ := if index = 0 then p.capacity - 1 else index - 1

/-- The cell of an element, the oldest being the first. -/
def slot (k : ℕ) : ℕ :=
  if p.popIndex + k < p.capacity then p.popIndex + k else p.popIndex + k - p.capacity

end PoolIndex

/-- A call that changes a pool. -/
inductive PoolOp (α : Type)
  | push (v : α)
  | pushMove (v : α)
  /-- `emplace`, with the element that its arguments construct. -/
  | emplace (v : α)
  | pop
  | reserve (capacity : ℕ+)
  deriving DecidableEq

namespace Pool

variable {α : Type} (p : Pool α)

/-- `Pool(capacity)`. -/
def ofCapacity (capacity : ℕ) : Pool α := { index := { capacity } }

/-- `push(value_type&&)`. -/
def pushMove (v : α) : Pool α := p.push v

def emplace (v : α) : Pool α := p.push v

def size : ℕ := p.index.size

/-- `front`, also of a pool that is empty. -/
def front : Option α := p.buffer p.index.popIndex

def back : Option α := p.buffer (p.index.decIndex p.index.pushIndex)

/-- One call. -/
def apply : PoolOp α → Pool α
  | .push v => p.push v
  | .pushMove v => p.pushMove v
  | .emplace v => p.emplace v
  | .pop => p.pop
  | .reserve capacity => p.reserve capacity

end Pool

/-- The same call of a bounded queue. -/
def PoolOp.onFifo {α : Type} (q : Fifo α) : PoolOp α → Fifo α
  | .push v | .pushMove v | .emplace v => q.push v
  | .pop => q.pop
  | .reserve capacity => q.reserve capacity

/-- The bounded queue after some calls. -/
def fifoOf {α : Type} (capacity : ℕ+) (ops : List (PoolOp α)) : Fifo α :=
  ops.foldl PoolOp.onFifo (Fifo.empty capacity)

/-- A pool from its construction on. -/
def pooling {α : Type} (capacity : ℕ+) : TransitionSystem (Pool α) (PoolOp α) (PoolOp α) where
  Initial p := p = Pool.ofCapacity capacity
  step p op := some (p.apply op, [op])

/-! ### Cells -/

namespace PoolIndex

variable {p : PoolIndex} {k j : ℕ}

theorem Ordered.size_le (h : p.Ordered) : p.size ≤ p.capacity := by
  obtain ⟨hpop, hpush, htrue, hfalse⟩ := h
  unfold size
  split_ifs <;> omega

theorem Ordered.popIndex_lt (h : p.Ordered) (hpos : 0 < p.capacity) : p.popIndex < p.capacity := by
  have hpop := h.pop_le
  omega

theorem slot_injective (h : p.Ordered) (hpos : 0 < p.capacity) (hk : k < p.capacity)
    (hj : j < p.capacity) (hslot : p.slot k = p.slot j) : k = j := by
  have hpop := h.popIndex_lt hpos
  unfold slot at hslot
  split_ifs at hslot <;> omega

theorem slot_zero (h : p.Ordered) (hpos : 0 < p.capacity) : p.slot 0 = p.popIndex :=
  if_pos (h.popIndex_lt hpos)

theorem slot_incPopIndex (h : p.Ordered) (hpos : 0 < p.capacity) (hk : k < p.capacity) :
    p.incPopIndex.slot k = p.slot (k + 1) := by
  have hpop := h.popIndex_lt hpos
  unfold slot PoolIndex.incPopIndex incIndex
  dsimp only
  split_ifs <;> omega

/-- The elements end before the push index, wherever there is room. -/
theorem slot_size (h : p.Ordered) (hroom : p.size < p.capacity) : p.slot p.size = p.pushIndex := by
  obtain ⟨hpop, hpush, htrue, hfalse⟩ := h
  unfold slot size at *
  cases hflag : p.isAliveAfterPushIndex
  · have hle := hfalse hflag
    simp only [hflag, Bool.false_eq_true, if_false] at hroom ⊢
    split_ifs <;> omega
  · have hle := htrue hflag
    simp only [hflag, if_true] at hroom ⊢
    split_ifs <;> omega

theorem size_incPushIndex (h : p.Ordered) (hroom : p.size < p.capacity) :
    p.incPushIndex.size = p.size + 1 := by
  obtain ⟨hpop, hpush, htrue, hfalse⟩ := h
  unfold size at *
  unfold PoolIndex.incPushIndex incIndex
  by_cases hwrap : p.pushIndex = p.capacity - 1 <;>
    cases hflag : p.isAliveAfterPushIndex <;> simp_all <;> omega

theorem free_of_size_lt (h : p.Ordered) (hroom : p.size < p.capacity) : p.Free := by
  intro hflag
  have hle := h.push_le_pop hflag
  rw [size, if_pos hflag] at hroom
  omega

theorem size_pos_of_flag (h : p.Ordered) (hpos : 0 < p.capacity)
    (hflag : p.isAliveAfterPushIndex = true) : 0 < p.size := by
  have hpop := h.popIndex_lt hpos
  rw [size, if_pos hflag]
  omega

theorem size_lt_of_not_flag (h : p.Ordered) (hpos : 0 < p.capacity)
    (hflag : p.isAliveAfterPushIndex = false) : p.size < p.capacity := by
  have hpush := h.push_le
  rw [size, if_neg (by simp [hflag])]
  omega

/-- The push index is behind the cell of the newest element. -/
theorem decIndex_pushIndex (h : p.Ordered) (hpos : 0 < p.capacity) (hsize : 0 < p.size) :
    p.decIndex p.pushIndex = p.slot (p.size - 1) := by
  obtain ⟨hpop, hpush, htrue, hfalse⟩ := h
  unfold slot decIndex size at *
  cases hflag : p.isAliveAfterPushIndex
  · have hle := hfalse hflag
    simp only [hflag, Bool.false_eq_true, if_false] at hsize ⊢
    split_ifs <;> omega
  · have hle := htrue hflag
    simp only [hflag, if_true] at hsize ⊢
    split_ifs <;> omega

end PoolIndex

/-! ### Elements -/

namespace Pool

variable {α : Type} {p : Pool α} {l : List α}

/-- The elements that are alive, the oldest first, and no others. -/
structure Represents (p : Pool α) (l : List α) : Prop where
  positive : 0 < p.index.capacity
  ordered : p.index.Ordered
  size : p.index.size = l.length
  alive : ∀ k < l.length, p.buffer (p.index.slot k) = l[k]?
  dead : ∀ i, (∀ k < l.length, i ≠ p.index.slot k) → p.buffer i = none

theorem represents_ofCapacity {capacity : ℕ} (hpos : 0 < capacity) :
    (ofCapacity capacity : Pool α).Represents [] where
  positive := hpos
  ordered := ⟨Nat.zero_le _, Nat.zero_le _, nofun, fun _ ↦ Nat.le_refl 0⟩
  size := rfl
  alive := nofun
  dead _ _ := rfl

theorem Represents.empty_eq (h : p.Represents l) : p.empty = l.isEmpty := by
  rw [empty, h.size]
  cases l <;> simp

theorem Represents.length_le (h : p.Represents l) : l.length ≤ p.index.capacity :=
  h.size ▸ h.ordered.size_le

theorem Represents.pop (h : p.Represents l) : p.pop.Represents l.tail := by
  unfold Pool.pop
  cases l with
  | nil =>
    rw [if_pos (by simpa using h.empty_eq)]
    exact h
  | cons first rest =>
    have hne : p.index.size ≠ 0 := by simp [h.size]
    rw [if_neg (by simpa using h.empty_eq)]
    have hsize := PoolIndex.size_incPopIndex h.ordered hne
    have hlength := h.length_le
    rw [h.size, List.length_cons] at hsize
    rw [List.length_cons] at hlength
    have hslot {k : ℕ} (hk : k < rest.length) :
        p.index.incPopIndex.slot k = p.index.slot (k + 1) :=
      PoolIndex.slot_incPopIndex h.ordered h.positive (by omega)
    refine ⟨h.positive, h.ordered.incPopIndex hne, by simpa using hsize, fun k hk ↦ ?_,
      fun i hi ↦ ?_⟩
    · -- The other elements are one place further on.
      have hother : p.index.slot (k + 1) ≠ p.index.popIndex := by
        rw [← PoolIndex.slot_zero h.ordered h.positive]
        intro heq
        have hzero := PoolIndex.slot_injective h.ordered h.positive (by simp at hk; omega)
          h.positive heq
        omega
      show Function.update p.buffer p.index.popIndex none (p.index.incPopIndex.slot k) = _
      rw [hslot hk, Function.update_of_ne hother, h.alive (k + 1) (by simpa using hk)]
      rfl
    · show Function.update p.buffer p.index.popIndex none i = none
      by_cases hpop : i = p.index.popIndex
      · rw [hpop, Function.update_self]
      · rw [Function.update_of_ne hpop]
        refine h.dead i fun k hk ↦ ?_
        cases k with
        | zero =>
          rw [PoolIndex.slot_zero h.ordered h.positive]
          exact hpop
        | succ k =>
          have hk' : k < rest.length := by simpa using hk
          rw [← hslot hk']
          exact hi k hk'

/-- Assumes: room for another element. -/
theorem Represents.store (h : p.Represents l) (hroom : p.index.size < p.index.capacity) (v : α) :
    Represents
      { index := p.index.incPushIndex
        buffer := Function.update p.buffer p.index.pushIndex (some v) } (l ++ [v]) := by
  have hpush : p.index.pushIndex = p.index.slot l.length := by
    rw [← h.size]
    exact (PoolIndex.slot_size h.ordered hroom).symm
  have hlength : l.length < p.index.capacity := h.size ▸ hroom
  refine ⟨h.positive, h.ordered.incPushIndex (PoolIndex.free_of_size_lt h.ordered hroom), ?_,
    fun k hk ↦ ?_, fun i hi ↦ ?_⟩
  · rw [List.length_append, ← h.size]
    exact PoolIndex.size_incPushIndex h.ordered hroom
  · show Function.update p.buffer p.index.pushIndex (some v) (p.index.slot k) = _
    rw [List.length_append, List.length_singleton] at hk
    by_cases hlast : k = l.length
    · rw [hlast, hpush, Function.update_self]
      simp
    · have hold : k < l.length := by omega
      have hne : p.index.slot k ≠ p.index.pushIndex := by
        rw [hpush]
        exact fun heq ↦ hlast (PoolIndex.slot_injective h.ordered h.positive
          (hold.trans hlength) hlength heq)
      rw [Function.update_of_ne hne, h.alive k hold, List.getElem?_append_left hold]
  · show Function.update p.buffer p.index.pushIndex (some v) i = none
    have hother : i ≠ p.index.pushIndex := by
      rw [hpush]
      exact hi l.length (by simp)
    rw [Function.update_of_ne hother]
    exact h.dead i fun k hk ↦ hi k (by simp; omega)

/-- An element is stored behind the others, and the oldest is removed if elements were alive behind
the push index. -/
theorem Represents.push (h : p.Represents l) (v : α) :
    (p.push v).Represents ((if p.index.isAliveAfterPushIndex then l.tail else l) ++ [v]) := by
  unfold Pool.push
  split_ifs with hflag
  · have hpopped := h.pop
    refine hpopped.store ?_ v
    have hsize := PoolIndex.size_pos_of_flag h.ordered h.positive hflag
    have hlength := h.length_le
    have hcapacity : p.pop.index.capacity = p.index.capacity := by
      unfold Pool.pop
      split <;> rfl
    rw [hpopped.size, hcapacity, List.length_tail]
    rw [h.size] at hsize
    omega
  · exact h.store (PoolIndex.size_lt_of_not_flag h.ordered h.positive (by simpa using hflag)) v

/-- Elements are alive behind the push index, and there is room. -/
def HasGap (p : Pool α) : Prop :=
  p.index.isAliveAfterPushIndex = true ∧ p.index.size < p.index.capacity

instance (p : Pool α) : Decidable p.HasGap := inferInstanceAs (Decidable (_ ∧ _))

/-- No element is stored in a pool with a gap. -/
def Orderly (p : Pool α) : PoolOp α → Prop
  | .push _ | .pushMove _ | .emplace _ => ¬ p.HasGap
  | .pop | .reserve _ => True

instance (p : Pool α) (op : PoolOp α) : Decidable (p.Orderly op) := by
  unfold Orderly
  split <;> infer_instance

/-- What a pool shows is what the queue holds. -/
structure Refines (p : Pool α) (q : Fifo α) : Prop where
  capacity : p.index.capacity = q.capacity
  represents : p.Represents q.elements
  size : p.size = q.elements.length
  empty : p.empty = q.elements.isEmpty
  front : q.elements ≠ [] → p.front = q.elements.head?
  back : q.elements ≠ [] → p.back = q.elements.getLast?

theorem Represents.refines {q : Fifo α} (h : p.Represents q.elements)
    (hcapacity : p.index.capacity = q.capacity) : p.Refines q := by
  refine ⟨hcapacity, h, h.size, h.empty_eq, fun hne ↦ ?_, fun hne ↦ ?_⟩
  · have hpos := List.length_pos_of_ne_nil hne
    rw [Pool.front, ← PoolIndex.slot_zero h.ordered h.positive, h.alive 0 hpos,
      List.head?_eq_getElem?]
  · have hpos := List.length_pos_of_ne_nil hne
    rw [Pool.back, PoolIndex.decIndex_pushIndex h.ordered h.positive (h.size ▸ hpos), h.size,
      h.alive _ (by omega), List.getLast?_eq_getElem?]

/-! ### Storing and removing -/

theorem capacity_pop (p : Pool α) : p.pop.index.capacity = p.index.capacity := by
  unfold Pool.pop
  split <;> rfl

theorem capacity_push (p : Pool α) (v : α) : (p.push v).index.capacity = p.index.capacity := by
  unfold Pool.push
  dsimp only
  split
  · exact capacity_pop p
  · rfl

/-- A pool without a gap keeps what a bounded queue keeps. -/
theorem Refines.kept_eq {q : Fifo α} (h : p.Refines q) (hgap : ¬ p.HasGap) :
    (if p.index.isAliveAfterPushIndex then q.elements.tail else q.elements) = q.kept := by
  have hsize : q.IsFull ↔ p.index.size = p.index.capacity := by
    rw [h.capacity, h.represents.size]
    rfl
  unfold Fifo.kept
  by_cases hflag : p.index.isAliveAfterPushIndex = true
  · have hfull : p.index.size = p.index.capacity :=
      le_antisymm h.represents.ordered.size_le (not_lt.mp fun hroom ↦ hgap ⟨hflag, hroom⟩)
    rw [if_pos hflag, if_pos (hsize.mpr hfull)]
  · have hroom := PoolIndex.size_lt_of_not_flag h.represents.ordered h.represents.positive
      (by simpa using hflag)
    rw [if_neg hflag, if_neg fun hfull ↦ absurd (hsize.mp hfull) hroom.ne]

theorem Refines.push_iff {q : Fifo α} (h : p.Refines q) (v : α) :
    (p.push v).Refines (q.push v) ↔ ¬ p.HasGap := by
  have hpushed := h.represents.push v
  constructor
  · intro hrefines hgap
    -- One element more is lost than in the queue.
    have hlength := hrefines.represents.size.symm.trans hpushed.size
    have hnot : ¬ q.IsFull := by
      intro hfull
      have hroom := hgap.2
      rw [h.represents.size, h.capacity] at hroom
      exact absurd hfull hroom.ne
    have hpos := PoolIndex.size_pos_of_flag h.represents.ordered h.represents.positive hgap.1
    rw [h.represents.size] at hpos
    rw [Fifo.elements_push_of_not_isFull hnot, if_pos hgap.1] at hlength
    simp only [List.length_append, List.length_singleton, List.length_tail] at hlength
    omega
  · intro hgap
    rw [h.kept_eq hgap] at hpushed
    exact Represents.refines hpushed ((capacity_push p v).trans h.capacity)

theorem Refines.pop {q : Fifo α} (h : p.Refines q) : p.pop.Refines q.pop :=
  Represents.refines h.represents.pop ((capacity_pop p).trans h.capacity)

/-! ### Reserving -/

/-- Elements were only stored: they begin at the first cell, or there is no room. -/
def Packed (p : Pool α) : Prop :=
  if p.index.isAliveAfterPushIndex then p.index.popIndex = p.index.pushIndex
  else p.index.popIndex = 0

theorem Packed.not_hasGap (h : p.Packed) : ¬ p.HasGap := by
  rintro ⟨hflag, hroom⟩
  rw [Packed, if_pos hflag] at h
  rw [PoolIndex.size, if_pos hflag, h] at hroom
  omega

theorem Represents.packed_push (h : p.Represents l) (hpacked : p.Packed) (v : α) :
    (p.push v).Packed := by
  have hpos := h.positive
  have hpush := h.ordered.push_le
  unfold Packed at hpacked
  cases hflag : p.index.isAliveAfterPushIndex with
  | true =>
    rw [if_pos hflag] at hpacked
    have hempty : p.empty = false := by
      have hsize := PoolIndex.size_pos_of_flag h.ordered hpos hflag
      simpa [Pool.empty] using hsize.ne'
    unfold Packed Pool.push Pool.pop
    rw [if_pos hflag, hempty]
    simp only [Bool.false_eq_true, if_false, PoolIndex.incPushIndex, PoolIndex.incPopIndex,
      PoolIndex.incIndex, hpacked, hflag, Bool.and_true]
    by_cases hwrap : p.index.pushIndex = p.index.capacity - 1 <;> simp [hwrap]
  | false =>
    rw [if_neg (by simp [hflag])] at hpacked
    unfold Packed Pool.push
    simp only [hflag, Bool.false_eq_true, if_false, PoolIndex.incPushIndex, PoolIndex.incIndex,
      hpacked, Bool.or_false]
    by_cases hwrap : p.index.pushIndex = p.index.capacity - 1 <;> simp [hwrap]

theorem Represents.front_eq {v : α} (h : p.Represents (v :: l)) : p.front = some v := by
  rw [front, ← PoolIndex.slot_zero h.ordered h.positive]
  exact h.alive 0 (Nat.zero_lt_succ _)

theorem Represents.front?_eq {v : α} (h : p.Represents (v :: l)) : p.front? = some v := by
  rw [front?, if_neg (by simp [h.empty_eq])]
  exact h.front_eq

/-- Elements are moved one after the other. -/
theorem refines_moveInto {n : ℕ} {source target : Pool α} {q : Fifo α} (h : source.Represents l)
    (hn : n = l.length) (hrefines : target.Refines q) (hpacked : target.Packed) :
    (moveInto n source target).Refines (l.foldl Fifo.push q) := by
  induction n generalizing source target l q with
  | zero =>
    rw [List.eq_nil_of_length_eq_zero hn.symm]
    exact hrefines
  | succ n ih =>
    cases l with
    | nil => simp at hn
    | cons first rest =>
      rw [moveInto, h.front?_eq, List.foldl_cons]
      exact ih h.pop (by simpa using hn) ((hrefines.push_iff first).mpr hpacked.not_hasGap)
        (hrefines.represents.packed_push hpacked first)

theorem refines_ofCapacity (capacity : ℕ+) :
    (ofCapacity capacity : Pool α).Refines (Fifo.empty capacity) :=
  Represents.refines (represents_ofCapacity capacity.pos) rfl

theorem capacity_reserve (h : p.Represents l) (capacity : ℕ+) :
    (p.reserve capacity).index.capacity = capacity := by
  have hmoved := refines_moveInto h rfl (refines_ofCapacity capacity) rfl
  rw [← h.size] at hmoved
  exact hmoved.capacity.trans (congrArg PNat.val (Fifo.capacity_foldl_push _ _))

/-- The newest elements that there is room for stay. -/
theorem Represents.reserve (h : p.Represents l) (capacity : ℕ+) :
    (p.reserve capacity).Represents (l.drop (l.length - capacity)) := by
  have hmoved := refines_moveInto h rfl (refines_ofCapacity capacity) rfl
  rw [← h.size] at hmoved
  have helements := hmoved.represents
  rw [Fifo.elements_foldl_push] at helements
  exact helements

theorem Refines.reserve {q : Fifo α} (h : p.Refines q) (capacity : ℕ+) :
    (p.reserve capacity).Refines (q.reserve capacity) :=
  Represents.refines (h.represents.reserve capacity) (capacity_reserve h.represents capacity)

/-! ### Runs -/

/-- Assumes: a pool that is a bounded queue. It stays one exactly when no element is stored in a
gap.
-/
theorem Refines.apply_iff {q : Fifo α} (h : p.Refines q) (op : PoolOp α) :
    (p.apply op).Refines (op.onFifo q) ↔ p.Orderly op := by
  cases op with
  | push v => exact h.push_iff v
  | pushMove v => exact h.push_iff v
  | emplace v => exact h.push_iff v
  | pop => exact iff_of_true h.pop trivial
  | reserve capacity => exact iff_of_true (h.reserve capacity) trivial

theorem fifoOf_append (capacity : ℕ+) (ops : List (PoolOp α)) (op : PoolOp α) :
    fifoOf capacity (ops ++ [op]) = op.onFifo (fifoOf capacity ops) := by
  rw [fifoOf, List.foldl_append]
  rfl

/-- Assumes: calls none of which stores an element in a pool with a gap. The pool is a bounded
queue; and it is one after a further call if and only if that one does not either. -/
theorem pool_fifo_iff (capacity : ℕ+) (p : Pool α) (ops : List (PoolOp α))
    (run : Run (pooling capacity) Orderly p ops) :
    p.Refines (fifoOf capacity ops) ∧
    ∀ op, (p.apply op).Refines (fifoOf capacity (ops ++ [op])) ↔ p.Orderly op := by
  have hrefines : p.Refines (fifoOf capacity ops) := by
    refine run.invariant (I := fun p ops ↦ p.Refines (fifoOf capacity ops)) ?_ ?_
    · rintro s rfl
      exact refines_ofCapacity capacity
    · intro s op s' ops observed _ hrefines horderly hstep
      cases hstep
      rw [fifoOf_append]
      exact (hrefines.apply_iff op).mpr horderly
  refine ⟨hrefines, fun op ↦ ?_⟩
  rw [fifoOf_append]
  exact hrefines.apply_iff op

end Pool

namespace Scenario

/-- A pool that is filled, goes round and is emptied. -/
def fillAndEmpty : List (PoolOp ℕ) :=
  [.push 0, .emplace 1, .pushMove 2, .push 3, .pop, .pop, .pop, .push 4]

/-- An element is stored in a pool that was full, and from which one was removed. -/
def storeInGap : List (PoolOp ℕ) := [.push 0, .push 1, .push 2, .pop, .push 3]

end Scenario

namespace Pool

/-- A pool of three elements goes round, is emptied, and holds the next one. -/
theorem pool_fifo_of_emptied :
    ∃ p ops, Run (pooling (α := ℕ) 3) Orderly p ops ∧ p.Refines (fifoOf 3 ops) ∧
      (fifoOf 3 ops).elements = [4] ∧ p.front = some 4 := by
  have hexec : ((pooling (α := ℕ) 3).exec Orderly (ofCapacity 3) [] Scenario.fillAndEmpty).map
      Prod.snd = some Scenario.fillAndEmpty := by
    decide
  obtain ⟨⟨p, ops⟩, hrun, hops⟩ := Option.map_eq_some_iff.mp hexec
  have run : Run (pooling 3) Orderly p ops := (Run.start rfl).of_exec hrun
  obtain ⟨hrefines, -⟩ := pool_fifo_iff 3 p ops run
  have helements : (fifoOf 3 ops).elements = [4] := by
    rw [show ops = Scenario.fillAndEmpty from hops]
    rfl
  refine ⟨p, ops, run, hrefines, helements, ?_⟩
  rw [hrefines.front (by simp [helements]), helements]
  rfl

/-- Two elements are alive in a pool with room for three, and storing another removes one. -/
theorem pool_fifo_gap :
    ¬ ∀ p ops, Run (pooling (α := ℕ) 3) unguarded p ops → p.Refines (fifoOf 3 ops) := by
  intro hall
  have hexec : ((pooling (α := ℕ) 3).exec unguarded (ofCapacity 3) [] Scenario.storeInGap).map
      (fun result ↦ (result.1.size, (fifoOf 3 result.2).elements)) = some (2, [1, 2, 3]) := by
    decide
  obtain ⟨⟨p, ops⟩, hrun, heq⟩ := Option.map_eq_some_iff.mp hexec
  have hsize := (hall p ops ((Run.start rfl).of_exec hrun)).size
  simp only [Prod.mk.injEq] at heq
  rw [heq.1, heq.2] at hsize
  cases hsize

end Pool

end Felicia
