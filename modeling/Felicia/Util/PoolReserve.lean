import Felicia.Support.Loops
import Felicia.Util.PoolIterator

/-!
# Objects in the cells of a pool

`reserve` and `clear` of `felicia/core/lib/containers/pool.h`, with the objects that are
constructed, moved from and destroyed on the way. Constructing an object in a cell that has one, or
destroying one that is not there, or deleting a buffer with objects, counts as a failure. None
happens to a pool that was reached by any calls, and of each object it is known where it ended
(`reserving_of_run`).
-/

set_option autoImplicit false
set_option relaxedAutoImplicit false

namespace Felicia

open Support TransitionSystem

variable {α : Type}

/-! ### Functions -/

/-- The objects of `reserve`, in the order in which something happened to them. -/
structure Ledger (α : Type) where
  /-- The source of a move, in the old buffer. -/
  moved : List α := []
  /-- Destroyed in the old buffer. -/
  destroyed : List α := []
  /-- Constructed in the new buffer. -/
  constructed : List α := []
  /-- Destroyed in the new buffer. -/
  evicted : List α := []

/-- The variables of `reserve`. -/
structure Reserving (α : Type) where
  source : Pool α
  target : Pool α
  ledger : Ledger α := {}

namespace Pool

variable (p : Pool α)

/-- `pop`, with the object that it destroys. -/
def destroyFront : Option (Pool α × List α) :=
  if p.empty then some (p, []) else p.front.map fun v ↦ (p.pop, [v])

/-- `push`, with the object that it destroys. -/
def construct (v : α) : Option (Pool α × List α) :=
  (if p.index.isAliveAfterPushIndex then p.destroyFront else some (p, [])).bind fun popped ↦
    if (popped.1.buffer popped.1.index.pushIndex).isSome then none
    else some (p.push v, popped.2)

/-- No cell of the buffer has an object. -/
def isVacant : Bool := (List.range p.index.capacity).all fun i ↦ (p.buffer i).isNone

def clearRound (s : Pool α × List α) : LoopRound (Pool α × List α) (Pool α × List α) :=
  if s.1.empty then .done s
  else match s.1.destroyFront with
    | none => .failed
    | some popped => .again (popped.1, s.2 ++ popped.2)

/-- `clear`, with the objects that it destroys. -/
def clear (rounds : ℕ) : LoopEnd (Pool α × List α) :=
  (runLoop clearRound rounds (p, [])).bind fun s ↦
    if s.1.isVacant then .finished (cleared, s.2) else .failed

def reserveRound (s : Reserving α) : LoopRound (Reserving α) (Reserving α) :=
  if s.source.empty then .done s
  else match s.source.front with
    | none => .failed
    | some v =>
      match s.target.construct v, s.source.destroyFront with
      | some stored, some popped =>
        .again
          { source := popped.1
            target := stored.1
            ledger :=
              { moved := s.ledger.moved ++ [v]
                destroyed := s.ledger.destroyed ++ popped.2
                constructed := s.ledger.constructed ++ [v]
                evicted := s.ledger.evicted ++ stored.2 } }
      | _, _ => .failed

/-- `reserve`, and what happened to the objects. The temporary pool is destroyed without cells. -/
def reserving (capacity rounds : ℕ) : LoopEnd (Pool α × Ledger α) :=
  (runLoop reserveRound rounds { source := p, target := ofCapacity capacity }).bind fun s ↦
    if s.source.isVacant then
      (cleared.clear rounds).bind fun left ↦
        .finished (s.target, { s.ledger with evicted := s.ledger.evicted ++ left.2 })
    else .failed

end Pool

/-- A call of a pool that may be without cells. -/
inductive PoolCall (α : Type)
  | call (op : PoolOp α)
  | clear

/-- A pool from either of its constructors on. `push` and `pop` check that there are cells. -/
def poolLife : TransitionSystem (Pool α) (PoolCall α) (PoolCall α) where
  Initial p := p = Pool.cleared ∨ ∃ capacity : ℕ+, p = Pool.ofCapacity capacity
  step p
    | .clear => some (Pool.cleared, [.clear])
    | .call (.reserve capacity) => some (p.reserve capacity, [.call (.reserve capacity)])
    | .call op => if p.index.capacity = 0 then none else some (p.apply op, [.call op])

/-! ### Objects -/

/-- Each object of a pool was moved and destroyed once, and of each that was constructed from these,
one after the other, it is known whether it was destroyed or kept. -/
structure Ledger.Balances (ledger : Ledger α) (l kept : List α) : Prop where
  moved : ledger.moved = l
  destroyed : ledger.destroyed = l
  constructed : ledger.constructed = l
  evicted : ledger.evicted ++ kept = l

namespace Pool

variable {p : Pool α} {l rest : List α} {v : α}

/-- The objects that a pool holds, and whether or not it has cells. -/
def Holds (p : Pool α) (l : List α) : Prop := p.Represents l ∨ p = cleared ∧ l = []

theorem Represents.destroyFront_eq (h : p.Represents (v :: rest)) :
    p.destroyFront = some (p.pop, [v]) := by
  rw [destroyFront, if_neg (by simp [h.empty_eq]), h.front_eq]
  rfl

/-- Assumes: room for another element. Its cell has no object. -/
theorem Represents.buffer_pushIndex (h : p.Represents l)
    (hroom : p.index.size < p.index.capacity) : p.buffer p.index.pushIndex = none := by
  rw [← PoolIndex.slot_size h.ordered hroom, h.size]
  rw [h.size] at hroom
  refine h.dead _ fun k hk heq ↦ ?_
  have := PoolIndex.slot_injective h.ordered h.positive hroom (hk.trans hroom) heq
  omega

/-- What a pool destroys to store an object, and what it keeps. -/
theorem Represents.construct_eq (h : p.Represents l) (v : α) :
    ∃ evicted kept, evicted ++ kept = l ∧ p.construct v = some (p.push v, evicted) ∧
      (p.push v).Represents (kept ++ [v]) := by
  have hpushed := h.push v
  by_cases hflag : p.index.isAliveAfterPushIndex = true
  · have hsize := PoolIndex.size_pos_of_flag h.ordered h.positive hflag
    have hlength := h.length_le
    cases l with
    | nil => simp [h.size] at hsize
    | cons first rest =>
      rw [if_pos hflag, List.tail_cons] at hpushed
      have hpopped : p.pop.Represents rest := h.pop
      have hfree := hpopped.buffer_pushIndex (by
        rw [hpopped.size, capacity_pop]
        exact hlength)
      refine ⟨[first], rest, rfl, ?_, hpushed⟩
      rw [construct, if_pos hflag, h.destroyFront_eq, Option.bind_some, hfree]
      rfl
  · have hfree := h.buffer_pushIndex
      (PoolIndex.size_lt_of_not_flag h.ordered h.positive (Bool.eq_false_of_not_eq_true hflag))
    rw [if_neg hflag] at hpushed
    refine ⟨[], l, rfl, ?_, hpushed⟩
    rw [construct, if_neg hflag, Option.bind_some, hfree]
    rfl

theorem Represents.isVacant (h : p.Represents []) : p.isVacant = true := by
  rw [Pool.isVacant, List.all_eq_true]
  intro i _
  rw [h.dead i nofun]
  rfl

/-! ### Clearing -/

/-- A pool destroys its objects one after the other, and then has no cells. -/
theorem Represents.clear_eq (h : p.Represents l) {rounds : ℕ} (hrounds : p.size < rounds) :
    p.clear rounds = .finished (cleared, l) := by
  have hmeets : (runLoop clearRound rounds (p, [])).Meets False
      fun s ↦ s.1.Represents [] ∧ s.2 = l := by
    refine runLoop_meets (P := fun s ↦ ∃ rest, s.1.Represents rest ∧ s.2 ++ rest = l)
      (fun s ↦ s.1.size) ?_ ⟨l, h, rfl⟩ hrounds
    rintro ⟨p, destroyed⟩ ⟨rest, hrest, hbalance⟩
    unfold clearRound
    cases rest with
    | nil =>
      rw [if_pos (by simp [hrest.empty_eq])]
      exact ⟨hrest, by simpa using hbalance⟩
    | cons v rest =>
      have hpopped : p.pop.Represents rest := hrest.pop
      rw [if_neg (by simp [hrest.empty_eq]), hrest.destroyFront_eq]
      refine ⟨⟨rest, hpopped, by simpa using hbalance⟩, ?_⟩
      show p.pop.size < p.size
      rw [Pool.size, Pool.size, hpopped.size, hrest.size]
      exact Nat.lt_succ_self _
  obtain ⟨⟨emptied, destroyed⟩, hrun, hempty, rfl⟩ := hmeets.finished
  rw [clear, hrun, LoopEnd.bind_finished, if_pos hempty.isVacant]

/-- A pool without cells has nothing to destroy. -/
theorem clear_cleared {rounds : ℕ} (hrounds : 0 < rounds) :
    (cleared : Pool α).clear rounds = .finished (cleared, []) := by
  obtain ⟨rounds, rfl⟩ := Nat.exists_eq_add_one.mpr hrounds
  rfl

/-! ### Reserving -/

/-- What holds in every round: the objects are in the old pool, or were moved to the new one. -/
structure Moving (p : Pool α) (l : List α) (capacity : ℕ) (s : Reserving α)
    (rest alive : List α) : Prop where
  source : s.source.Represents rest
  target : s.target.Represents alive
  moved : s.ledger.moved ++ rest = l
  balances : s.ledger.Balances s.ledger.moved alive
  moveInto : moveInto rest.length s.source s.target = p.reserve capacity

theorem Moving.again {capacity : ℕ} {s : Reserving α} {alive : List α}
    (h : Moving p l capacity s (v :: rest) alive) :
    (reserveRound s).Meets False
      (fun next ↦ (∃ alive, Moving p l capacity next rest alive) ∧
        next.source.size < s.source.size) fun _ ↦ False := by
  obtain ⟨evicted, kept, hkept, hconstruct, hpushed⟩ := h.target.construct_eq v
  have hpopped : s.source.pop.Represents rest := h.source.pop
  have hbalances := h.balances
  rw [reserveRound, if_neg (by simp [h.source.empty_eq]), h.source.front_eq]
  simp only [hconstruct, h.source.destroyFront_eq]
  refine ⟨⟨kept ++ [v], hpopped, hpushed, by simpa using h.moved,
    ⟨rfl, ?_, ?_, ?_⟩, ?_⟩, ?_⟩
  · exact congrArg (· ++ [v]) hbalances.destroyed
  · exact congrArg (· ++ [v]) hbalances.constructed
  · rw [List.append_assoc, ← List.append_assoc evicted, hkept, ← List.append_assoc,
      hbalances.evicted]
  · rw [← h.moveInto, List.length_cons, Pool.moveInto, h.source.front?_eq]
  · show s.source.pop.size < s.source.size
    rw [Pool.size, Pool.size, hpopped.size, h.source.size]
    exact Nat.lt_succ_self _

/-- The new pool is the one of `reserve`, and no object is left behind. -/
theorem Represents.reserving_eq (h : p.Represents l) (capacity : ℕ+) {rounds : ℕ}
    (hrounds : p.size < rounds) :
    ∃ ledger, p.reserving capacity rounds = .finished (p.reserve capacity, ledger) ∧
      ledger.Balances l (l.drop (l.length - capacity)) := by
  have hmeets : (runLoop reserveRound rounds
      { source := p, target := ofCapacity capacity }).Meets False
      fun s ↦ ∃ alive, Moving p l capacity s [] alive := by
    refine runLoop_meets (P := fun s ↦ ∃ rest alive, Moving p l capacity s rest alive)
      (fun s ↦ s.source.size) ?_ ⟨l, [], ?_⟩ hrounds
    · rintro s ⟨rest, alive, hmoving⟩
      cases rest with
      | nil =>
        rw [reserveRound, if_pos (by simp [hmoving.source.empty_eq])]
        exact ⟨alive, hmoving⟩
      | cons v rest => exact hmoving.again.mono (fun _ hnext ↦ ⟨⟨rest, hnext.1⟩, hnext.2⟩) nofun
    · refine ⟨h, represents_ofCapacity capacity.pos, rfl, ⟨rfl, rfl, rfl, rfl⟩, ?_⟩
      rw [← h.size]
      rfl
  obtain ⟨s, hrun, alive, hmoving⟩ := hmeets.finished
  have htarget : s.target = p.reserve capacity := hmoving.moveInto
  have hkept : alive = l.drop (l.length - capacity) := by
    rw [← hmoving.target.contents_eq, htarget]
    exact (h.reserve capacity).contents_eq
  have hmoved : s.ledger.moved = l := by simpa using hmoving.moved
  refine ⟨{ s.ledger with evicted := s.ledger.evicted ++ [] }, ?_, ?_⟩
  · rw [reserving, hrun, LoopEnd.bind_finished, if_pos hmoving.source.isVacant,
      clear_cleared (Nat.zero_lt_of_lt hrounds), LoopEnd.bind_finished, htarget]
  · have hbalances := hmoving.balances
    rw [hmoved, hkept] at hbalances
    exact ⟨hmoved, hbalances.destroyed, hbalances.constructed, by simpa using hbalances.evicted⟩

/-- A pool without cells takes those of the temporary one. -/
theorem reserving_cleared (capacity : ℕ) {rounds : ℕ} (hrounds : 0 < rounds) :
    (cleared : Pool α).reserving capacity rounds = .finished (ofCapacity capacity, {}) := by
  obtain ⟨rounds, rfl⟩ := Nat.exists_eq_add_one.mpr hrounds
  rfl

/-! ### Runs -/

theorem Holds.step {p' : Pool α} {c : PoolCall α} {observed : List (PoolCall α)} (h : p.Holds l)
    (hstep : poolLife.step p c = some (p', observed)) : ∃ l', p'.Holds l' := by
  cases c with
  | clear =>
    cases hstep
    exact ⟨[], .inr ⟨rfl, rfl⟩⟩
  | call op =>
    obtain hrepresents | ⟨rfl, rfl⟩ := h
    · have hcapacity : p.index.capacity ≠ 0 := hrepresents.positive.ne'
      cases op with
      | push v | pushMove v | emplace v =>
        simp only [poolLife, if_neg hcapacity] at hstep
        cases hstep
        exact ⟨_, .inl (hrepresents.push v)⟩
      | pop =>
        simp only [poolLife, if_neg hcapacity] at hstep
        cases hstep
        exact ⟨_, .inl hrepresents.pop⟩
      | reserve capacity =>
        cases hstep
        exact ⟨_, .inl (hrepresents.reserve capacity)⟩
    · cases op with
      | push | pushMove | emplace | pop => cases hstep
      | reserve capacity =>
        cases hstep
        exact ⟨[], .inl (represents_ofCapacity capacity.pos)⟩

/-- In every run of a pool, also of one that was without cells, `reserve` ends with the capacity
that is asked for and the newest elements that there is room for, in the same order. No object is
constructed over another one, or destroyed where there is none, or left in the old buffer: each of
the old ones is moved and destroyed once, and the new ones are destroyed once or kept. -/
theorem reserving_of_run {history : List (PoolCall α)} (run : Run poolLife unguarded p history) :
    ∃ l, p.Holds l ∧ ∀ (capacity : ℕ+) (rounds : ℕ), p.size < rounds →
      ∃ ledger, p.reserving capacity rounds = .finished (p.reserve capacity, ledger) ∧
        (p.reserve capacity).index.capacity = capacity ∧
        (p.reserve capacity).Represents (l.drop (l.length - capacity)) ∧
        ledger.Balances l (l.drop (l.length - capacity)) := by
  have hholds : ∃ l, p.Holds l := by
    refine run.invariant (I := fun p _ ↦ ∃ l, p.Holds l) ?_ ?_
    · rintro s (rfl | ⟨capacity, rfl⟩)
      · exact ⟨[], .inr ⟨rfl, rfl⟩⟩
      · exact ⟨[], .inl (represents_ofCapacity capacity.pos)⟩
    · rintro s c s' history observed _ ⟨l, hl⟩ _ hstep
      exact hl.step hstep
  obtain ⟨l, hl⟩ := hholds
  refine ⟨l, hl, fun capacity rounds hrounds ↦ ?_⟩
  obtain hrepresents | ⟨rfl, rfl⟩ := hl
  · obtain ⟨ledger, hreserving, hbalances⟩ := hrepresents.reserving_eq capacity hrounds
    exact ⟨ledger, hreserving, capacity_reserve hrepresents capacity,
      hrepresents.reserve capacity, hbalances⟩
  · rw [List.drop_nil]
    exact ⟨{}, reserving_cleared capacity (Nat.zero_lt_of_lt hrounds), rfl,
      represents_ofCapacity capacity.pos, rfl, rfl, rfl, rfl⟩

end Pool

namespace Scenario

/-- A pool of three elements goes round, and one of the elements is popped. -/
def goAround : List (PoolCall ℕ) :=
  [.call (.push 0), .call (.push 1), .call (.push 2), .call (.push 3), .call .pop]

end Scenario

namespace Pool

/-- The two elements of a pool are moved to one for a single element, where the second destroys the
first. -/
theorem reserving_of_goAround :
    ∃ (p : Pool ℕ) (ledger : Ledger ℕ), p.size = 2 ∧
      p.reserving 1 3 = .finished (p.reserve 1, ledger) ∧ (p.reserve 1).index.capacity = 1 := by
  have hexec : (poolLife.exec unguarded (ofCapacity 3) [] Scenario.goAround).map
      (fun result ↦ result.1.size) = some 2 := by
    decide
  obtain ⟨⟨p, history⟩, hrun, hsize⟩ := Option.map_eq_some_iff.mp hexec
  have run := (Run.start (T := poolLife) (.inr ⟨3, rfl⟩)).of_exec hrun
  obtain ⟨l, -, hreserve⟩ := reserving_of_run run
  have hrounds : p.size < 3 := by
    rw [show p.size = 2 from hsize]
    decide
  obtain ⟨ledger, hreserving, hcapacity, -, -⟩ := hreserve 1 3 hrounds
  exact ⟨p, ledger, hsize, hreserving, hcapacity⟩

end Pool

end Felicia
