import Mathlib.Data.List.Basic
import Mathlib.Data.PNat.Basic

/-!
# Bounded queues

A queue with room for a fixed number of elements, the oldest first. Storing an element in a full
queue removes the oldest one. The bound is a field, so a queue with too many elements cannot be
built.

`elements_foldl_push` says what a queue holds after any number of elements were stored: the last of
them that it has room for.
-/

set_option autoImplicit false
set_option relaxedAutoImplicit false

namespace Felicia.Support

/-- A bounded queue, the oldest element first. -/
@[ext] structure Fifo (α : Type*) where
  capacity : ℕ+
  elements : List α
  length_le : elements.length ≤ capacity

namespace Fifo

variable {α : Type*} (q : Fifo α)

/-- A queue without elements. -/
def empty (capacity : ℕ+) : Fifo α := ⟨capacity, [], Nat.zero_le _⟩

/-- There is no room for another element. -/
def IsFull : Prop := q.elements.length = q.capacity

instance : Decidable q.IsFull := inferInstanceAs (Decidable (_ = _))

/-- The elements that stay when another one is stored. -/
def kept : List α := if q.IsFull then q.elements.tail else q.elements

theorem length_kept_lt : q.kept.length < q.capacity := by
  have hpos := q.capacity.pos
  have hle := q.length_le
  unfold kept
  split_ifs with hfull
  · rw [List.length_tail]
    omega
  · exact lt_of_le_of_ne hle hfull

/-- Store an element. -/
def push (v : α) : Fifo α :=
  ⟨q.capacity, q.kept ++ [v], by
    rw [List.length_append]
    exact q.length_kept_lt⟩

/-- Remove the oldest element, if there is one. -/
def pop : Fifo α :=
  ⟨q.capacity, q.elements.tail, (List.tail_sublist _).length_le.trans q.length_le⟩

/-- The newest elements that there is room for. -/
def reserve (capacity : ℕ+) : Fifo α :=
  ⟨capacity, q.elements.drop (q.elements.length - capacity), by rw [List.length_drop]; omega⟩

variable {q}

theorem elements_push_of_not_isFull (h : ¬ q.IsFull) (v : α) :
    (q.push v).elements = q.elements ++ [v] := by
  show q.kept ++ [v] = _
  rw [kept, if_neg h]

theorem elements_push_of_isFull (h : q.IsFull) (v : α) :
    (q.push v).elements = q.elements.tail ++ [v] := by
  show q.kept ++ [v] = _
  rw [kept, if_pos h]

/-- Elements are stored one after the other, and the newest that there is room for stay. -/
theorem elements_foldl_push (q : Fifo α) (vs : List α) :
    (vs.foldl push q).elements =
      (q.elements ++ vs).drop ((q.elements ++ vs).length - q.capacity) := by
  induction vs generalizing q with
  | nil => simp [Nat.sub_eq_zero_of_le q.length_le]
  | cons v vs ih =>
    have hle := q.length_le
    rw [List.foldl_cons, ih]
    have hcapacity : (q.push v).capacity = q.capacity := rfl
    rw [hcapacity]
    by_cases hfull : q.IsFull
    · rw [elements_push_of_isFull hfull]
      unfold IsFull at hfull
      cases helements : q.elements with
      | nil =>
        have hpos := q.capacity.pos
        rw [helements, List.length_nil] at hfull
        omega
      | cons first rest =>
        rw [helements, List.length_cons] at hfull
        simp only [List.tail_cons, List.append_assoc, List.cons_append, List.nil_append,
          List.length_append, List.length_cons]
        have hdrop : rest.length + (vs.length + 1) + 1 - (q.capacity : ℕ) =
            rest.length + (vs.length + 1) - (q.capacity : ℕ) + 1 := by omega
        rw [hdrop, List.drop_succ_cons]
    · rw [elements_push_of_not_isFull hfull, List.append_assoc, List.singleton_append]

theorem capacity_foldl_push (q : Fifo α) (vs : List α) :
    (vs.foldl push q).capacity = q.capacity := by
  induction vs generalizing q with
  | nil => rfl
  | cons v vs ih => exact ih _

end Fifo

end Felicia.Support
