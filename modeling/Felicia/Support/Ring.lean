import Mathlib.Data.List.Rotate
import Felicia.Support.Memory

/-!
# Rings

A ring is a memory that is read on from its beginning where it ends. Some cells of it from a place
on are a window, which grows at its end when values are written behind it, as far as there is room
(`window_write`), and shrinks at its beginning (`drop_window`).
-/

set_option autoImplicit false
set_option relaxedAutoImplicit false

namespace Felicia.Support.Ring

open Memory

variable {α : Type*} {cells values : List α} {head count size : ℕ}

/-- Some cells of a ring. -/
def window (cells : List α) (head count : ℕ) : List α := (cells.rotate head).take count

@[simp] theorem window_zero (cells : List α) (head : ℕ) : window cells head 0 = [] := List.take_zero

theorem length_window (h : count ≤ cells.length) : (window cells head count).length = count := by
  rw [window, List.length_take, List.length_rotate, Nat.min_eq_left h]

theorem take_window (h : size ≤ count) : (window cells head count).take size = window cells head size := by
  rw [window, List.take_take, Nat.min_eq_left h, window]

/-- A window whose beginning is given away. -/
theorem drop_window (hsize : size ≤ count) (hcount : count ≤ cells.length) :
    (window cells head count).drop size =
      window cells ((head + size) % cells.length) (count - size) := by
  have hle : size ≤ (cells.rotate head).length := by
    rw [List.length_rotate]
    omega
  rw [window, window, List.rotate_mod, ← List.rotate_rotate, List.rotate_eq_drop_append_take hle,
    List.drop_take, List.take_append_of_le_length (by rw [List.length_drop, List.length_rotate]; omega)]

/-- A window that does not go beyond the end. -/
theorem window_eq_read (h : head + count ≤ cells.length) :
    window cells head count = read cells head count := by
  rw [window, List.rotate_eq_drop_append_take (by omega), Memory.read,
    List.take_append_of_le_length (by rw [List.length_drop]; omega)]

/-- A window that goes beyond the end. -/
theorem window_eq_read_append (hhead : head ≤ cells.length) (h : cells.length ≤ head + count)
    (hcount : count ≤ cells.length) :
    window cells head count =
      read cells head (cells.length - head) ++ read cells 0 (head + count - cells.length) := by
  have hfirst : (cells.drop head).length = cells.length - head := List.length_drop
  rw [window, List.rotate_eq_drop_append_take hhead, List.take_append,
    List.take_of_length_le (by omega), hfirst, Memory.read, Memory.read, List.drop_zero,
    List.take_take, ← hfirst, List.take_length]
  congr 2
  omega

/-- Assumes: room behind a window, up to the end of the memory or to where the window begins. What is
written there makes the window longer. -/
theorem window_write (hhead : head < cells.length) (hroom : count + values.length ≤ cells.length)
    (htail : (head + count) % cells.length + values.length ≤ cells.length) :
    window (write cells ((head + count) % cells.length) values) head (count + values.length) =
      window cells head count ++ values := by
  have hlength : (write cells ((head + count) % cells.length) values).length = cells.length :=
    length_write htail
  by_cases hwraps : head + count < cells.length
  · rw [Nat.mod_eq_of_lt hwraps] at htail hlength ⊢
    rw [window_eq_read (by omega), window_eq_read (by omega), ← read_append,
      read_write_of_apart htail (.inr (by omega)), read_write_self htail]
  · have htail_eq : (head + count) % cells.length = head + count - cells.length := by
      rw [Nat.mod_eq_sub_mod (by omega), Nat.mod_eq_of_lt (by omega)]
    rw [htail_eq] at htail hlength ⊢
    have hend : head + (count + values.length) - cells.length =
        head + count - cells.length + values.length := by omega
    rw [window_eq_read_append (by omega) (by omega) (by omega),
      window_eq_read_append (by omega) (by omega) (by omega), hlength, hend, ← read_append,
      read_write_of_apart htail (.inl (by omega)), read_write_of_apart htail (.inr (by omega)),
      Nat.zero_add, read_write_self htail, List.append_assoc]

end Felicia.Support.Ring
