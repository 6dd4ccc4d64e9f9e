import Mathlib.Data.List.Basic
import Mathlib.Data.Nat.Basic

/-!
# Lists cut into pieces of one length

What is left behind the last whole piece is not part of any. Cutting the concatenation of lists of
one length gives them back (`pieces_flatten`), and the pieces of a list whose length is a multiple
of theirs are all of it (`flatten_pieces`).
-/

set_option autoImplicit false
set_option relaxedAutoImplicit false

namespace Felicia.Support

variable {α : Type*} {size : ℕ} {as rest : List α} {parts : List (List α)}

/-- The whole pieces of a list. -/
def pieces (size : ℕ) (as : List α) : List (List α) :=
  (List.range (as.length / size)).map fun i ↦ (as.drop (i * size)).take size

@[simp] theorem length_pieces : (pieces size as).length = as.length / size := by
  rw [pieces, List.length_map, List.length_range]

@[simp] theorem pieces_nil : pieces size ([] : List α) = [] := by
  simp [pieces]

theorem pieces_append {piece : List α} (hpos : 0 < size) (hpiece : piece.length = size) :
    pieces size (piece ++ rest) = piece :: pieces size rest := by
  have hcount : (piece ++ rest).length / size = rest.length / size + 1 := by
    rw [List.length_append, hpiece, Nat.add_div_left _ hpos]
  rw [pieces, hcount, List.range_succ_eq_map, List.map_cons, List.map_map, pieces]
  congr 1
  · rw [Nat.zero_mul, List.drop_zero, List.take_left' hpiece]
  · refine List.map_congr_left fun i _ ↦ ?_
    have hdrop : (piece ++ rest).drop ((i + 1) * size) = rest.drop (i * size) := by
      rw [Nat.succ_mul, Nat.add_comm, ← List.drop_drop, List.drop_left' hpiece]
    rw [Function.comp_apply, Nat.succ_eq_add_one, hdrop]

theorem length_flatten_of_length (h : ∀ part ∈ parts, part.length = size) :
    parts.flatten.length = parts.length * size := by
  induction parts with
  | nil => simp
  | cons part others ih =>
    have hrest := ih fun other hmem ↦ h other (List.mem_cons_of_mem part hmem)
    rw [List.flatten_cons, List.length_append, h part List.mem_cons_self, hrest, List.length_cons,
      Nat.succ_mul, Nat.add_comm]

/-- Assumes: parts of one length. -/
theorem pieces_flatten (hpos : 0 < size) (h : ∀ part ∈ parts, part.length = size) :
    pieces size parts.flatten = parts := by
  induction parts with
  | nil => simp
  | cons part others ih =>
    rw [List.flatten_cons, pieces_append hpos (h part List.mem_cons_self),
      ih fun other hmem ↦ h other (List.mem_cons_of_mem part hmem)]

/-- Assumes: parts of one length. -/
theorem take_flatten (h : ∀ part ∈ parts, part.length = size) (count : ℕ) :
    parts.flatten.take (count * size) = (parts.take count).flatten := by
  induction parts generalizing count with
  | nil => simp
  | cons part others ih =>
    have hpart := h part List.mem_cons_self
    have hothers := ih fun other hmem ↦ h other (List.mem_cons_of_mem part hmem)
    cases count with
    | zero => simp
    | succ count =>
      have hsplit : (count + 1) * size = part.length + count * size := by
        rw [hpart, Nat.succ_mul, Nat.add_comm]
      rw [List.flatten_cons, List.take_succ_cons, List.flatten_cons, hsplit,
        List.take_length_add_append, hothers]

/-- Assumes: parts of one length. -/
theorem drop_flatten (h : ∀ part ∈ parts, part.length = size) (count : ℕ) :
    parts.flatten.drop (count * size) = (parts.drop count).flatten := by
  have hsplit : (parts.take count).flatten ++ parts.flatten.drop (count * size) =
      (parts.take count).flatten ++ (parts.drop count).flatten := by
    rw [← List.flatten_append, List.take_append_drop, ← take_flatten h count,
      List.take_append_drop]
  exact List.append_cancel_left hsplit

/-- A list of several whole pieces begins with one. -/
theorem exists_piece {count : ℕ} (h : as.length = (count + 1) * size) :
    (as.take size).length = size ∧ (as.drop size).length = count * size := by
  have hlength : as.length = count * size + size := h.trans (Nat.succ_mul count size)
  rw [List.length_take, List.length_drop, hlength]
  omega

/-- Assumes: a list of whole pieces. -/
theorem flatten_pieces {count : ℕ} (hpos : 0 < size) (h : as.length = count * size) :
    (pieces size as).flatten = as := by
  induction count generalizing as with
  | zero =>
    rw [List.eq_nil_of_length_eq_zero (h.trans (Nat.zero_mul size)), pieces_nil, List.flatten_nil]
  | succ count ih =>
    obtain ⟨hfirst, hothers⟩ := exists_piece h
    calc (pieces size as).flatten
        = (pieces size (as.take size ++ as.drop size)).flatten := by rw [List.take_append_drop]
      _ = as.take size ++ (pieces size (as.drop size)).flatten := by
        rw [pieces_append hpos hfirst, List.flatten_cons]
      _ = as := by rw [ih hothers, List.take_append_drop]

theorem length_of_mem_pieces (h : as ∈ pieces size rest) : as.length = size := by
  rw [pieces, List.mem_map] at h
  obtain ⟨i, hi, rfl⟩ := h
  have hmul : (i + 1) * size ≤ rest.length / size * size :=
    Nat.mul_le_mul_right size (List.mem_range.mp hi)
  have hle := Nat.div_mul_le_self rest.length size
  rw [Nat.succ_mul] at hmul
  rw [List.length_take, List.length_drop]
  omega

end Felicia.Support
