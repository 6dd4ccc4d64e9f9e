import Mathlib.Data.List.Basic
import Mathlib.Data.Nat.Basic

/-!
# Stores into a memory

A memory is a list, and a store writes some values from an address on. After stores that do not
overlap, reading where one of them wrote gives what it wrote (`read_writeAll`). A loop that goes
over a list and advances an address by the same step each time makes the stores of `strided`, those
for the elements at different places apart when each keeps to its own step (`slots_apart`).
-/

set_option autoImplicit false
set_option relaxedAutoImplicit false

namespace Felicia.Support.Memory

variable {α β : Type*} {memory values : List α} {address count : ℕ}

def read (memory : List α) (address count : ℕ) : List α := (memory.drop address).take count

def write (memory : List α) (address : ℕ) (values : List α) : List α :=
  memory.take address ++ values ++ memory.drop (address + values.length)

theorem length_read (h : address + count ≤ memory.length) :
    (read memory address count).length = count := by
  rw [read, List.length_take, List.length_drop]
  omega

theorem read_append (memory : List α) (address count count' : ℕ) :
    read memory address count ++ read memory (address + count) count' =
      read memory address (count + count') := by
  rw [read, read, read, ← List.drop_drop, List.take_add]

theorem length_write (h : address + values.length ≤ memory.length) :
    (write memory address values).length = memory.length := by
  simp only [write, List.length_append, List.length_take, List.length_drop]
  omega

/-- Assumes: room for the first values. Writing some and then more behind them writes them all. -/
theorem write_write_behind {others : List α} (h : address + values.length ≤ memory.length) :
    write (write memory address values) (address + values.length) others =
      write memory address (values ++ others) := by
  have hlength : (memory.take address ++ values).length = address + values.length := by
    simp only [List.length_append, List.length_take]
    omega
  have htake : (write memory address values).take (address + values.length) =
      memory.take address ++ values := by
    rw [write, ← hlength]
    exact List.take_left
  have hdrop : (write memory address values).drop (address + values.length + others.length) =
      memory.drop (address + values.length + others.length) := by
    rw [write, ← hlength, List.drop_length_add_append, List.drop_drop]
  rw [write, htake, hdrop, write]
  simp only [List.append_assoc, List.length_append, Nat.add_assoc]

theorem read_write_self (h : address + values.length ≤ memory.length) :
    read (write memory address values) address values.length = values := by
  have hlength : (memory.take address).length = address := by
    rw [List.length_take]
    omega
  rw [read, write, List.append_assoc, List.drop_left' hlength]
  exact List.take_left

/-- What is read before a place is not changed by what comes after it. -/
theorem read_take {bound : ℕ} (h : address + count ≤ bound) :
    read (memory.take bound) address count = read memory address count := by
  have hcount : count ≤ bound - address := by omega
  rw [read, read, List.drop_take, List.take_take, Nat.min_eq_left hcount]

theorem read_write_of_apart {address' : ℕ} (hinside : address + values.length ≤ memory.length)
    (h : address + values.length ≤ address' ∨ address' + count ≤ address) :
    read (write memory address values) address' count = read memory address' count := by
  have htake : (memory.take address).length = address := by
    rw [List.length_take]
    omega
  obtain hbehind | hbefore := h
  · have hlength : (memory.take address ++ values).length = address + values.length := by
      rw [List.length_append, htake]
    have hdrop : (write memory address values).drop address' = memory.drop address' := by
      rw [write, List.drop_append, hlength, List.drop_eq_nil_of_le (hlength ▸ hbehind),
        List.nil_append, List.drop_drop, Nat.add_sub_cancel' hbehind]
    rw [read, read, hdrop]
  · rw [← read_take hbefore, write, List.append_assoc, List.take_left' htake, read_take hbefore]

/-! ### Stores one after the other -/

/-- Some values, and the address that they are written to. -/
structure Store (α : Type*) where
  address : ℕ
  values : List α

namespace Store

variable (store other : Store α)

/-- Behind the last address that is written. -/
def finish : ℕ := store.address + store.values.length

/-- Both are in different places. -/
def Apart : Prop := store.finish ≤ other.address ∨ other.finish ≤ store.address

end Store

def writeAll (memory : List α) (stores : List (Store α)) : List α :=
  stores.foldl (fun memory store ↦ write memory store.address store.values) memory

variable {stores : List (Store α)} {store : Store α}

theorem length_writeAll (hinside : ∀ other ∈ stores, other.finish ≤ memory.length) :
    (writeAll memory stores).length = memory.length := by
  induction stores generalizing memory with
  | nil => rfl
  | cons first rest ih =>
    have hfirst := length_write (hinside first List.mem_cons_self)
    rw [writeAll, List.foldl_cons, ← hfirst]
    apply ih
    intro other hmem
    rw [hfirst]
    exact hinside other (List.mem_cons_of_mem first hmem)

/-- What a store wrote is still there after a store that is the same one or is apart from it. -/
theorem read_write_of_kept {other : Store α} (hinside : other.finish ≤ memory.length)
    (hother : other = store ∨ other.Apart store)
    (hread : read memory store.address store.values.length = store.values) :
    read (write memory other.address other.values) store.address store.values.length =
      store.values := by
  obtain rfl | hapart := hother
  · exact read_write_self hinside
  · rw [read_write_of_apart hinside hapart, hread]

theorem read_writeAll_of_kept (hinside : ∀ other ∈ stores, other.finish ≤ memory.length)
    (hother : ∀ other ∈ stores, other = store ∨ other.Apart store)
    (hread : read memory store.address store.values.length = store.values) :
    read (writeAll memory stores) store.address store.values.length = store.values := by
  induction stores generalizing memory with
  | nil => exact hread
  | cons first rest ih =>
    have hfirst := hinside first List.mem_cons_self
    have hlength := length_write hfirst
    rw [writeAll, List.foldl_cons]
    apply ih
    · intro other hmem
      rw [hlength]
      exact hinside other (List.mem_cons_of_mem first hmem)
    · exact fun other hmem ↦ hother other (List.mem_cons_of_mem first hmem)
    · exact read_write_of_kept hfirst (hother first List.mem_cons_self) hread

/-- Assumes: stores inside the memory, each of them the same as one store or apart from it. What
that one wrote can be read at the end. -/
theorem read_writeAll (hinside : ∀ other ∈ stores, other.finish ≤ memory.length)
    (hother : ∀ other ∈ stores, other = store ∨ other.Apart store) (hmem : store ∈ stores) :
    read (writeAll memory stores) store.address store.values.length = store.values := by
  induction stores generalizing memory with
  | nil => exact absurd hmem List.not_mem_nil
  | cons first rest ih =>
    have hfirst := hinside first List.mem_cons_self
    have hlength := length_write hfirst
    have hrest : ∀ other ∈ rest,
        other.finish ≤ (write memory first.address first.values).length := by
      intro other hother
      rw [hlength]
      exact hinside other (List.mem_cons_of_mem first hother)
    have hkept : ∀ other ∈ rest, other = store ∨ other.Apart store :=
      fun other hmem ↦ hother other (List.mem_cons_of_mem first hmem)
    rw [writeAll, List.foldl_cons]
    obtain rfl | hlater := List.mem_cons.mp hmem
    · exact read_writeAll_of_kept hrest hkept (read_write_self hfirst)
    · exact ih hrest hkept hlater

/-! ### Loops that advance an address -/

variable {γ : Type*} {step index : ℕ} {body : ℕ → ℕ → β → List γ} {elements : List β} {c : γ}

/-- What a loop over a list makes. `body` gives it for the element at an index, with the address
that the loop has reached. -/
def strided (step : ℕ) (body : ℕ → ℕ → β → List γ) : ℕ → ℕ → List β → List γ
  | _, _, [] => []
  | index, address, element :: rest =>
    body index address element ++ strided step body (index + 1) (address + step) rest

/-- What the loop has reached after the first element, and `i` more. -/
theorem body_succ (body : ℕ → ℕ → β → List γ) (step index address i : ℕ) :
    body (index + 1 + i) (address + step + i * step) =
      body (index + (i + 1)) (address + (i + 1) * step) := by
  have hindex : index + 1 + i = index + (i + 1) := by omega
  have haddress : address + step + i * step = address + (i + 1) * step := by
    rw [Nat.succ_mul]
    omega
  rw [hindex, haddress]

theorem mem_strided : c ∈ strided step body index address elements ↔
    ∃ i element, elements[i]? = some element ∧
      c ∈ body (index + i) (address + i * step) element := by
  induction elements generalizing index address with
  | nil => simp [strided]
  | cons first rest ih =>
    rw [strided, List.mem_append, ih]
    constructor
    · rintro (hfirst | ⟨i, element, helement, hmem⟩)
      · exact ⟨0, first, rfl, by simpa using hfirst⟩
      · rw [body_succ body] at hmem
        exact ⟨i + 1, element, by simpa using helement, hmem⟩
    · rintro ⟨i, element, helement, hmem⟩
      cases i with
      | zero =>
        obtain rfl : first = element := by simpa using helement
        exact .inl (by simpa using hmem)
      | succ i =>
        rw [← body_succ body] at hmem
        exact .inr ⟨i, element, by simpa using helement, hmem⟩

/-- The places of two elements are a step apart. -/
theorem slots_apart (step : ℕ) {i j : ℕ} (h : i ≠ j) :
    i * step + step ≤ j * step ∨ j * step + step ≤ i * step := by
  obtain hlt | hlt := Nat.lt_or_gt_of_ne h
  · exact .inl (Nat.succ_mul i step ▸ Nat.mul_le_mul_right step hlt)
  · exact .inr (Nat.succ_mul j step ▸ Nat.mul_le_mul_right step hlt)

theorem slot_le (step : ℕ) {i count : ℕ} (h : i < count) : i * step + step ≤ count * step :=
  Nat.succ_mul i step ▸ Nat.mul_le_mul_right step h

end Felicia.Support.Memory
