import Felicia.Containers.Data
import Felicia.Support.Transition
import Mathlib.Data.Int.Cast.Basic
import Mathlib.Data.Vector.Basic

/-!
# Views of typed bytes

`Data::View<T>` and `Data::ConstView<T>` of `felicia/core/lib/containers/data.h`, which are to a
string of bytes what a vector of elements is. Numbers of elements are turned into numbers of bytes
by a multiplication in `size_t`, which wraps. As long as it does not, and what is given as a value
is still there when it is read, every call does to the list of elements what its name says
(`denotes_iff_fits`).
-/

set_option autoImplicit false
set_option relaxedAutoImplicit false

namespace Felicia.Containers.DataView

open Support TransitionSystem

/-- Why a call does not return. -/
inductive Failure
  /-- `std::length_error`: no string can be as long. -/
  | lengthError
  /-- `std::out_of_range`. -/
  | outOfRange
  /-- A `CHECK` of an iterator. -/
  | check
  /-- What is read or written is not in the string, which is undefined. -/
  | overrun
  /-- What is read is where the string was, which is undefined. -/
  | dangling
  deriving DecidableEq

/-- An element type, which is the number of bytes of its values, and the largest size of a string.
-/
structure ViewType where
  sizeOf : ℕ
  /-- `std::string::max_size`. -/
  maxSize : ℕ
  sizeOf_pos : 0 < sizeOf
  sizeOf_lt : sizeOf < 2 ^ 63
  maxSize_lt : maxSize < 2 ^ 63

/-- A value. -/
abbrev Element (sizeOf : ℕ) := List.Vector UInt8 sizeOf

/-! ### Machine integers -/

/-- A `size_t`. -/
def sizeT (n : ℕ) : ℕ := n % 2 ^ 64

/-- A `size_t` as a `ptrdiff_t`. -/
def ptrdiffT (n : ℕ) : ℤ := Int.bmod (n : ℤ) (2 ^ 64)

/-- `diff * sizeof(T)`. -/
def byteOffset (diff : ℤ) (sizeOf : ℕ) : ℕ := sizeT (diff * sizeOf % 2 ^ 64).toNat

@[simp] theorem sizeT_of_lt {n : ℕ} (h : n < 2 ^ 64) : sizeT n = n := Nat.mod_eq_of_lt h

theorem sizeT_lt (n : ℕ) : sizeT n < 2 ^ 64 := Nat.mod_lt n (by decide)

theorem sizeT_le (n : ℕ) : sizeT n ≤ n := Nat.mod_le n _

theorem ptrdiffT_of_lt {n : ℕ} (h : n < 2 ^ 63) : ptrdiffT n = n := by
  unfold ptrdiffT
  rw [Int.bmod_def]
  omega

theorem ptrdiffT_neg_of_le {n : ℕ} (hle : 2 ^ 63 ≤ n) (hlt : n < 2 ^ 64) : ptrdiffT n < 0 := by
  unfold ptrdiffT
  rw [Int.bmod_def]
  omega

/-- An index behind a bound is no difference up to the bound. -/
theorem ptrdiffT_outside {bound n : ℕ} (hbound : bound < n) (hlt : n < 2 ^ 64) :
    ptrdiffT n < 0 ∨ (bound : ℤ) < ptrdiffT n := by
  by_cases hsmall : n < 2 ^ 63
  · rw [ptrdiffT_of_lt hsmall]
    omega
  · exact Or.inl (ptrdiffT_neg_of_le (not_lt.mp hsmall) hlt)

theorem byteOffset_of_lt {slot sizeOf : ℕ} (h : slot * sizeOf < 2 ^ 64) :
    byteOffset slot sizeOf = slot * sizeOf := by
  have hcast : (slot : ℤ) * sizeOf = (slot * sizeOf : ℕ) := (Int.natCast_mul slot sizeOf).symm
  rw [byteOffset, hcast, sizeT]
  omega

/-! ### Strings -/

/-- `std::string::resize`. -/
def resizeString (maxSize : ℕ) (bytes : List UInt8) (n : ℕ) : Except Failure (List UInt8) :=
  if maxSize < n then .error .lengthError
  else .ok (bytes.take n ++ List.replicate (n - bytes.length) 0)

/-- `std::string::insert`, of zeros. -/
def insertString (maxSize : ℕ) (bytes : List UInt8) (position n : ℕ) :
    Except Failure (List UInt8) :=
  if bytes.length < position then .error .outOfRange
  else if maxSize < bytes.length + n then .error .lengthError
  else .ok (bytes.take position ++ List.replicate n 0 ++ bytes.drop position)

/-- `std::string::erase`. -/
def eraseString (bytes : List UInt8) (position n : ℕ) : Except Failure (List UInt8) :=
  if bytes.length < position then .error .outOfRange
  else .ok (bytes.take position ++ bytes.drop (position + n))

/-! ### Checked iterators -/

/-- `base::CheckedRandomAccessIterator`, in elements from `data()` on. -/
structure CheckedIterator where
  start : ℕ
  current : ℕ
  stop : ℕ
  deriving DecidableEq

namespace CheckedIterator

variable (it other : CheckedIterator)

def make (start current stop : ℕ) : Except Failure CheckedIterator :=
  if start ≤ current ∧ current ≤ stop then .ok ⟨start, current, stop⟩ else .error .check

/-- `operator+`. -/
def advance (rhs : ℤ) : Except Failure CheckedIterator :=
  if 0 < rhs then
    if rhs ≤ (it.stop : ℤ) - it.current then .ok { it with current := (it.current + rhs).toNat }
    else .error .check
  else if -rhs ≤ (it.current : ℤ) - it.start then
    .ok { it with current := (it.current + rhs).toNat }
  else .error .check

/-- `operator-` of two iterators. -/
def difference : Except Failure ℤ :=
  if it.start = other.start ∧ it.stop = other.stop then .ok ((it.current : ℤ) - other.current)
  else .error .check

/-- `operator*`. -/
def dereference : Except Failure ℕ :=
  if it.current ≠ it.stop then .ok it.current else .error .check

end CheckedIterator

/-! ### Views -/

variable (sizeOf : ℕ) (data : Data)

/-- `View<T>::size`. -/
def viewSize : ℕ := data.size / sizeOf

def makeIterator (current : ℕ) : Except Failure CheckedIterator :=
  CheckedIterator.make 0 current (viewSize sizeOf data)

/-- `View<T>::begin`. -/
def viewBegin : Except Failure CheckedIterator := makeIterator sizeOf data 0

/-- What is at an address. -/
def load (address : ℕ) : Except Failure (List UInt8) :=
  if address + sizeOf ≤ data.size then .ok (Memory.read data.bytes address sizeOf)
  else .error .overrun

/-- `View<T>::operator[]`. -/
def getElement (idx : ℕ) : Except Failure (List UInt8) := do
  let first ← viewBegin sizeOf data
  let it ← first.advance (ptrdiffT idx)
  let slot ← it.dereference
  load sizeOf data (slot * sizeOf)

/-- `View<T>::at`. -/
def getElementAt (idx : ℕ) : Except Failure (List UInt8) :=
  if viewSize sizeOf data ≤ idx then .error .outOfRange else getElement sizeOf data idx

/-! ### Values -/

/-- What is given for a `const T&`. -/
inductive Argument (sizeOf : ℕ)
  | value (x : Element sizeOf)
  /-- An element of the view itself. The string may have moved its bytes when it is read. -/
  | element (index : ℕ) (moved : Bool)

def Argument.read {sizeOf : ℕ} (argument : Argument sizeOf) (data : Data) :
    Except Failure (List UInt8) :=
  match argument with
  | .value x => .ok x.toList
  | .element index moved =>
    if moved then .error .dangling else load sizeOf data (index * sizeOf)

/-! ### Calls -/

variable (T : ViewType)

/-- The placement `new` of the overloads, and the assignment to an element. -/
def construct (address : ℕ) (argument : Argument sizeOf) : Except Failure Data := do
  let values ← argument.read data
  if address + sizeOf ≤ data.size then
    return { data with bytes := Memory.write data.bytes address values }
  else throw .overrun

/-- The loop of `insert`. -/
def constructAll (data : Data) (slot : ℕ) (argument : Argument sizeOf) : ℕ → Except Failure Data
  | 0 => return data
  | n + 1 => do
    let next ← construct sizeOf data (slot * sizeOf) argument
    constructAll next (slot + 1) argument n

/-- `AddOneElementToBack`, with the address that it returns. -/
def addOneElementToBack : Except Failure (Data × ℕ) := do
  let bytes ← resizeString T.maxSize data.bytes (sizeT (data.size + T.sizeOf))
  return ({ data with bytes }, data.size)

/-- `AddElements`, with the address that it returns, in elements. -/
def addElements (position : CheckedIterator) (n : ℕ) : Except Failure (Data × ℕ) := do
  let diff ← position.difference (← viewBegin T.sizeOf data)
  let bytes ← insertString T.maxSize data.bytes (byteOffset diff T.sizeOf) (sizeT (T.sizeOf * n))
  return ({ data with bytes }, diff.toNat)

/-- A call of a member function of a view. A position is how far it is from `begin()`. -/
inductive Call (sizeOf : ℕ)
  | pushBack (value : Argument sizeOf)
  | emplaceBack (value : Argument sizeOf)
  | popBack
  | insert (position : ℕ) (value : Argument sizeOf)
  /-- The overload that inserts a number of copies. -/
  | insertCopies (position n : ℕ) (value : Argument sizeOf)
  | erase (position : ℕ)
  | eraseRange (first last : ℕ)
  | resize (n : ℕ)
  /-- `operator[]`, and the assignment to what it returns. -/
  | assign (idx : ℕ) (value : Argument sizeOf)

/-- What a call leaves, and the iterator that it returns. -/
abbrev Outcome := Except Failure (Data × Option CheckedIterator)

def pushBack (value : Argument T.sizeOf) : Outcome := do
  let (next, address) ← addOneElementToBack data T
  return (← construct T.sizeOf next address value, none)

def popBack : Outcome := do
  let bytes ← resizeString T.maxSize data.bytes (sizeT (data.size + 2 ^ 64 - T.sizeOf))
  return ({ data with bytes }, none)

def insert (position : CheckedIterator) (value : Argument T.sizeOf) : Outcome := do
  let (next, slot) ← addElements data T position 1
  let last ← construct T.sizeOf next (slot * T.sizeOf) value
  return (last, ← makeIterator T.sizeOf last slot)

def insertCopies (position : CheckedIterator) (n : ℕ) (value : Argument T.sizeOf) : Outcome := do
  let (next, slot) ← addElements data T position n
  return (← constructAll T.sizeOf next slot value n, none)

def erase (position : CheckedIterator) : Outcome := do
  let diff ← position.difference (← viewBegin T.sizeOf data)
  let bytes ← eraseString data.bytes (byteOffset diff T.sizeOf) T.sizeOf
  let next := { data with bytes }
  return (next, ← (← viewBegin T.sizeOf next).advance diff)

def eraseRange (first last : CheckedIterator) : Outcome := do
  let diff ← first.difference (← viewBegin T.sizeOf data)
  let n ← last.difference first
  let bytes ← eraseString data.bytes (byteOffset diff T.sizeOf) (byteOffset n T.sizeOf)
  let next := { data with bytes }
  return (next, ← (← viewBegin T.sizeOf next).advance diff)

def resize (n : ℕ) : Outcome := do
  let bytes ← resizeString T.maxSize data.bytes (sizeT (n * T.sizeOf))
  return ({ data with bytes }, none)

def assign (idx : ℕ) (value : Argument T.sizeOf) : Outcome := do
  let it ← (← viewBegin T.sizeOf data).advance (ptrdiffT idx)
  let slot ← it.dereference
  return (← construct T.sizeOf data (slot * T.sizeOf) value, none)

/-- The iterator of a caller. -/
def iteratorAt (position : ℕ) : Except Failure CheckedIterator := do
  (← viewBegin sizeOf data).advance position

def perform (call : Call T.sizeOf) : Outcome :=
  match call with
  | .pushBack value => pushBack data T value
  | .emplaceBack value => pushBack data T value
  | .popBack => popBack data T
  | .insert position value => do insert data T (← iteratorAt T.sizeOf data position) value
  | .insertCopies position n value => do
    insertCopies data T (← iteratorAt T.sizeOf data position) n value
  | .erase position => do erase data T (← iteratorAt T.sizeOf data position)
  | .eraseRange first last => do
    eraseRange data T (← iteratorAt T.sizeOf data first) (← iteratorAt T.sizeOf data last)
  | .resize n => resize data T n
  | .assign idx value => assign data T idx value

/-! ### Lists of elements -/

section Lists

variable {sizeOf}

/-- The bytes of a list, one element after the other. -/
def flat (list : List (Element sizeOf)) : List UInt8 := (list.map List.Vector.toList).flatten

/-- Zero bytes. -/
def zeroElement : Element sizeOf := List.Vector.replicate sizeOf 0

/-- The value that is meant. -/
def Argument.denoted (list : List (Element sizeOf)) : Argument sizeOf → Option (Element sizeOf)
  | .value x => some x
  | .element index _ => list[index]?

/-- A list with copies of a value put in. -/
def insertAt (list : List (Element sizeOf)) (position n : ℕ) (x : Element sizeOf) :
    List (Element sizeOf) :=
  list.take position ++ List.replicate n x ++ list.drop position

/-- What a call does to a list, and the position that it returns, unless it must not be made. -/
def Call.apply (list : List (Element sizeOf)) :
    Call sizeOf → Option (List (Element sizeOf) × Option ℕ)
  | .pushBack value | .emplaceBack value =>
    (value.denoted list).map fun x ↦ (list ++ [x], none)
  | .popBack => if list = [] then none else some (list.dropLast, none)
  | .insert position value =>
    if list.length < position then none
    else (value.denoted list).map fun x ↦ (insertAt list position 1 x, some position)
  | .insertCopies position n value =>
    if list.length < position then none
    else (value.denoted list).map fun x ↦ (insertAt list position n x, none)
  | .erase position =>
    if position < list.length then some (list.eraseIdx position, some position) else none
  | .eraseRange first last =>
    if first ≤ last ∧ last ≤ list.length then
      some (list.take first ++ list.drop last, some first)
    else none
  | .resize n => some (list.take n ++ List.replicate (n - list.length) zeroElement, none)
  | .assign idx value =>
    if idx < list.length then (value.denoted list).map fun x ↦ (list.set idx x, none) else none

variable {list : List (Element sizeOf)} {x : Element sizeOf} {slot : ℕ}

theorem length_of_mem_map : ∀ part ∈ list.map List.Vector.toList, part.length = sizeOf := by
  intro part hpart
  obtain ⟨x, -, rfl⟩ := List.mem_map.mp hpart
  exact x.toList_length

theorem exists_map_toList {parts : List (List UInt8)} (h : ∀ part ∈ parts, part.length = sizeOf) :
    ∃ list : List (Element sizeOf), list.map List.Vector.toList = parts := by
  induction parts with
  | nil => exact ⟨[], rfl⟩
  | cons part others ih =>
    obtain ⟨list, rfl⟩ := ih fun other hmem ↦ h other (List.mem_cons_of_mem part hmem)
    exact ⟨⟨part, h part List.mem_cons_self⟩ :: list, rfl⟩

@[simp] theorem length_flat : (flat list).length = list.length * sizeOf := by
  rw [flat, length_flatten_of_length length_of_mem_map, List.length_map]

@[simp] theorem flat_append (list other : List (Element sizeOf)) :
    flat (list ++ other) = flat list ++ flat other := by
  rw [flat, List.map_append, List.flatten_append, flat, flat]

theorem flat_singleton : flat [x] = x.toList := by
  rw [flat, List.map_singleton, List.flatten_singleton]

theorem flat_take : flat (list.take slot) = (flat list).take (slot * sizeOf) := by
  rw [flat, List.map_take, ← take_flatten length_of_mem_map, flat]

theorem flat_drop : flat (list.drop slot) = (flat list).drop (slot * sizeOf) := by
  rw [flat, List.map_drop, ← drop_flatten length_of_mem_map, flat]

theorem flat_replicate_zero (n : ℕ) :
    flat (List.replicate n zeroElement : List (Element sizeOf)) =
      List.replicate (n * sizeOf) 0 := by
  have hzero : (zeroElement : Element sizeOf).toList = List.replicate sizeOf 0 := rfl
  rw [flat, List.map_replicate, hzero, List.flatten_replicate_replicate]

theorem flat_injective (hpos : 0 < sizeOf) :
    Function.Injective (flat : List (Element sizeOf) → List UInt8) := by
  intro list other heq
  have hparts : pieces sizeOf (flat list) = pieces sizeOf (flat other) := by rw [heq]
  rw [flat, flat, pieces_flatten hpos length_of_mem_map, pieces_flatten hpos length_of_mem_map]
    at hparts
  exact List.map_injective_iff.mpr List.Vector.toList_injective hparts

/-- Zeros put into the bytes are elements of zeros put into the list. -/
theorem flat_insertAt_zero (list : List (Element sizeOf)) (position n : ℕ) :
    flat (insertAt list position n zeroElement) =
      (flat list).take (position * sizeOf) ++ List.replicate (n * sizeOf) 0 ++
        (flat list).drop (position * sizeOf) := by
  rw [insertAt, flat_append, flat_append, flat_take, flat_drop, flat_replicate_zero]

theorem length_insertAt {position n : ℕ} (h : position ≤ list.length) :
    (insertAt list position n x).length = list.length + n := by
  simp only [insertAt, List.length_append, List.length_take, List.length_drop,
    List.length_replicate]
  omega

theorem insertAt_length (x : Element sizeOf) : insertAt list list.length 1 x = list ++ [x] := by
  rw [insertAt, List.take_length, List.drop_length, List.append_nil, List.replicate_one]

/-- What is put in is written over. -/
theorem overwrite_insertAt {position n : ℕ} (h : position ≤ list.length) (x y : Element sizeOf) :
    (insertAt list position n x).take position ++ List.replicate n y ++
      (insertAt list position n x).drop (position + n) = insertAt list position n y := by
  have htake : (list.take position).length = position := List.length_take_of_le h
  have hlength : (list.take position ++ List.replicate n x).length = position + n := by
    rw [List.length_append, htake, List.length_replicate]
  have hfront : (insertAt list position n x).take position = list.take position := by
    rw [insertAt, List.append_assoc, List.take_left' htake]
  have hback : (insertAt list position n x).drop (position + n) = list.drop position :=
    List.drop_left' hlength
  rw [hfront, hback, insertAt]

theorem set_insertAt {position : ℕ} (h : position ≤ list.length) (x y : Element sizeOf) :
    (insertAt list position 1 x).set position y = insertAt list position 1 y := by
  have hinside : position < (insertAt list position 1 x).length := by
    rw [length_insertAt h]
    omega
  rw [← overwrite_insertAt h x y, List.set_eq_take_append_cons_drop, if_pos hinside,
    List.replicate_one, List.append_assoc, List.singleton_append]

theorem insertAt_injective {position n : ℕ} (hpositive : 0 < n) :
    Function.Injective (insertAt list position n) := by
  intro x y heq
  have hmiddle := List.append_cancel_left (List.append_cancel_right heq)
  exact List.replicate_right_injective (Nat.pos_iff_ne_zero.mp hpositive) hmiddle

/-! ### Elements in the bytes -/

theorem read_flat (h : list[slot]? = some x) :
    Memory.read (flat list) (slot * sizeOf) sizeOf = x.toList := by
  obtain ⟨hslot, rfl⟩ := List.getElem?_eq_some_iff.mp h
  have hone : (flat (list.drop slot)).take (1 * sizeOf) = list[slot].toList := by
    rw [← flat_take, List.drop_eq_getElem_cons hslot, List.take_succ_cons, List.take_zero,
      flat_singleton]
  rw [Nat.one_mul, flat_drop] at hone
  exact hone

theorem write_flat (h : slot < list.length) :
    Memory.write (flat list) (slot * sizeOf) x.toList = flat (list.set slot x) := by
  have hnext : slot * sizeOf + sizeOf = (slot + 1) * sizeOf := (Nat.succ_mul slot sizeOf).symm
  rw [Memory.write, List.Vector.toList_length, hnext, ← flat_take, ← flat_drop,
    List.set_eq_take_append_cons_drop, if_pos h, List.append_assoc]
  rw [flat_append, List.append_cancel_left_eq, ← List.singleton_append, flat_append,
    flat_singleton]

theorem slot_add_le_length_flat (h : slot < list.length) :
    slot * sizeOf + sizeOf ≤ (flat list).length := by
  rw [length_flat]
  exact Memory.slot_le sizeOf h

/-! ### Values in the bytes -/

/-- What a value reads as, when a list is in the string. -/
def Argument.loaded (list : List (Element sizeOf)) :
    Argument sizeOf → Except Failure (Element sizeOf)
  | .value x => .ok x
  | .element index moved =>
    if moved then .error .dangling
    else (list[index]?).elim (.error .overrun) .ok

/-- A value that was meant in a list reads the same in another one. -/
def Argument.Stays (argument : Argument sizeOf) (list other : List (Element sizeOf)) : Prop :=
  match argument with
  | .value _ => True
  | .element index moved => moved = false ∧ other[index]? = list[index]?

instance (argument : Argument sizeOf) (list other : List (Element sizeOf)) :
    Decidable (argument.Stays list other) :=
  match argument with
  | .value _ => isTrue trivial
  | .element _ _ => inferInstanceAs (Decidable (_ ∧ _))

variable {data next : Data} {argument : Argument sizeOf} {other : List (Element sizeOf)} {n : ℕ}

theorem loaded_eq_ok_iff_stays (h : argument.denoted list = some x) :
    argument.loaded other = .ok x ↔ argument.Stays list other := by
  cases argument with
  | value y =>
    rw [Option.some.inj h]
    exact iff_of_true rfl trivial
  | element index moved =>
    change list[index]? = some x at h
    rw [Argument.loaded, Argument.Stays, h]
    cases moved with
    | true => simp
    | false => cases other[index]? <;> simp

variable (data argument) in
theorem read_eq_loaded (hpos : 0 < sizeOf) (hdata : data.bytes = flat list) :
    argument.read data = (argument.loaded list).map List.Vector.toList := by
  cases argument with
  | value y => rfl
  | element index moved =>
    cases moved with
    | true => rfl
    | false =>
      simp only [Argument.read, Argument.loaded, load, Data.size, hdata, Bool.false_eq_true,
        if_false]
      by_cases hindex : index < list.length
      · have hget : list[index]? = some list[index] := List.getElem?_eq_getElem hindex
        rw [if_pos (slot_add_le_length_flat hindex), hget, read_flat hget]
        rfl
      · have hmul : list.length * sizeOf ≤ index * sizeOf :=
          Nat.mul_le_mul_right sizeOf (not_lt.mp hindex)
        have hinside : ¬ index * sizeOf + sizeOf ≤ (flat list).length := by
          rw [length_flat]
          omega
        rw [if_neg hinside, List.getElem?_eq_none (not_lt.mp hindex)]
        rfl

theorem loaded_set (h : argument.loaded list = .ok x) (slot : ℕ) :
    argument.loaded (list.set slot x) = .ok x := by
  cases argument with
  | value y => exact h
  | element index moved =>
    cases moved with
    | true => simp [Argument.loaded] at h
    | false =>
      have hget : list[index]? = some x := by
        cases hother : list[index]? with
        | none => simp [Argument.loaded, hother] at h
        | some y =>
          simp only [Argument.loaded, hother, Bool.false_eq_true, if_false, Option.elim_some] at h
          rw [Except.ok.inj h]
      have hset : (list.set slot x)[index]? = some x := by
        by_cases heq : slot = index
        · rw [heq, List.getElem?_set_self (List.getElem?_eq_some_iff.mp hget).1]
        · rw [List.getElem?_set_ne heq, hget]
      simp [Argument.loaded, hset]

theorem loaded_ne_lengthError : argument.loaded list ≠ .error .lengthError := by
  cases argument with
  | value y => simp [Argument.loaded]
  | element index moved =>
    cases moved with
    | true => simp [Argument.loaded]
    | false => cases hget : list[index]? <;> simp [Argument.loaded, hget]

theorem construct_of_read {address : ℕ} {values : List UInt8}
    (h : argument.read data = .ok values) : construct sizeOf data address argument =
      if address + sizeOf ≤ data.size then
        .ok { data with bytes := Memory.write data.bytes address values }
      else .error .overrun := by
  rw [construct, h]
  rfl

variable (data argument) in
/-- Assumes: a place of the list in the string. -/
theorem construct_eq (hpos : 0 < sizeOf) (hdata : data.bytes = flat list)
    (hslot : slot < list.length) : construct sizeOf data (slot * sizeOf) argument =
      (argument.loaded list).map fun x ↦ { data with bytes := flat (list.set slot x) } := by
  have hinside : slot * sizeOf + sizeOf ≤ data.size := by
    rw [Data.size, hdata]
    exact slot_add_le_length_flat hslot
  have hread := read_eq_loaded data argument hpos hdata
  cases hload : argument.loaded list with
  | error failure =>
    rw [hload] at hread
    rw [construct, hread]
    rfl
  | ok x =>
    rw [hload] at hread
    rw [construct_of_read hread, if_pos hinside, hdata, write_flat hslot]
    rfl

/-- What the loop makes of the elements from a place on. -/
theorem overwrite_succ (h : slot < list.length) :
    (list.set slot x).take (slot + 1) ++ List.replicate n x ++
        (list.set slot x).drop (slot + 1 + n) =
      list.take slot ++ List.replicate (n + 1) x ++ list.drop (slot + (n + 1)) := by
  have htake : (list.set slot x).take (slot + 1) = list.take slot ++ [x] := by
    rw [List.take_add_one, List.take_set_of_le (Nat.le_refl slot),
      List.getElem?_set_self h, Option.toList_some]
  have hdrop : (list.set slot x).drop (slot + 1 + n) = list.drop (slot + (n + 1)) := by
    rw [List.drop_set_of_lt (by omega)]
    congr 1
    omega
  rw [htake, hdrop, List.replicate_succ, List.append_assoc (list.take slot), List.singleton_append]

variable (data) in
/-- Assumes: places of the list in the string, and a value that can be read. -/
theorem constructAll_eq (hpos : 0 < sizeOf) (hdata : data.bytes = flat list)
    (hslot : slot + n ≤ list.length) (hload : argument.loaded list = .ok x) :
    constructAll sizeOf data slot argument n =
      .ok { data with
        bytes := flat (list.take slot ++ List.replicate n x ++ list.drop (slot + n)) } := by
  induction n generalizing data list slot with
  | zero =>
    rw [constructAll, List.replicate_zero, List.append_nil, Nat.add_zero, List.take_append_drop,
      ← hdata]
    rfl
  | succ n ih =>
    have hfirst : slot < list.length := by omega
    have hset : slot + 1 + n ≤ (list.set slot x).length := by
      rw [List.length_set]
      omega
    have hrest := ih { data with bytes := flat (list.set slot x) } rfl hset
      (loaded_set hload slot)
    rw [constructAll, construct_eq data argument hpos hdata hfirst, hload, ← overwrite_succ hfirst]
    exact hrest

theorem constructAll_error {failure : Failure} (hpos : 0 < sizeOf) (hdata : data.bytes = flat list)
    (hslot : slot < list.length) (hload : argument.loaded list = .error failure) :
    constructAll sizeOf data slot argument (n + 1) = .error failure := by
  rw [constructAll, construct_eq data argument hpos hdata hslot, hload]
  rfl

/-! ### Values outside the string -/

theorem length_of_read {values : List UInt8} (h : argument.read data = .ok values) :
    values.length = sizeOf := by
  cases argument with
  | value y =>
    rw [← Except.ok.inj h]
    exact y.toList_length
  | element index moved =>
    simp only [Argument.read, load] at h
    split_ifs at h with hmoved hinside
    rw [← Except.ok.inj h]
    exact Memory.length_read hinside

theorem read_ne_lengthError : argument.read data ≠ .error .lengthError := by
  cases argument with
  | value y => simp [Argument.read]
  | element index moved =>
    simp only [Argument.read, load]
    split_ifs <;> simp

/-- A value is put inside the string, or not at all. -/
theorem construct_cases (sizeOf : ℕ) (data : Data) (address : ℕ) (argument : Argument sizeOf) :
    (∃ next, construct sizeOf data address argument = .ok next ∧ next.size = data.size ∧
      address + sizeOf ≤ data.size) ∨
    ∃ failure, failure ≠ .lengthError ∧
      construct sizeOf data address argument = .error failure := by
  cases hread : argument.read data with
  | error failure =>
    rw [construct, hread]
    refine Or.inr ⟨failure, ?_, rfl⟩
    rintro rfl
    exact read_ne_lengthError hread
  | ok values =>
    rw [construct_of_read hread]
    by_cases hinside : address + sizeOf ≤ data.size
    · have hlength : address + values.length ≤ data.bytes.length := by
        rw [length_of_read hread]
        exact hinside
      rw [if_pos hinside]
      exact Or.inl ⟨_, rfl, Memory.length_write hlength, hinside⟩
    · rw [if_neg hinside]
      exact Or.inr ⟨.overrun, by decide, rfl⟩

variable (argument) in
/-- Assumes: copies that do not all have a place in the string. -/
theorem constructAll_overrun (hpositive : 0 < n) (h : data.size < (slot + n) * sizeOf) :
    ∃ failure, failure ≠ .lengthError ∧
      constructAll sizeOf data slot argument n = .error failure := by
  induction n generalizing data slot with
  | zero => exact absurd hpositive (Nat.lt_irrefl 0)
  | succ n ih =>
    rw [constructAll]
    obtain ⟨next, heq, hsize, hinside⟩ | ⟨failure, hne, heq⟩ :=
      construct_cases sizeOf data (slot * sizeOf) argument
    · rw [heq]
      by_cases hrest : 0 < n
      · apply ih hrest
        rw [hsize]
        convert h using 2
        omega
      · obtain rfl : n = 0 := by omega
        rw [Nat.zero_add, Nat.succ_mul] at h
        exact absurd hinside (not_le.mpr h)
    · rw [heq]
      exact ⟨failure, hne, rfl⟩

end Lists

/-! ### What calls make of the bytes -/

section Calls

variable {T data} {list : List (Element T.sizeOf)} {x : Element T.sizeOf} {position n : ℕ}
variable {argument : Argument T.sizeOf}

/-- A list is what the string has. -/
structure Holds (T : ViewType) (data : Data) (list : List (Element T.sizeOf)) : Prop where
  bytes_eq : data.bytes = flat list
  size_le : data.size ≤ T.maxSize

theorem Holds.size_eq (h : Holds T data list) : data.size = list.length * T.sizeOf := by
  rw [Data.size, h.bytes_eq, length_flat]

theorem viewSize_of_bytes_eq (h : data.bytes = flat list) :
    viewSize T.sizeOf data = list.length := by
  rw [viewSize, Data.size, h, length_flat, Nat.mul_div_cancel _ T.sizeOf_pos]

theorem Holds.viewSize_eq (h : Holds T data list) : viewSize T.sizeOf data = list.length :=
  viewSize_of_bytes_eq h.bytes_eq

theorem makeIterator_eq {sizeOf current : ℕ} (h : current ≤ viewSize sizeOf data) :
    makeIterator sizeOf data current = .ok ⟨0, current, viewSize sizeOf data⟩ := by
  rw [makeIterator, CheckedIterator.make, if_pos ⟨Nat.zero_le current, h⟩]

theorem viewBegin_eq (sizeOf : ℕ) (data : Data) :
    viewBegin sizeOf data = .ok ⟨0, 0, viewSize sizeOf data⟩ :=
  makeIterator_eq (Nat.zero_le _)

theorem advance_eq {stop : ℕ} (h : position ≤ stop) :
    (⟨0, 0, stop⟩ : CheckedIterator).advance position = .ok ⟨0, position, stop⟩ := by
  simp only [CheckedIterator.advance]
  by_cases hpositive : 0 < position
  · rw [if_pos (by omega), if_pos (by omega)]
    simp
  · obtain rfl : position = 0 := by omega
    simp

theorem advance_error {stop : ℕ} {rhs : ℤ} (h : rhs < 0 ∨ (stop : ℤ) < rhs) :
    (⟨0, 0, stop⟩ : CheckedIterator).advance rhs = .error .check := by
  simp only [CheckedIterator.advance]
  by_cases hpositive : 0 < rhs
  · rw [if_pos hpositive, if_neg (by omega)]
  · rw [if_neg hpositive, if_neg (by omega)]

theorem Holds.iteratorAt_eq (h : Holds T data list) (hposition : position ≤ list.length) :
    iteratorAt T.sizeOf data position = .ok ⟨0, position, list.length⟩ := by
  rw [iteratorAt, viewBegin_eq, h.viewSize_eq]
  exact advance_eq hposition

theorem Holds.mul_le (h : Holds T data list) (hposition : position ≤ list.length) :
    position * T.sizeOf ≤ data.size := by
  rw [h.size_eq]
  exact Nat.mul_le_mul_right T.sizeOf hposition

theorem Holds.byteOffset_eq (h : Holds T data list) (hposition : position ≤ list.length) :
    byteOffset position T.sizeOf = position * T.sizeOf := by
  have hle := h.mul_le hposition
  have hsize := h.size_le
  have hmax := T.maxSize_lt
  exact byteOffset_of_lt (by omega)

/-- Assumes: a position in the list. -/
theorem Holds.addElements_eq (h : Holds T data list) (hposition : position ≤ list.length) (n : ℕ) :
    addElements data T ⟨0, position, list.length⟩ n =
      if T.maxSize < data.size + sizeT (T.sizeOf * n) then .error .lengthError
      else .ok ({ data with
        bytes := (flat list).take (position * T.sizeOf) ++
          List.replicate (sizeT (T.sizeOf * n)) 0 ++
          (flat list).drop (position * T.sizeOf) }, position) := by
  have hinside : ¬ data.bytes.length < position * T.sizeOf := not_lt.mpr (h.mul_le hposition)
  have hdiff : CheckedIterator.difference ⟨0, position, list.length⟩ ⟨0, 0, list.length⟩ =
      .ok position := by
    simp [CheckedIterator.difference]
  rw [addElements, viewBegin_eq, h.viewSize_eq, Data.size]
  simp only [bind, Except.bind, hdiff, h.byteOffset_eq hposition, insertString, if_neg hinside]
  rw [← h.bytes_eq]
  by_cases hlong : T.maxSize < data.bytes.length + sizeT (T.sizeOf * n)
  · rw [if_pos hlong, if_pos hlong]
  · rw [if_neg hlong, if_neg hlong]
    rfl

/-- Assumes: a position in the list. -/
theorem Holds.insert_eq (h : Holds T data list) (hposition : position ≤ list.length) :
    insert data T ⟨0, position, list.length⟩ argument =
      if T.maxSize < data.size + T.sizeOf then .error .lengthError
      else (argument.loaded (insertAt list position 1 zeroElement)).map fun y ↦
        ({ data with bytes := flat (insertAt list position 1 y) },
          some ⟨0, position, list.length + 1⟩) := by
  have hone : sizeT (T.sizeOf * 1) = T.sizeOf := by
    rw [Nat.mul_one, sizeT_of_lt (T.sizeOf_lt.trans (by decide))]
  rw [insert, h.addElements_eq hposition, hone]
  by_cases hlong : T.maxSize < data.size + T.sizeOf
  · rw [if_pos hlong, if_pos hlong]
    rfl
  · have hzeros : (flat list).take (position * T.sizeOf) ++ List.replicate T.sizeOf 0 ++
        (flat list).drop (position * T.sizeOf) = flat (insertAt list position 1 zeroElement) := by
      rw [flat_insertAt_zero, Nat.one_mul]
    have hslot : position < (insertAt list position 1 (zeroElement : Element T.sizeOf)).length := by
      rw [length_insertAt hposition]
      exact Nat.lt_succ_of_le hposition
    rw [if_neg hlong, if_neg hlong, hzeros]
    have hconstruct := construct_eq
      { data with bytes := flat (insertAt list position 1 zeroElement) } argument T.sizeOf_pos rfl
      hslot
    simp only [bind, Except.bind, hconstruct]
    cases argument.loaded (insertAt list position 1 zeroElement) with
    | error failure => rfl
    | ok y =>
      have hview : viewSize T.sizeOf { data with bytes := flat (insertAt list position 1 y) } =
          list.length + 1 :=
        (viewSize_of_bytes_eq rfl).trans (length_insertAt hposition)
      simp only [Except.map, set_insertAt hposition]
      rw [makeIterator_eq (hview ▸ hposition.trans (Nat.le_succ _)), hview]
      rfl

theorem resizeString_flat {sizeOf : ℕ} (maxSize n : ℕ) (list : List (Element sizeOf)) :
    resizeString maxSize (flat list) (n * sizeOf) =
      if maxSize < n * sizeOf then .error .lengthError
      else .ok (flat (list.take n ++ List.replicate (n - list.length) zeroElement)) := by
  rw [resizeString, length_flat, ← Nat.sub_mul, flat_append, flat_take, flat_replicate_zero]

theorem Holds.pushBack_eq (h : Holds T data list) :
    pushBack data T argument =
      if T.maxSize < data.size + T.sizeOf then .error .lengthError
      else (argument.loaded (list ++ [zeroElement])).map fun y ↦
        ({ data with bytes := flat (list ++ [y]) }, none) := by
  have hsize := h.size_le
  have hmax := T.maxSize_lt
  have hlt := T.sizeOf_lt
  have hnext : data.size + T.sizeOf = (list.length + 1) * T.sizeOf := by
    rw [h.size_eq, Nat.succ_mul]
  have hcount : list.length + 1 - list.length = 1 := by omega
  rw [pushBack, addOneElementToBack, sizeT_of_lt (by omega), hnext, h.bytes_eq, resizeString_flat,
    List.take_of_length_le (Nat.le_succ list.length), hcount, List.replicate_one, h.size_eq]
  by_cases hlong : T.maxSize < (list.length + 1) * T.sizeOf
  · rw [if_pos hlong, if_pos hlong]
    rfl
  · have hslot : list.length < (list ++ [(zeroElement : Element T.sizeOf)]).length := by
      rw [List.length_append]
      exact Nat.lt_succ_self list.length
    have hconstruct := construct_eq { data with bytes := flat (list ++ [zeroElement]) } argument
      T.sizeOf_pos rfl hslot
    rw [if_neg hlong, if_neg hlong]
    simp only [bind, Except.bind, pure, Except.pure, hconstruct]
    cases argument.loaded (list ++ [zeroElement]) with
    | error failure => rfl
    | ok y =>
      have hset : (list ++ [zeroElement]).set list.length y = list ++ [y] := by
        rw [List.set_append_right _ _ (Nat.le_refl list.length), Nat.sub_self, List.set_cons_zero]
      rw [Except.map, Except.map, hset]

/-- Assumes: a list that is not empty. -/
theorem Holds.popBack_eq (h : Holds T data list) (hne : list ≠ []) :
    popBack data T = .ok ({ data with bytes := flat list.dropLast }, none) := by
  have hlength := List.length_pos_iff.mpr hne
  have hsize := h.size_le
  have hmax := T.maxSize_lt
  have heq := h.size_eq
  have hsub : data.size - T.sizeOf = (list.length - 1) * T.sizeOf := by
    rw [heq, Nat.sub_mul, Nat.one_mul]
  have hle : T.sizeOf ≤ data.size := by
    rw [heq]
    exact Nat.le_mul_of_pos_left T.sizeOf hlength
  have hwrap : sizeT (data.size + 2 ^ 64 - T.sizeOf) = data.size - T.sizeOf := by
    rw [sizeT]
    omega
  have hcount : list.length - 1 - list.length = 0 := by omega
  rw [popBack, hwrap, hsub, h.bytes_eq, resizeString_flat, if_neg (by omega), hcount,
    List.replicate_zero, List.append_nil, ← List.dropLast_eq_take]
  rfl

theorem Holds.resize_eq (h : Holds T data list) (hfits : n * T.sizeOf < 2 ^ 64) :
    resize data T n = if T.maxSize < n * T.sizeOf then .error .lengthError
      else .ok ({ data with
        bytes := flat (list.take n ++ List.replicate (n - list.length) zeroElement) }, none) := by
  rw [resize, sizeT_of_lt hfits, h.bytes_eq, resizeString_flat]
  by_cases hlong : T.maxSize < n * T.sizeOf
  · rw [if_pos hlong, if_pos hlong]
    rfl
  · rw [if_neg hlong, if_neg hlong]
    rfl

theorem eraseString_flat {sizeOf first n : ℕ} {list : List (Element sizeOf)}
    (h : first ≤ list.length) : eraseString (flat list) (first * sizeOf) (n * sizeOf) =
      .ok (flat (list.take first ++ list.drop (first + n))) := by
  have hinside : ¬ (flat list).length < first * sizeOf := by
    rw [length_flat]
    exact not_lt.mpr (Nat.mul_le_mul_right sizeOf h)
  rw [eraseString, if_neg hinside, ← Nat.add_mul, flat_append, flat_take, flat_drop]

theorem difference_eq {first last stop : ℕ} (h : first ≤ last) :
    CheckedIterator.difference ⟨0, last, stop⟩ ⟨0, first, stop⟩ = .ok (last - first : ℕ) := by
  rw [CheckedIterator.difference, if_pos ⟨rfl, rfl⟩, Int.natCast_sub h]

/-- Assumes: a range of the list. -/
theorem Holds.eraseRange_eq (h : Holds T data list) {first last : ℕ} (hle : first ≤ last)
    (hlast : last ≤ list.length) :
    eraseRange data T ⟨0, first, list.length⟩ ⟨0, last, list.length⟩ =
      .ok ({ data with bytes := flat (list.take first ++ list.drop last) },
        some ⟨0, first, (list.take first ++ list.drop last).length⟩) := by
  have hfirst := hle.trans hlast
  have hcount : last - first ≤ list.length := by omega
  have hrest : first + (last - first) = last := by omega
  have hkept : first ≤ (list.take first ++ list.drop last).length := by
    rw [List.length_append, List.length_take]
    omega
  have hview : viewSize T.sizeOf { data with bytes := flat (list.take first ++ list.drop last) } =
      (list.take first ++ list.drop last).length := viewSize_of_bytes_eq rfl
  rw [eraseRange, viewBegin_eq, h.viewSize_eq]
  simp only [bind, Except.bind, difference_eq (Nat.zero_le first), difference_eq hle, Nat.sub_zero,
    h.byteOffset_eq hfirst, h.byteOffset_eq hcount, h.bytes_eq, eraseString_flat hfirst, hrest,
    viewBegin_eq, hview, advance_eq hkept]
  rfl

/-- Assumes: a position of an element. -/
theorem Holds.erase_eq (h : Holds T data list) (hposition : position < list.length) :
    erase data T ⟨0, position, list.length⟩ =
      .ok ({ data with bytes := flat (list.eraseIdx position) },
        some ⟨0, position, (list.eraseIdx position).length⟩) := by
  have hone : byteOffset (position + 1 - position : ℕ) T.sizeOf = T.sizeOf := by
    rw [h.byteOffset_eq (by omega), Nat.add_sub_cancel_left, Nat.one_mul]
  have hrange := h.eraseRange_eq (Nat.le_succ position) hposition
  rw [eraseRange, viewBegin_eq, h.viewSize_eq] at hrange
  simp only [bind, Except.bind, difference_eq (Nat.zero_le position),
    difference_eq (Nat.le_succ position), Nat.succ_eq_add_one, hone] at hrange
  rw [erase, viewBegin_eq, h.viewSize_eq, List.eraseIdx_eq_take_drop_succ]
  simp only [bind, Except.bind, difference_eq (Nat.zero_le position)]
  exact hrange

/-- Assumes: an index of an element. -/
theorem Holds.assign_eq (h : Holds T data list) (hposition : position < list.length) :
    assign data T position argument = (argument.loaded list).map fun y ↦
      ({ data with bytes := flat (list.set position y) }, none) := by
  have hle := h.mul_le hposition.le
  have hsize := h.size_le
  have hmax := T.maxSize_lt
  have hbound : position ≤ position * T.sizeOf := Nat.le_mul_of_pos_right position T.sizeOf_pos
  have hne : position ≠ list.length := hposition.ne
  rw [assign, viewBegin_eq, h.viewSize_eq, ptrdiffT_of_lt (by omega)]
  simp only [bind, Except.bind, advance_eq hposition.le, CheckedIterator.dereference, if_pos hne,
    construct_eq data argument T.sizeOf_pos h.bytes_eq hposition]
  cases argument.loaded list <;> rfl

/-! ### Copies -/

/-- Assumes: a position in the list. -/
theorem Holds.insertCopies_of_long (h : Holds T data list) (hposition : position ≤ list.length)
    (hlong : T.maxSize < data.size + sizeT (T.sizeOf * n)) :
    insertCopies data T ⟨0, position, list.length⟩ n argument = .error .lengthError := by
  rw [insertCopies, h.addElements_eq hposition, if_pos hlong]
  rfl

theorem Holds.insertCopies_zero (h : Holds T data list) (hposition : position ≤ list.length) :
    insertCopies data T ⟨0, position, list.length⟩ 0 argument =
      .ok ({ data with bytes := flat list }, none) := by
  have hnone : sizeT (T.sizeOf * 0) = 0 := rfl
  rw [insertCopies, h.addElements_eq hposition, hnone, Nat.add_zero, if_neg (not_lt.mpr h.size_le),
    List.replicate_zero, List.append_nil, List.take_append_drop]
  rfl

/-- Assumes: a number of bytes that does not wrap. -/
theorem Holds.insertCopies_eq (h : Holds T data list) (hposition : position ≤ list.length)
    (hpositive : 0 < n) (hfits : T.sizeOf * n < 2 ^ 64)
    (hshort : ¬ T.maxSize < data.size + T.sizeOf * n) :
    insertCopies data T ⟨0, position, list.length⟩ n argument =
      (argument.loaded (insertAt list position n zeroElement)).map fun y ↦
        ({ data with bytes := flat (insertAt list position n y) }, none) := by
  have hzeros : (flat list).take (position * T.sizeOf) ++ List.replicate (T.sizeOf * n) 0 ++
      (flat list).drop (position * T.sizeOf) = flat (insertAt list position n zeroElement) := by
    rw [flat_insertAt_zero, Nat.mul_comm n]
  have hlength : position + n ≤
      (insertAt list position n (zeroElement : Element T.sizeOf)).length := by
    rw [length_insertAt hposition]
    omega
  rw [insertCopies, h.addElements_eq hposition, sizeT_of_lt hfits, if_neg hshort, hzeros]
  simp only [bind, Except.bind, pure, Except.pure]
  cases hload : argument.loaded (insertAt list position n zeroElement) with
  | error failure =>
    obtain ⟨rest, rfl⟩ : ∃ rest, n = rest + 1 := ⟨n - 1, by omega⟩
    rw [constructAll_error T.sizeOf_pos rfl (by omega) hload]
    rfl
  | ok y =>
    rw [constructAll_eq _ T.sizeOf_pos rfl hlength hload, overwrite_insertAt hposition]
    rfl

/-- Assumes: a number of bytes that wraps. -/
theorem Holds.insertCopies_overrun (h : Holds T data list) (hposition : position ≤ list.length)
    (hwraps : 2 ^ 64 ≤ T.sizeOf * n)
    (hshort : ¬ T.maxSize < data.size + sizeT (T.sizeOf * n)) :
    ∃ failure, failure ≠ .lengthError ∧
      insertCopies data T ⟨0, position, list.length⟩ n argument = .error failure := by
  have hpositive : 0 < n := by
    rw [Nat.pos_iff_ne_zero]
    rintro rfl
    omega
  have hmul := h.mul_le hposition
  have hmax := T.maxSize_lt
  have hmany : (position + n) * T.sizeOf = position * T.sizeOf + T.sizeOf * n := by
    rw [Nat.add_mul, Nat.mul_comm n]
  have hlength : ((flat list).take (position * T.sizeOf) ++
      List.replicate (sizeT (T.sizeOf * n)) 0 ++ (flat list).drop (position * T.sizeOf)).length =
      data.size + sizeT (T.sizeOf * n) := by
    rw [← h.bytes_eq]
    simp only [Data.size] at hmul ⊢
    simp only [List.length_append, List.length_take, List.length_replicate, List.length_drop]
    omega
  rw [insertCopies, h.addElements_eq hposition, if_neg hshort]
  generalize (flat list).take (position * T.sizeOf) ++ List.replicate (sizeT (T.sizeOf * n)) 0 ++
    (flat list).drop (position * T.sizeOf) = bytes at hlength ⊢
  have hsmall : ({ data with bytes } : Data).size < (position + n) * T.sizeOf := by
    rw [Data.size, hlength, hmany]
    omega
  obtain ⟨failure, hne, heq⟩ := constructAll_overrun argument hpositive hsmall
  simp only [bind, Except.bind, heq]
  exact ⟨failure, hne, rfl⟩

/-! ### What calls do to the list -/

/-- The string has the list that is expected, with an iterator at the position that is expected, or
no string can be as long. -/
def Keeps (T : ViewType) (expected : List (Element T.sizeOf)) (position : Option ℕ) :
    Outcome → Prop
  | .ok (next, it) => next.bytes = flat expected ∧
      it = position.map (fun current ↦ ⟨0, current, expected.length⟩) ∧
      expected.length * T.sizeOf ≤ T.maxSize
  | .error failure => failure = .lengthError ∧ T.maxSize < expected.length * T.sizeOf

/-- No number of bytes wraps, unless what it wraps to is too long for a string, and a value that is
an element of the view can be read where it was. -/
def Fits (T : ViewType) (data : Data) (list : List (Element T.sizeOf)) : Call T.sizeOf → Prop
  | .pushBack value | .emplaceBack value =>
    T.maxSize < data.size + T.sizeOf ∨ value.Stays list (list ++ [zeroElement])
  | .insert position value =>
    T.maxSize < data.size + T.sizeOf ∨ value.Stays list (insertAt list position 1 zeroElement)
  | .insertCopies position n value =>
    T.maxSize < data.size + sizeT (T.sizeOf * n) ∨
      (T.sizeOf * n < 2 ^ 64 ∧ (n = 0 ∨ value.Stays list (insertAt list position n zeroElement)))
  | .resize n => T.maxSize < sizeT (n * T.sizeOf) ∨ n * T.sizeOf < 2 ^ 64
  | .assign _ value => value.Stays list list
  | .popBack | .erase _ | .eraseRange _ _ => True

instance (T : ViewType) (data : Data) (list : List (Element T.sizeOf)) (call : Call T.sizeOf) :
    Decidable (Fits T data list call) :=
  match call with
  | .pushBack _ | .emplaceBack _ | .insert _ _ | .insertCopies _ _ _ | .resize _ =>
    inferInstanceAs (Decidable (_ ∨ _))
  | .assign _ value => inferInstanceAs (Decidable (value.Stays list list))
  | .popBack | .erase _ | .eraseRange _ _ => isTrue trivial

variable {expected other : List (Element T.sizeOf)} {p : Option ℕ} {it : Option CheckedIterator}

theorem keeps_ok (hle : expected.length * T.sizeOf ≤ T.maxSize) :
    Keeps T expected p (.ok ({ data with bytes := flat expected },
      p.map fun current ↦ ⟨0, current, expected.length⟩)) :=
  ⟨rfl, rfl, hle⟩

theorem keeps_lengthError : Keeps T expected p (.error .lengthError) ↔
    T.maxSize < expected.length * T.sizeOf :=
  and_iff_right rfl

theorem not_keeps_error {failure : Failure} (h : failure ≠ .lengthError) :
    ¬ Keeps T expected p (.error failure) :=
  fun hkeeps ↦ h hkeeps.1

/-- Assumes: a list that depends on the value, and a string that can have it. -/
theorem keeps_map_loaded {f : Element T.sizeOf → List (Element T.sizeOf)}
    (hinjective : Function.Injective f) (hvalue : argument.denoted list = some x)
    (hit : it = p.map fun current ↦ ⟨0, current, (f x).length⟩)
    (hle : (f x).length * T.sizeOf ≤ T.maxSize) :
    Keeps T (f x) p ((argument.loaded other).map fun y ↦
      ({ data with bytes := flat (f y) }, it)) ↔ argument.Stays list other := by
  rw [← loaded_eq_ok_iff_stays hvalue]
  cases hload : argument.loaded other with
  | error failure =>
    have hne : failure ≠ .lengthError := by
      rintro rfl
      exact loaded_ne_lengthError hload
    exact iff_of_false (not_keeps_error hne) (by simp)
  | ok y =>
    constructor
    · rintro ⟨hbytes, -, -⟩
      rw [hinjective (flat_injective T.sizeOf_pos hbytes)]
    · intro heq
      rw [Except.ok.inj heq]
      exact ⟨rfl, hit, hle⟩

/-- Assumes: a call that is refused when its list would be too long. -/
theorem keeps_ite_iff {bound : ℕ} {outcome : Outcome} {q : Prop}
    (hbound : bound = expected.length * T.sizeOf)
    (h : expected.length * T.sizeOf ≤ T.maxSize → (Keeps T expected p outcome ↔ q)) :
    Keeps T expected p (if T.maxSize < bound then .error .lengthError else outcome) ↔
      T.maxSize < bound ∨ q := by
  by_cases hlong : T.maxSize < bound
  · rw [if_pos hlong, keeps_lengthError, ← hbound]
    exact iff_of_true hlong (Or.inl hlong)
  · rw [if_neg hlong, h (hbound ▸ not_lt.mp hlong), or_iff_right hlong]

theorem Holds.keeps_pushBack_iff (h : Holds T data list) (hvalue : argument.denoted list = some x) :
    Keeps T (list ++ [x]) none (pushBack data T argument) ↔
      Fits T data list (.pushBack argument) := by
  have hbound : data.size + T.sizeOf = (list ++ [x]).length * T.sizeOf := by
    rw [h.size_eq, List.length_append, List.length_singleton, Nat.succ_mul]
  have hinjective : Function.Injective fun y ↦ list ++ [y] := by
    intro y z heq
    exact List.singleton_injective (List.append_cancel_left heq)
  rw [h.pushBack_eq, Fits]
  exact keeps_ite_iff hbound fun hle ↦ keeps_map_loaded hinjective hvalue rfl hle

theorem Holds.keeps_insert_iff (h : Holds T data list) (hposition : position ≤ list.length)
    (hvalue : argument.denoted list = some x) :
    Keeps T (insertAt list position 1 x) (some position)
        (insert data T ⟨0, position, list.length⟩ argument) ↔
      Fits T data list (.insert position argument) := by
  have hlength : (insertAt list position 1 x).length = list.length + 1 := length_insertAt hposition
  have hbound : data.size + T.sizeOf = (insertAt list position 1 x).length * T.sizeOf := by
    rw [h.size_eq, hlength, Nat.succ_mul]
  rw [h.insert_eq hposition, Fits]
  apply keeps_ite_iff hbound
  intro hle
  apply keeps_map_loaded (insertAt_injective Nat.zero_lt_one) hvalue _ hle
  rw [hlength]
  rfl

theorem Holds.keeps_assign_iff (h : Holds T data list) (hposition : position < list.length)
    (hvalue : argument.denoted list = some x) :
    Keeps T (list.set position x) none (assign data T position argument) ↔
      Fits T data list (.assign position argument) := by
  have hle : (list.set position x).length * T.sizeOf ≤ T.maxSize := by
    rw [List.length_set, ← h.size_eq]
    exact h.size_le
  have hinjective : Function.Injective fun y ↦ list.set position y := by
    intro y z heq
    have hget := congrArg (fun other ↦ other[position]?) heq
    simpa [List.getElem?_set_self hposition] using hget
  rw [h.assign_eq hposition]
  exact keeps_map_loaded hinjective hvalue rfl hle

theorem Holds.keeps_insertCopies_iff (h : Holds T data list) (hposition : position ≤ list.length)
    (hvalue : argument.denoted list = some x) :
    Keeps T (insertAt list position n x) none
        (insertCopies data T ⟨0, position, list.length⟩ n argument) ↔
      Fits T data list (.insertCopies position n argument) := by
  have hlength : (insertAt list position n x).length * T.sizeOf = data.size + T.sizeOf * n := by
    rw [length_insertAt hposition, Nat.add_mul, h.size_eq, Nat.mul_comm n]
  rw [Fits]
  by_cases hlong : T.maxSize < data.size + sizeT (T.sizeOf * n)
  · have hle := sizeT_le (T.sizeOf * n)
    rw [h.insertCopies_of_long hposition hlong, keeps_lengthError, hlength]
    exact iff_of_true (by omega) (Or.inl hlong)
  rw [or_iff_right hlong]
  by_cases hfits : T.sizeOf * n < 2 ^ 64
  · rw [and_iff_right hfits]
    rw [sizeT_of_lt hfits] at hlong
    by_cases hpositive : 0 < n
    · have hle : (insertAt list position n x).length * T.sizeOf ≤ T.maxSize := by
        rw [hlength]
        exact not_lt.mp hlong
      rw [h.insertCopies_eq hposition hpositive hfits hlong,
        or_iff_right (Nat.pos_iff_ne_zero.mp hpositive)]
      exact keeps_map_loaded (insertAt_injective hpositive) hvalue rfl hle
    · obtain rfl : n = 0 := by omega
      have hnone : insertAt list position 0 x = list := by
        rw [insertAt, List.replicate_zero, List.append_nil, List.take_append_drop]
      rw [h.insertCopies_zero hposition, hnone]
      exact iff_of_true (keeps_ok (h.size_eq ▸ h.size_le)) (Or.inl rfl)
  · obtain ⟨failure, hne, heq⟩ := h.insertCopies_overrun hposition (not_lt.mp hfits) hlong
    rw [heq]
    exact iff_of_false (not_keeps_error hne) fun hboth ↦ hfits hboth.1

theorem Holds.keeps_resize_iff (h : Holds T data list) (n : ℕ) :
    Keeps T (list.take n ++ List.replicate (n - list.length) zeroElement) none (resize data T n) ↔
      Fits T data list (.resize n) := by
  have hlength : (list.take n ++
      List.replicate (n - list.length) (zeroElement : Element T.sizeOf)).length = n := by
    rw [List.length_append, List.length_take, List.length_replicate]
    omega
  rw [Fits]
  by_cases hfits : n * T.sizeOf < 2 ^ 64
  · rw [h.resize_eq hfits, sizeT_of_lt hfits]
    exact keeps_ite_iff (by rw [hlength]) fun hle ↦ iff_of_true (keeps_ok hle) hfits
  rw [or_iff_left hfits, resize, resizeString]
  by_cases hlong : T.maxSize < sizeT (n * T.sizeOf)
  · rw [if_pos hlong]
    exact iff_of_true (keeps_lengthError.mpr (hlength.symm ▸ hlong.trans_le (sizeT_le _))) hlong
  · -- The string is shorter than the elements that it should have.
    rw [if_neg hlong]
    refine iff_of_false (fun hkeeps ↦ ?_) hlong
    have hbytes := congrArg List.length hkeeps.1
    have hshort := sizeT_lt (n * T.sizeOf)
    rw [length_flat, hlength] at hbytes
    simp only [List.length_append, List.length_take, List.length_replicate] at hbytes
    omega

theorem Holds.keeps_popBack (h : Holds T data list) (hne : list ≠ []) :
    Keeps T list.dropLast none (popBack data T) := by
  have hle : list.dropLast.length * T.sizeOf ≤ T.maxSize := by
    have hfewer : list.dropLast.length ≤ list.length := by
      rw [List.length_dropLast]
      omega
    exact (h.mul_le hfewer).trans h.size_le
  rw [h.popBack_eq hne]
  exact keeps_ok hle

theorem Holds.keeps_eraseRange (h : Holds T data list) {first last : ℕ} (hle : first ≤ last)
    (hlast : last ≤ list.length) :
    Keeps T (list.take first ++ list.drop last) (some first)
      (eraseRange data T ⟨0, first, list.length⟩ ⟨0, last, list.length⟩) := by
  have hfewer : (list.take first ++ list.drop last).length ≤ list.length := by
    rw [List.length_append, List.length_take, List.length_drop]
    omega
  rw [h.eraseRange_eq hle hlast]
  exact keeps_ok ((h.mul_le hfewer).trans h.size_le)

theorem Holds.keeps_erase (h : Holds T data list) (hposition : position < list.length) :
    Keeps T (list.eraseIdx position) (some position)
      (erase data T ⟨0, position, list.length⟩) := by
  have hfewer := List.length_eraseIdx_le list position
  rw [h.erase_eq hposition]
  exact keeps_ok ((h.mul_le hfewer).trans h.size_le)

/-- Assumes: a call that may be made. -/
theorem Holds.keeps_perform_iff (h : Holds T data list) {call : Call T.sizeOf}
    (happly : call.apply list = some (expected, p)) :
    Keeps T expected p (perform data T call) ↔ Fits T data list call := by
  cases call with
  | pushBack value =>
    obtain ⟨x, hvalue, heq⟩ := Option.map_eq_some_iff.mp happly
    cases heq
    exact h.keeps_pushBack_iff hvalue
  | emplaceBack value =>
    obtain ⟨x, hvalue, heq⟩ := Option.map_eq_some_iff.mp happly
    cases heq
    exact h.keeps_pushBack_iff hvalue
  | popBack =>
    rw [Call.apply] at happly
    split_ifs at happly with hempty
    cases happly
    exact iff_of_true (h.keeps_popBack hempty) trivial
  | insert position value =>
    rw [Call.apply] at happly
    split_ifs at happly with hposition
    obtain ⟨x, hvalue, heq⟩ := Option.map_eq_some_iff.mp happly
    cases heq
    rw [perform, h.iteratorAt_eq (not_lt.mp hposition)]
    exact h.keeps_insert_iff (not_lt.mp hposition) hvalue
  | insertCopies position n value =>
    rw [Call.apply] at happly
    split_ifs at happly with hposition
    obtain ⟨x, hvalue, heq⟩ := Option.map_eq_some_iff.mp happly
    cases heq
    rw [perform, h.iteratorAt_eq (not_lt.mp hposition)]
    exact h.keeps_insertCopies_iff (not_lt.mp hposition) hvalue
  | erase position =>
    rw [Call.apply] at happly
    split_ifs at happly with hposition
    cases happly
    rw [perform, h.iteratorAt_eq hposition.le]
    exact iff_of_true (h.keeps_erase hposition) trivial
  | eraseRange first last =>
    rw [Call.apply] at happly
    split_ifs at happly with hrange
    cases happly
    rw [perform, h.iteratorAt_eq (hrange.1.trans hrange.2), h.iteratorAt_eq hrange.2]
    exact iff_of_true (h.keeps_eraseRange hrange.1 hrange.2) trivial
  | resize n =>
    cases happly
    exact h.keeps_resize_iff n
  | assign idx value =>
    rw [Call.apply] at happly
    split_ifs at happly with hidx
    obtain ⟨x, hvalue, heq⟩ := Option.map_eq_some_iff.mp happly
    cases heq
    exact h.keeps_assign_iff hidx hvalue

end Calls

/-! ### What views see -/

/-- A view sees some elements: it has as many, and `operator[]` reads each of them and nothing
else. -/
structure Sees (sizeOf : ℕ) (data : Data) (parts : List (List UInt8)) : Prop where
  size_eq : viewSize sizeOf data = parts.length
  get_eq (idx : ℕ) : idx < 2 ^ 64 →
    getElement sizeOf data idx = (parts[idx]?).elim (.error .check) .ok

variable {sizeOf data} {parts : List (List UInt8)} {idx : ℕ}

theorem getElement_of_lt (hsize : data.size < 2 ^ 63) (hidx : idx < viewSize sizeOf data) :
    getElement sizeOf data idx = .ok (Memory.read data.bytes (idx * sizeOf) sizeOf) := by
  have hbound : idx < 2 ^ 63 := by
    have hdiv : viewSize sizeOf data ≤ data.size := Nat.div_le_self data.size sizeOf
    omega
  have hinside : idx * sizeOf + sizeOf ≤ data.size :=
    (Memory.slot_le sizeOf hidx).trans (Nat.div_mul_le_self data.size sizeOf)
  rw [getElement, viewBegin_eq, ptrdiffT_of_lt hbound]
  simp only [bind, Except.bind, advance_eq hidx.le, CheckedIterator.dereference, if_pos hidx.ne,
    load, if_pos hinside]

theorem getElement_of_outside {rhs : ℤ} (hrhs : ptrdiffT idx = rhs)
    (h : rhs < 0 ∨ (viewSize sizeOf data : ℤ) < rhs) :
    getElement sizeOf data idx = .error .check := by
  rw [getElement, viewBegin_eq, hrhs]
  simp only [bind, Except.bind, advance_error h]

theorem getElement_of_le (hsize : data.size < 2 ^ 63) (hidx : viewSize sizeOf data ≤ idx)
    (hlt : idx < 2 ^ 64) : getElement sizeOf data idx = .error .check := by
  by_cases heq : viewSize sizeOf data = idx
  · have hbound : idx < 2 ^ 63 := by
      have hdiv : viewSize sizeOf data ≤ data.size := Nat.div_le_self data.size sizeOf
      omega
    rw [getElement, viewBegin_eq, ptrdiffT_of_lt hbound, heq]
    simp only [bind, Except.bind, advance_eq (Nat.le_refl idx), CheckedIterator.dereference, ne_eq,
      not_true_eq_false, if_false]
  · exact getElement_of_outside rfl (ptrdiffT_outside (lt_of_le_of_ne hidx heq) hlt)

theorem sees_elements (hsize : data.size < 2 ^ 63) : Sees sizeOf data (data.elements sizeOf) where
  size_eq := (data.length_elements sizeOf).symm
  get_eq idx hlt := by
    by_cases hidx : idx < viewSize sizeOf data
    · have hrange : (List.range (data.bytes.length / sizeOf))[idx]? = some idx :=
        List.getElem?_range hidx
      have hget : (data.elements sizeOf)[idx]? =
          some (Memory.read data.bytes (idx * sizeOf) sizeOf) := by
        rw [Data.elements, pieces, List.getElem?_map, hrange]
        rfl
      rw [getElement_of_lt hsize hidx, hget]
      rfl
    · have hlength : (data.elements sizeOf).length ≤ idx := by
        rw [data.length_elements]
        exact not_lt.mp hidx
      rw [getElement_of_le hsize (not_lt.mp hidx) hlt, List.getElem?_eq_none hlength]
      rfl

/-- A view sees nothing else. -/
theorem Sees.eq (hsize : data.size < 2 ^ 63) {others : List (List UInt8)}
    (h : Sees sizeOf data parts) (hother : Sees sizeOf data others) : parts = others := by
  have hlength : parts.length = others.length := h.size_eq.symm.trans hother.size_eq
  refine List.ext_getElem hlength fun idx hidx hidx' ↦ ?_
  have hbound : idx < 2 ^ 64 := by
    have hdiv : viewSize sizeOf data ≤ data.size := Nat.div_le_self data.size sizeOf
    have hview := h.size_eq
    omega
  have hget := (h.get_eq idx hbound).symm.trans (hother.get_eq idx hbound)
  rw [List.getElem?_eq_getElem hidx, List.getElem?_eq_getElem hidx'] at hget
  exact Except.ok.inj hget

theorem getElementAt_eq (hsize : data.size < 2 ^ 63) (hlt : idx < 2 ^ 64) :
    getElementAt sizeOf data idx =
      ((data.elements sizeOf)[idx]?).elim (.error .outOfRange) .ok := by
  have hsees : Sees sizeOf data (data.elements sizeOf) := sees_elements hsize
  have hget := hsees.get_eq idx hlt
  have hlength := data.length_elements sizeOf
  by_cases hidx : viewSize sizeOf data ≤ idx
  · rw [getElementAt, if_pos hidx, List.getElem?_eq_none (hlength.trans_le hidx)]
    rfl
  · have hinside : idx < (data.elements sizeOf).length := hlength ▸ not_le.mp hidx
    rw [getElementAt, if_neg hidx, hget, List.getElem?_eq_getElem hinside]
    rfl

/-! ### Runs -/

/-- A string of a view, with the list that the calls amount to. -/
structure Viewed (T : ViewType) where
  data : Data
  list : List (Element T.sizeOf)

/-- What comes of a call, with the number of bytes of the list that is expected. -/
inductive Event
  | returned (it expected : Option CheckedIterator) (size : ℕ)
  | failed (failure : Failure) (size : ℕ)
  deriving DecidableEq

/-- The iterator is the expected one, and a call fails only when no string can be as long. -/
def Event.Right (maxSize : ℕ) : Event → Prop
  | .returned it expected size => it = expected ∧ size ≤ maxSize
  | .failed failure size => failure = .lengthError ∧ maxSize < size

namespace Viewed

variable {T} (v : Viewed T)

/-- Calls that may be made are made on the string and on the list. A call that fails leaves both. -/
def step (call : Call T.sizeOf) : Option (Viewed T × List Event) :=
  (call.apply v.list).map fun result ↦
    match perform v.data T call with
    | .ok (next, it) => (⟨next, result.1⟩,
        [.returned it (result.2.map fun current ↦ ⟨0, current, result.1.length⟩)
          (result.1.length * T.sizeOf)])
    | .error failure => (v, [.failed failure (result.1.length * T.sizeOf)])

/-- The view of the elements sees the list, and any other view sees its bytes, cut into pieces. -/
structure Denotes : Prop where
  dvd : T.sizeOf ∣ v.data.size
  sees : Sees T.sizeOf v.data (v.list.map List.Vector.toList)
  others (sizeOf : ℕ) : Sees sizeOf v.data (pieces sizeOf (flat v.list))

variable {v} {next : Viewed T} {call : Call T.sizeOf} {observed : List Event}

theorem denotes_of_holds (h : Holds T v.data v.list) : v.Denotes := by
  have hsize : v.data.size < 2 ^ 63 := h.size_le.trans_lt T.maxSize_lt
  have helements : v.data.elements T.sizeOf = v.list.map List.Vector.toList := by
    rw [Data.elements, h.bytes_eq, flat, pieces_flatten T.sizeOf_pos length_of_mem_map]
  refine ⟨⟨v.list.length, ?_⟩, helements ▸ sees_elements hsize, fun sizeOf ↦ ?_⟩
  · rw [h.size_eq, Nat.mul_comm]
  · rw [← h.bytes_eq]
    exact sees_elements hsize

/-- Assumes: a list that a string can have. -/
theorem Denotes.bytes_eq (h : v.Denotes) (hle : v.list.length * T.sizeOf ≤ T.maxSize) :
    v.data.bytes = flat v.list := by
  obtain ⟨count, hcount⟩ := h.dvd
  have hview : viewSize T.sizeOf v.data = v.list.length := by
    rw [h.sees.size_eq, List.length_map]
  have hsame : count = v.list.length := by
    rw [← hview, viewSize, hcount, Nat.mul_div_cancel_left count T.sizeOf_pos]
  have hlength : v.data.bytes.length = v.list.length * T.sizeOf := by
    rw [← hsame, Nat.mul_comm]
    exact hcount
  have hsize : v.data.size < 2 ^ 63 := (hlength.trans_le hle).trans_lt T.maxSize_lt
  rw [flat, h.sees.eq hsize (sees_elements hsize)]
  exact (flatten_pieces T.sizeOf_pos hlength).symm

/-- Assumes: a string that has the list, and a call that fits. The step lemma. -/
theorem holds_of_step (h : Holds T v.data v.list) (hfits : Fits T v.data v.list call)
    (hstep : v.step call = some (next, observed)) :
    Holds T next.data next.list ∧ ∀ e ∈ observed, e.Right T.maxSize := by
  obtain ⟨⟨expected, p⟩, happly, heq⟩ := Option.map_eq_some_iff.mp hstep
  have hkeeps := (h.keeps_perform_iff happly).mpr hfits
  cases hperform : perform v.data T call with
  | error failure =>
    rw [hperform] at heq hkeeps
    cases heq
    exact ⟨h, List.forall_mem_singleton.mpr hkeeps⟩
  | ok result =>
    rw [hperform] at heq hkeeps
    obtain ⟨hbytes, hit, hle⟩ := hkeeps
    cases heq
    refine ⟨⟨hbytes, ?_⟩, List.forall_mem_singleton.mpr ⟨hit, hle⟩⟩
    rw [Data.size, hbytes, length_flat]
    exact hle

theorem fits_of_step (h : Holds T v.data v.list) (hstep : v.step call = some (next, observed))
    (hdenotes : next.Denotes) (hright : ∀ e ∈ observed, e.Right T.maxSize) :
    Fits T v.data v.list call := by
  obtain ⟨⟨expected, p⟩, happly, heq⟩ := Option.map_eq_some_iff.mp hstep
  apply (h.keeps_perform_iff happly).mp
  cases hperform : perform v.data T call with
  | error failure =>
    rw [hperform] at heq
    cases heq
    have hlong : (Event.failed failure (expected.length * T.sizeOf)).Right T.maxSize :=
      hright _ List.mem_cons_self
    exact hlong
  | ok result =>
    rw [hperform] at heq
    cases heq
    obtain ⟨hit, hle⟩ := List.forall_mem_singleton.mp hright
    exact ⟨hdenotes.bytes_eq hle, hit, hle⟩

/-- The elements are the list, and the size of the string is a multiple of theirs. -/
structure Initial (v : Viewed T) : Prop where
  size_le : v.data.size ≤ T.maxSize
  dvd : T.sizeOf ∣ v.data.size
  elements_eq : v.data.elements T.sizeOf = v.list.map List.Vector.toList

theorem Initial.holds (h : v.Initial) : Holds T v.data v.list where
  bytes_eq := by
    obtain ⟨count, hcount⟩ := h.dvd
    have hlength : v.data.bytes.length = count * T.sizeOf := by
      rw [Nat.mul_comm]
      exact hcount
    rw [flat, ← h.elements_eq, Data.elements, flatten_pieces T.sizeOf_pos hlength]
  size_le := h.size_le

/-- Assumes: a string whose size is a multiple of that of an element. It is where runs start. -/
theorem exists_initial {data : Data} (hsize : data.size ≤ T.maxSize)
    (hdvd : T.sizeOf ∣ data.size) : ∃ list, (⟨data, list⟩ : Viewed T).Initial := by
  have hparts : ∀ part ∈ data.elements T.sizeOf, part.length = T.sizeOf :=
    fun part hpart ↦ length_of_mem_pieces hpart
  obtain ⟨list, heq⟩ := exists_map_toList hparts
  exact ⟨list, hsize, hdvd, heq.symm⟩

end Viewed

/-- Calls through a view. -/
def viewSystem (T : ViewType) : TransitionSystem (Viewed T) (Call T.sizeOf) Event where
  Initial := Viewed.Initial
  step := Viewed.step

/-- Assumes: a run whose calls fit. The run lemma. -/
theorem holds_of_run {T : ViewType} {v : Viewed T} {history : List Event}
    (run : Run (viewSystem T) (fun v call ↦ Fits T v.data v.list call) v history) :
    Holds T v.data v.list ∧ ∀ e ∈ history, e.Right T.maxSize :=
  run.safe (I := fun v ↦ Holds T v.data v.list) (fun _ hinitial ↦ Viewed.Initial.holds hinitial)
    fun _ _ _ _ _ hholds hfits hstep ↦ Viewed.holds_of_step hholds hfits hstep

/-- In a run whose calls fit, the view denotes the list, and every call returns the iterator that it
should. After such a run, that is so for exactly the calls that fit. -/
theorem denotes_iff_fits (T : ViewType) :
    (∀ v history, Run (viewSystem T) (fun v call ↦ Fits T v.data v.list call) v history →
      v.Denotes ∧ ∀ e ∈ history, e.Right T.maxSize) ∧
    ∀ v history call next observed,
      Run (viewSystem T) (fun v call ↦ Fits T v.data v.list call) v history →
      (viewSystem T).step v call = some (next, observed) →
      ((next.Denotes ∧ ∀ e ∈ observed, e.Right T.maxSize) ↔ Fits T v.data v.list call) := by
  refine ⟨fun v history run ↦ ?_, fun v history call next observed run hstep ↦ ?_⟩
  · obtain ⟨hholds, hright⟩ := holds_of_run run
    exact ⟨Viewed.denotes_of_holds hholds, hright⟩
  · have hholds := (holds_of_run run).1
    constructor
    · rintro ⟨hdenotes, hright⟩
      exact Viewed.fits_of_step hholds hstep hdenotes hright
    · intro hfits
      obtain ⟨hnext, hright⟩ := Viewed.holds_of_step hholds hfits hstep
      exact ⟨Viewed.denotes_of_holds hnext, hright⟩

namespace Scenario

theorem three_lt : 3 < 2 ^ 63 := by decide

theorem maxSize_lt : 4611686018427387903 < 2 ^ 63 := by decide

/-- Colours of three bytes each. -/
def colorView : ViewType where
  sizeOf := 3
  maxSize := 4611686018427387903
  sizeOf_pos := Nat.zero_lt_succ 2
  sizeOf_lt := three_lt
  maxSize_lt := maxSize_lt

def red : Element 3 := .cons 255 (.cons 0 (.cons 0 .nil))
def green : Element 3 := .cons 0 (.cons 255 (.cons 0 .nil))

def colored : Viewed colorView :=
  ⟨{ bytes := [255, 0, 0, 255, 0, 0, 0, 255, 0] }, [red, red, green]⟩

def calls : List (Call 3) :=
  [.pushBack (.value red), .pushBack (.value green), .insertCopies 1 2 (.element 0 false), .erase 0]

def history : List Event :=
  [.returned none none 3, .returned none none 6, .returned none none 12,
    .returned (some ⟨0, 0, 3⟩) (some ⟨0, 0, 3⟩) 9]

def cropped : Viewed colorView := ⟨{ bytes := [255, 0, 0] }, [red]⟩

/-- A third of the numbers of `size_t`, and one more. -/
def manyColors : ℕ := 6148914691236517206

end Scenario

open Scenario in
theorem denotes_iff_fits_colors :
    (colored.Denotes ∧ ∀ e ∈ history, e.Right colorView.maxSize) ∧
    ((cropped.Denotes ∧ ∀ e ∈ [Event.returned none none 3], e.Right colorView.maxSize) ↔
      Fits colorView colored.data colored.list (.resize 1)) := by
  have hstart : (viewSystem colorView).Initial ⟨{}, []⟩ := ⟨by decide, by decide, rfl⟩
  have hexec : (viewSystem colorView).exec (fun v call ↦ Fits colorView v.data v.list call)
      ⟨{}, []⟩ [] calls = some (colored, history) := rfl
  have hrun := (Run.start hstart).of_exec hexec
  exact ⟨(denotes_iff_fits colorView).1 colored history hrun,
    (denotes_iff_fits colorView).2 colored history (.resize 1) cropped _ hrun rfl⟩

open Scenario in
/-- The string of a view that is resized has two bytes, where an element has three. -/
theorem view_not_list :
    ¬ ∀ (T : ViewType) (v : Viewed T) (history : List Event),
      Run (viewSystem T) unguarded v history → v.Denotes := by
  intro hall
  have hstart : (viewSystem colorView).Initial ⟨{}, []⟩ := ⟨by decide, by decide, rfl⟩
  have hstep : ∃ list observed, (viewSystem colorView).step ⟨{}, []⟩ (.resize manyColors) =
      some (⟨{ bytes := [0, 0] }, list⟩, observed) := ⟨_, _, rfl⟩
  obtain ⟨list, observed, heq⟩ := hstep
  have hrun : Run (viewSystem colorView) unguarded ⟨{ bytes := [0, 0] }, list⟩ ([] ++ observed) :=
    (Run.start hstart).next trivial heq
  have hdvd : 3 ∣ 2 := (hall colorView _ _ hrun).dvd
  omega

end Felicia.Containers.DataView
