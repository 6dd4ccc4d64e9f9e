import Mathlib.Tactic.SplitIfs
import Felicia.Support.Loops
import Felicia.Support.Ring

/-!
# The buffers of an inflater

`OutputBuffer` and `InputQueue` of `third_party/chromium/net/websockets/websocket_inflater.cc`: a ring
of a fixed size, and a queue of buffers of one size that grows without a limit. Where a `DCHECK`
fails, the model stops; the lemmas about each operation say that it does not, and what becomes of the
bytes (`contents`).
-/

set_option autoImplicit false
set_option relaxedAutoImplicit false

namespace Felicia

open Support

/-! ### The output buffer -/

/-- `WebSocketInflater::OutputBuffer`: a ring with one cell more than it may hold. -/
structure OutputBuffer where
  capacity : ℕ
  buffer : List UInt8
  head : ℕ
  tail : ℕ
  deriving DecidableEq, Repr

namespace OutputBuffer

def make (capacity : ℕ) : OutputBuffer := ⟨capacity, List.replicate (capacity + 1) 0, 0, 0⟩

/-- `Size`. -/
def size (b : OutputBuffer) : ℕ := (b.tail + b.buffer.length - b.head) % b.buffer.length

/-- `GetTail`: the room from the tail on. -/
def getTail (b : OutputBuffer) : Option ℕ :=
  if b.tail < b.buffer.length then some (min (b.capacity - b.size) (b.buffer.length - b.tail))
  else none

/-- `AdvanceHead`. -/
def advanceHead (b : OutputBuffer) (advance : ℕ) : Option OutputBuffer :=
  if advance ≤ b.size then some { b with head := (b.head + advance) % b.buffer.length } else none

/-- `AdvanceTail`. -/
def advanceTail (b : OutputBuffer) (advance : ℕ) : Option OutputBuffer :=
  if advance + b.size ≤ b.capacity then
    some { b with tail := (b.tail + advance) % b.buffer.length }
  else none

/-- Bytes are put where `GetTail` says, and then `AdvanceTail`. -/
def fill (b : OutputBuffer) (bytes : List UInt8) : Option OutputBuffer :=
  { b with buffer := Memory.write b.buffer b.tail bytes }.advanceTail bytes.length

/-- One of the copies of `Read`. -/
def readPart (b : OutputBuffer) (size : ℕ) : Option (List UInt8 × OutputBuffer) :=
  if b.head < b.buffer.length then
    (b.advanceHead size).map fun next ↦ (Memory.read b.buffer b.head size, next)
  else none

/-- The end of `Read`, when some bytes were copied. -/
def readRest (b : OutputBuffer) (size : ℕ) (bytes : List UInt8) : Option (List UInt8 × OutputBuffer) :=
  if bytes.length = size then some (bytes, b)
  else if b.head ≤ b.tail ∧ size - bytes.length ≤ b.tail - b.head then
    (b.readPart (size - bytes.length)).map fun rest ↦ (bytes ++ rest.1, rest.2)
  else none

/-- `Read`. -/
def read (b : OutputBuffer) (size : ℕ) : Option (List UInt8 × OutputBuffer) :=
  if size ≤ b.size then
    if b.tail < b.head then
      (b.readPart (min size (b.buffer.length - b.head))).bind fun part ↦ part.2.readRest size part.1
    else b.readRest size []
  else none

/-- The bytes that were put into it and not read. -/
def contents (b : OutputBuffer) : List UInt8 := Ring.window b.buffer b.head b.size

/-- The positions are in the ring. -/
structure IsRing (b : OutputBuffer) : Prop where
  length : b.buffer.length = b.capacity + 1
  head : b.head < b.buffer.length
  tail : b.tail < b.buffer.length

variable {b : OutputBuffer}

theorem isRing_make (capacity : ℕ) : (make capacity).IsRing :=
  ⟨List.length_replicate, by simp [make], by simp [make]⟩

@[simp] theorem contents_make (capacity : ℕ) : (make capacity).contents = [] := by
  simp [contents, size, make]

@[simp] theorem size_make (capacity : ℕ) : (make capacity).size = 0 := by
  simp [size, make]

namespace IsRing

theorem size_eq (h : b.IsRing) :
    b.size = if b.head ≤ b.tail then b.tail - b.head else b.tail + b.buffer.length - b.head := by
  have hhead := h.head
  have htail := h.tail
  unfold size
  split_ifs with hle
  · rw [Nat.mod_eq_sub_mod (by omega), Nat.mod_eq_of_lt (by omega)]
    omega
  · exact Nat.mod_eq_of_lt (by omega)

/-- The tail is behind as many cells as there are bytes. -/
theorem size_of_tail (h : b.IsRing) {count : ℕ} (hcount : count ≤ b.capacity)
    (htail : b.tail = (b.head + count) % b.buffer.length) : b.size = count := by
  have hlength := h.length
  have hhead := h.head
  rw [h.size_eq]
  by_cases hover : b.head + count < b.buffer.length
  · rw [Nat.mod_eq_of_lt hover] at htail
    rw [if_pos (by omega)]
    omega
  · rw [Nat.mod_eq_sub_mod (by omega), Nat.mod_eq_of_lt (by omega)] at htail
    rw [if_neg (by omega)]
    omega

theorem size_le (h : b.IsRing) : b.size ≤ b.capacity := by
  have hlength := h.length
  have hlt : b.size < b.buffer.length := Nat.mod_lt _ (by omega)
  omega

theorem tail_eq (h : b.IsRing) : (b.head + b.size) % b.buffer.length = b.tail := by
  have hhead := h.head
  have htail := h.tail
  rw [h.size_eq]
  split_ifs with hle
  · rw [Nat.add_sub_cancel' hle, Nat.mod_eq_of_lt htail]
  · rw [Nat.mod_eq_sub_mod (by omega), Nat.mod_eq_of_lt (by omega)]
    omega

theorem length_contents (h : b.IsRing) : b.contents.length = b.size :=
  Ring.length_window (by have hle := h.size_le; have hlength := h.length; omega)

/-- Assumes: no more than there is. The head moves over the first bytes. -/
theorem advanceHead_spec (h : b.IsRing) {advance : ℕ} (hle : advance ≤ b.size) :
    ∃ next, b.advanceHead advance = some next ∧ next.IsRing ∧ next.capacity = b.capacity ∧
      next.size = b.size - advance ∧ next.contents = b.contents.drop advance := by
  have hlength := h.length
  have hsize := h.size_le
  have htail := h.tail_eq
  have hring : IsRing { b with head := (b.head + advance) % b.buffer.length } :=
    ⟨hlength, Nat.mod_lt _ (by omega), h.tail⟩
  have hnext : { b with head := (b.head + advance) % b.buffer.length }.size = b.size - advance := by
    refine hring.size_of_tail (by simp only; omega) ?_
    simp only
    rw [Nat.mod_add_mod, ← htail]
    congr 1
    omega
  refine ⟨_, if_pos hle, hring, rfl, hnext, ?_⟩
  rw [contents, hnext, contents, Ring.drop_window hle (by omega)]

theorem readPart_spec (h : b.IsRing) {size : ℕ} (hle : size ≤ b.size)
    (hend : b.head + size ≤ b.buffer.length) :
    ∃ next, b.readPart size = some (b.contents.take size, next) ∧ next.IsRing ∧
      next.capacity = b.capacity ∧ next.size = b.size - size ∧
        next.contents = b.contents.drop size := by
  obtain ⟨next, hnext, hring, hcapacity, hsize, hcontents⟩ := h.advanceHead_spec hle
  refine ⟨next, ?_, hring, hcapacity, hsize, hcontents⟩
  rw [readPart, if_pos h.head, hnext, contents, Ring.take_window hle, Ring.window_eq_read hend]
  rfl

/-- Assumes: no more than there is. Reading gives the first bytes. -/
theorem read_spec (h : b.IsRing) {size : ℕ} (hle : size ≤ b.size) :
    ∃ next, b.read size = some (b.contents.take size, next) ∧ next.IsRing ∧
      next.capacity = b.capacity ∧ next.size = b.size - size ∧
        next.contents = b.contents.drop size := by
  have hhead := h.head
  have htail := h.tail
  have hsize_eq := h.size_eq
  unfold read
  rw [if_pos hle]
  by_cases hwraps : b.tail < b.head
  · rw [if_pos hwraps]
    rw [if_neg (by omega)] at hsize_eq
    obtain ⟨first, hfirst, hring, hcapacity, hsize, hcontents⟩ :=
      h.readPart_spec (show min size (b.buffer.length - b.head) ≤ b.size by omega) (by omega)
    have hcopied : (b.contents.take (min size (b.buffer.length - b.head))).length =
        min size (b.buffer.length - b.head) := by
      rw [List.length_take, h.length_contents]
      omega
    rw [hfirst, Option.bind_some]
    simp only [readRest, hcopied]
    by_cases hall : min size (b.buffer.length - b.head) = size
    · rw [if_pos hall]
      rw [hall] at hsize hcontents ⊢
      exact ⟨first, rfl, hring, hcapacity, hsize, hcontents⟩
    · -- the rest is at the beginning of the ring
      have hzero : first.head = 0 ∧ first.tail = b.tail := by
        rw [readPart, if_pos hhead, advanceHead, if_pos (by omega)] at hfirst
        rw [← (Prod.mk.inj (Option.some.inj hfirst)).2]
        refine ⟨?_, rfl⟩
        simp only
        rw [Nat.min_eq_right (by omega), Nat.add_sub_cancel' hhead.le, Nat.mod_self]
      have hlength := hring.length
      have hlength' := h.length
      rw [if_neg hall, if_pos (by omega)]
      obtain ⟨last, hlast, hring', hcapacity', hsize', hcontents'⟩ :=
        hring.readPart_spec (show size - min size (b.buffer.length - b.head) ≤ first.size by omega)
          (by omega)
      refine ⟨last, ?_, hring', hcapacity'.trans hcapacity, by omega, ?_⟩
      · have hsum : min size (b.buffer.length - b.head) +
            (size - min size (b.buffer.length - b.head)) = size := by omega
        rw [hlast, hcontents, Option.map_some, ← List.take_add, hsum]
      · rw [hcontents', hcontents, List.drop_drop]
        congr 1
        omega
  · rw [if_neg hwraps, readRest]
    rw [if_pos (by omega)] at hsize_eq
    by_cases hnone : ([] : List UInt8).length = size
    · rw [if_pos hnone, ← hnone]
      exact ⟨b, rfl, h, rfl, rfl, rfl⟩
    · obtain ⟨last, hlast, hrest⟩ := h.readPart_spec hle (by omega)
      rw [if_neg hnone, if_pos ⟨by omega, by simp only [List.length_nil]; omega⟩, List.length_nil,
        Nat.sub_zero, hlast]
      exact ⟨last, rfl, hrest⟩

theorem getTail_spec (h : b.IsRing) :
    ∃ room, b.getTail = some room ∧ b.size + room ≤ b.capacity ∧
      b.tail + room ≤ b.buffer.length ∧ (room = 0 → b.size = b.capacity) := by
  have hlength := h.length
  have hsize := h.size_le
  have htail := h.tail
  refine ⟨_, if_pos htail, by omega, by omega, fun hnone ↦ ?_⟩
  omega

/-- Assumes: no more than `GetTail` has room for. The bytes are put behind the others. -/
theorem fill_spec (h : b.IsRing) {bytes : List UInt8} (hroom : b.size + bytes.length ≤ b.capacity)
    (hend : b.tail + bytes.length ≤ b.buffer.length) :
    ∃ next, b.fill bytes = some next ∧ next.IsRing ∧ next.capacity = b.capacity ∧
      next.size = b.size + bytes.length ∧ next.contents = b.contents ++ bytes := by
  have hlength := h.length
  have htail := h.tail_eq
  have hwritten : (Memory.write b.buffer b.tail bytes).length = b.buffer.length :=
    Memory.length_write hend
  have hsame : { b with buffer := Memory.write b.buffer b.tail bytes }.size = b.size := by
    simp only [size, hwritten]
  have hfill : b.fill bytes = some { b with
      buffer := Memory.write b.buffer b.tail bytes
      tail := (b.tail + bytes.length) % b.buffer.length } := by
    rw [fill, advanceTail, hsame, if_pos (by simp only; omega)]
    simp only [hwritten]
  have hring : IsRing { b with
      buffer := Memory.write b.buffer b.tail bytes
      tail := (b.tail + bytes.length) % b.buffer.length } :=
    ⟨hwritten.trans hlength, hwritten.symm ▸ h.head, hwritten.symm ▸ Nat.mod_lt _ (by omega)⟩
  have hsize : { b with
      buffer := Memory.write b.buffer b.tail bytes
      tail := (b.tail + bytes.length) % b.buffer.length }.size = b.size + bytes.length := by
    refine hring.size_of_tail hroom ?_
    simp only [hwritten]
    rw [← htail, Nat.mod_add_mod, Nat.add_assoc]
  refine ⟨_, hfill, hring, rfl, hsize, ?_⟩
  rw [contents, hsize, contents]
  simp only
  rw [← htail]
  exact Ring.window_write h.head (by omega) (by rw [htail]; exact hend)

end IsRing

end OutputBuffer

/-! ### The input queue -/

/-- `WebSocketInflater::InputQueue`: buffers of one size. -/
structure InputQueue where
  capacity : ℕ
  headOfFirstBuffer : ℕ := 0
  tailOfLastBuffer : ℕ := 0
  buffers : List (List UInt8) := []
  deriving DecidableEq, Repr

namespace InputQueue

/-- `IsEmpty`. -/
def isEmpty (q : InputQueue) : Bool := q.buffers.isEmpty

/-- `Top`: the bytes that were not consumed of the first buffer. -/
def top (q : InputQueue) : Option (List UInt8) :=
  match q.buffers with
  | [] => none
  | [buffer] =>
    some (Memory.read buffer q.headOfFirstBuffer (q.tailOfLastBuffer - q.headOfFirstBuffer))
  | buffer :: _ => some (Memory.read buffer q.headOfFirstBuffer (q.capacity - q.headOfFirstBuffer))

/-- `PushToLastBuffer`: how many bytes were copied. -/
def pushToLastBuffer (q : InputQueue) (data : List UInt8) : Option (InputQueue × ℕ) :=
  let numBytesToCopy := min data.length (q.capacity - q.tailOfLastBuffer)
  match q.buffers.getLast? with
  | none => none
  | some last =>
    if numBytesToCopy = 0 then some (q, 0)
    else
      some
        ({ q with
            buffers := q.buffers.dropLast ++
              [Memory.write last q.tailOfLastBuffer (data.take numBytesToCopy)]
            tailOfLastBuffer := q.tailOfLastBuffer + numBytesToCopy },
          numBytesToCopy)

/-- A round of `Push`, when some bytes were copied. -/
def pushRound (data : List UInt8) (s : InputQueue × ℕ) : LoopRound (InputQueue × ℕ) InputQueue :=
  if s.2 < data.length then
    if s.1.isEmpty || s.1.tailOfLastBuffer == s.1.capacity then
      match { s.1 with
          buffers := s.1.buffers ++ [List.replicate s.1.capacity 0]
          tailOfLastBuffer := 0 }.pushToLastBuffer (data.drop s.2) with
      | none => .failed
      | some (next, copied) => .again (next, s.2 + copied)
    else .failed
  else .done s.1

/-- `Push`. -/
def push (q : InputQueue) (data : List UInt8) : Option InputQueue :=
  if data = [] then some q
  else
    (if q.isEmpty then some (q, 0) else q.pushToLastBuffer data).bind fun first ↦
      (runLoop (pushRound data) (data.length + 1) first).result?

/-- The beginning of `Consume`. -/
def consumeFirst (q : InputQueue) (size : ℕ) : InputQueue :=
  if q.headOfFirstBuffer + size = q.capacity then
    { q with buffers := q.buffers.tail, headOfFirstBuffer := 0 }
  else { q with headOfFirstBuffer := q.headOfFirstBuffer + size }

/-- `Consume`. -/
def consume (q : InputQueue) (size : ℕ) : Option InputQueue :=
  if !q.isEmpty && size + q.headOfFirstBuffer ≤ q.capacity then
    let q := q.consumeFirst size
    if q.buffers.length = 1 ∧ q.headOfFirstBuffer = q.tailOfLastBuffer then
      some { q with buffers := q.buffers.tail, headOfFirstBuffer := 0, tailOfLastBuffer := 0 }
    else some q
  else none

/-- The bytes in some buffers, the last of which is used up to a place. -/
def stored (tail : ℕ) : List (List UInt8) → List UInt8
  | [] => []
  | [buffer] => buffer.take tail
  | buffer :: next :: rest => buffer ++ stored tail (next :: rest)

/-- The bytes that were pushed and not consumed. -/
def contents (q : InputQueue) : List UInt8 :=
  (stored q.tailOfLastBuffer q.buffers).drop q.headOfFirstBuffer

/-- The buffers have one size, and there is something in the first and the last of them. -/
structure IsQueue (q : InputQueue) : Prop where
  pos : 0 < q.capacity
  length : ∀ buffer ∈ q.buffers, buffer.length = q.capacity
  head : q.headOfFirstBuffer < q.capacity
  headOfNone : q.buffers = [] → q.headOfFirstBuffer = 0
  tail : q.buffers ≠ [] → 0 < q.tailOfLastBuffer ∧ q.tailOfLastBuffer ≤ q.capacity
  single : q.buffers.length = 1 → q.headOfFirstBuffer < q.tailOfLastBuffer

variable {q : InputQueue} {data : List UInt8}

theorem stored_cons {tail : ℕ} {buffer : List UInt8} {rest : List (List UInt8)} (h : rest ≠ []) :
    stored tail (buffer :: rest) = buffer ++ stored tail rest := by
  cases rest with
  | nil => exact absurd rfl h
  | cons next rest => rfl

theorem stored_concat (tail : ℕ) (buffers : List (List UInt8)) (last : List UInt8) :
    stored tail (buffers ++ [last]) = buffers.flatten ++ last.take tail := by
  induction buffers with
  | nil => rfl
  | cons buffer rest ih =>
    rw [List.cons_append, stored_cons (by simp), ih, List.flatten_cons, List.append_assoc]

theorem isQueue_empty {capacity : ℕ} (h : 0 < capacity) : IsQueue { capacity := capacity } :=
  ⟨h, by simp, h, fun _ ↦ rfl, fun hne ↦ absurd rfl hne, fun hone ↦ absurd hone (by simp)⟩

theorem contents_of_nil (h : q.buffers = []) : q.contents = [] := by
  rw [contents, h]
  exact List.drop_nil

/-- Assumes: buffers of one size, of which there is one. Bytes are put behind the others, as far as
there is room. -/
theorem pushToLastBuffer_spec (hlength : ∀ buffer ∈ q.buffers, buffer.length = q.capacity)
    (htail : q.tailOfLastBuffer ≤ q.capacity) (hne : q.buffers ≠ []) (data : List UInt8) :
    ∃ buffers, q.pushToLastBuffer data =
        some ({ q with
            buffers := buffers
            tailOfLastBuffer :=
              q.tailOfLastBuffer + min data.length (q.capacity - q.tailOfLastBuffer) },
          min data.length (q.capacity - q.tailOfLastBuffer)) ∧
      buffers.length = q.buffers.length ∧ (∀ buffer ∈ buffers, buffer.length = q.capacity) ∧
        stored (q.tailOfLastBuffer + min data.length (q.capacity - q.tailOfLastBuffer)) buffers =
          stored q.tailOfLastBuffer q.buffers ++
            data.take (min data.length (q.capacity - q.tailOfLastBuffer)) := by
  obtain ⟨init, last, hbuffers⟩ : ∃ init last, q.buffers = init ++ [last] :=
    ⟨q.buffers.dropLast, q.buffers.getLast hne, (List.dropLast_append_getLast hne).symm⟩
  have hlast : last.length = q.capacity := hlength last (by simp [hbuffers])
  have hgetLast : q.buffers.getLast? = some last := by simp [hbuffers]
  unfold pushToLastBuffer
  rw [hgetLast]
  simp only
  by_cases hnone : min data.length (q.capacity - q.tailOfLastBuffer) = 0
  · rw [if_pos hnone, hnone]
    exact ⟨q.buffers, rfl, rfl, hlength, by simp⟩
  · rw [if_neg hnone]
    have hcopied : (data.take (min data.length (q.capacity - q.tailOfLastBuffer))).length =
        min data.length (q.capacity - q.tailOfLastBuffer) := by
      rw [List.length_take]
      omega
    have hroom : q.tailOfLastBuffer +
        (data.take (min data.length (q.capacity - q.tailOfLastBuffer))).length ≤ last.length := by
      omega
    refine ⟨_, rfl, ?_, ?_, ?_⟩
    · simp [hbuffers]
    · intro buffer hbuffer
      rw [hbuffers, List.dropLast_concat] at hbuffer
      rcases List.mem_append.mp hbuffer with hinit | hnew
      · exact hlength buffer (by rw [hbuffers]; exact List.mem_append_left _ hinit)
      · rw [List.mem_singleton.mp hnew, Memory.length_write hroom, hlast]
    · have hwritten : (Memory.write last q.tailOfLastBuffer
          (data.take (min data.length (q.capacity - q.tailOfLastBuffer)))).take
            (q.tailOfLastBuffer + min data.length (q.capacity - q.tailOfLastBuffer)) =
          last.take q.tailOfLastBuffer ++
            data.take (min data.length (q.capacity - q.tailOfLastBuffer)) := by
        rw [Memory.write]
        refine List.take_left' ?_
        rw [List.length_append, List.length_take, hcopied]
        omega
      rw [hbuffers, List.dropLast_concat, stored_concat, stored_concat, hwritten, List.append_assoc]

theorem IsQueue.head_lt_length (h : q.IsQueue) (hne : q.buffers ≠ []) :
    q.headOfFirstBuffer < (stored q.tailOfLastBuffer q.buffers).length := by
  have htail := h.tail hne
  have hlength := h.length
  have hsingle := h.single
  have hhead := h.head
  cases hbuffers : q.buffers with
  | nil => exact absurd hbuffers hne
  | cons buffer rest =>
    rw [hbuffers] at hlength hsingle
    have hbuffer := hlength buffer List.mem_cons_self
    by_cases hrest : rest = []
    · subst hrest
      have hlt := hsingle rfl
      simp only [stored, List.length_take]
      omega
    · rw [stored_cons hrest, List.length_append]
      omega

theorem IsQueue.contents_eq_nil_iff (h : q.IsQueue) : q.contents = [] ↔ q.buffers = [] := by
  refine ⟨fun hnone ↦ ?_, contents_of_nil⟩
  by_contra hne
  have hlt := h.head_lt_length hne
  rw [contents, List.drop_eq_nil_iff] at hnone
  omega

/-- What a loop that pushes bytes behind those of a queue keeps. -/
structure Pushing (q : InputQueue) (data : List UInt8) (s : InputQueue × ℕ) : Prop where
  capacity : s.1.capacity = q.capacity
  head : s.1.headOfFirstBuffer = q.headOfFirstBuffer
  length : ∀ buffer ∈ s.1.buffers, buffer.length = q.capacity
  copied : s.2 ≤ data.length
  stored : stored s.1.tailOfLastBuffer s.1.buffers =
    stored q.tailOfLastBuffer q.buffers ++ data.take s.2
  nonempty : s.1.buffers = [] → q.buffers = [] ∧ s.2 = 0
  tail : s.1.buffers ≠ [] → 0 < s.1.tailOfLastBuffer ∧ s.1.tailOfLastBuffer ≤ q.capacity
  full : s.2 < data.length → s.1.buffers ≠ [] → s.1.tailOfLastBuffer = q.capacity
  single : s.1.buffers.length = 1 → q.headOfFirstBuffer < s.1.tailOfLastBuffer

/-- A new buffer is empty. -/
theorem stored_newBuffer {tail capacity : ℕ} {buffers : List (List UInt8)}
    (hlength : ∀ buffer ∈ buffers, buffer.length = capacity)
    (hfull : buffers ≠ [] → tail = capacity) (new : List UInt8) :
    stored 0 (buffers ++ [new]) = stored tail buffers := by
  rw [stored_concat, List.take_zero, List.append_nil]
  by_cases hne : buffers = []
  · rw [hne]
    rfl
  · obtain ⟨init, last, rfl⟩ : ∃ init last, buffers = init ++ [last] :=
      ⟨buffers.dropLast, buffers.getLast hne, (List.dropLast_append_getLast hne).symm⟩
    have hlast : last.length = tail := (hlength last (by simp)).trans (hfull hne).symm
    rw [stored_concat, ← hlast, List.take_length, List.flatten_append, List.flatten_singleton]

theorem pushRound_meets (hq : q.IsQueue) {s : InputQueue × ℕ} (h : Pushing q data s) :
    (pushRound data s).Meets False
      (fun next ↦ Pushing q data next ∧ data.length - next.2 < data.length - s.2)
      (fun last ↦ Pushing q data (last, data.length)) := by
  have hpos := hq.pos
  unfold pushRound
  by_cases hmore : s.2 < data.length
  · have hready : (s.1.isEmpty || s.1.tailOfLastBuffer == s.1.capacity) = true := by
      by_cases hne : s.1.buffers = []
      · simp [isEmpty, hne]
      · simp [h.full hmore hne, h.capacity]
    rw [if_pos hmore, if_pos hready]
    have hdrop : (data.drop s.2).length = data.length - s.2 := List.length_drop
    obtain ⟨buffers, hpush, hcount, hlength, hstored⟩ := pushToLastBuffer_spec
      (q := { s.1 with
        buffers := s.1.buffers ++ [List.replicate s.1.capacity 0]
        tailOfLastBuffer := 0 }) (by
        intro buffer hbuffer
        rcases List.mem_append.mp hbuffer with hold | hnew
        · rw [h.length buffer hold, h.capacity]
        · rw [List.mem_singleton.mp hnew, List.length_replicate])
      (Nat.zero_le _) (by simp) (data.drop s.2)
    have hnew := stored_newBuffer h.length (h.full hmore)
      (List.replicate s.1.capacity 0)
    simp only [Nat.zero_add, Nat.sub_zero, h.capacity] at hpush hstored hnew
    rw [hnew, h.stored, List.append_assoc, ← List.take_add] at hstored
    have hsome : buffers ≠ [] := by
      intro hnone
      rw [hnone] at hcount
      simp at hcount
    simp only [List.length_append, List.length_singleton] at hcount
    simp only [h.capacity]
    rw [hpush]
    refine ⟨⟨rfl, h.head, by simpa only [h.capacity] using hlength, by simp only; omega, hstored,
      fun hnone ↦ absurd hnone hsome, fun _ ↦ by simp only; omega, fun hleft _ ↦ ?_, fun hone ↦ ?_⟩,
      by simp only; omega⟩
    · simp only at hleft ⊢
      omega
    · simp only at hone ⊢
      have hnone : s.1.buffers = [] := List.eq_nil_of_length_eq_zero (by omega)
      have hzero := hq.headOfNone (h.nonempty hnone).1
      omega
  · have hall : s.2 = data.length := by
      have hcopied := h.copied
      omega
    rw [if_neg hmore]
    rw [← hall]
    exact h

/-- Bytes are pushed behind the others. -/
theorem IsQueue.push_spec (hq : q.IsQueue) (data : List UInt8) :
    ∃ next, q.push data = some next ∧ next.IsQueue ∧ next.capacity = q.capacity ∧
      next.contents = q.contents ++ data := by
  unfold push
  by_cases hdata : data = []
  · rw [if_pos hdata, hdata, List.append_nil]
    exact ⟨q, rfl, hq, rfl, rfl⟩
  · have hpos := List.length_pos_iff.mpr hdata
    rw [if_neg hdata]
    obtain ⟨first, hfirst, hpushing⟩ : ∃ first,
        (if q.isEmpty then some (q, 0) else q.pushToLastBuffer data) = some first ∧
          Pushing q data first := by
      by_cases hempty : q.buffers = []
      · refine ⟨(q, 0), if_pos (by simp [isEmpty, hempty]), rfl, rfl, hq.length, Nat.zero_le _,
          by simp, fun _ ↦ ⟨hempty, rfl⟩, hq.tail, fun _ hne ↦ absurd hempty hne, hq.single⟩
      · obtain ⟨htail, hle⟩ := hq.tail hempty
        obtain ⟨buffers, hpush, hcount, hlength, hstored⟩ :=
          pushToLastBuffer_spec hq.length hle hempty data
        have hsome : buffers ≠ [] := by
          intro hnone
          rw [hnone] at hcount
          exact hempty (List.eq_nil_of_length_eq_zero hcount.symm)
        refine ⟨_, (if_neg (by simp [isEmpty, hempty])).trans hpush, rfl, rfl, hlength,
          Nat.min_le_left _ _, hstored, fun hnone ↦ absurd hnone hsome,
          fun _ ↦ by simp only; omega, fun hleft _ ↦ ?_, fun hone ↦ ?_⟩
        · simp only at hleft ⊢
          omega
        · have hsingle := hq.single (hcount.symm.trans hone)
          simp only
          omega
    obtain ⟨last, hlast, hresult⟩ := (runLoop_meets
      (fun s : InputQueue × ℕ ↦ data.length - s.2)
      (fun s hs ↦ pushRound_meets hq hs) hpushing
      (show data.length - first.2 < data.length + 1 by omega)).finished
    rw [hfirst, Option.bind_some, hlast]
    have hsome : last.buffers ≠ [] := fun hnone ↦ by
      have hzero := (hresult.nonempty hnone).2
      simp only at hzero
      omega
    have hhead := hresult.head
    refine ⟨last, rfl, ⟨hresult.capacity ▸ hq.pos, fun buffer hbuffer ↦
      (hresult.length buffer hbuffer).trans hresult.capacity.symm, ?_, fun hnone ↦
      absurd hnone hsome, fun _ ↦ hresult.capacity.symm ▸ hresult.tail hsome, fun hone ↦ ?_⟩,
      hresult.capacity, ?_⟩
    · rw [hhead, hresult.capacity]
      exact hq.head
    · rw [hhead]
      exact hresult.single hone
    · rw [contents, hresult.stored, hhead, contents, List.take_length, List.drop_append_of_le_length]
      by_cases hempty : q.buffers = []
      · rw [hq.headOfNone hempty]
        exact Nat.zero_le _
      · exact (hq.head_lt_length hempty).le

/-- Assumes: one buffer. -/
theorem IsQueue.consume_single (hq : q.IsQueue) {buffer : List UInt8} (hbuffers : q.buffers = [buffer])
    {size : ℕ} (hsize : size ≤ q.tailOfLastBuffer - q.headOfFirstBuffer) :
    ∃ next, q.consume size = some next ∧ next.IsQueue ∧ next.capacity = q.capacity ∧
      next.contents = q.contents.drop size ∧
        (size = q.tailOfLastBuffer - q.headOfFirstBuffer → next.buffers.length < q.buffers.length) := by
  have hbuffer : buffer.length = q.capacity := hq.length buffer (by rw [hbuffers]; exact List.mem_cons_self)
  have hlt := hq.single (by rw [hbuffers]; rfl)
  have htail := hq.tail (by rw [hbuffers]; exact List.cons_ne_nil _ _)
  have hpos := hq.pos
  have hcontents : q.contents = (buffer.take q.tailOfLastBuffer).drop q.headOfFirstBuffer := by
    rw [contents, hbuffers, stored]
  have hlength : (buffer.take q.tailOfLastBuffer).length = q.tailOfLastBuffer := by
    rw [List.length_take]
    omega
  unfold consume
  rw [if_pos (by simp [isEmpty, hbuffers]; omega)]
  by_cases hend : q.headOfFirstBuffer + size = q.capacity
  · have hfirst : q.consumeFirst size = { q with buffers := [], headOfFirstBuffer := 0 } := by
      rw [consumeFirst, if_pos hend, hbuffers]
      rfl
    simp only [hfirst]
    rw [if_neg (by simp)]
    refine ⟨_, rfl, ⟨hpos, by simp, hpos, fun _ ↦ rfl, fun hne ↦ absurd rfl hne,
      fun hone ↦ absurd hone (by simp)⟩, rfl, ?_, fun _ ↦ by rw [hbuffers]; exact Nat.one_pos⟩
    rw [contents_of_nil rfl, hcontents, List.drop_drop, List.drop_eq_nil_of_le (by omega)]
  · have hfirst : q.consumeFirst size =
        { q with headOfFirstBuffer := q.headOfFirstBuffer + size } := by
      rw [consumeFirst, if_neg hend]
    simp only [hfirst]
    by_cases hnone : q.headOfFirstBuffer + size = q.tailOfLastBuffer
    · rw [if_pos ⟨by rw [hbuffers]; rfl, hnone⟩]
      refine ⟨_, rfl, ⟨hpos, by simp [hbuffers], hpos, fun _ ↦ rfl, fun hne ↦
        absurd (by rw [hbuffers]; rfl) hne, fun hone ↦ absurd hone (by simp [hbuffers])⟩, rfl, ?_,
        fun _ ↦ by simp [hbuffers]⟩
      rw [contents_of_nil (by rw [hbuffers]; rfl), hcontents, List.drop_drop,
        List.drop_eq_nil_of_le (by omega)]
    · rw [if_neg fun hboth ↦ hnone hboth.2]
      refine ⟨_, rfl, ⟨hpos, hq.length, by simp only; omega, fun hempty ↦ ?_, hq.tail, fun _ ↦ by
        simp only; omega⟩, rfl, ?_, fun hall ↦ by omega⟩
      · rw [hbuffers] at hempty
        exact absurd hempty (List.cons_ne_nil _ _)
      · rw [contents, hbuffers, stored, hcontents, List.drop_drop]

/-- Assumes: more than one buffer. -/
theorem IsQueue.consume_several (hq : q.IsQueue) {buffer : List UInt8} {rest : List (List UInt8)}
    (hbuffers : q.buffers = buffer :: rest) (hrest : rest ≠ []) {size : ℕ}
    (hsize : size ≤ q.capacity - q.headOfFirstBuffer) :
    ∃ next, q.consume size = some next ∧ next.IsQueue ∧ next.capacity = q.capacity ∧
      next.contents = q.contents.drop size ∧
        (size = q.capacity - q.headOfFirstBuffer → next.buffers.length < q.buffers.length) := by
  have hlength := hq.length
  have htail := hq.tail (by rw [hbuffers]; exact List.cons_ne_nil _ _)
  have hhead := hq.head
  rw [hbuffers] at hlength
  have hbuffer := hlength buffer List.mem_cons_self
  have hcount := List.length_pos_iff.mpr hrest
  have hcontents : q.contents = (buffer ++ stored q.tailOfLastBuffer rest).drop q.headOfFirstBuffer := by
    rw [contents, hbuffers, stored_cons hrest]
  unfold consume
  rw [if_pos (by simp [isEmpty, hbuffers]; omega)]
  by_cases hend : q.headOfFirstBuffer + size = q.capacity
  · have hfirst : q.consumeFirst size = { q with buffers := rest, headOfFirstBuffer := 0 } := by
      rw [consumeFirst, if_pos hend, hbuffers]
      rfl
    simp only [hfirst]
    rw [if_neg (by omega)]
    refine ⟨_, rfl, ⟨hq.pos, fun b hb ↦ hlength b (List.mem_cons_of_mem _ hb), hq.pos,
      fun _ ↦ rfl, fun _ ↦ htail, fun _ ↦ htail.1⟩, rfl, ?_, fun _ ↦ by
      rw [hbuffers]; exact Nat.lt_succ_self _⟩
    rw [hcontents, List.drop_drop, hend, ← hbuffer, List.drop_left, contents, List.drop_zero]
  · have hfirst : q.consumeFirst size =
        { q with headOfFirstBuffer := q.headOfFirstBuffer + size } := by
      rw [consumeFirst, if_neg hend]
    simp only [hfirst]
    rw [if_neg (by simp only [hbuffers, List.length_cons]; omega)]
    refine ⟨_, rfl, ⟨hq.pos, hq.length, by simp only; omega, fun hempty ↦ ?_, hq.tail, fun hone ↦ ?_⟩,
      rfl, ?_, fun hall ↦ by omega⟩
    · rw [hbuffers] at hempty
      exact absurd hempty (List.cons_ne_nil _ _)
    · rw [hbuffers, List.length_cons] at hone
      omega
    · rw [contents, contents, List.drop_drop]

/-- Assumes: a queue that is not empty. Its first bytes are at the top, and some of them can be
consumed. -/
theorem IsQueue.consume_spec (hq : q.IsQueue) (hne : q.buffers ≠ []) :
    ∃ top, q.top = some top ∧ top ≠ [] ∧ (∃ more, q.contents = top ++ more) ∧
      ∀ size ≤ top.length, ∃ next, q.consume size = some next ∧ next.IsQueue ∧
        next.capacity = q.capacity ∧ next.contents = q.contents.drop size ∧
          (size = top.length → next.buffers.length < q.buffers.length) := by
  obtain ⟨buffer, rest, hbuffers⟩ := List.exists_cons_of_ne_nil hne
  have hbuffer : buffer.length = q.capacity :=
    hq.length buffer (by rw [hbuffers]; exact List.mem_cons_self)
  have htail := hq.tail hne
  have hhead := hq.head
  by_cases hrest : rest = []
  · subst hrest
    have hlt := hq.single (by rw [hbuffers]; rfl)
    have hlength : (Memory.read buffer q.headOfFirstBuffer
        (q.tailOfLastBuffer - q.headOfFirstBuffer)).length =
          q.tailOfLastBuffer - q.headOfFirstBuffer := Memory.length_read (by omega)
    refine ⟨_, by rw [top, hbuffers], ?_, ⟨[], ?_⟩, fun size hsize ↦ ?_⟩
    · exact List.ne_nil_of_length_pos (by omega)
    · rw [contents, hbuffers, stored, List.drop_take, List.append_nil, Memory.read]
    · rw [hlength] at hsize ⊢
      exact hq.consume_single hbuffers hsize
  · have hlength : (Memory.read buffer q.headOfFirstBuffer
        (q.capacity - q.headOfFirstBuffer)).length = q.capacity - q.headOfFirstBuffer :=
      Memory.length_read (by omega)
    refine ⟨Memory.read buffer q.headOfFirstBuffer (q.capacity - q.headOfFirstBuffer), ?_, ?_,
      ⟨stored q.tailOfLastBuffer rest, ?_⟩, fun size hsize ↦ ?_⟩
    · obtain ⟨next, rest, rfl⟩ := List.exists_cons_of_ne_nil hrest
      rw [top, hbuffers]
    · exact List.ne_nil_of_length_pos (by omega)
    · rw [contents, hbuffers, stored_cons hrest, List.drop_append_of_le_length (by omega), Memory.read,
        List.take_of_length_le (by rw [List.length_drop]; omega)]
    · rw [hlength] at hsize ⊢
      exact hq.consume_several hbuffers hrest hsize

end InputQueue

end Felicia
