import Felicia.Util.PoolIterator
import Mathlib.Algebra.BigOperators.Group.Finset.Basic
import Mathlib.Algebra.Order.BigOperators.Group.Finset

/-!
# Message filters

`MessageFilter` of `felicia/core/message/message_filter.h`, for messages of `n` types: a queue for
each of them, and how many of these are not empty, which `OnMessage` and `DropMessage` count. When
every queue has a message, the filter callback decides whether the oldest message of each is
notified. It may drop messages, but not call `OnMessage`. The notify callback is run when everything
else is done, so that a call that it makes is a later step.

`DropMessage` of a queue that is empty counts it once more, and `Notify` takes messages also when
the callback dropped the last one of a queue. `accounting_iff` says that the count is right, and
that only messages are taken that there are, until one of the two happens.
-/

set_option autoImplicit false
set_option relaxedAutoImplicit false

namespace Felicia

open Support TransitionSystem

variable {n : ℕ} {M : Fin n → Type}

/-! ### State and functions -/

/-- `MessageFilter`, without its callbacks. -/
structure MessageFilter {n : ℕ} (M : Fin n → Type) where
  queues : ∀ i, Pool (M i)
  /-- A `uint8_t`. -/
  nonEmptyQueueCount : ℕ := 0

/-- A call of the filter callback, or from outside. -/
inductive FilterCall (n : ℕ)
  /-- `DropMessage<N>()`. -/
  | dropMessage (i : Fin n)
  /-- `DropMessage(idx)`. -/
  | dropMessageAt (idx : Fin n)

/-- What is seen of a filter. -/
inductive FilterEvent {n : ℕ} (M : Fin n → Type)
  /-- A message is dropped, and whether the count is right then. -/
  | dropped (isCounted : Bool)
  /-- The filter callback is run, and whether every queue has an element. -/
  | filtered (isComplete : Bool)
  /-- `Notify` takes the front of a queue, and whether the queue has an element. -/
  | took (i : Fin n) (hasElement : Bool)
  /-- The notify callback is run. -/
  | notified (messages : ∀ i, Option (M i))

namespace MessageFilter

variable (f : MessageFilter M)

/-- `MessageFilter(capacity)`. -/
def ofCapacity (capacity : ℕ) : MessageFilter M where
  queues _ := Pool.ofCapacity capacity

def reserve (capacity : ℕ) : MessageFilter M :=
  { f with queues := fun i ↦ (f.queues i).reserve capacity }

/-- `PeekMessage<N>`. -/
def peekMessage (i : Fin n) (idx : ℕ) : Option (M i) := (f.queues i).getElem idx

/-- `MessageCount<N>`. -/
def messageCount (i : Fin n) : ℕ := (f.queues i).size

def doesAllQueueHaveElement : Bool := f.nonEmptyQueueCount = n

def incrementNonEmptyQueueCount : MessageFilter M :=
  { f with nonEmptyQueueCount := (f.nonEmptyQueueCount + 1) % 2 ^ 8 }

def decrementNonEmptyQueueCount : MessageFilter M :=
  { f with nonEmptyQueueCount := (f.nonEmptyQueueCount + (2 ^ 8 - 1)) % 2 ^ 8 }

/-- The queue of a type, further on. -/
def setQueue (i : Fin n) (queue : Pool (M i)) : MessageFilter M :=
  { f with queues := Function.update f.queues i queue }

/-- `push`, until the filter is applied. -/
def push (i : Fin n) (message : M i) : MessageFilter M :=
  let pushed := f.setQueue i ((f.queues i).push message)
  if (f.queues i).empty then pushed.incrementNonEmptyQueueCount else pushed

def pop (i : Fin n) : MessageFilter M :=
  let popped := f.setQueue i (f.queues i).pop
  if (f.queues i).pop.empty then popped.decrementNonEmptyQueueCount else popped

/-- `DropMessage<N>()`. -/
def dropMessage (i : Fin n) : MessageFilter M := f.pop i

/-- `DropMessage(idx)`, whose `switch` has nine cases. -/
def dropMessageAt (idx : Fin n) : MessageFilter M :=
  if idx.val < 9 then f.dropMessage idx else f

/-- The queues that have an element. -/
def nonEmpty : ℕ := ∑ i, (!(f.queues i).empty).toNat

/-- `non_empty_queue_count_` is right. -/
def isCounted : Bool := f.nonEmptyQueueCount = f.nonEmpty

/-- Every queue has an element. -/
def isComplete : Bool := (List.finRange n).all fun i ↦ !(f.queues i).empty

/-- One call. -/
def call : FilterCall n → MessageFilter M
  | .dropMessage i => f.dropMessage i
  | .dropMessageAt idx => f.dropMessageAt idx

/-- Some calls. -/
def runCalls (f : MessageFilter M) : List (FilterCall n) →
    MessageFilter M × List (FilterEvent M)
  | [] => (f, [])
  | c :: calls =>
    let rest := (f.call c).runCalls calls
    (rest.1, .dropped (f.call c).isCounted :: rest.2)

/-- The fronts of some queues are taken. -/
def takeFronts (f : MessageFilter M) : List (Fin n) → MessageFilter M × List (FilterEvent M)
  | [] => (f, [])
  | i :: rest =>
    let taken := (f.pop i).takeFronts rest
    (taken.1, .took i (!(f.queues i).empty) :: taken.2)

/-- `Notify<TypeSize - 1>`, down to the first queue. No queue is changed before its front is taken.
-/
def notify : MessageFilter M × List (FilterEvent M) :=
  let taken := f.takeFronts (List.finRange n).reverse
  (taken.1, taken.2 ++ [.notified fun i ↦ (f.queues i).front])

/-- `ApplyFilter`, with a filter callback if there is one. -/
def applyFilter (callback : Option (MessageFilter M →
    (MessageFilter M × List (FilterEvent M)) × Bool)) : MessageFilter M × List (FilterEvent M) :=
  match callback with
  | none => f.notify
  | some run =>
    if f.doesAllQueueHaveElement then
      let ran := run f
      let notified := if ran.2 then ran.1.1.notify else (ran.1.1, [])
      (notified.1, .filtered f.isComplete :: (ran.1.2 ++ notified.2))
    else (f, [])

/-- `OnMessage`. -/
def onMessage (callback : Option (MessageFilter M →
    (MessageFilter M × List (FilterEvent M)) × Bool)) (i : Fin n) (message : M i) :
    MessageFilter M × List (FilterEvent M) :=
  if (f.push i message).doesAllQueueHaveElement then (f.push i message).applyFilter callback
  else (f.push i message, [])

end MessageFilter

/-! ### Steps -/

/-- What can happen next. -/
inductive FilterAction {n : ℕ} (M : Fin n → Type)
  /-- `OnMessage`, with the calls of the filter callback and what it returns, if there is one. -/
  | onMessage (i : Fin n) (message : M i) (callback : Option (List (FilterCall n) × Bool))
  | call (c : FilterCall n)
  | reserve (capacity : ℕ+)

namespace MessageFilter

variable (f : MessageFilter M)

/-- A filter callback that makes some calls. -/
def callingBack (callback : List (FilterCall n) × Bool) (f : MessageFilter M) :
    (MessageFilter M × List (FilterEvent M)) × Bool :=
  (f.runCalls callback.1, callback.2)

/-- One step. -/
def step : FilterAction M → MessageFilter M × List (FilterEvent M)
  | .onMessage i message callback => f.onMessage (callback.map callingBack) i message
  | .call c => f.runCalls [c]
  | .reserve capacity => (f.reserve capacity, [])

end MessageFilter

/-- A filter from its construction on. -/
def filtering {n : ℕ} (M : Fin n → Type) (capacity : ℕ+) :
    TransitionSystem (MessageFilter M) (FilterAction M) (FilterEvent M) where
  Initial f := f = MessageFilter.ofCapacity capacity
  step f a := some (f.step a)

/-! ### Accounting -/

/-- What a call or a notification promises. -/
def FilterEvent.IsSound : FilterEvent M → Prop
  | .dropped isCounted => isCounted = true
  | .filtered isComplete => isComplete = true
  | .took _ hasElement => hasElement = true
  | .notified _ => True

namespace MessageFilter

variable (f : MessageFilter M)

instance (e : FilterEvent M) : Decidable e.IsSound := by
  unfold FilterEvent.IsSound
  split <;> infer_instance

/-- The count is right, the filter callback was run only when every queue had an element, and
messages were taken only from queues that had one. -/
structure Accounts (history : List (FilterEvent M)) : Prop where
  counted : f.nonEmptyQueueCount = f.nonEmpty
  sound : ∀ e ∈ history, e.IsSound

/-- A call drops a message that there is. -/
def DropsMessage : FilterCall n → Prop
  | .dropMessage i => (f.queues i).empty = false
  | .dropMessageAt idx => idx.val < 9 → (f.queues idx).empty = false

instance (c : FilterCall n) : Decidable (f.DropsMessage c) := by
  unfold DropsMessage
  split <;> infer_instance

/-- Each of some calls drops a message that there is. -/
def DropsMessages (f : MessageFilter M) : List (FilterCall n) → Prop
  | [] => True
  | c :: calls => f.DropsMessage c ∧ (f.call c).DropsMessages calls

instance decidableDropsMessages (f : MessageFilter M) (calls : List (FilterCall n)) :
    Decidable (f.DropsMessages calls) :=
  match calls with
  | [] => isTrue trivial
  | c :: calls => @instDecidableAnd _ _ _ (decidableDropsMessages (f.call c) calls)

/-- Messages are dropped only from queues that have one, also by the filter callback, which returns
true only when every queue has one left; and the queues that are not empty can be counted. -/
def Orderly : FilterAction M → Prop
  | .onMessage i message callback =>
    (f.push i message).nonEmpty < 2 ^ 8 ∧
      ((f.push i message).isComplete = true → ∀ x ∈ callback,
        (f.push i message).DropsMessages x.1 ∧
        (x.2 = true → ((f.push i message).runCalls x.1).1.isComplete = true))
  | .call c => f.DropsMessage c
  | .reserve _ => True

instance (a : FilterAction M) : Decidable (f.Orderly a) := by
  unfold Orderly
  split <;> infer_instance

variable {f : MessageFilter M} {i : Fin n}

/-! ### Queues -/

/-- Every queue holds some messages. -/
def IsWellFormed (f : MessageFilter M) : Prop := ∀ i, ∃ l, (f.queues i).Represents l

theorem isComplete_iff : f.isComplete = true ↔ ∀ i, (f.queues i).empty = false := by
  simp [isComplete]

theorem queues_setQueue_self (f : MessageFilter M) (i : Fin n) (queue : Pool (M i)) :
    (f.setQueue i queue).queues i = queue := Function.update_self ..

theorem queues_setQueue_of_ne (f : MessageFilter M) {i j : Fin n} (hne : j ≠ i)
    (queue : Pool (M i)) : (f.setQueue i queue).queues j = f.queues j :=
  Function.update_of_ne hne ..

/-- A queue that changes, changes the number of queues that have an element by itself alone. -/
theorem nonEmpty_setQueue (f : MessageFilter M) (i : Fin n) (queue : Pool (M i)) :
    (f.setQueue i queue).nonEmpty + (!(f.queues i).empty).toNat =
      f.nonEmpty + (!queue.empty).toNat := by
  have hothers : ∑ j ∈ Finset.univ.erase i, (!((f.setQueue i queue).queues j).empty).toNat =
      ∑ j ∈ Finset.univ.erase i, (!(f.queues j).empty).toNat :=
    Finset.sum_congr rfl fun j hj ↦ by
      rw [queues_setQueue_of_ne f (Finset.ne_of_mem_erase hj)]
  rw [nonEmpty, nonEmpty, ← Finset.add_sum_erase _ _ (Finset.mem_univ i),
    ← Finset.add_sum_erase Finset.univ (fun j ↦ (!(f.queues j).empty).toNat)
      (Finset.mem_univ i), hothers, queues_setQueue_self]
  omega

theorem nonEmpty_le (f : MessageFilter M) : f.nonEmpty ≤ n := by
  have hle : f.nonEmpty ≤ ∑ _i : Fin n, 1 := Finset.sum_le_sum fun i _ ↦ Bool.toNat_le _
  simpa using hle

/-- Every queue has an element exactly when as many as there are have one. -/
theorem isComplete_iff_nonEmpty : f.isComplete = true ↔ f.nonEmpty = n := by
  have hsum : ∑ _i : Fin n, 1 = n := by simp
  rw [isComplete_iff]
  constructor
  · intro hall
    refine (Finset.sum_congr rfl fun i _ ↦ ?_).trans hsum
    rw [hall i]
    rfl
  · intro heq i
    have heach := (Finset.sum_eq_sum_iff_of_le (fun i _ ↦ Bool.toNat_le _)).mp
      (heq.trans hsum.symm) i (Finset.mem_univ i)
    simpa using heach

theorem IsWellFormed.setQueue (h : f.IsWellFormed) {queue : Pool (M i)} {l : List (M i)}
    (hqueue : queue.Represents l) : (f.setQueue i queue).IsWellFormed := by
  intro j
  by_cases hj : j = i
  · subst hj
    rw [queues_setQueue_self]
    exact ⟨l, hqueue⟩
  · rw [queues_setQueue_of_ne f hj]
    exact h j

theorem nonEmpty_of_queues {f g : MessageFilter M} (h : f.queues = g.queues) :
    f.nonEmpty = g.nonEmpty := by
  rw [nonEmpty, nonEmpty, h]

/-! ### Peeking -/

/-- The access by index returns the element that `begin()` reaches after as many increments. -/
structure Indexes (f : MessageFilter M) (i : Fin n) (idx : ℕ) : Prop where
  constAt : (f.queues i).constAt idx = .ok ((f.queues i).nthElem idx)
  getElem : (f.queues i).getElem idx = (f.queues i).nthElem idx
  peekMessage : f.peekMessage i idx = (f.queues i).nthElem idx

/-- Assumes: a queue after any calls. The access by index throws exactly behind the last element,
and otherwise returns the element of that age if and only if it is equal to the oldest. -/
theorem indexes_iff (f : MessageFilter M) (i : Fin n) (capacity : ℕ+) (ops : List (PoolOp (M i)))
    (run : Run (pooling capacity) unguarded (f.queues i) ops) :
    ∃ l, (f.queues i).Represents l ∧ ∀ idx,
      ((∃ message, (f.queues i).constAt idx = .error message) ↔ l.length ≤ idx) ∧
      (idx < l.length → (f.queues i).nthElem idx = l[idx]? ∧
        (f.Indexes i idx ↔ l[idx]? = l[0]?)) := by
  obtain ⟨l, hl⟩ := Pool.exists_represents_of_run run
  refine ⟨l, hl, fun idx ↦ ⟨hl.constAt_eq_error_iff idx, fun hidx ↦ ?_⟩⟩
  have hnth := hl.nthElem_eq hidx
  have holdest : (f.queues i).getElem idx = l[0]? := by
    rw [Pool.getElem_eq]
    exact hl.nthElem_eq (by omega)
  refine ⟨hnth, fun hindexes ↦ ?_, fun hequal ↦ ?_⟩
  · rw [← hnth, ← hindexes.getElem, holdest]
  · have hgetElem : (f.queues i).getElem idx = (f.queues i).nthElem idx := by
      rw [holdest, hnth, hequal]
    exact ⟨by rw [hl.constAt_eq_ok hidx, hgetElem], hgetElem, hgetElem⟩

/-- A queue of two messages. -/
def twoMessages (first second : ℕ) : MessageFilter fun _ : Fin 1 ↦ ℕ where
  queues _ := ((Pool.ofCapacity (2 : ℕ+)).push first).push second

theorem run_twoMessages (first second : ℕ) : Run (pooling 2) unguarded
    ((twoMessages first second).queues 0) ([] ++ [.push first] ++ [.push second]) := by
  have hfirst : Run (pooling 2) unguarded ((Pool.ofCapacity (2 : ℕ+)).push first)
      ([] ++ [.push first]) :=
    (Run.start rfl).next (a := .push first) trivial rfl
  exact hfirst.next (a := .push second) trivial rfl

/-- Two equal messages. -/
theorem indexes_of_equal : (twoMessages 7 7).Indexes 0 1 := by
  obtain ⟨l, hl, hall⟩ := indexes_iff (twoMessages 7 7) 0 2 _ (run_twoMessages 7 7)
  have hlength : l.length = 2 := hl.size.symm
  obtain ⟨hfirst, -⟩ := (hall 0).2 (by omega)
  obtain ⟨hsecond, hindexes⟩ := (hall 1).2 (by omega)
  refine hindexes.mpr ?_
  rw [← hfirst, ← hsecond]
  rfl

/-- The second of two messages is not found. -/
theorem indexes_wrong : ¬ (twoMessages 7 8).Indexes 0 1 := by
  intro hindexes
  exact absurd hindexes.getElem (by decide)

/-! ### Counting -/

/-- The count is right, and a `uint8_t`. -/
def Counted (f : MessageFilter M) : Prop :=
  f.nonEmptyQueueCount = f.nonEmpty ∧ f.nonEmptyQueueCount < 2 ^ 8

theorem empty_push (h : f.IsWellFormed) (i : Fin n) (message : M i) :
    ((f.queues i).push message).empty = false := by
  obtain ⟨l, hl⟩ := h i
  rw [(hl.push message).empty_eq]
  simp

theorem queues_push (f : MessageFilter M) (i : Fin n) (message : M i) :
    (f.push i message).queues = (f.setQueue i ((f.queues i).push message)).queues := by
  unfold push
  dsimp only
  split <;> rfl

theorem queues_pop (f : MessageFilter M) (i : Fin n) :
    (f.pop i).queues = (f.setQueue i (f.queues i).pop).queues := by
  unfold pop
  dsimp only
  split <;> rfl

theorem IsWellFormed.push (h : f.IsWellFormed) (i : Fin n) (message : M i) :
    (f.push i message).IsWellFormed := by
  obtain ⟨l, hl⟩ := h i
  unfold IsWellFormed
  rw [queues_push]
  exact h.setQueue (hl.push message)

theorem IsWellFormed.pop (h : f.IsWellFormed) (i : Fin n) : (f.pop i).IsWellFormed := by
  obtain ⟨l, hl⟩ := h i
  unfold IsWellFormed
  rw [queues_pop]
  exact h.setQueue hl.pop

/-- What a message adds to the number of queues that are not empty, and to the count. -/
theorem counts_push (hwell : f.IsWellFormed) (i : Fin n) (message : M i) :
    (f.push i message).nonEmpty = f.nonEmpty + (f.queues i).empty.toNat ∧
      (f.push i message).nonEmptyQueueCount =
        if (f.queues i).empty then (f.nonEmptyQueueCount + 1) % 2 ^ 8
        else f.nonEmptyQueueCount := by
  have hset := nonEmpty_setQueue f i ((f.queues i).push message)
  rw [empty_push hwell i message, ← nonEmpty_of_queues (queues_push f i message)] at hset
  cases hempty : (f.queues i).empty with
  | true =>
    rw [hempty] at hset
    refine ⟨hset, ?_⟩
    simp only [MessageFilter.push, hempty, if_true]
    rfl
  | false =>
    rw [hempty] at hset
    refine ⟨Nat.add_right_cancel hset, ?_⟩
    simp only [MessageFilter.push, hempty, Bool.false_eq_true, if_false]
    rfl

/-- The count goes round at most once. -/
theorem Counted.push_mod (h : f.Counted) (hwell : f.IsWellFormed) (i : Fin n) (message : M i) :
    (f.push i message).nonEmptyQueueCount = (f.push i message).nonEmpty % 2 ^ 8 ∧
      (f.push i message).nonEmpty ≤ 2 ^ 8 := by
  obtain ⟨hnonEmpty, hpushed⟩ := counts_push hwell i message
  obtain ⟨hcount, hlt⟩ := h
  cases hempty : (f.queues i).empty with
  | true =>
    rw [hempty, Bool.toNat_true] at hnonEmpty
    rw [hempty, if_pos rfl] at hpushed
    omega
  | false =>
    rw [hempty, Bool.toNat_false] at hnonEmpty
    rw [hempty, if_neg Bool.false_ne_true] at hpushed
    omega

/-- The count stays right, unless it goes round. -/
theorem Counted.push (h : f.Counted) (hwell : f.IsWellFormed) (i : Fin n) (message : M i)
    (hfew : (f.push i message).nonEmpty < 2 ^ 8) : (f.push i message).Counted := by
  have hcount := (h.push_mod hwell i message).1
  rw [Nat.mod_eq_of_lt hfew] at hcount
  exact ⟨hcount, hcount.trans_lt hfew⟩

/-- A count that goes round is wrong. -/
theorem not_counted_push (h : f.Counted) (hwell : f.IsWellFormed) (i : Fin n) (message : M i)
    (hmany : ¬ (f.push i message).nonEmpty < 2 ^ 8) :
    (f.push i message).nonEmptyQueueCount = 0 ∧ (f.push i message).nonEmpty = 2 ^ 8 := by
  obtain ⟨hcount, hle⟩ := h.push_mod hwell i message
  have hround : (f.push i message).nonEmpty = 2 ^ 8 := le_antisymm hle (not_lt.mp hmany)
  rw [hround, Nat.mod_self] at hcount
  exact ⟨hcount, hround⟩

/-- The count stays right exactly when there was a message to drop. -/
theorem Counted.pop_iff (h : f.Counted) (hwell : f.IsWellFormed) (i : Fin n) :
    (f.pop i).nonEmptyQueueCount = (f.pop i).nonEmpty ↔ (f.queues i).empty = false := by
  have hset := nonEmpty_setQueue f i (f.queues i).pop
  rw [← nonEmpty_of_queues (queues_pop f i)] at hset
  obtain ⟨hcount, hlt⟩ := h
  obtain ⟨l, hl⟩ := hwell i
  cases hpopped : (f.queues i).pop.empty with
  | true =>
    have hpop : (f.pop i).nonEmptyQueueCount = (f.nonEmptyQueueCount + (2 ^ 8 - 1)) % 2 ^ 8 := by
      simp only [MessageFilter.pop, hpopped, if_true]
      rfl
    cases hempty : (f.queues i).empty with
    | true =>
      simp only [hpopped, hempty, Bool.not_true, Bool.toNat_false, add_zero] at hset
      refine iff_of_false (fun heq ↦ ?_) (by simp)
      omega
    | false =>
      simp only [hpopped, hempty, Bool.not_true, Bool.toNat_false, Bool.not_false,
        Bool.toNat_true] at hset
      refine iff_of_true ?_ rfl
      omega
  | false =>
    have hpop : (f.pop i).nonEmptyQueueCount = f.nonEmptyQueueCount := by
      simp only [MessageFilter.pop, hpopped, Bool.false_eq_true, if_false]
      rfl
    have hempty : (f.queues i).empty = false := by
      rw [hl.pop.empty_eq] at hpopped
      rw [hl.empty_eq]
      cases l with
      | nil => cases hpopped
      | cons first rest => rfl
    simp only [hpopped, hempty] at hset
    refine iff_of_true ?_ hempty
    omega

theorem Counted.pop (h : f.Counted) (hwell : f.IsWellFormed) (hempty : (f.queues i).empty = false) :
    (f.pop i).Counted := by
  have hcount := (h.pop_iff hwell i).mpr hempty
  refine ⟨hcount, ?_⟩
  unfold MessageFilter.pop
  dsimp only
  split
  · exact Nat.mod_lt _ (by decide)
  · exact h.2

/-! ### Contents -/

/-- The messages of a queue, oldest first. -/
def contents (f : MessageFilter M) (i : Fin n) : List (M i) := (f.queues i).contents

theorem IsWellFormed.represents (h : f.IsWellFormed) (i : Fin n) :
    (f.queues i).Represents (f.contents i) := by
  obtain ⟨l, hl⟩ := h i
  rwa [contents, hl.contents_eq]

theorem IsWellFormed.empty_iff (h : f.IsWellFormed) (i : Fin n) :
    (f.queues i).empty = false ↔ f.contents i ≠ [] := by
  rw [(h.represents i).empty_eq, ← Bool.not_eq_true, List.isEmpty_iff]

theorem IsWellFormed.messageCount_eq (h : f.IsWellFormed) (i : Fin n) :
    f.messageCount i = (f.contents i).length := (h.represents i).size

/-- Peeking returns the oldest message. -/
theorem IsWellFormed.peekMessage_eq (h : f.IsWellFormed) (i : Fin n) (hne : f.contents i ≠ [])
    (idx : ℕ) : f.peekMessage i idx = (f.contents i).head? := by
  rw [peekMessage, Pool.getElem_eq, (h.represents i).nthElem_eq (List.length_pos_of_ne_nil hne),
    List.head?_eq_getElem?]

theorem IsWellFormed.front_eq (h : f.IsWellFormed) (i : Fin n) (hne : f.contents i ≠ []) :
    (f.queues i).front = (f.contents i).head? := by
  have hpeek := h.peekMessage_eq i hne 0
  have hempty : (f.queues i).index.size ≠ 0 := by
    rw [(h.represents i).size]
    exact (List.length_pos_of_ne_nil hne).ne'
  rw [← hpeek]
  exact (if_neg hempty).symm

theorem IsWellFormed.contents_pop_self (h : f.IsWellFormed) (i : Fin n) :
    (f.pop i).contents i = (f.contents i).tail := by
  rw [contents, queues_pop, queues_setQueue_self]
  exact (h.represents i).pop.contents_eq

theorem contents_pop_of_ne (f : MessageFilter M) {i j : Fin n} (hne : j ≠ i) :
    (f.pop i).contents j = f.contents j := by
  rw [contents, queues_pop, queues_setQueue_of_ne f hne]
  rfl

theorem IsWellFormed.mem_contents_of_mem_pop (h : f.IsWellFormed) {i j : Fin n} {message : M j}
    (hmessage : message ∈ (f.pop i).contents j) : message ∈ f.contents j := by
  by_cases hj : j = i
  · subst hj
    rw [h.contents_pop_self] at hmessage
    exact List.mem_of_mem_tail hmessage
  · rwa [contents_pop_of_ne f hj] at hmessage

/-- A message that is pushed drops at most the oldest one. -/
theorem IsWellFormed.contents_push_self (h : f.IsWellFormed) (i : Fin n) (message : M i) :
    (f.push i message).contents i = f.contents i ++ [message] ∨
      (f.push i message).contents i = (f.contents i).tail ++ [message] := by
  have hpushed := ((h.represents i).push message).contents_eq
  rw [contents, queues_push, queues_setQueue_self, hpushed]
  split_ifs
  · exact .inr rfl
  · exact .inl rfl

theorem contents_push_of_ne (f : MessageFilter M) {i j : Fin n} (hne : j ≠ i) (message : M i) :
    (f.push i message).contents j = f.contents j := by
  rw [contents, queues_push, queues_setQueue_of_ne f hne]
  rfl

/-! ### Dropping and taking -/

theorem IsWellFormed.call (h : f.IsWellFormed) (c : FilterCall n) : (f.call c).IsWellFormed := by
  cases c with
  | dropMessage i => exact h.pop i
  | dropMessageAt idx =>
    unfold MessageFilter.call dropMessageAt
    dsimp only
    split_ifs
    · exact h.pop idx
    · exact h

/-- A call leaves no messages but those that were there. -/
theorem IsWellFormed.mem_contents_of_mem_call (h : f.IsWellFormed) {c : FilterCall n} {j : Fin n}
    {message : M j} (hmessage : message ∈ (f.call c).contents j) : message ∈ f.contents j := by
  cases c with
  | dropMessage i => exact h.mem_contents_of_mem_pop hmessage
  | dropMessageAt idx =>
    unfold MessageFilter.call dropMessageAt at hmessage
    dsimp only at hmessage
    split_ifs at hmessage
    · exact h.mem_contents_of_mem_pop hmessage
    · exact hmessage

/-- What holds of a filter in every run. -/
structure Kept (f : MessageFilter M) : Prop where
  counted : f.Counted
  wellFormed : f.IsWellFormed

theorem Kept.push (h : f.Kept) (hn : n < 2 ^ 8) (i : Fin n) (message : M i) :
    (f.push i message).Kept :=
  ⟨h.counted.push h.wellFormed i message ((nonEmpty_le _).trans_lt hn), h.wellFormed.push i message⟩

theorem Kept.pop (h : f.Kept) (hempty : (f.queues i).empty = false) : (f.pop i).Kept :=
  ⟨h.counted.pop h.wellFormed hempty, h.wellFormed.pop i⟩

theorem Kept.call (h : f.Kept) {c : FilterCall n} (hdrops : f.DropsMessage c) :
    (f.call c).Kept := by
  cases c with
  | dropMessage i => exact h.pop hdrops
  | dropMessageAt idx =>
    unfold MessageFilter.call dropMessageAt
    dsimp only
    split_ifs with hidx
    · exact h.pop (hdrops hidx)
    · exact h

/-- The count after a call is right exactly when the call drops a message that there is. -/
theorem Kept.isCounted_call_iff (h : f.Kept) (c : FilterCall n) :
    (f.call c).isCounted = true ↔ f.DropsMessage c := by
  rw [isCounted, decide_eq_true_eq]
  cases c with
  | dropMessage i => exact h.counted.pop_iff h.wellFormed i
  | dropMessageAt idx =>
    unfold MessageFilter.call dropMessageAt DropsMessage
    dsimp only
    split_ifs with hidx
    · rw [forall_prop_of_true hidx]
      exact h.counted.pop_iff h.wellFormed idx
    · exact iff_of_true h.counted.1 fun hlt ↦ absurd hlt hidx

/-- Assumes: calls that drop messages that there are. -/
theorem Kept.runCalls (h : f.Kept) {calls : List (FilterCall n)} (hdrops : f.DropsMessages calls) :
    (f.runCalls calls).1.Kept ∧ ∀ e ∈ (f.runCalls calls).2, e.IsSound := by
  induction calls generalizing f with
  | nil => exact ⟨h, List.forall_mem_nil _⟩
  | cons c calls ih =>
    obtain ⟨hkept, hsound⟩ := ih (h.call hdrops.1) hdrops.2
    exact ⟨hkept, List.forall_mem_cons.mpr ⟨(h.isCounted_call_iff c).mpr hdrops.1, hsound⟩⟩

/-- The first call that drops no message leaves a count that is wrong. -/
theorem Kept.dropsMessages_of_sound (h : f.Kept) {calls : List (FilterCall n)}
    (hsound : ∀ e ∈ (f.runCalls calls).2, e.IsSound) : f.DropsMessages calls := by
  induction calls generalizing f with
  | nil => trivial
  | cons c calls ih =>
    obtain ⟨hcounted, hrest⟩ := List.forall_mem_cons.mp hsound
    have hdrops := (h.isCounted_call_iff c).mp hcounted
    exact ⟨hdrops, ih (h.call hdrops) hrest⟩

theorem runCalls_append (f : MessageFilter M) (calls rest : List (FilterCall n)) :
    (f.runCalls (calls ++ rest)).1 = ((f.runCalls calls).1.runCalls rest).1 := by
  induction calls generalizing f with
  | nil => rfl
  | cons c calls ih => exact ih (f.call c)

theorem DropsMessages.append {calls rest : List (FilterCall n)} (h : f.DropsMessages calls)
    (hrest : (f.runCalls calls).1.DropsMessages rest) : f.DropsMessages (calls ++ rest) := by
  induction calls generalizing f with
  | nil => exact hrest
  | cons c calls ih => exact ⟨h.1, ih h.2 hrest⟩

theorem queues_pop_of_ne (f : MessageFilter M) {j : Fin n} (hne : j ≠ i) :
    (f.pop i).queues j = f.queues j := by
  rw [queues_pop, queues_setQueue_of_ne f hne]

/-- Assumes: different queues, each of which has an element. -/
theorem Kept.takeFronts (h : f.Kept) {indices : List (Fin n)} (hnodup : indices.Nodup)
    (hempty : ∀ i ∈ indices, (f.queues i).empty = false) :
    (f.takeFronts indices).1.Kept ∧ ∀ e ∈ (f.takeFronts indices).2, e.IsSound := by
  induction indices generalizing f with
  | nil => exact ⟨h, List.forall_mem_nil _⟩
  | cons i rest ih =>
    obtain ⟨hnot, hrest⟩ := List.nodup_cons.mp hnodup
    obtain ⟨hfirst, hothers⟩ := List.forall_mem_cons.mp hempty
    have hstill : ∀ j ∈ rest, ((f.pop i).queues j).empty = false := by
      intro j hj
      have hne : j ≠ i := fun heq ↦ hnot (heq ▸ hj)
      rw [queues_pop_of_ne f hne]
      exact hothers j hj
    obtain ⟨hkept, hsound⟩ := ih (h.pop hfirst) hrest hstill
    exact ⟨hkept, List.forall_mem_cons.mpr ⟨by simpa [FilterEvent.IsSound] using hfirst, hsound⟩⟩

/-- What is taken from different queues shows whether they had an element. -/
theorem empty_of_takeFronts {indices : List (Fin n)} (hnodup : indices.Nodup)
    (hsound : ∀ e ∈ (f.takeFronts indices).2, e.IsSound) :
    ∀ i ∈ indices, (f.queues i).empty = false := by
  induction indices generalizing f with
  | nil => exact List.forall_mem_nil _
  | cons i rest ih =>
    obtain ⟨hnot, hrest⟩ := List.nodup_cons.mp hnodup
    obtain ⟨hfirst, hothers⟩ := List.forall_mem_cons.mp hsound
    refine List.forall_mem_cons.mpr ⟨by simpa [FilterEvent.IsSound] using hfirst, fun j hj ↦ ?_⟩
    have hne : j ≠ i := fun heq ↦ hnot (heq ▸ hj)
    have hempty := ih hrest hothers j hj
    rwa [queues_pop_of_ne f hne] at hempty

theorem nodup_indices : (List.finRange n).reverse.Nodup :=
  List.nodup_reverse.mpr (List.nodup_finRange n)

theorem Kept.notify (h : f.Kept) (hcomplete : f.isComplete = true) :
    f.notify.1.Kept ∧ ∀ e ∈ f.notify.2, e.IsSound := by
  obtain ⟨hkept, hsound⟩ := h.takeFronts nodup_indices fun i _ ↦ isComplete_iff.mp hcomplete i
  exact ⟨hkept, List.forall_mem_append.mpr ⟨hsound, by simp [FilterEvent.IsSound]⟩⟩

/-- What is notified shows that every queue had an element. -/
theorem isComplete_of_notify (hsound : ∀ e ∈ f.notify.2, e.IsSound) : f.isComplete = true := by
  have htaken := (List.forall_mem_append.mp hsound).1
  exact isComplete_iff.mpr fun i ↦ empty_of_takeFronts nodup_indices htaken i (by simp)

/-! ### Applying the filter -/

theorem Kept.doesAllQueueHaveElement_eq (h : f.Kept) :
    f.doesAllQueueHaveElement = f.isComplete := by
  rw [Bool.eq_iff_iff, isComplete_iff_nonEmpty, doesAllQueueHaveElement, decide_eq_true_eq,
    h.counted.1]

/-- The filter callback is orderly. -/
def FiltersOrderly (f : MessageFilter M) (callback : Option (List (FilterCall n) × Bool)) : Prop :=
  ∀ x ∈ callback,
    f.DropsMessages x.1 ∧ (x.2 = true → (f.runCalls x.1).1.isComplete = true)

theorem Kept.applyFilter_some (h : f.Kept) (hcomplete : f.isComplete = true)
    (calls : List (FilterCall n)) (notifies : Bool) :
    f.applyFilter (some (callingBack (calls, notifies))) =
      ((if notifies then (f.runCalls calls).1.notify else ((f.runCalls calls).1, [])).1,
        .filtered true :: ((f.runCalls calls).2 ++
          (if notifies then (f.runCalls calls).1.notify else ((f.runCalls calls).1, [])).2)) := by
  have hall : f.doesAllQueueHaveElement = true := h.doesAllQueueHaveElement_eq.trans hcomplete
  simp only [applyFilter, hall, if_true, callingBack, hcomplete]
  rfl

/-- Assumes: a filter each of whose queues has an element, and an orderly callback. -/
theorem Kept.applyFilter (h : f.Kept) (hcomplete : f.isComplete = true)
    {callback : Option (List (FilterCall n) × Bool)} (horderly : f.FiltersOrderly callback) :
    (f.applyFilter (callback.map callingBack)).1.Kept ∧
      ∀ e ∈ (f.applyFilter (callback.map callingBack)).2, e.IsSound := by
  cases callback with
  | none => exact h.notify hcomplete
  | some x =>
    obtain ⟨calls, notifies⟩ := x
    obtain ⟨hdrops, hleft⟩ := horderly _ rfl
    obtain ⟨hkept, hsound⟩ := h.runCalls hdrops
    rw [Option.map_some, h.applyFilter_some hcomplete]
    cases notifies with
    | false =>
      exact ⟨hkept, List.forall_mem_cons.mpr ⟨rfl, by simpa using hsound⟩⟩
    | true =>
      obtain ⟨hnotified, htaken⟩ := hkept.notify (hleft rfl)
      exact ⟨hnotified, List.forall_mem_cons.mpr
        ⟨rfl, List.forall_mem_append.mpr ⟨hsound, htaken⟩⟩⟩

/-- What is seen of a callback shows whether it is orderly. -/
theorem Kept.filtersOrderly_of_sound (h : f.Kept) (hcomplete : f.isComplete = true)
    {callback : Option (List (FilterCall n) × Bool)}
    (hsound : ∀ e ∈ (f.applyFilter (callback.map callingBack)).2, e.IsSound) :
    f.FiltersOrderly callback := by
  rintro ⟨calls, notifies⟩ rfl
  rw [Option.map_some, h.applyFilter_some hcomplete] at hsound
  obtain ⟨hcalls, hnotified⟩ := List.forall_mem_append.mp (List.forall_mem_cons.mp hsound).2
  refine ⟨h.dropsMessages_of_sound hcalls, fun hnotifies ↦ ?_⟩
  rw [if_pos hnotifies] at hnotified
  exact isComplete_of_notify hnotified

/-! ### Steps -/

theorem Kept.reserve (h : f.Kept) (capacity : ℕ+) : (f.reserve capacity).Kept := by
  have hrepresents (i : Fin n) : ∃ l l' : List (M i), (f.queues i).Represents l ∧
      ((f.reserve capacity).queues i).Represents l' ∧ l'.isEmpty = l.isEmpty := by
    obtain ⟨l, hl⟩ := h.wellFormed i
    refine ⟨l, _, hl, hl.reserve capacity, ?_⟩
    have hpos := capacity.pos
    rw [Bool.eq_iff_iff, List.isEmpty_iff, List.isEmpty_iff, ← List.length_eq_zero_iff,
      List.length_drop, ← List.length_eq_zero_iff]
    omega
  have hnonEmpty : (f.reserve capacity).nonEmpty = f.nonEmpty := by
    refine Finset.sum_congr rfl fun i _ ↦ ?_
    obtain ⟨l, l', hl, hl', hempty⟩ := hrepresents i
    rw [hl.empty_eq, hl'.empty_eq, hempty]
  refine ⟨⟨h.counted.1.trans hnonEmpty.symm, h.counted.2⟩, fun i ↦ ?_⟩
  obtain ⟨-, l', -, hl', -⟩ := hrepresents i
  exact ⟨l', hl'⟩

/-- The step lemma. -/
theorem Kept.step (h : f.Kept) {a : FilterAction M} (horderly : f.Orderly a) :
    (f.step a).1.Kept ∧ ∀ e ∈ (f.step a).2, e.IsSound := by
  cases a with
  | onMessage i message callback =>
    have hpushed : (f.push i message).Kept :=
      ⟨h.counted.push h.wellFormed i message horderly.1, h.wellFormed.push i message⟩
    show (f.onMessage (callback.map callingBack) i message).1.Kept ∧
      ∀ e ∈ (f.onMessage (callback.map callingBack) i message).2, e.IsSound
    unfold onMessage
    rw [hpushed.doesAllQueueHaveElement_eq]
    split_ifs with hcomplete
    · exact hpushed.applyFilter hcomplete (horderly.2 hcomplete)
    · exact ⟨hpushed, List.forall_mem_nil _⟩
  | call c => exact h.runCalls ⟨horderly, trivial⟩
  | reserve capacity => exact ⟨h.reserve capacity, List.forall_mem_nil _⟩

/-- A step that is not orderly is seen, or leaves a count that is wrong. -/
theorem Kept.orderly_of_accounts (h : f.Kept) {a : FilterAction M}
    (hcounted : (f.step a).1.nonEmptyQueueCount = (f.step a).1.nonEmpty)
    (hsound : ∀ e ∈ (f.step a).2, e.IsSound) : f.Orderly a := by
  cases a with
  | onMessage i message callback =>
    have hstep : f.step (.onMessage i message callback) =
        f.onMessage (callback.map callingBack) i message := rfl
    rw [hstep, onMessage] at hcounted hsound
    by_cases hfew : (f.push i message).nonEmpty < 2 ^ 8
    · have hpushed : (f.push i message).Kept :=
        ⟨h.counted.push h.wellFormed i message hfew, h.wellFormed.push i message⟩
      refine ⟨hfew, fun hcomplete ↦ ?_⟩
      rw [if_pos (hpushed.doesAllQueueHaveElement_eq.trans hcomplete)] at hsound
      exact hpushed.filtersOrderly_of_sound hcomplete hsound
    · obtain ⟨hzero, hmany⟩ := not_counted_push h.counted h.wellFormed i message hfew
      have hle := nonEmpty_le (f.push i message)
      have hnot : ¬ (f.push i message).doesAllQueueHaveElement = true := by
        rw [doesAllQueueHaveElement, decide_eq_true_eq, hzero]
        omega
      rw [if_neg hnot] at hcounted
      rw [hzero, hmany] at hcounted
      cases hcounted
  | call c =>
    have hdrops : f.DropsMessages [c] := h.dropsMessages_of_sound hsound
    exact hdrops.1
  | reserve capacity => trivial

/-! ### Runs -/

theorem kept_ofCapacity (capacity : ℕ+) : (ofCapacity capacity : MessageFilter M).Kept := by
  have hempty (i : Fin n) : ((ofCapacity capacity : MessageFilter M).queues i).Represents [] :=
    Pool.represents_ofCapacity capacity.pos
  refine ⟨⟨?_, show 0 < 2 ^ 8 by decide⟩, fun i ↦ ⟨[], hempty i⟩⟩
  refine (Finset.sum_eq_zero fun i _ ↦ ?_).symm
  rw [(hempty i).empty_eq]
  rfl

theorem kept_of_run {capacity : ℕ+} {history : List (FilterEvent M)}
    (run : Run (filtering M capacity) Orderly f history) :
    f.Kept ∧ ∀ e ∈ history, e.IsSound := by
  refine run.safe ?_ ?_
  · rintro s rfl
    exact kept_ofCapacity capacity
  · intro s a s' events _ h horderly hstep
    have hnext := h.step horderly
    rwa [show s.step a = (s', events) from Option.some.inj hstep] at hnext

/-- Assumes: a run whose steps are orderly. The count is right, and only messages are taken that
there are; and a further step leaves it so if and only if it is orderly. -/
theorem accounting_iff (capacity : ℕ+) (f : MessageFilter M) (history : List (FilterEvent M))
    (run : Run (filtering M capacity) Orderly f history) :
    f.Accounts history ∧
      ∀ a, (f.step a).1.Accounts (history ++ (f.step a).2) ↔ f.Orderly a := by
  obtain ⟨hkept, hsound⟩ := kept_of_run run
  refine ⟨⟨hkept.counted.1, hsound⟩, fun a ↦ ⟨fun haccounts ↦ ?_, fun horderly ↦ ?_⟩⟩
  · exact hkept.orderly_of_accounts haccounts.counted
      (List.forall_mem_append.mp haccounts.sound).2
  · obtain ⟨hnext, hevents⟩ := hkept.step horderly
    exact ⟨hnext.counted.1, List.forall_mem_append.mpr ⟨hsound, hevents⟩⟩

end MessageFilter

namespace Scenario

/-- The first of two types. -/
def firstType : Fin 2 := 0

/-- The second of two types. -/
def secondType : Fin 2 := 1

/-- Room for two messages. -/
def roomForTwo : ℕ+ := 2

/-- Messages of two types. -/
abbrev twoTypes : Fin 2 → Type := fun _ ↦ ℕ

/-- A callback drops a message and does not notify, then another notifies. -/
def dropAndNotify : List (FilterAction twoTypes) :=
  [.onMessage 0 1 none, .onMessage 0 2 none, .onMessage 1 3 (some ([.dropMessage 0], false)),
    .reserve 3, .onMessage 1 4 (some ([.dropMessageAt 1], true))]

end Scenario

namespace MessageFilter

/-- Two messages are dropped and two are notified. -/
theorem accounting_of_notify :
    ∃ (f : MessageFilter Scenario.twoTypes) (history : List (FilterEvent Scenario.twoTypes)),
      Run (filtering Scenario.twoTypes 2) Orderly f history ∧ f.Accounts history ∧
      f.nonEmptyQueueCount = 0 ∧ history.length = 7 := by
  have hexec : ((filtering Scenario.twoTypes 2).exec Orderly (ofCapacity 2) []
      Scenario.dropAndNotify).map (fun result ↦ (result.1.nonEmptyQueueCount, result.2.length)) =
        some (0, 7) := by
    decide
  obtain ⟨⟨f, history⟩, hrun, heq⟩ := Option.map_eq_some_iff.mp hexec
  have run : Run (filtering Scenario.twoTypes 2) Orderly f history := (Run.start rfl).of_exec hrun
  simp only [Prod.mk.injEq] at heq
  exact ⟨f, history, run, (accounting_iff 2 f history run).1, heq.1, heq.2⟩

/-- A message is dropped of a queue that is empty; and a callback drops the only message of a queue
and lets it be notified. -/
theorem accounting_wrong :
    (¬ ∀ (f : MessageFilter Scenario.twoTypes) (history : List (FilterEvent Scenario.twoTypes)),
      Run (filtering Scenario.twoTypes 1) unguarded f history →
        f.nonEmptyQueueCount = f.nonEmpty) ∧
    ¬ ∀ (f : MessageFilter Scenario.twoTypes) (history : List (FilterEvent Scenario.twoTypes)),
      Run (filtering Scenario.twoTypes 1) unguarded f history → ∀ e ∈ history, e.IsSound := by
  have hdropped : ((filtering Scenario.twoTypes 1).exec unguarded (ofCapacity 1) []
      [.call (.dropMessage 0)]).map (fun result ↦
        decide (result.1.nonEmptyQueueCount = result.1.nonEmpty)) = some false := by
    decide
  have htaken : ((filtering Scenario.twoTypes 1).exec unguarded (ofCapacity 1) []
      [.onMessage 0 1 none, .onMessage 1 2 (some ([.dropMessage 0], true))]).map (fun result ↦
        decide (∀ e ∈ result.2, e.IsSound)) = some false := by
    decide
  refine ⟨fun hall ↦ ?_, fun hall ↦ ?_⟩
  · obtain ⟨⟨f, history⟩, hrun, heq⟩ := Option.map_eq_some_iff.mp hdropped
    exact of_decide_eq_false heq (hall f history ((Run.start rfl).of_exec hrun))
  · obtain ⟨⟨f, history⟩, hrun, heq⟩ := Option.map_eq_some_iff.mp htaken
    exact of_decide_eq_false heq (hall f history ((Run.start rfl).of_exec hrun))

end MessageFilter

end Felicia
