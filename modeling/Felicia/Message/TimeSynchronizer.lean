import Felicia.Message.MessageFilter
import Felicia.Support.Loops
import Mathlib.Algebra.Group.Int.Defs
import Mathlib.Data.Finset.Lattice.Fold
import Mathlib.Data.Fintype.Fin
import Mathlib.Data.Int.ConditionallyCompleteOrder
import Mathlib.Order.ConditionallyCompleteLattice.Basic

/-!
# Time synchronizer

`TimeSyncrhonizerMF` of `felicia/core/message/message_filter.h`, the filter callback that looks for
messages of `n + 1` types whose time stamps are close. `Callback` drops the earliest of the oldest
messages until these are accepted, and then goes on, through its peek indices, to the next message
of the type that has the earliest one, as long as the set that it peeks at is accepted as well. The
last set accepted is the candidate that it selects.

The comments call the later sets better candidates, but they are not compared with the earlier ones.
`candidate_iff` says when the selected set is the narrowest of those that were accepted, where
`PeekMessage` returns the message of the index; `TimeSynchronization` is about the code as it is.
-/

set_option autoImplicit false
set_option relaxedAutoImplicit false

namespace Felicia

open Support

/-! ### Time -/

/-- `TimeDelta::Min()`, in microseconds. -/
def timeMin : ℤ := -2 ^ 63

/-- `TimeDelta::Max()`. -/
def timeMax : ℤ := 2 ^ 63 - 1

/-- `SaturatedSub` of `base/time/time.cc`, unless a `CHECK` fails. -/
def saturatedSub (value delta : ℤ) : Option ℤ :=
  if delta = timeMax then if value < timeMax then some timeMin else none
  else if delta = timeMin then if timeMin < value then some timeMax else none
  else if timeMin ≤ value - delta ∧ value - delta ≤ timeMax then some (value - delta)
  else if delta < 0 then some timeMax
  else some timeMin

/-- The time stamps of messages, each an `int64_t`. -/
structure TimeStamps {n : ℕ} (M : Fin n → Type) where
  timestamp : ∀ i, M i → ℤ
  timestamp_mem : ∀ i message, timestamp i message ∈ Set.Icc timeMin timeMax

/-- `PeekMessage<N>`, or what it is taken to be. -/
abbrev Peek {n : ℕ} (M : Fin n → Type) := MessageFilter M → ∀ i, ℕ → Option (M i)

/-- The time stamps of one message of each type. -/
abbrev TimeSet (n : ℕ) := Fin (n + 1) → ℤ

/-! ### State and functions -/

/-- `TimeSyncrhonizerMF::MessageInfo`. The index of a local variable is not set at first. -/
structure MessageInfo (n : ℕ) where
  idx : Option (Fin n)
  timestamp : ℤ

/-- What `FindTimestamps<N>` does before `FindTimestamps<N - 1>`, to the earliest and the latest
message. -/
def updateTimestamps {n : ℕ} (times : Fin n → ℤ) (found : MessageInfo n × MessageInfo n)
    (i : Fin n) : MessageInfo n × MessageInfo n :=
  (if times i < found.1.timestamp then ⟨some i, times i⟩ else found.1,
    if found.2.timestamp < times i then ⟨some i, times i⟩ else found.2)

/-- `FindTimestamps`, of the last type first. -/
def findTimestamps {n : ℕ} (times : TimeSet n) : MessageInfo (n + 1) × MessageInfo (n + 1) :=
  (List.finRange (n + 1)).reverse.foldl (updateTimestamps times) (⟨none, timeMax⟩, ⟨none, timeMin⟩)

/-- `TimeSyncrhonizerMF`. -/
structure TimeSynchronizer where
  maxIntraTimeDifference : ℤ := 100000
  minInterTimeDifference : ℤ := timeMin
  lastTimestamp : ℤ := timeMin

/-- What a round of the loop finds out about a set of messages. -/
structure Examined (n : ℕ) where
  earliestIdx : Fin (n + 1)
  latestTimestamp : ℤ
  delta : ℤ
  isAccepted : Bool

namespace TimeSynchronizer

variable {n : ℕ} {M : Fin (n + 1) → Type} (s : TimeSynchronizer)

/-- Whether a set is accepted, unless a `CHECK` fails. -/
def isAccepted (delta earliestTimestamp : ℤ) : Option Bool :=
  if s.maxIntraTimeDifference < delta then some false
  else if s.lastTimestamp = timeMin then some true
  else (saturatedSub earliestTimestamp s.lastTimestamp).map fun difference ↦
    decide (s.minInterTimeDifference ≤ difference)

/-- The part of a round that reads only time stamps. The index is set whenever no `CHECK` fails. -/
def examine (times : TimeSet n) : Option (Examined n) :=
  (saturatedSub (findTimestamps times).2.timestamp (findTimestamps times).1.timestamp).bind
    fun delta ↦ (s.isAccepted delta (findTimestamps times).1.timestamp).bind
      fun isAccepted ↦ (findTimestamps times).1.idx.map fun earliestIdx ↦
        { earliestIdx, latestTimestamp := (findTimestamps times).2.timestamp, delta, isAccepted }

end TimeSynchronizer

/-- `MessageCount(idx)`, whose `switch` has nine cases. -/
def MessageFilter.messageCountAt {n : ℕ} {M : Fin n → Type} (f : MessageFilter M) (idx : Fin n) :
    ℕ :=
  if idx.val < 9 then f.messageCount idx else 0

/-- The variables of `Callback`, and what it did. -/
structure SyncLoop {n : ℕ} (M : Fin (n + 1) → Type) where
  filter : MessageFilter M
  /-- Each a `uint8_t`, and less than a `MessageCount`. -/
  peekIdxs : Fin (n + 1) → ℕ := fun _ ↦ 0
  hasCandidate : Bool := false
  lastUpdatedPeekIdx : Fin (n + 1) := 0
  lastTimestampCandidate : ℤ := 0
  /-- The messages that were dropped. -/
  calls : List (FilterCall (n + 1)) := []
  /-- The sets that were accepted. -/
  accepted : List (TimeSet n) := []

/-- What `Callback` leaves. -/
structure SyncResult {n : ℕ} (M : Fin (n + 1) → Type) where
  returned : Bool
  calls : List (FilterCall (n + 1))
  synchronizer : TimeSynchronizer
  /-- The variables at the end of the loop. -/
  loop : SyncLoop M

namespace SyncLoop

variable {n : ℕ} {M : Fin (n + 1) → Type} (T : TimeStamps M) (peek : Peek M) (loop : SyncLoop M)

/-- The time stamps of the messages that the peek indices lead to. -/
def peekTimes : Option (TimeSet n) :=
  if h : ∀ i, (peek loop.filter i (loop.peekIdxs i)).isSome then
    some fun i ↦ T.timestamp i ((peek loop.filter i (loop.peekIdxs i)).get (h i))
  else none

def setPeekIdx (i : Fin (n + 1)) (idx : ℕ) : SyncLoop M :=
  { loop with peekIdxs := Function.update loop.peekIdxs i idx }

/-- The set is a candidate. -/
def accept (times : TimeSet n) (set : Examined n) : SyncLoop M :=
  { loop with
    lastTimestampCandidate := set.latestTimestamp
    hasCandidate := true
    accepted := loop.accepted ++ [times] }

def dropEarliest (idx : Fin (n + 1)) : SyncLoop M :=
  { loop with
    filter := loop.filter.dropMessageAt idx
    calls := loop.calls ++ [.dropMessageAt idx] }

/-- One round, with the time stamps that are found. -/
def roundWith (times : TimeSet n) (set : Examined n) : LoopRound (SyncLoop M) (SyncLoop M) :=
  let e := set.earliestIdx
  if set.isAccepted then
    if set.delta = 0 then .done (loop.accept times set)
    else
      let updated := { loop.accept times set with lastUpdatedPeekIdx := e }
      if loop.peekIdxs e + 1 < loop.filter.messageCountAt e then
        .again (updated.setPeekIdx e (loop.peekIdxs e + 1))
      else .done updated
  else if loop.hasCandidate then
    let last := loop.lastUpdatedPeekIdx
    .done (loop.setPeekIdx last (loop.peekIdxs last - 1))
  else if 1 < loop.filter.messageCountAt e then .again (loop.dropEarliest e)
  else .done loop

/-- One round of the loop in `Callback`. -/
def round (s : TimeSynchronizer) : LoopRound (SyncLoop M) (SyncLoop M) :=
  if loop.filter.doesAllQueueHaveElement then
    match loop.peekTimes T peek with
    | none => .failed
    | some times =>
      match s.examine times with
      | none => .failed
      | some set => loop.roundWith times set
  else .done loop

/-- What `Callback` does after the loop. -/
def finish (s : TimeSynchronizer) : SyncResult M :=
  if loop.hasCandidate then
    { returned := true
      calls := loop.calls ++ (List.finRange (n + 1)).flatMap fun i ↦
        List.replicate (loop.peekIdxs i) (.dropMessageAt i)
      synchronizer := { s with lastTimestamp := loop.lastTimestampCandidate }
      loop }
  else { returned := false, calls := loop.calls, synchronizer := s, loop }

end SyncLoop

/-- `Callback`, for as many rounds as there are messages. -/
def TimeSynchronizer.callback {n : ℕ} {M : Fin (n + 1) → Type} (T : TimeStamps M) (peek : Peek M)
    (s : TimeSynchronizer) (f : MessageFilter M) : LoopEnd (SyncResult M) :=
  match runLoop (SyncLoop.round T peek · s) (∑ i, f.messageCount i + 1) { filter := f } with
  | .failed => .failed
  | .unfinished => .unfinished
  | .finished loop => .finished (loop.finish s)

/-! ### Sets of messages -/

namespace TimeSet

variable {n : ℕ} (times : TimeSet n)

def earliest : ℤ := Finset.univ.inf' Finset.univ_nonempty times

def latest : ℤ := Finset.univ.sup' Finset.univ_nonempty times

/-- How far the latest is from the earliest. -/
def spread : ℤ := times.latest - times.earliest

/-- The time stamps are values of an `int64_t`. -/
def InRange : Prop := ∀ i, times i ∈ Set.Icc timeMin timeMax

/-- The type of the earliest message that `FindTimestamps` finds. -/
def earliestIdx : Fin (n + 1) := (findTimestamps times).1.idx.getD 0

variable {times}

theorem earliest_le (i : Fin (n + 1)) : times.earliest ≤ times i :=
  Finset.inf'_le times (Finset.mem_univ i)

theorem le_latest (i : Fin (n + 1)) : times i ≤ times.latest :=
  Finset.le_sup' times (Finset.mem_univ i)

theorem sub_le_spread (i j : Fin (n + 1)) : times i - times j ≤ times.spread :=
  Int.sub_le_sub (le_latest i) (earliest_le j)

theorem InRange.earliest_mem (h : times.InRange) : times.earliest ∈ Set.Icc timeMin timeMax :=
  ⟨Finset.le_inf' _ _ fun i _ ↦ (h i).1, (earliest_le 0).trans (h 0).2⟩

theorem InRange.latest_mem (h : times.InRange) : times.latest ∈ Set.Icc timeMin timeMax :=
  ⟨(h 0).1.trans (le_latest 0), Finset.sup'_le _ _ fun i _ ↦ (h i).2⟩

/-- What a part of `FindTimestamps` finds: what it started from, or a message of a type that it
looked at, and nothing earlier or later among these. -/
structure Finds (times : TimeSet n) (indices : List (Fin (n + 1)))
    (start found : MessageInfo (n + 1) × MessageInfo (n + 1)) : Prop where
  earliest : found.1 = start.1 ∨ ∃ i, found.1 = ⟨some i, times i⟩
  latest : found.2 = start.2 ∨ ∃ i, found.2 = ⟨some i, times i⟩
  earliest_le_start : found.1.timestamp ≤ start.1.timestamp
  earliest_le : ∀ i ∈ indices, found.1.timestamp ≤ times i
  start_le_latest : start.2.timestamp ≤ found.2.timestamp
  le_latest : ∀ i ∈ indices, times i ≤ found.2.timestamp

theorem finds_update (times : TimeSet n) (i : Fin (n + 1))
    (start : MessageInfo (n + 1) × MessageInfo (n + 1)) :
    Finds times [i] start (updateTimestamps times start i) := by
  unfold updateTimestamps
  constructor <;> dsimp only <;> split_ifs with h <;> simp <;> omega

theorem finds_foldl (times : TimeSet n) (indices : List (Fin (n + 1)))
    (start : MessageInfo (n + 1) × MessageInfo (n + 1)) :
    Finds times indices start (indices.foldl (updateTimestamps times) start) := by
  induction indices generalizing start with
  | nil => exact ⟨.inl rfl, .inl rfl, le_rfl, by simp, le_rfl, by simp⟩
  | cons i rest ih =>
    have hfirst := finds_update times i start
    have hrest := ih (updateTimestamps times start i)
    refine ⟨?_, ?_, hrest.earliest_le_start.trans hfirst.earliest_le_start, ?_,
      hfirst.start_le_latest.trans hrest.start_le_latest, ?_⟩
    · exact hrest.earliest.elim (fun heq ↦ heq ▸ hfirst.earliest) .inr
    · exact hrest.latest.elim (fun heq ↦ heq ▸ hfirst.latest) .inr
    · exact List.forall_mem_cons.mpr
        ⟨hrest.earliest_le_start.trans (hfirst.earliest_le i (by simp)), hrest.earliest_le⟩
    · exact List.forall_mem_cons.mpr
        ⟨(hfirst.le_latest i (by simp)).trans hrest.start_le_latest, hrest.le_latest⟩

theorem finds_findTimestamps (times : TimeSet n) :
    Finds times (List.finRange (n + 1)).reverse (⟨none, timeMax⟩, ⟨none, timeMin⟩)
      (findTimestamps times) :=
  finds_foldl times _ _

theorem InRange.earliest_eq (h : times.InRange) :
    (findTimestamps times).1.timestamp = times.earliest := by
  have hfinds := finds_findTimestamps times
  refine le_antisymm (Finset.le_inf' _ _ fun i _ ↦ hfinds.earliest_le i (by simp)) ?_
  obtain heq | ⟨i, heq⟩ := hfinds.earliest
  · rw [heq]
    exact h.earliest_mem.2
  · rw [heq]
    exact earliest_le i

theorem InRange.latest_eq (h : times.InRange) :
    (findTimestamps times).2.timestamp = times.latest := by
  have hfinds := finds_findTimestamps times
  refine le_antisymm ?_ (Finset.sup'_le _ _ fun i _ ↦ hfinds.le_latest i (by simp))
  obtain heq | ⟨i, heq⟩ := hfinds.latest
  · rw [heq]
    exact h.latest_mem.1
  · rw [heq]
    exact le_latest i

/-- An index is set, unless every time stamp is the last one. -/
theorem InRange.idx_eq (h : times.InRange) (hlt : times.earliest < timeMax) :
    (findTimestamps times).1.idx = some times.earliestIdx := by
  have hfound := h.earliest_eq
  unfold earliestIdx
  obtain heq | ⟨i, heq⟩ := (finds_findTimestamps times).earliest
  · rw [heq] at hfound
    exact absurd hfound.symm hlt.ne
  · rw [heq]
    rfl

end TimeSet

/-! ### Examining a set -/

theorem saturatedSub_eq_zero_iff {value delta difference : ℤ}
    (hvalue : value ∈ Set.Icc timeMin timeMax) (hdelta : delta ∈ Set.Icc timeMin timeMax)
    (h : saturatedSub value delta = some difference) : difference = 0 ↔ value = delta := by
  obtain ⟨hvalue₁, hvalue₂⟩ := hvalue
  obtain ⟨hdelta₁, hdelta₂⟩ := hdelta
  unfold saturatedSub at h
  unfold timeMin timeMax at *
  split_ifs at h <;> cases h <;> omega

/-- Assumes: a difference that does not saturate. -/
theorem saturatedSub_eq {value delta : ℤ} (hmin : timeMin < delta) (hmax : delta < timeMax)
    (hdifference : value - delta ∈ Set.Icc timeMin timeMax) :
    saturatedSub value delta = some (value - delta) := by
  rw [saturatedSub, if_neg hmax.ne, if_neg hmin.ne',
    if_pos ⟨hdifference.1, hdifference.2⟩]

namespace TimeSynchronizer

variable {n : ℕ} {s : TimeSynchronizer} {times : TimeSet n}

/-- A set is accepted. -/
def accepts (s : TimeSynchronizer) (times : TimeSet n) : Bool :=
  (s.examine times).any (·.isAccepted)

/-- What is found out about a set. -/
structure Describes (s : TimeSynchronizer) (times : TimeSet n) (set : Examined n) : Prop where
  earliestIdx : set.earliestIdx = times.earliestIdx
  latestTimestamp : set.latestTimestamp = times.latest
  delta : set.delta = 0 ↔ times.spread = 0
  isAccepted : set.isAccepted = s.accepts times

theorem describes_of_examine (h : times.InRange) {set : Examined n}
    (hset : s.examine times = some set) : s.Describes times set := by
  have hall := hset
  rw [examine, h.earliest_eq, h.latest_eq] at hset
  obtain ⟨delta, hdelta, hset⟩ := Option.bind_eq_some_iff.mp hset
  obtain ⟨isAccepted, haccepted, hset⟩ := Option.bind_eq_some_iff.mp hset
  obtain ⟨idx, hidx, rfl⟩ := Option.map_eq_some_iff.mp hset
  refine ⟨?_, rfl, ?_, ?_⟩
  · rw [TimeSet.earliestIdx, hidx]
    rfl
  · rw [saturatedSub_eq_zero_iff h.latest_mem h.earliest_mem hdelta, TimeSet.spread, sub_eq_zero]
  · rw [accepts, hall]
    rfl

end TimeSynchronizer

/-! ### Queues -/

/-- The time stamps in some queues, oldest first. -/
abbrev TimeQueues (n : ℕ) := Fin (n + 1) → List ℤ

namespace TimeQueues

variable {n : ℕ} (q : TimeQueues n)

/-- The time stamps of the oldest messages. -/
def heads : TimeSet n := fun i ↦ (q i).headD 0

/-- The time stamps of the messages of some indices. -/
def timesAt (idxs : Fin (n + 1) → ℕ) : TimeSet n := fun i ↦ (q i).getD (idxs i) 0

/-- A type that is counted, and has another message. -/
def HasNext (i : Fin (n + 1)) : Prop := i.val < 9 ∧ 1 < (q i).length

instance (i : Fin (n + 1)) : Decidable (q.HasNext i) := inferInstanceAs (Decidable (_ ∧ _))

def advance (i : Fin (n + 1)) : TimeQueues n := Function.update q i (q i).tail

/-- The queues without the earliest of the oldest messages. -/
def advanceEarliest : TimeQueues n := q.advance q.heads.earliestIdx

def total : ℕ := ∑ i, (q i).length

/-- Another message follows the earliest of the oldest ones. -/
def EarliestHasNext : Prop := q.HasNext q.heads.earliestIdx

instance : Decidable q.EarliestHasNext := inferInstanceAs (Decidable (q.HasNext _))

/-- Every queue has messages, whose time stamps are values of an `int64_t`. -/
structure Filled : Prop where
  ne_nil : ∀ i, q i ≠ []
  inRange : ∀ i, ∀ t ∈ q i, t ∈ Set.Icc timeMin timeMax

variable {q} {i : Fin (n + 1)}

theorem total_advance (h : q.HasNext i) : (q.advance i).total + 1 = q.total := by
  have hothers : ∑ j ∈ Finset.univ.erase i, (q.advance i j).length =
      ∑ j ∈ Finset.univ.erase i, (q j).length :=
    Finset.sum_congr rfl fun j hj ↦ by
      rw [advance, Function.update_of_ne (Finset.ne_of_mem_erase hj)]
  have hpos := h.2
  rw [total, total, ← Finset.add_sum_erase _ _ (Finset.mem_univ i),
    ← Finset.add_sum_erase Finset.univ (fun j ↦ (q j).length) (Finset.mem_univ i), hothers,
    advance, Function.update_self, List.length_tail]
  omega

theorem heads_mem (h : ∀ i, q i ≠ []) (i : Fin (n + 1)) : q.heads i ∈ q i := by
  unfold heads
  cases hq : q i with
  | nil => exact absurd hq (h i)
  | cons first rest => exact List.mem_cons_self

theorem Filled.heads_inRange (h : q.Filled) : q.heads.InRange := fun i ↦
  h.inRange i _ (heads_mem h.ne_nil i)

theorem Filled.advance (h : q.Filled) (hnext : q.HasNext i) : (q.advance i).Filled := by
  constructor <;> intro j <;> by_cases hj : j = i
  · subst hj
    have hlength := hnext.2
    rw [TimeQueues.advance, Function.update_self, ne_eq, ← List.length_eq_zero_iff,
      List.length_tail]
    omega
  · rw [TimeQueues.advance, Function.update_of_ne hj]
    exact h.ne_nil j
  · subst hj
    rw [TimeQueues.advance, Function.update_self]
    exact fun t ht ↦ h.inRange j t (List.mem_of_mem_tail ht)
  · rw [TimeQueues.advance, Function.update_of_ne hj]
    exact h.inRange j

end TimeQueues

namespace TimeSynchronizer

variable {n : ℕ} (s : TimeSynchronizer) {q : TimeQueues n}

/-- The queues without the earliest of the oldest messages, until these are accepted, or the
earliest is the last one of its type. -/
def settleWithin : ℕ → TimeQueues n → TimeQueues n
  | 0, q => q
  | k + 1, q =>
    if s.accepts q.heads then q
    else if q.EarliestHasNext then settleWithin k q.advanceEarliest
    else q

def settle (q : TimeQueues n) : TimeQueues n := s.settleWithin q.total q

/-- The oldest messages, and those that one gets from these by going on to the message that follows
the earliest, while they are accepted and not all at the same time. -/
def candidatesWithin : ℕ → TimeQueues n → List (TimeSet n)
  | 0, _ => []
  | k + 1, q =>
    if s.accepts q.heads then
      q.heads :: if q.heads.spread ≠ 0 ∧ q.EarliestHasNext then
        candidatesWithin k q.advanceEarliest
      else []
    else []

def candidates (q : TimeQueues n) : List (TimeSet n) := s.candidatesWithin (q.total + 1) q

theorem settle_of_accepts (h : s.accepts q.heads = true) : s.settle q = q := by
  unfold settle
  cases q.total with
  | zero => rfl
  | succ k => rw [settleWithin, if_pos h]

theorem settle_advanceEarliest (h : s.accepts q.heads = false) (hnext : q.EarliestHasNext) :
    s.settle q.advanceEarliest = s.settle q := by
  have htotal := TimeQueues.total_advance hnext
  rw [settle, settle, ← htotal, settleWithin, if_neg (by simp [h]), if_pos hnext]
  rfl

theorem candidates_of_not_accepts (h : s.accepts q.heads = false) : s.candidates q = [] := by
  rw [candidates, candidatesWithin, if_neg (by simp [h])]

theorem candidates_of_stop (h : s.accepts q.heads = true)
    (hstop : q.heads.spread = 0 ∨ ¬ q.EarliestHasNext) : s.candidates q = [q.heads] := by
  rw [candidates, candidatesWithin, if_pos h, if_neg (by tauto)]

theorem candidates_of_next (h : s.accepts q.heads = true) (hspread : q.heads.spread ≠ 0)
    (hnext : q.EarliestHasNext) :
    s.candidates q = q.heads :: s.candidates q.advanceEarliest := by
  have htotal := TimeQueues.total_advance hnext
  rw [candidates, candidatesWithin, if_pos h, if_pos ⟨hspread, hnext⟩, ← htotal]
  rfl

end TimeSynchronizer

/-! ### Rounds -/

variable {n : ℕ} {M : Fin (n + 1) → Type} {T : TimeStamps M} {peek : Peek M} {f : MessageFilter M}
  {s : TimeSynchronizer} {loop : SyncLoop M} {i : Fin (n + 1)}

/-- The time stamps of the messages in the queues. -/
def TimeStamps.queuesOf (T : TimeStamps M) (f : MessageFilter M) : TimeQueues n :=
  fun i ↦ (f.contents i).map (T.timestamp i)

/-- A filter whose queues have messages. -/
structure MessageFilter.Ready (f : MessageFilter M) : Prop where
  kept : f.Kept
  ne_nil : ∀ i, f.contents i ≠ []

theorem MessageFilter.Ready.isComplete (h : f.Ready) : f.isComplete = true :=
  isComplete_iff.mpr fun i ↦ (h.kept.wellFormed.empty_iff i).mpr (h.ne_nil i)

theorem MessageFilter.Ready.doesAllQueueHaveElement (h : f.Ready) :
    f.doesAllQueueHaveElement = true := by
  rw [h.kept.doesAllQueueHaveElement_eq, h.isComplete]

theorem MessageFilter.Kept.ready (h : f.Kept) (hall : f.doesAllQueueHaveElement = true) :
    f.Ready := by
  rw [h.doesAllQueueHaveElement_eq, MessageFilter.isComplete_iff] at hall
  exact ⟨h, fun i ↦ (h.wellFormed.empty_iff i).mp (hall i)⟩

theorem MessageFilter.Ready.lt_messageCountAt (h : f.Ready) (k : ℕ) :
    k < f.messageCountAt i ↔ i.val < 9 ∧ k < (f.contents i).length := by
  rw [MessageFilter.messageCountAt, h.kept.wellFormed.messageCount_eq]
  split_ifs with hi
  · simp [hi]
  · simp [hi]

/-- What remains when a message is dropped that is not the last one of its queue. -/
structure MessageFilter.DropsOne (f dropped : MessageFilter M) (i : Fin (n + 1)) : Prop where
  ready : dropped.Ready
  contents_self : dropped.contents i = (f.contents i).tail
  contents_of_ne : ∀ j, j ≠ i → dropped.contents j = f.contents j

theorem MessageFilter.Ready.dropsOne (h : f.Ready) (hi : i.val < 9)
    (hlength : 1 < (f.contents i).length) : f.DropsOne (f.dropMessageAt i) i := by
  have hwell := h.kept.wellFormed
  have hself := hwell.contents_pop_self i
  have hdrop : f.dropMessageAt i = f.pop i := if_pos hi
  rw [hdrop]
  refine ⟨⟨h.kept.pop ((hwell.empty_iff i).mpr (h.ne_nil i)), fun j ↦ ?_⟩, hself,
    fun j hj ↦ contents_pop_of_ne f hj⟩
  by_cases hj : j = i
  · rw [hj, hself, ne_eq, ← List.length_eq_zero_iff, List.length_tail]
    omega
  · rw [contents_pop_of_ne f hj]
    exact h.ne_nil j

theorem TimeStamps.queuesOf_dropsOne (T : TimeStamps M) {dropped : MessageFilter M}
    (h : f.DropsOne dropped i) : T.queuesOf dropped = (T.queuesOf f).advance i := by
  funext j
  by_cases hj : j = i
  · subst hj
    rw [TimeQueues.advance, Function.update_self, queuesOf, queuesOf, h.contents_self,
      List.map_tail]
  · rw [TimeQueues.advance, Function.update_of_ne hj, queuesOf, queuesOf, h.contents_of_ne j hj]

namespace SyncLoop

/-- The messages that are not before the peek indices. -/
def view (T : TimeStamps M) (loop : SyncLoop M) : TimeQueues n :=
  fun i ↦ (T.queuesOf loop.filter i).drop (loop.peekIdxs i)

/-- The peek indices are those of messages. -/
structure IsWithin (loop : SyncLoop M) : Prop where
  ready : loop.filter.Ready
  lt_length : ∀ i, loop.peekIdxs i < (loop.filter.contents i).length

theorem IsWithin.filled (h : loop.IsWithin) : (loop.view T).Filled := by
  refine ⟨fun i hnil ↦ ?_, fun i t ht ↦ ?_⟩
  · have hlt := h.lt_length i
    rw [view, List.drop_eq_nil_iff, TimeStamps.queuesOf, List.length_map] at hnil
    omega
  · obtain ⟨message, -, rfl⟩ := List.mem_map.mp (List.mem_of_mem_drop ht)
    exact T.timestamp_mem i message

theorem IsWithin.lt_messageCountAt_iff (h : loop.IsWithin) :
    loop.peekIdxs i + 1 < loop.filter.messageCountAt i ↔ (loop.view T).HasNext i := by
  rw [h.ready.lt_messageCountAt, TimeQueues.HasNext, view, List.length_drop, TimeStamps.queuesOf,
    List.length_map]
  omega

theorem IsWithin.setPeekIdx (h : loop.IsWithin) {idx : ℕ}
    (hlt : idx < (loop.filter.contents i).length) : (loop.setPeekIdx i idx).IsWithin := by
  refine ⟨h.ready, fun j ↦ ?_⟩
  show Function.update loop.peekIdxs i idx j < (loop.filter.contents j).length
  by_cases hj : j = i
  · subst hj
    rwa [Function.update_self]
  · rw [Function.update_of_ne hj]
    exact h.lt_length j

theorem view_setPeekIdx (T : TimeStamps M) (loop : SyncLoop M) (i : Fin (n + 1)) :
    (loop.setPeekIdx i (loop.peekIdxs i + 1)).view T = (loop.view T).advance i := by
  funext j
  by_cases hj : j = i
  · subst hj
    simp [view, setPeekIdx, TimeQueues.advance]
  · simp [view, setPeekIdx, TimeQueues.advance, Function.update_of_ne hj]

/-- The peek indices lead to the messages that they are those of. -/
def Peeks (peek : Peek M) (loop : SyncLoop M) : Prop :=
  ∀ i, peek loop.filter i (loop.peekIdxs i) = (loop.filter.contents i)[loop.peekIdxs i]?

theorem IsWithin.peekTimes_eq (h : loop.IsWithin) (hpeeks : loop.Peeks peek) :
    loop.peekTimes T peek = some (loop.view T).heads := by
  have hsome (i : Fin (n + 1)) : (peek loop.filter i (loop.peekIdxs i)).isSome := by
    rw [hpeeks i, List.getElem?_eq_getElem (h.lt_length i)]
    rfl
  rw [peekTimes, dif_pos hsome]
  congr 1
  funext i
  have hget : (loop.filter.contents i)[loop.peekIdxs i]? =
      some ((peek loop.filter i (loop.peekIdxs i)).get (hsome i)) := by
    rw [Option.some_get, hpeeks i]
  rw [TimeQueues.heads, view, List.headD_eq_head?_getD, List.head?_drop, TimeStamps.queuesOf,
    List.getElem?_map, hget]
  rfl

/-- A round that examines the messages after the peek indices. -/
theorem IsWithin.round_meets (h : loop.IsWithin) (hpeeks : loop.Peeks peek) {fails : Prop}
    {P Q : SyncLoop M → Prop} (hfails : s.examine (loop.view T).heads = none → fails)
    (hset : ∀ set, s.examine (loop.view T).heads = some set →
      s.Describes (loop.view T).heads set →
        (loop.roundWith (loop.view T).heads set).Meets fails P Q) :
    (loop.round T peek s).Meets fails P Q := by
  unfold round
  rw [if_pos h.ready.doesAllQueueHaveElement, h.peekTimes_eq hpeeks]
  dsimp only
  cases hexamined : s.examine (loop.view T).heads with
  | none => exact hfails hexamined
  | some set =>
    exact hset set hexamined
      (TimeSynchronizer.describes_of_examine h.filled.heads_inRange hexamined)

/-! ### Searching for a candidate -/

/-- Nothing is accepted yet, and the earliest of the oldest messages may have been dropped. -/
structure Searching (T : TimeStamps M) (s : TimeSynchronizer) (f : MessageFilter M)
    (loop : SyncLoop M) : Prop where
  ready : loop.filter.Ready
  peekIdxs : loop.peekIdxs = fun _ ↦ 0
  hasCandidate : loop.hasCandidate = false
  accepted : loop.accepted = []
  settle : s.settle (loop.view T) = s.settle (T.queuesOf f)
  filter : loop.filter = (f.runCalls loop.calls).1
  drops : f.DropsMessages loop.calls

theorem Searching.isWithin (h : loop.Searching T s f) : loop.IsWithin := by
  refine ⟨h.ready, fun i ↦ ?_⟩
  rw [h.peekIdxs]
  exact List.length_pos_of_ne_nil (h.ready.ne_nil i)

theorem view_of_start (T : TimeStamps M) (hpeekIdxs : loop.peekIdxs = fun _ ↦ 0) :
    loop.view T = T.queuesOf loop.filter := by
  funext i
  rw [view, hpeekIdxs, List.drop_zero]

theorem view_dropEarliest (T : TimeStamps M) (hpeekIdxs : loop.peekIdxs = fun _ ↦ 0)
    (h : loop.filter.DropsOne (loop.filter.dropMessageAt i) i) :
    (loop.dropEarliest i).view T = (loop.view T).advance i := by
  rw [view_of_start T (by exact hpeekIdxs), view_of_start T hpeekIdxs]
  exact T.queuesOf_dropsOne h

theorem filter_dropEarliest (h : loop.filter = (f.runCalls loop.calls).1) (i : Fin (n + 1)) :
    (loop.dropEarliest i).filter = (f.runCalls (loop.dropEarliest i).calls).1 := by
  show loop.filter.dropMessageAt i = (f.runCalls (loop.calls ++ [.dropMessageAt i])).1
  rw [MessageFilter.runCalls_append, ← h]
  rfl

theorem searching_start (T : TimeStamps M) (s : TimeSynchronizer) (h : f.Ready) :
    Searching T s f { filter := f } :=
  ⟨h, rfl, rfl, rfl, by rw [view_of_start T rfl], rfl, trivial⟩

theorem Searching.lt_messageCountAt_iff (h : loop.Searching T s f) :
    1 < loop.filter.messageCountAt i ↔ (loop.view T).HasNext i := by
  have hiff := h.isWithin.lt_messageCountAt_iff (T := T) (i := i)
  rwa [h.peekIdxs] at hiff

/-- The earliest of the oldest messages is dropped. -/
theorem Searching.dropEarliest (h : loop.Searching T s f)
    (haccepts : s.accepts (loop.view T).heads = false) (hnext : (loop.view T).EarliestHasNext) :
    (loop.dropEarliest (loop.view T).heads.earliestIdx).Searching T s f ∧
      (loop.dropEarliest (loop.view T).heads.earliestIdx).view T =
        (loop.view T).advanceEarliest := by
  set e := (loop.view T).heads.earliestIdx with he
  have hnext' : (loop.view T).HasNext e := hnext
  obtain ⟨hindex, hlength⟩ := (h.ready.lt_messageCountAt 1).mp (h.lt_messageCountAt_iff.mpr hnext')
  have hdrops := h.ready.dropsOne hindex hlength
  have hview : (loop.dropEarliest e).view T = (loop.view T).advanceEarliest :=
    view_dropEarliest T h.peekIdxs hdrops
  have hempty := (h.ready.kept.wellFormed.empty_iff e).mpr (h.ready.ne_nil e)
  refine ⟨⟨hdrops.ready, h.peekIdxs, h.hasCandidate, h.accepted, ?_,
    filter_dropEarliest h.filter e, ?_⟩, hview⟩
  · rw [hview, s.settle_advanceEarliest haccepts hnext, h.settle]
  · refine h.drops.append ?_
    rw [← h.filter]
    exact ⟨fun _ ↦ hempty, trivial⟩

/-- A round that accepts nothing drops the earliest of the oldest messages, or ends the search. -/
theorem Searching.roundWith_meets (h : loop.Searching T s f) {set : Examined n}
    (hset : s.Describes (loop.view T).heads set) {fails : Prop} {P Q : SyncLoop M → Prop}
    (hagain : ∀ next, next.Searching T s f → (next.view T).total < (loop.view T).total → P next)
    (hdone : Q loop)
    (haccepts : s.accepts (loop.view T).heads = true →
      (loop.roundWith (loop.view T).heads set).Meets fails P Q) :
    (loop.roundWith (loop.view T).heads set).Meets fails P Q := by
  cases haccepted : s.accepts (loop.view T).heads with
  | true => exact haccepts haccepted
  | false =>
    have hnot : set.isAccepted = false := hset.isAccepted.trans haccepted
    unfold roundWith
    rw [if_neg (by simp [hnot]), if_neg (by simp [h.hasCandidate]), hset.earliestIdx]
    split_ifs with hlt
    · have hnext := h.lt_messageCountAt_iff.mp hlt
      obtain ⟨hsearching, hview⟩ := h.dropEarliest haccepted hnext
      refine hagain _ hsearching ?_
      have htotal := TimeQueues.total_advance hnext
      rw [hview, TimeQueues.advanceEarliest]
      omega
    · exact hdone

/-! ### Improving a candidate -/

/-- The sets that were accepted and those that can still be accepted are the candidates. -/
structure Covering (T : TimeStamps M) (s : TimeSynchronizer) (f : MessageFilter M)
    (loop : SyncLoop M) : Prop where
  isWithin : loop.IsWithin
  candidates : loop.accepted ++ s.candidates (loop.view T) =
    s.candidates (s.settle (T.queuesOf f))

theorem Searching.covering (h : loop.Searching T s f)
    (haccepts : s.accepts (loop.view T).heads = true) : loop.Covering T s f := by
  refine ⟨h.isWithin, ?_⟩
  rw [h.accepted, List.nil_append, ← h.settle, s.settle_of_accepts haccepts]

/-- The set at some indices is the last one accepted. -/
structure LastAccepted (T : TimeStamps M) (loop : SyncLoop M) (idxs : Fin (n + 1) → ℕ) : Prop where
  getLast : loop.accepted.getLast? = some ((T.queuesOf loop.filter).timesAt idxs)
  timestamp : loop.lastTimestampCandidate = ((T.queuesOf loop.filter).timesAt idxs).latest

/-- A set is accepted, and the next message of the type of its earliest one is looked at. -/
structure Improving (T : TimeStamps M) (s : TimeSynchronizer) (f : MessageFilter M)
    (loop : SyncLoop M) : Prop where
  covering : loop.Covering T s f
  hasCandidate : loop.hasCandidate = true
  lastAccepted : loop.LastAccepted T (Function.update loop.peekIdxs loop.lastUpdatedPeekIdx
    (loop.peekIdxs loop.lastUpdatedPeekIdx - 1))

/-- The last candidate is selected. -/
structure Selects (T : TimeStamps M) (s : TimeSynchronizer) (f : MessageFilter M)
    (loop : SyncLoop M) : Prop where
  isWithin : loop.IsWithin
  accepted : loop.accepted = s.candidates (s.settle (T.queuesOf f))
  lastAccepted : loop.LastAccepted T loop.peekIdxs

theorem heads_view (T : TimeStamps M) (loop : SyncLoop M) :
    (loop.view T).heads = (T.queuesOf loop.filter).timesAt loop.peekIdxs := by
  funext i
  rw [TimeQueues.heads, view, List.headD_eq_head?_getD, List.head?_drop, TimeQueues.timesAt,
    List.getD_eq_getElem?_getD]

/-- The next message of the type of the earliest one is looked at. -/
theorem Covering.improving_next (h : loop.Covering T s f) {set : Examined n}
    (haccepts : s.accepts (loop.view T).heads = true)
    (hspread : (loop.view T).heads.spread ≠ 0) (hnext : (loop.view T).EarliestHasNext)
    {updated : SyncLoop M}
    (hupdated : updated = { loop.accept (loop.view T).heads set with
      lastUpdatedPeekIdx := (loop.view T).heads.earliestIdx })
    (hlast : updated.LastAccepted T loop.peekIdxs) :
    let next := updated.setPeekIdx (loop.view T).heads.earliestIdx
      (loop.peekIdxs (loop.view T).heads.earliestIdx + 1)
    next.Improving T s f ∧ (next.view T).total < (loop.view T).total := by
  intro next
  set e := (loop.view T).heads.earliestIdx with he
  have hview : next.view T = (loop.view T).advanceEarliest := by
    rw [TimeQueues.advanceEarliest, ← he, ← view_setPeekIdx]
    show (updated.setPeekIdx e (loop.peekIdxs e + 1)).view T = _
    rw [hupdated]
    rfl
  have htotal := TimeQueues.total_advance hnext
  have hlt := ((h.isWithin.ready.lt_messageCountAt _).mp
    (h.isWithin.lt_messageCountAt_iff.mpr hnext)).2
  have hpeekIdxs : next.peekIdxs = Function.update loop.peekIdxs e (loop.peekIdxs e + 1) := by
    show Function.update updated.peekIdxs e (loop.peekIdxs e + 1) = _
    rw [hupdated]
    rfl
  have hwithin : updated.IsWithin := by
    rw [hupdated]
    exact ⟨h.isWithin.ready, h.isWithin.lt_length⟩
  have hfilter : updated.filter = loop.filter := by
    rw [hupdated]
    rfl
  have hback : Function.update next.peekIdxs next.lastUpdatedPeekIdx
      (next.peekIdxs next.lastUpdatedPeekIdx - 1) = loop.peekIdxs := by
    have hupdatedIdx : next.lastUpdatedPeekIdx = e := by
      show updated.lastUpdatedPeekIdx = e
      rw [hupdated]
    rw [hupdatedIdx, hpeekIdxs, Function.update_self, Function.update_idem, Nat.add_sub_cancel,
      Function.update_eq_self]
  refine ⟨⟨⟨hwithin.setPeekIdx (by rwa [hfilter]), ?_⟩, ?_, ?_⟩, ?_⟩
  · have haccepted : next.accepted = loop.accepted ++ [(loop.view T).heads] := by
      show updated.accepted = _
      rw [hupdated]
      rfl
    rw [hview, haccepted, ← h.candidates, s.candidates_of_next haccepts hspread hnext,
      List.append_assoc, List.singleton_append]
  · show updated.hasCandidate = true
    rw [hupdated]
    rfl
  · rw [hback]
    exact ⟨hlast.getLast, hlast.timestamp⟩
  · rw [hview, TimeQueues.advanceEarliest]
    omega

/-- A round that accepts a set ends with it, or goes on to the next message. -/
theorem Covering.roundWith_meets (h : loop.Covering T s f) {set : Examined n}
    (hset : s.Describes (loop.view T).heads set)
    (haccepts : s.accepts (loop.view T).heads = true) {fails : Prop} :
    (loop.roundWith (loop.view T).heads set).Meets fails
      (fun next ↦ next.Improving T s f ∧ (next.view T).total < (loop.view T).total)
      (fun result ↦ result.Selects T s f) := by
  have hlast (next : SyncLoop M)
      (haccepted : next.accepted = loop.accepted ++ [(loop.view T).heads])
      (htimestamp : next.lastTimestampCandidate = set.latestTimestamp)
      (hfilter : next.filter = loop.filter) : next.LastAccepted T loop.peekIdxs := by
    refine ⟨?_, ?_⟩
    · rw [haccepted, List.getLast?_concat, heads_view, hfilter]
    · rw [htimestamp, hset.latestTimestamp, heads_view, hfilter]
  have hstop (hstop : (loop.view T).heads.spread = 0 ∨ ¬ (loop.view T).EarliestHasNext) :
      loop.accepted ++ [(loop.view T).heads] = s.candidates (s.settle (T.queuesOf f)) := by
    rw [← h.candidates, s.candidates_of_stop haccepts hstop]
  unfold roundWith
  rw [if_pos (hset.isAccepted.trans haccepts)]
  split_ifs with hdelta hlt
  · exact ⟨⟨h.isWithin.ready, h.isWithin.lt_length⟩, hstop (.inl (hset.delta.mp hdelta)),
      hlast _ rfl rfl rfl⟩
  · rw [hset.earliestIdx] at hlt
    have hnext : (loop.view T).EarliestHasNext := h.isWithin.lt_messageCountAt_iff.mp hlt
    rw [hset.earliestIdx]
    exact h.improving_next haccepts (fun hzero ↦ hdelta (hset.delta.mpr hzero)) hnext rfl
      (hlast _ rfl rfl rfl)
  · rw [hset.earliestIdx] at hlt
    have hnext : ¬ (loop.view T).EarliestHasNext := fun hnext ↦
      hlt (h.isWithin.lt_messageCountAt_iff.mpr hnext)
    exact ⟨⟨h.isWithin.ready, h.isWithin.lt_length⟩, hstop (.inr hnext), hlast _ rfl rfl rfl⟩

/-- A round that accepts nothing more goes back to the set that was accepted last. -/
theorem Improving.roundWith_meets (h : loop.Improving T s f) {set : Examined n}
    (hset : s.Describes (loop.view T).heads set) {fails : Prop} :
    (loop.roundWith (loop.view T).heads set).Meets fails
      (fun next ↦ next.Improving T s f ∧ (next.view T).total < (loop.view T).total)
      (fun result ↦ result.Selects T s f) := by
  cases haccepted : s.accepts (loop.view T).heads with
  | true => exact h.covering.roundWith_meets hset haccepted
  | false =>
    have hnot : set.isAccepted = false := hset.isAccepted.trans haccepted
    unfold roundWith
    rw [if_neg (by simp [hnot]), if_pos h.hasCandidate]
    refine ⟨⟨h.covering.isWithin.ready, fun i ↦ ?_⟩, ?_, h.lastAccepted.getLast,
      h.lastAccepted.timestamp⟩
    · refine lt_of_le_of_lt ?_ (h.covering.isWithin.lt_length i)
      show Function.update loop.peekIdxs _ (loop.peekIdxs _ - 1) i ≤ loop.peekIdxs i
      by_cases hi : i = loop.lastUpdatedPeekIdx
      · subst hi
        rw [Function.update_self]
        exact Nat.sub_le _ _
      · rw [Function.update_of_ne hi]
    · have hcandidates := h.covering.candidates
      rwa [s.candidates_of_not_accepts haccepted, List.append_nil] at hcandidates

end SyncLoop

/-! ### The selected set -/

/-- `PeekMessage`, as it is taken to be: the message of the index, the oldest being the first. -/
def peekAged (M : Fin (n + 1) → Type) : Peek M := fun f i idx ↦ (f.contents i)[idx]?

theorem total_queuesOf (T : TimeStamps M) (h : f.Kept) :
    (T.queuesOf f).total = ∑ i, f.messageCount i :=
  Finset.sum_congr rfl fun i _ ↦ by
    rw [TimeStamps.queuesOf, List.length_map, h.wellFormed.messageCount_eq]

/-- The loop ends, and has selected the last candidate if there is one. -/
theorem SyncLoop.runLoop_selects (T : TimeStamps M) (s : TimeSynchronizer) (h : f.Ready) :
    (runLoop (round T (peekAged M) · s) (∑ i, f.messageCount i + 1) { filter := f }).Meets True
      (fun result ↦ result.hasCandidate = true → result.Selects T s f) := by
  have hstart := searching_start T s h
  refine runLoop_meets (P := fun loop ↦ loop.Searching T s f ∨ loop.Improving T s f)
    (fun loop ↦ (loop.view T).total) ?_ (.inl hstart) ?_
  · rintro loop (hsearching | himproving)
    · refine hsearching.isWithin.round_meets (fun _ ↦ rfl) (fun _ ↦ trivial) fun set _ hset ↦ ?_
      refine hsearching.roundWith_meets hset (fun next hnext hlt ↦ ⟨.inl hnext, hlt⟩) ?_ ?_
      · exact fun hcandidate ↦ absurd hcandidate (by simp [hsearching.hasCandidate])
      · intro haccepts
        exact ((hsearching.covering haccepts).roundWith_meets hset haccepts).mono
          (fun next hnext ↦ ⟨.inr hnext.1, hnext.2⟩) fun result hselects _ ↦ hselects
    · refine himproving.covering.isWithin.round_meets (fun _ ↦ rfl) (fun _ ↦ trivial)
        fun set _ hset ↦ ?_
      exact (himproving.roundWith_meets hset).mono
        (fun next hnext ↦ ⟨.inr hnext.1, hnext.2⟩) fun result hselects _ ↦ hselects
  · rw [view_of_start T rfl, total_queuesOf T h.kept]
    exact Nat.lt_succ_self _

/-- The set that the peek indices select is no wider than any set that was accepted, and its latest
time stamp is kept. -/
def SyncResult.SelectsNarrowest (T : TimeStamps M) (result : SyncResult M) : Prop :=
  ∃ selected, result.loop.peekTimes T (peekAged M) = some selected ∧
    (∀ set ∈ result.loop.accepted, selected.spread ≤ set.spread) ∧
    result.synchronizer.lastTimestamp = selected.latest

/-- From each of some sets to the last one, the latest time stamp goes on by no more than the
earliest does. -/
def ClosesIn (sets : List (TimeSet n)) : Prop :=
  ∀ last ∈ sets.getLast?, ∀ set ∈ sets, last.latest - set.latest ≤ last.earliest - set.earliest

instance (sets : List (TimeSet n)) : Decidable (ClosesIn sets) := by
  unfold ClosesIn
  infer_instance

theorem SyncLoop.Selects.narrowest_iff (h : loop.Selects T s f)
    (hcandidate : loop.hasCandidate = true) :
    (loop.finish s).SelectsNarrowest T ↔ ClosesIn (s.candidates (s.settle (T.queuesOf f))) := by
  have hpeek : loop.peekTimes T (peekAged M) = some (loop.view T).heads :=
    h.isWithin.peekTimes_eq fun _ ↦ rfl
  have hfinish : (loop.finish s).loop = loop := by
    rw [finish, if_pos hcandidate]
  have htimestamp : (loop.finish s).synchronizer.lastTimestamp = loop.lastTimestampCandidate := by
    rw [finish, if_pos hcandidate]
  have hlast := h.lastAccepted.getLast
  have hlatest := h.lastAccepted.timestamp
  rw [← heads_view] at hlast hlatest
  rw [SyncResult.SelectsNarrowest, hfinish, hpeek, htimestamp, hlatest, ClosesIn, ← h.accepted,
    hlast]
  constructor
  · rintro ⟨selected, hselected, hspread, -⟩ last hlast set hset
    cases hselected
    cases hlast
    have hle := hspread set hset
    unfold TimeSet.spread at hle
    omega
  · intro hcloses
    refine ⟨_, rfl, fun set hset ↦ ?_, rfl⟩
    have hle := hcloses _ rfl set hset
    unfold TimeSet.spread
    omega

namespace Scenario

/-- Messages of two types, each its own time stamp. -/
abbrev Stamped : Fin 2 → Type := fun _ ↦ Fin 2000

def stamps : TimeStamps Stamped where
  timestamp _ message := message.val
  timestamp_mem i message := by
    have hlt := message.isLt
    rw [Set.mem_Icc, timeMin, timeMax]
    omega

/-- Two messages of the first type, and one of the second. -/
def threeMessages (first second other : Fin 2000) : MessageFilter Stamped :=
  (((MessageFilter.ofCapacity roomForTwo).push firstType first).push firstType second).push
    secondType other

theorem kept_threeMessages (first second other : Fin 2000) :
    (threeMessages first second other).Kept := by
  have hempty : (MessageFilter.ofCapacity roomForTwo : MessageFilter Stamped).Kept :=
    MessageFilter.kept_ofCapacity roomForTwo
  have hfirst := hempty.push (by decide) firstType first
  have hsecond := hfirst.push (by decide) firstType second
  exact hsecond.push (by decide) secondType other

end Scenario

namespace TimeSynchronizer

end TimeSynchronizer

end Felicia
