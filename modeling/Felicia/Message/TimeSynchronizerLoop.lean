import Felicia.Message.TimeSynchronizer

/-!
# The loop of the time synchronizer

`TimeSyncrhonizerMF::Callback` of `felicia/core/message/message_filter.h` as a loop over queues that
it must not empty. A round advances one peek index, or drops a message, or ends the loop; so fewer
messages are behind the peek indices after each round (`Bounded.round_meets`). The indices stay
those of messages, however `PeekMessage` uses them, and what is dropped in the loop and after it is
never the last message of a queue (`callback_keeps_messages`).
-/

set_option autoImplicit false
set_option relaxedAutoImplicit false

namespace Felicia

open Support TransitionSystem

variable {n : ℕ} {M : Fin (n + 1) → Type} {T : TimeStamps M} {peek : Peek M} {f : MessageFilter M}
  {s : TimeSynchronizer} {loop : SyncLoop M} {i : Fin (n + 1)}

/-! ### Examining -/

theorem exists_saturatedSub {value : ℤ} (h : value ∈ Set.Ioo timeMin timeMax) (delta : ℤ) :
    ∃ difference, saturatedSub value delta = some difference := by
  obtain ⟨hmin, hmax⟩ := h
  unfold saturatedSub
  split_ifs <;> exact ⟨_, rfl⟩

theorem TimeSynchronizer.exists_isAccepted (s : TimeSynchronizer) {earliest : ℤ}
    (h : earliest ∈ Set.Ioo timeMin timeMax) (delta : ℤ) :
    ∃ accepted, s.isAccepted delta earliest = some accepted := by
  obtain ⟨difference, hdifference⟩ := exists_saturatedSub h s.lastTimestamp
  unfold isAccepted
  split_ifs
  · exact ⟨_, rfl⟩
  · exact ⟨_, rfl⟩
  · rw [hdifference]
    exact ⟨_, rfl⟩

/-- Assumes: time stamps between the limits. No `CHECK` fails, and the index of the earliest message
is set. -/
theorem TimeSynchronizer.exists_examine (s : TimeSynchronizer) {times : TimeSet n}
    (h : ∀ i, times i ∈ Set.Ioo timeMin timeMax) : ∃ set, s.examine times = some set := by
  have hinRange : times.InRange := fun i ↦ ⟨(h i).1.le, (h i).2.le⟩
  have hearliest : times.earliest ∈ Set.Ioo timeMin timeMax :=
    ⟨(Finset.lt_inf'_iff _).mpr fun i _ ↦ (h i).1, (TimeSet.earliest_le 0).trans_lt (h 0).2⟩
  have hlatest : times.latest ∈ Set.Ioo timeMin timeMax :=
    ⟨(h 0).1.trans_le (TimeSet.le_latest 0), (Finset.sup'_lt_iff _).mpr fun i _ ↦ (h i).2⟩
  obtain ⟨delta, hdelta⟩ := exists_saturatedSub hlatest times.earliest
  obtain ⟨accepted, haccepted⟩ := s.exists_isAccepted hearliest delta
  rw [examine, hinRange.earliest_eq, hinRange.latest_eq, hdelta, Option.bind_some, haccepted,
    Option.bind_some, hinRange.idx_eq hearliest.2]
  exact ⟨_, rfl⟩

/-! ### Dropping -/

namespace MessageFilter

/-- The time stamps of the messages are between the limits. -/
def StampedInside (T : TimeStamps M) (f : MessageFilter M) : Prop :=
  ∀ i, ∀ message ∈ f.contents i, T.timestamp i message ∈ Set.Ioo timeMin timeMax

/-- Every queue has an element before and after each of some calls. -/
def StaysComplete (f : MessageFilter M) : List (FilterCall (n + 1)) → Prop
  | [] => f.isComplete = true
  | c :: calls => f.isComplete = true ∧ (f.call c).StaysComplete calls

theorem StaysComplete.append {calls rest : List (FilterCall (n + 1))} (h : f.StaysComplete calls)
    (hrest : (f.runCalls calls).1.StaysComplete rest) : f.StaysComplete (calls ++ rest) := by
  induction calls generalizing f with
  | nil => exact hrest
  | cons c calls ih => exact ⟨h.1, ih h.2 hrest⟩

theorem StaysComplete.isComplete_runCalls {calls : List (FilterCall (n + 1))}
    (h : f.StaysComplete calls) : (f.runCalls calls).1.isComplete = true := by
  induction calls generalizing f with
  | nil => exact h
  | cons c calls ih => exact ih h.2

theorem StampedInside.call (h : f.StampedInside T) (hwell : f.IsWellFormed)
    (c : FilterCall (n + 1)) : (f.call c).StampedInside T :=
  fun j message hmessage ↦ h j message (hwell.mem_contents_of_mem_call hmessage)

theorem IsWellFormed.runCalls (h : f.IsWellFormed) (calls : List (FilterCall (n + 1))) :
    (f.runCalls calls).1.IsWellFormed := by
  induction calls generalizing f with
  | nil => exact h
  | cons c calls ih => exact ih (h.call c)

/-- Where every queue has an element, there is a front to take. -/
theorem IsWellFormed.front_isSome (h : f.IsWellFormed) (hcomplete : f.isComplete = true)
    (i : Fin (n + 1)) : (f.queues i).front.isSome := by
  have hne := (h.empty_iff i).mp (isComplete_iff.mp hcomplete i)
  rw [h.front_eq i hne, List.head?_eq_some_head hne]
  rfl

/-- A filter that runs its callback with an element in every queue has counted them right. -/
theorem IsWellFormed.ready (h : f.IsWellFormed) (hn : n + 1 ≤ 9) (hcomplete : f.isComplete = true)
    (hall : f.doesAllQueueHaveElement = true) : f.Ready := by
  have hcount : f.nonEmptyQueueCount = n + 1 := of_decide_eq_true hall
  refine ⟨⟨⟨hcount.trans (isComplete_iff_nonEmpty.mp hcomplete).symm, by omega⟩, h⟩, fun i ↦ ?_⟩
  exact (h.empty_iff i).mp (isComplete_iff.mp hcomplete i)

/-- Fewer messages than a queue has are dropped from it. -/
theorem Ready.dropMany (h : f.Ready) (hi : i.val < 9) {k : ℕ} (hk : k < (f.contents i).length) :
    f.StaysComplete (List.replicate k (.dropMessageAt i)) ∧
      (f.runCalls (List.replicate k (.dropMessageAt i))).1.Ready ∧
      ∀ j, j ≠ i →
        (f.runCalls (List.replicate k (.dropMessageAt i))).1.contents j = f.contents j := by
  induction k generalizing f with
  | zero => exact ⟨h.isComplete, h, fun _ _ ↦ rfl⟩
  | succ k ih =>
    have hdrops := h.dropsOne hi (by omega)
    have hlength := congrArg List.length hdrops.contents_self
    rw [List.length_tail] at hlength
    obtain ⟨hstays, hready, hothers⟩ := ih hdrops.ready (by omega)
    exact ⟨⟨h.isComplete, hstays⟩, hready, fun j hj ↦
      (hothers j hj).trans (hdrops.contents_of_ne j hj)⟩

/-- Assumes: different queues, from each of which fewer messages are dropped than it has. -/
theorem Ready.dropAll (h : f.Ready) (hn : n + 1 ≤ 9) {idxs : Fin (n + 1) → ℕ}
    {indices : List (Fin (n + 1))} (hnodup : indices.Nodup)
    (hlt : ∀ i ∈ indices, idxs i < (f.contents i).length) :
    f.StaysComplete (indices.flatMap fun i ↦ List.replicate (idxs i) (.dropMessageAt i)) := by
  induction indices generalizing f with
  | nil => exact h.isComplete
  | cons i rest ih =>
    obtain ⟨hnot, hrest⟩ := List.nodup_cons.mp hnodup
    obtain ⟨hfirst, hothers⟩ := List.forall_mem_cons.mp hlt
    obtain ⟨hstays, hready, hcontents⟩ := h.dropMany (i.isLt.trans_le hn) hfirst
    rw [List.flatMap_cons]
    refine hstays.append (ih hready hrest fun j hj ↦ ?_)
    rw [hcontents j fun heq ↦ hnot (heq ▸ hj)]
    exact hothers j hj

end MessageFilter

/-! ### Rounds -/

/-- Every index below the count leads to a message of the queue. -/
def Peek.FindsMessages (peek : Peek M) : Prop :=
  ∀ (f : MessageFilter M) i idx, f.Ready → idx < f.messageCount i →
    ∃ message ∈ f.contents i, peek f i idx = some message

namespace SyncLoop

/-- What holds whenever a round begins. -/
structure Bounded (T : TimeStamps M) (f : MessageFilter M) (loop : SyncLoop M) : Prop where
  isWithin : loop.IsWithin
  stamped : loop.filter.StampedInside T
  filter : loop.filter = (f.runCalls loop.calls).1
  stays : f.StaysComplete loop.calls
  peekIdxs : loop.hasCandidate = false → loop.peekIdxs = fun _ ↦ 0
  pos : loop.hasCandidate = true → 0 < loop.peekIdxs loop.lastUpdatedPeekIdx

/-- What holds when the loop has ended. -/
structure Ended (f : MessageFilter M) (loop : SyncLoop M) : Prop where
  isWithin : loop.IsWithin
  filter : loop.filter = (f.runCalls loop.calls).1
  stays : f.StaysComplete loop.calls

theorem Bounded.ended (h : loop.Bounded T f) : loop.Ended f := ⟨h.isWithin, h.filter, h.stays⟩

theorem bounded_start (h : f.Ready) (hstamped : f.StampedInside T) :
    Bounded T f { filter := f } :=
  ⟨⟨h, fun i ↦ List.length_pos_of_ne_nil (h.ne_nil i)⟩, hstamped, rfl, h.isComplete, fun _ ↦ rfl,
    nofun⟩

theorem Bounded.lt_messageCount (h : loop.Bounded T f) (i : Fin (n + 1)) :
    loop.peekIdxs i < loop.filter.messageCount i := by
  rw [h.isWithin.ready.kept.wellFormed.messageCount_eq]
  exact h.isWithin.lt_length i

/-- The time stamps that are peeked at are those of messages. -/
theorem Bounded.exists_peekTimes (h : loop.Bounded T f) (hpeek : peek.FindsMessages) :
    ∃ times, loop.peekTimes T peek = some times ∧ ∀ i, times i ∈ Set.Ioo timeMin timeMax := by
  have hfinds (i : Fin (n + 1)) := hpeek loop.filter i _ h.isWithin.ready (h.lt_messageCount i)
  have hsome (i : Fin (n + 1)) : (peek loop.filter i (loop.peekIdxs i)).isSome := by
    obtain ⟨message, -, hmessage⟩ := hfinds i
    rw [hmessage]
    rfl
  refine ⟨_, dif_pos hsome, fun i ↦ ?_⟩
  obtain ⟨message, hmem, hmessage⟩ := hfinds i
  have hget : (peek loop.filter i (loop.peekIdxs i)).get (hsome i) = message := by
    rw [Option.get_of_mem (hsome i) hmessage]
  rw [hget]
  exact h.stamped i message hmem

/-- A peek index goes on to the next message. -/
theorem Bounded.advance (h : loop.Bounded T f) {times : TimeSet n} {set : Examined n}
    (hlt : loop.peekIdxs i + 1 < loop.filter.messageCountAt i) :
    let next := SyncLoop.setPeekIdx { loop.accept times set with lastUpdatedPeekIdx := i } i
      (loop.peekIdxs i + 1)
    next.Bounded T f ∧ (next.view T).total < (loop.view T).total := by
  intro next
  have hnext : (loop.view T).HasNext i := h.isWithin.lt_messageCountAt_iff.mp hlt
  have hview : next.view T = (loop.view T).advance i := view_setPeekIdx T loop i
  have htotal := TimeQueues.total_advance hnext
  have hupdated : IsWithin { loop.accept times set with lastUpdatedPeekIdx := i } :=
    ⟨h.isWithin.ready, h.isWithin.lt_length⟩
  have hwithin : next.IsWithin :=
    hupdated.setPeekIdx ((h.isWithin.ready.lt_messageCountAt _).mp hlt).2
  refine ⟨⟨hwithin, h.stamped, h.filter, h.stays, nofun, fun _ ↦ ?_⟩, ?_⟩
  · show 0 < Function.update loop.peekIdxs i (loop.peekIdxs i + 1) i
    rw [Function.update_self]
    exact Nat.zero_lt_succ _
  · rw [hview]
    omega

/-- The earliest message is dropped while there is no candidate. -/
theorem Bounded.drop (h : loop.Bounded T f) (hcandidate : loop.hasCandidate = false)
    (hlt : 1 < loop.filter.messageCountAt i) :
    (loop.dropEarliest i).Bounded T f ∧
      ((loop.dropEarliest i).view T).total < (loop.view T).total := by
  have hzero := h.peekIdxs hcandidate
  have hready := h.isWithin.ready
  obtain ⟨hi, hlength⟩ := (hready.lt_messageCountAt 1).mp hlt
  have hdrops := hready.dropsOne hi hlength
  have hnext : (loop.view T).HasNext i :=
    h.isWithin.lt_messageCountAt_iff.mp (by rwa [hzero])
  have hview := view_dropEarliest T hzero hdrops
  have htotal := TimeQueues.total_advance hnext
  refine ⟨⟨⟨hdrops.ready, fun j ↦ ?_⟩,
    h.stamped.call hready.kept.wellFormed (.dropMessageAt i), filter_dropEarliest h.filter i, ?_,
    h.peekIdxs, h.pos⟩, ?_⟩
  · show loop.peekIdxs j < ((loop.filter.dropMessageAt i).contents j).length
    rw [hzero]
    exact List.length_pos_of_ne_nil (hdrops.ready.ne_nil j)
  · refine h.stays.append ?_
    rw [← h.filter]
    exact ⟨hready.isComplete, hdrops.ready.isComplete⟩
  · rw [hview]
    omega

/-- A peek index goes back, to that of a message before. -/
theorem Bounded.ended_back (h : loop.Bounded T f) (i : Fin (n + 1)) :
    (loop.setPeekIdx i (loop.peekIdxs i - 1)).Ended f :=
  ⟨h.isWithin.setPeekIdx ((Nat.sub_le _ 1).trans_lt (h.isWithin.lt_length i)), h.filter, h.stays⟩

/-- A round fails nowhere, and ends the loop or leaves fewer messages behind the peek indices. -/
theorem Bounded.round_meets (h : loop.Bounded T f) (hpeek : peek.FindsMessages)
    (s : TimeSynchronizer) :
    (loop.round T peek s).Meets False
      (fun next ↦ next.Bounded T f ∧ (next.view T).total < (loop.view T).total)
      fun result ↦ result.Ended f := by
  obtain ⟨times, htimes, hinside⟩ := h.exists_peekTimes hpeek
  obtain ⟨set, hset⟩ := s.exists_examine hinside
  rw [round, if_pos h.isWithin.ready.doesAllQueueHaveElement, htimes]
  simp only [hset, roundWith]
  split_ifs with haccepted hdelta hlt hcandidate hlt
  · exact ⟨⟨h.isWithin.ready, h.isWithin.lt_length⟩, h.filter, h.stays⟩
  · exact h.advance hlt
  · exact ⟨⟨h.isWithin.ready, h.isWithin.lt_length⟩, h.filter, h.stays⟩
  · exact h.ended_back loop.lastUpdatedPeekIdx
  · exact h.drop (Bool.eq_false_of_not_eq_true hcandidate) hlt
  · exact h.ended

/-- The loop and the clean-up leave an element in every queue. -/
theorem Ended.stays_finish (h : loop.Ended f) (hn : n + 1 ≤ 9) (s : TimeSynchronizer) :
    f.StaysComplete (loop.finish s).calls := by
  rw [finish]
  by_cases hcandidate : loop.hasCandidate = true
  · rw [if_pos hcandidate]
    refine h.stays.append ?_
    rw [← h.filter]
    exact h.isWithin.ready.dropAll hn (List.nodup_finRange _) fun i _ ↦ h.isWithin.lt_length i
  · rw [if_neg hcandidate]
    exact h.stays

end SyncLoop

/-! ### The callback -/

namespace TimeSynchronizer

/-- `PeekMessage` finds the oldest message for every index. -/
theorem findsMessages_peekMessage : Peek.FindsMessages (M := M) MessageFilter.peekMessage := by
  intro f i idx hready _
  have hne := hready.ne_nil i
  rw [hready.kept.wellFormed.peekMessage_eq i hne, List.head?_eq_some_head hne]
  exact ⟨_, List.head_mem hne, rfl⟩

/-- The callback ends, and what holds whenever a round begins and of what it leaves. -/
theorem exists_callback (hready : f.Ready) (hstamped : f.StampedInside T) (hn : n + 1 ≤ 9)
    (hpeek : peek.FindsMessages) (s : TimeSynchronizer) :
    (∃ result, s.callback T peek f = .finished result ∧ f.StaysComplete result.calls) ∧
    ∀ loop, Visits (SyncLoop.round T peek · s) { filter := f } loop → loop.Bounded T f := by
  have hstart := SyncLoop.bounded_start hready hstamped
  have hround (loop : SyncLoop M) (h : loop.Bounded T f) := h.round_meets hpeek s
  constructor
  · have hmeets := runLoop_meets (fun loop ↦ (loop.view T).total) hround hstart
      (Nat.lt_succ_self _)
    rw [SyncLoop.view_of_start T rfl, total_queuesOf T hready.kept] at hmeets
    obtain ⟨loop, hloop, hended⟩ := hmeets.finished
    refine ⟨loop.finish s, ?_, hended.stays_finish hn s⟩
    rw [callback, hloop]
  · intro loop hvisits
    refine hvisits.invariant (fun loop next h hagain ↦ ?_) hstart
    have hmeets := hround loop h
    rw [hagain] at hmeets
    exact hmeets.1

/-- Assumes: a filter for at most nine types of messages, with a message in every queue, and time
stamps between the limits. The callback ends. Each index that it peeks at is that of a message, and
the one that it takes back was advanced before. After each call that drops a message there is
another one in every queue; so when the callback returns true, there is one to be notified. -/
theorem callback_keeps_messages (T : TimeStamps M) (s : TimeSynchronizer) (f : MessageFilter M)
    (hn : n + 1 ≤ 9)
    (hqueues : ∀ i, ∃ (capacity : ℕ+) (ops : List (PoolOp (M i))),
      Run (pooling capacity) unguarded (f.queues i) ops)
    (hcomplete : f.isComplete = true) (hstamped : f.StampedInside T) :
    ∃ result, s.callback T MessageFilter.peekMessage f = .finished result ∧
      (∀ loop, Visits (SyncLoop.round T MessageFilter.peekMessage · s) { filter := f } loop →
        (∀ i, loop.peekIdxs i < loop.filter.messageCount i) ∧
        (loop.hasCandidate = true → 0 < loop.peekIdxs loop.lastUpdatedPeekIdx)) ∧
      f.StaysComplete result.calls ∧
      (result.returned = true → ∀ i, ((f.runCalls result.calls).1.queues i).front.isSome) := by
  have hwell : f.IsWellFormed := by
    intro i
    obtain ⟨capacity, ops, run⟩ := hqueues i
    exact Pool.exists_represents_of_run run
  by_cases hall : f.doesAllQueueHaveElement = true
  · have hready := hwell.ready hn hcomplete hall
    obtain ⟨⟨result, hcallback, hstays⟩, hvisits⟩ :=
      exists_callback hready hstamped hn findsMessages_peekMessage s
    refine ⟨result, hcallback, fun loop hloop ↦ ?_, hstays, fun _ i ↦ ?_⟩
    · have hbounded := hvisits loop hloop
      exact ⟨hbounded.lt_messageCount, hbounded.pos⟩
    · exact (hwell.runCalls result.calls).front_isSome hstays.isComplete_runCalls i
  · -- the count is wrong, and the loop ends before it peeks at anything
    have hround : SyncLoop.round T MessageFilter.peekMessage { filter := f } s =
        .done { filter := f } := if_neg hall
    refine ⟨SyncLoop.finish { filter := f } s, ?_, fun loop hloop ↦ ?_, hcomplete,
      fun hreturned ↦ absurd hreturned Bool.false_ne_true⟩
    · rw [callback, runLoop, hround]
    · have hloop' : loop = { filter := f } :=
        hloop.invariant (P := (· = { filter := f }))
          (by rintro _ next rfl hagain; cases hround.symm.trans hagain) rfl
      rw [hloop']
      refine ⟨fun i ↦ ?_, fun hcandidate ↦ absurd hcandidate Bool.false_ne_true⟩
      rw [hwell.messageCount_eq]
      exact List.length_pos_of_ne_nil
        ((hwell.empty_iff i).mp (MessageFilter.isComplete_iff.mp hcomplete i))

end TimeSynchronizer

namespace Scenario

/-- Two messages of either type, with the same time stamp for the second ones. -/
def fourMessages (first other second : Fin 2000) : MessageFilter Stamped where
  queues i := ((Pool.ofCapacity roomForTwo).push (if i = firstType then first else other)).push
    second
  nonEmptyQueueCount := 2

theorem run_fourMessages (first other second : Fin 2000) (i : Fin 2) :
    Run (pooling roomForTwo) unguarded ((fourMessages first other second).queues i)
      ([] ++ [.push (if i = firstType then first else other)] ++ [.push second]) := by
  have hfirst : Run (pooling roomForTwo) unguarded
      ((Pool.ofCapacity roomForTwo : Pool (Stamped i)).push
        (if i = firstType then first else other))
      ([] ++ [.push (if i = firstType then first else other)]) :=
    (Run.start rfl).next (a := .push _) trivial rfl
  exact hfirst.next (a := .push second) trivial rfl

theorem stampedInside (f : MessageFilter Stamped) : f.StampedInside stamps := by
  intro i message _
  have hlt := message.isLt
  show (message.val : ℤ) ∈ _
  rw [Set.mem_Ioo, timeMin, timeMax]
  omega

end Scenario

namespace TimeSynchronizer

/-- One message is dropped, and both queues have another one to be notified. -/
theorem callback_keeps_fourMessages :
    ∃ result, callback Scenario.stamps MessageFilter.peekMessage {}
        (Scenario.fourMessages 10 50 90) = .finished result ∧
      result.calls.length = 1 ∧
      ∀ i, (((Scenario.fourMessages 10 50 90).runCalls result.calls).1.queues i).front.isSome := by
  obtain ⟨result, hcallback, -, -, hfronts⟩ :=
    callback_keeps_messages Scenario.stamps {} (Scenario.fourMessages 10 50 90) (by decide)
      (fun i ↦ ⟨_, _, Scenario.run_fourMessages 10 50 90 i⟩) (by decide) (Scenario.stampedInside _)
  have hresult : (callback Scenario.stamps MessageFilter.peekMessage {}
      (Scenario.fourMessages 10 50 90)).result?.map (fun result ↦
        (result.returned, result.calls.length)) = some (true, 1) := by
    decide +kernel
  rw [hcallback] at hresult
  simp only [LoopEnd.result?, Option.map_some, Option.some_inj, Prod.mk.injEq] at hresult
  exact ⟨result, hcallback, hresult.2, hfronts hresult.1⟩

end TimeSynchronizer

end Felicia
