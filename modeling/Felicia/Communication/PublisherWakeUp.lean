import Felicia.Communication.PublisherQueue

/-!
# When a queued message is left without a task

`Publisher::SendMessage` of `felicia/core/communication/publisher.h` posts itself again only after
it removed a message. If it finds every channel sending or without receivers it returns, and neither
`Channel::OnSend` nor `OnSendMessage` posts anything. `Awake` asks of a state between two tasks that
a message in the queue has a `SendMessage` task to come, or a send whose completion schedules one.

No completion does that: `awake_iff`. So a run stays awake as long as `SendMessage` finds a free
channel, or another task is left, or the queue is empty when it returns: `Wakes`. By
`awake_step_iff` the first step that is none of these puts the queue to sleep.
-/

set_option autoImplicit false
set_option relaxedAutoImplicit false

namespace Felicia

open Support TransitionSystem

namespace QueueingPublisher

variable {M : Type} {serialize : M → Option (List UInt8)} {p p' : QueueingPublisher M}
  {events history : List (QueueEvent M)}

/-- `message_queue_` holds a message. -/
def queued (p : QueueingPublisher M) : Bool := p.messageQueue.any fun queue ↦ !queue.empty

/-- The completion of a send posts a `SendMessage` task, whatever its status. -/
def CompletionSchedules (p : QueueingPublisher M) (i : ℕ) : Prop :=
  ∀ status, ∃ p' events, p.complete i status = some (p', events) ∧ p.tasks < p'.tasks

/-- Between two tasks, a message in the queue has a `SendMessage` task to come, or a send whose
completion posts one. -/
def Awake (p : QueueingPublisher M) : Prop :=
  p.loops = [] → p.queued = true →
    0 < p.tasks ∨ ∃ i channel, p.channels[i]? = some channel ∧ channel.sending.isSome ∧
      p.CompletionSchedules i

/-- `SendMessage` finds a channel that is free and has receivers; or it leaves another task behind,
or an empty queue. A call of `Publish` from the loop of another `SendMessage` counts on the task
that is posted at the end of that loop. -/
def Wakes (p : QueueingPublisher M) : QueueAction M → Prop
  | .publish message hasReceivers =>
    p.loops ≠ [] ∨ (p.firstFree hasReceivers).isSome ∨ 0 < p.tasks ∨
      (p.push message).queued = false
  | .runTask hasReceivers => (p.firstFree hasReceivers).isSome ∨ 1 < p.tasks ∨ p.queued = false
  | _ => True

instance (p : QueueingPublisher M) : DecidablePred p.Wakes
  | .publish message hasReceivers =>
    inferInstanceAs (Decidable (p.loops ≠ [] ∨ (p.firstFree hasReceivers).isSome ∨ 0 < p.tasks ∨
      (p.push message).queued = false))
  | .runTask hasReceivers =>
    inferInstanceAs
      (Decidable ((p.firstFree hasReceivers).isSome ∨ 1 < p.tasks ∨ p.queued = false))
  | .setup _ | .makeQueue _ | .setBuffers _ | .release | .post _ | .visit _ | .ret
  | .complete _ _ => isTrue trivial

/-! ### Completions schedule nothing -/

theorem complete_frame {i : ℕ} {status : Status} (h : p.complete i status = some (p', events)) :
    p'.tasks = p.tasks ∧ p'.loops = p.loops ∧ p'.messageQueue = p.messageQueue := by
  unfold complete at h
  split_ifs at h
  obtain ⟨channel, -, hsome⟩ := Option.bind_eq_some_iff.mp h
  obtain ⟨number, -, heq⟩ := Option.map_eq_some_iff.mp hsome
  cases heq
  exact ⟨rfl, rfl, rfl⟩

theorem awake_iff : p.Awake ↔ (p.loops = [] → p.queued = true → 0 < p.tasks) := by
  have hnever : ∀ i, ¬ p.CompletionSchedules i := by
    intro i hschedules
    obtain ⟨p', events, hcomplete, hlt⟩ := hschedules Status.OK
    exact hlt.ne (complete_frame hcomplete).1.symm
  refine ⟨fun h hloops hqueued ↦ ?_, fun h hloops hqueued ↦ Or.inl (h hloops hqueued)⟩
  rcases h hloops hqueued with htasks | ⟨i, -, -, -, hschedules⟩
  · exact htasks
  · exact absurd hschedules (hnever i)

theorem awake_of_tasks (h : 0 < p.tasks) : p.Awake := fun _ _ ↦ Or.inl h

theorem awake_of_loops (h : p.loops ≠ []) : p.Awake := fun hloops ↦ absurd hloops h

theorem awake_of_empty (h : p.queued = false) : p.Awake := fun _ hqueued ↦ by
  simp [h] at hqueued

/-- Assumes: a step that leaves the tasks, the loops and the queue as they are. -/
theorem Awake.of_eq (h : p.Awake) (htasks : p'.tasks = p.tasks) (hloops : p'.loops = p.loops)
    (hqueue : p'.messageQueue = p.messageQueue) : p'.Awake := by
  rw [awake_iff, queued, htasks, hloops, hqueue]
  exact awake_iff.mp h

/-! ### The queue -/

/-- The cells of the queue hold its messages. -/
def SoundQueue (p : QueueingPublisher M) : Prop := ∀ queue ∈ p.messageQueue, queue.Sound

theorem SoundQueue.push (h : p.SoundQueue) (message : M) : (p.push message).SoundQueue := by
  intro queue hqueue
  obtain ⟨old, hold, rfl⟩ := Option.map_eq_some_iff.mp hqueue
  exact (h old hold).push message

theorem SoundQueue.front?_isSome (h : p.SoundQueue) (hqueued : p.queued = true) :
    (p.messageQueue.bind Pool.front?).isSome := by
  obtain ⟨queue, hqueue, hempty⟩ := (Option.any_eq_true ..).mp hqueued
  rw [hqueue, Option.bind_some]
  exact (h queue hqueue).front?_isSome (by simpa using hempty)

/-! ### What `SendMessage` leaves behind -/

theorem sendMessage_loops_or_tasks (serialize : M → Option (List UInt8)) {hasReceivers : ℕ → Bool}
    (hfree : (p.firstFree hasReceivers).isSome)
    (hfront : (p.messageQueue.bind Pool.front?).isSome) :
    (p.sendMessage serialize hasReceivers).1.loops ≠ [] ∨
      0 < (p.sendMessage serialize hasReceivers).1.tasks := by
  obtain ⟨⟨channel, i⟩, hfree⟩ := Option.isSome_iff_exists.mp hfree
  obtain ⟨message, hfront⟩ := Option.isSome_iff_exists.mp hfront
  simp only [sendMessage, hfree, hfront]
  cases p.framed serialize message with
  | none => exact Or.inr (Nat.succ_pos _)
  | some framed => exact Or.inl (List.cons_ne_nil _ _)

theorem sendMessage_of_busy {hasReceivers : ℕ → Bool}
    (hbusy : ¬ (p.firstFree hasReceivers).isSome) :
    p.sendMessage serialize hasReceivers = (p, []) := by
  have hnone : p.firstFree hasReceivers = none := by simpa using hbusy
  simp [sendMessage, hnone]

theorem sendMessage_of_no_front {hasReceivers : ℕ → Bool}
    (hfront : p.messageQueue.bind Pool.front? = none) :
    p.sendMessage serialize hasReceivers = (p, []) := by
  unfold sendMessage
  rw [hfront]
  cases p.firstFree hasReceivers <;> rfl

theorem SoundQueue.sendMessage (h : p.SoundQueue) (serialize : M → Option (List UInt8))
    (hasReceivers : ℕ → Bool) :
    (p.sendMessage serialize hasReceivers).1.SoundQueue := by
  have hpop : ∀ queue ∈ p.messageQueue.map Pool.pop, queue.Sound := by
    intro queue hqueue
    obtain ⟨old, hold, rfl⟩ := Option.map_eq_some_iff.mp hqueue
    exact (h old hold).pop
  unfold QueueingPublisher.sendMessage
  split
  · dsimp only
    split
    · exact hpop
    · exact hpop
  · exact h

/-- Assumes: the cells of the queue hold its messages. `SendMessage` leaves the publisher awake if
it finds a free channel, and as it was if it finds none. -/
theorem awake_sendMessage_iff (serialize : M → Option (List UInt8)) (h : p.SoundQueue)
    (hasReceivers : ℕ → Bool) :
    (p.sendMessage serialize hasReceivers).1.Awake ↔
      (p.firstFree hasReceivers).isSome ∨ p.Awake := by
  by_cases hfree : (p.firstFree hasReceivers).isSome
  · refine iff_of_true ?_ (Or.inl hfree)
    cases hqueued : p.queued with
    | true =>
      rcases sendMessage_loops_or_tasks serialize hfree
        (h.front?_isSome hqueued) with hloops | htasks
      · exact awake_of_loops hloops
      · exact awake_of_tasks htasks
    | false =>
      have hfront : p.messageQueue.bind Pool.front? = none := by
        cases hqueue : p.messageQueue with
        | none => rfl
        | some queue =>
          have hempty : queue.empty = true := by simpa [queued, hqueue] using hqueued
          simp [Pool.front?, hempty]
      rw [sendMessage_of_no_front hfront]
      exact awake_of_empty hqueued
  · rw [sendMessage_of_busy hfree, or_iff_right hfree]

/-! ### Steps -/

theorem SoundQueue.of_eq (h : p.SoundQueue) (hqueue : p'.messageQueue = p.messageQueue) :
    p'.SoundQueue := by
  unfold SoundQueue
  rw [hqueue]
  exact h

theorem visit_messageQueue {hasReceivers : Bool} (h : p.visit hasReceivers = some (p', events)) :
    p'.messageQueue = p.messageQueue := by
  unfold visit at h
  cases hloops : p.loops with
  | nil => simp [hloops] at h
  | cons loop outer =>
    simp only [hloops] at h
    split_ifs at h
    split at h
    · cases h
      rfl
    · split_ifs at h
      · cases Option.some.inj h
        rfl
      · cases h
        rfl

theorem ret_frame (h : p.ret = some p') :
    p'.messageQueue = p.messageQueue ∧ p'.loops ≠ [] := by
  unfold ret at h
  cases hloops : p.loops with
  | nil => simp [hloops] at h
  | cons loop outer =>
    simp only [hloops] at h
    split_ifs at h
    cases h
    exact ⟨rfl, List.cons_ne_nil _ _⟩

theorem SoundQueue.step (h : p.SoundQueue) {a : QueueAction M}
    (hstep : p.step serialize a = some (p', events)) : p'.SoundQueue := by
  cases a with
  | setup type =>
    simp only [QueueingPublisher.step] at hstep
    split_ifs at hstep
    cases hstep
    exact h
  | makeQueue settings =>
    cases hstep
    intro queue hqueue
    cases hqueue
    exact Pool.sound_of_capacity _
  | setBuffers settings =>
    cases hstep
    exact h
  | release =>
    simp only [QueueingPublisher.step] at hstep
    split_ifs at hstep
    cases hstep
    intro queue hqueue
    cases hqueue
  | post message =>
    cases hstep
    exact h.push message
  | publish message hasReceivers =>
    simp only [QueueingPublisher.step] at hstep
    split_ifs at hstep
    have := (h.push message).sendMessage serialize hasReceivers
    rwa [Option.some.inj hstep] at this
  | runTask hasReceivers =>
    simp only [QueueingPublisher.step] at hstep
    split_ifs at hstep
    have hsound : SoundQueue { p with tasks := p.tasks - 1 } := h
    have := hsound.sendMessage serialize hasReceivers
    rwa [Option.some.inj hstep] at this
  | visit hasReceivers => exact h.of_eq (visit_messageQueue hstep)
  | ret =>
    obtain ⟨q, hret, heq⟩ := Option.map_eq_some_iff.mp hstep
    cases heq
    exact h.of_eq (ret_frame hret).1
  | complete i status => exact h.of_eq (complete_frame hstep).2.2

theorem awake_of_visit {hasReceivers : Bool} (h : p.visit hasReceivers = some (p', events)) :
    p'.Awake := by
  unfold visit at h
  cases hloops : p.loops with
  | nil => simp [hloops] at h
  | cons loop outer =>
    simp only [hloops] at h
    split_ifs at h
    split at h
    · -- The loop ends and posts the next `SendMessage`.
      cases h
      exact awake_of_tasks (Nat.succ_pos _)
    · split_ifs at h
      · cases Option.some.inj h
        exact awake_of_loops (List.cons_ne_nil _ _)
      · cases h
        exact awake_of_loops (List.cons_ne_nil _ _)

/-- Assumes: a publisher that is awake and whose queue is sound. -/
theorem awake_step_iff (hawake : p.Awake) (hsound : p.SoundQueue) {a : QueueAction M}
    (hstep : p.step serialize a = some (p', events)) : p'.Awake ↔ p.Wakes a := by
  cases a with
  | setup type =>
    simp only [QueueingPublisher.step] at hstep
    split_ifs at hstep
    cases hstep
    exact iff_of_true (hawake.of_eq rfl rfl rfl) trivial
  | makeQueue settings =>
    cases hstep
    exact iff_of_true (awake_of_empty (by simp [queued])) trivial
  | setBuffers settings =>
    cases hstep
    exact iff_of_true (hawake.of_eq rfl rfl rfl) trivial
  | release =>
    simp only [QueueingPublisher.step] at hstep
    split_ifs at hstep
    cases hstep
    exact iff_of_true (awake_of_empty rfl) trivial
  | post message =>
    cases hstep
    exact iff_of_true (awake_of_tasks (Nat.succ_pos _)) trivial
  | publish message hasReceivers =>
    simp only [QueueingPublisher.step] at hstep
    split_ifs at hstep
    have hiff := awake_sendMessage_iff serialize (hsound.push message) hasReceivers
    rw [Option.some.inj hstep, awake_iff (p := p.push message)] at hiff
    rw [hiff]
    have hfree : (p.push message).firstFree hasReceivers = p.firstFree hasReceivers := rfl
    have hloops : (p.push message).loops = p.loops := rfl
    have htasks : (p.push message).tasks = p.tasks := rfl
    rw [hfree, hloops, htasks]
    unfold Wakes
    by_cases hl : p.loops = [] <;> cases hq : (p.push message).queued <;> simp [hl, hq]
  | runTask hasReceivers =>
    simp only [QueueingPublisher.step, Bool.and_eq_true, List.isEmpty_iff, decide_eq_true_eq]
      at hstep
    split_ifs at hstep with hrun
    have hsound' : SoundQueue { p with tasks := p.tasks - 1 } := hsound
    have hiff := awake_sendMessage_iff serialize hsound' hasReceivers
    rw [Option.some.inj hstep, awake_iff (p := { p with tasks := p.tasks - 1 })] at hiff
    rw [hiff]
    have hfree : firstFree { p with tasks := p.tasks - 1 } hasReceivers =
        p.firstFree hasReceivers := rfl
    have hqueued : queued { p with tasks := p.tasks - 1 } = p.queued := rfl
    rw [hfree, hqueued]
    unfold Wakes
    cases hq : p.queued with
    | true => simp [hrun.1, Nat.sub_pos_iff_lt]
    | false => simp
  | visit hasReceivers => exact iff_of_true (awake_of_visit hstep) trivial
  | ret =>
    obtain ⟨q, hret, heq⟩ := Option.map_eq_some_iff.mp hstep
    cases heq
    exact iff_of_true (awake_of_loops (ret_frame hret).2) trivial
  | complete i status =>
    obtain ⟨htasks, hloops, hqueue⟩ := complete_frame hstep
    exact iff_of_true (hawake.of_eq htasks hloops hqueue) trivial

/-! ### Runs -/

theorem awake_and_sound_of_run (run : Run (queueing serialize) Wakes p history) :
    p.Awake ∧ p.SoundQueue := by
  refine run.invariant (I := fun p _ ↦ p.Awake ∧ p.SoundQueue) ?_ ?_
  · rintro s rfl
    exact ⟨awake_of_empty rfl, fun queue hqueue ↦ nomatch hqueue⟩
  · rintro s a s' history observed - ⟨hawake, hsound⟩ hguard hstep
    exact ⟨(awake_step_iff hawake hsound hstep).mpr hguard, hsound.step hstep⟩

/-- Assumes: a run in which every `SendMessage` found a free channel, or left another task or an
empty queue behind. It ends awake, and a further step leaves it awake if and only if it is such a
step, too. -/
theorem awake_while_wakes (serialize : M → Option (List UInt8)) (p : QueueingPublisher M)
    (history : List (QueueEvent M)) (run : Run (queueing serialize) Wakes p history) :
    p.Awake ∧ ∀ a p' events, p.step serialize a = some (p', events) → (p'.Awake ↔ p.Wakes a) := by
  obtain ⟨hawake, hsound⟩ := awake_and_sound_of_run run
  exact ⟨hawake, fun a p' events hstep ↦ awake_step_iff hawake hsound hstep⟩

/-- A channel is there and has receivers whenever the publisher asks for them. -/
def Received (i : ℕ) (p : QueueingPublisher M) : QueueAction M → Prop
  | .publish _ hasReceivers | .runTask hasReceivers =>
    i < p.channels.length ∧ hasReceivers i = true
  | .visit hasReceivers => (p.loops.head?.any fun loop ↦ loop.next = i) = true →
    hasReceivers = true
  | .release => False
  | _ => True

instance (i : ℕ) (p : QueueingPublisher M) : DecidablePred (p.Received i)
  | .publish _ hasReceivers | .runTask hasReceivers =>
    inferInstanceAs (Decidable (i < p.channels.length ∧ hasReceivers i = true))
  | .visit hasReceivers =>
    inferInstanceAs (Decidable ((p.loops.head?.any fun loop ↦ loop.next = i) = true →
      hasReceivers = true))
  | .release => isFalse id
  | .setup _ | .makeQueue _ | .setBuffers _ | .post _ | .ret | .complete _ _ => isTrue trivial

end QueueingPublisher

namespace Scenario

/-- Two messages are published over TCP while the first is being sent. -/
def publishTwice : List (QueueAction (List UInt8)) :=
  [.setup .tcp, .makeQueue ⟨1000, 8, false, 10⟩, .setBuffers ⟨1000, 8, false, 10⟩,
    .publish [1] anyReceiver, .ret, .visit true, .publish [2] anyReceiver]

end Scenario

namespace QueueingPublisher

/-- The second message waits for the task that the first one posted. -/
theorem awake_while_sending :
    ∃ p history, Run (queueing (M := List UInt8) some) Wakes p history ∧ p.loops = [] ∧
      p.queued = true ∧ p.tasks = 1 ∧ p.Awake := by
  have hexec : ((queueing (M := List UInt8) some).exec Wakes {} [] Scenario.publishTwice).map
      (fun result ↦ (result.1.loops.isEmpty, result.1.queued, result.1.tasks)) =
      some (true, true, 1) := by
    decide
  obtain ⟨⟨p, history⟩, hrun, heq⟩ := Option.map_eq_some_iff.mp hexec
  simp only [Prod.mk.injEq, List.isEmpty_iff] at heq
  have run : Run (queueing some) Wakes p history := (Run.start rfl).of_exec hrun
  exact ⟨p, history, run, heq.1, heq.2.1, heq.2.2, (awake_while_wakes some p history run).1⟩

/-- The task comes while the first message is still being sent. When that is done, the second one
has no task, and no channel is sending. -/
theorem wake_up_lost :
    ¬ ∀ p history, Run (queueing (M := List UInt8) some) (Received 0) p history → p.Awake := by
  intro hall
  have hexec : ((queueing (M := List UInt8) some).exec (Received 0) {} []
      (Scenario.publishTwice ++ [.runTask Scenario.anyReceiver, .complete 0 Status.OK])).map
      (fun result ↦ (result.1.loops.isEmpty, result.1.queued, result.1.tasks)) =
      some (true, true, 0) := by
    decide
  obtain ⟨⟨p, history⟩, hrun, heq⟩ := Option.map_eq_some_iff.mp hexec
  simp only [Prod.mk.injEq, List.isEmpty_iff] at heq
  have hawake := hall p history ((Run.start rfl).of_exec hrun)
  rw [awake_iff] at hawake
  exact (hawake heq.1 heq.2.1).ne' heq.2.2

end QueueingPublisher

end Felicia
