import Felicia.Communication.SubscriberLoop

/-!
# Dynamic subscribers

`DynamicSubscriber` of `felicia/core/communication/dynamic_subscriber.cc`, as
`DynamicSubscribingNode` uses it for many topics: it is registered from `Subscribe` on and asks the
master for nothing, it finds out the type of its messages from the publisher it is told of, and
`Unsubscribe` leaves a callback for `Stop`.

A `Stop` task is posted with a longer delay than the `ReceiveMessageLoop` tasks, and after the last
of them, so it is run when none of them is left. Whether `ProtobufLoader` knows a type may change,
so it is chosen anew for each step.

`Settled` is what holds of such a subscriber in every run: one task of its loop is posted unless it
is stopped, and then no task but those of `OnFindPublisher` is.
-/

set_option autoImplicit false
set_option relaxedAutoImplicit false

namespace Felicia

open Support TransitionSystem

/-! ### Handlers -/

/-- `AllChannelTypes`. -/
def allChannelTypes : ℕ := 31

/-- The status that a callback of `StopMessageLoop` is run with. -/
def SubscriberEvent.answer? {M : Type} : SubscriberEvent M → Option Status
  | .answered status => some status
  | _ => none

/-- A task of a loop that runs or stops. -/
def SubscriberAction.isLoopTask {M : Type} : SubscriberAction M → Bool
  | .runReceiveMessageLoop | .runNotifyMessageLoop | .runStop => true
  | _ => false

namespace Subscriber

variable {M : Type} (resolves : TopicInfo → Bool) (p : Subscriber M)

/-- A new subscriber after `DynamicSubscriber::Subscribe`. -/
def dynamicSubscribe (queueSize : ℕ) : Subscriber M where
  registerState := .registered
  channelTypes := allChannelTypes
  onMessageCallback := true
  onErrorCallback := true
  queueSize := queueSize

/-- `DynamicSubscriber::OnFindPublisher`. A publisher whose type of message is not known is not
connected to. -/
def dynamicFind (topicInfo : TopicInfo) : Subscriber M × List (SubscriberEvent M) :=
  if p.registerState = .registered ∧ p.subscriberState = .stopped ∧
      topicInfo.status = .registered ∧ resolves topicInfo = false then
    (p.process topicInfo, [])
  else p.onFindPublisher topicInfo

/-- `DynamicSubscriber::Unsubscribe`. -/
def dynamicUnsubscribe : Subscriber M × List (SubscriberEvent M) :=
  if p.registerState = .unregistered then (p, [.answered (aborted "Already unsubscribed")])
  else ({ p with registerState := .unregistered } : Subscriber M).stopMessageLoop true

/-- `Subscriber::Stop`, after the state is set to stopped. -/
def dynamicAfterStop : Subscriber M × List (SubscriberEvent M) :=
  if p.onStoppedCallback then p.afterStop
  else match p.topicInfoToUpdate with
    | some topicInfo => p.takeUpdate.dynamicFind resolves topicInfo
    | none => p.afterStop

/-- `Subscriber::Stop`. -/
def dynamicStop : Subscriber M × List (SubscriberEvent M) :=
  ((p.justStopped.dynamicAfterStop resolves).1,
    .stopped :: (p.justStopped.dynamicAfterStop resolves).2)

/-- What a dynamic subscriber does by itself. -/
def dynamicStep (hasRos : Bool) :
    SubscriberAction M → Option (Subscriber M × List (SubscriberEvent M))
  | .requestSubscribe | .onSubscribeTopicAsync _ _ | .requestUnsubscribe
  | .onUnubscribeTopicAsync _ _ | .onFindPublisher _ => none
  | .runFindPublisher =>
    p.findTasks.head?.map fun topicInfo ↦ p.takeFindTask.dynamicFind resolves topicInfo
  | .runStop =>
    if 0 < p.stopTasks ∧ p.receiveTasks = 0 then some (p.takeStopTask.dynamicStop resolves)
    else none
  | a => p.step hasRos a

/-- The tasks that refer to the subscriber. -/
def posted : ℕ :=
  p.startTasks + p.stopMessageLoopTasks + p.receiveTasks + p.notifyTasks + p.stopTasks +
    p.findTasks.length

/-! ### What holds in every run -/

/-- What holds of a subscriber of a node in every run. -/
structure Settled (p : Subscriber M) : Prop where
  tasks : p.notifyTasks + p.stopTasks = p.active
  stopping : 0 < p.stopTasks → p.subscriberState = .stopping
  startTasks : p.startTasks = 0
  stopMessageLoopTasks : p.stopMessageLoopTasks = 0
  receiveTasks : p.subscriberState = .stopped → p.receiveTasks = 0
  connecting : p.isConnecting = true → p.subscriberState = .stopped
  registered : p.registerState = .registered ∨ p.registerState = .unregistered
  onStoppedCallback : p.onStoppedCallback = true → p.subscriberState = .stopping
  messageQueue : p.messageQueue.Sound

/-- What a handler keeps: no callback of `StopMessageLoop` is left, run or dropped. -/
structure KeepsSettled (p : Subscriber M) (result : Subscriber M × List (SubscriberEvent M)) :
    Prop where
  settled : result.1.Settled
  onStoppedCallback : result.1.onStoppedCallback = p.onStoppedCallback
  silent : ∀ e ∈ result.2, e.answer? = none

variable {p p' : Subscriber M} {result : Subscriber M × List (SubscriberEvent M)}

/-- A stopped subscriber has no tasks but those of `OnFindPublisher`. -/
theorem Settled.posted_of_stopped (h : p.Settled) (hstate : p.subscriberState = .stopped) :
    p.posted = p.findTasks.length := by
  have htasks := h.tasks
  rw [active, if_pos hstate] at htasks
  rw [posted, h.startTasks, h.stopMessageLoopTasks, h.receiveTasks hstate]
  omega

theorem settled_dynamicSubscribe (queueSize : ℕ) :
    (dynamicSubscribe queueSize : Subscriber M).Settled where
  tasks := rfl
  stopping := nofun
  startTasks := rfl
  stopMessageLoopTasks := rfl
  receiveTasks _ := rfl
  connecting := nofun
  registered := Or.inl rfl
  onStoppedCallback := nofun
  messageQueue := Pool.sound_of_capacity 0

/-- Assumes: a change of what does not concern the loop. -/
theorem Settled.of_eq (h : p.Settled) (htasks : p'.notifyTasks = p.notifyTasks)
    (hstop : p'.stopTasks = p.stopTasks) (hstart : p'.startTasks = p.startTasks)
    (hstopLoop : p'.stopMessageLoopTasks = p.stopMessageLoopTasks)
    (hreceive : p'.receiveTasks = p.receiveTasks) (hchannel : p'.channel = p.channel)
    (hregister : p'.registerState = p.registerState)
    (hstate : p'.subscriberState = p.subscriberState)
    (hstopped : p'.onStoppedCallback = p.onStoppedCallback)
    (hqueue : p'.messageQueue = p.messageQueue) : p'.Settled where
  tasks := by rw [active, htasks, hstop, hstate]; exact h.tasks
  stopping := by rw [hstop, hstate]; exact h.stopping
  startTasks := hstart.trans h.startTasks
  stopMessageLoopTasks := hstopLoop.trans h.stopMessageLoopTasks
  receiveTasks := by rw [hstate, hreceive]; exact h.receiveTasks
  connecting := by rw [isConnecting, hchannel, hstate]; exact h.connecting
  registered := by rw [hregister]; exact h.registered
  onStoppedCallback := by rw [hstopped, hstate]; exact h.onStoppedCallback
  messageQueue := by rw [hqueue]; exact h.messageQueue

theorem ConnectCase.keepsSettled (hcase : ConnectCase p result) (h : p.Settled)
    (hstate : p.subscriberState = .stopped) : KeepsSettled p result := by
  cases hcase with
  | failed channelType status isSet =>
    exact ⟨⟨h.tasks, h.stopping, h.startTasks, h.stopMessageLoopTasks, h.receiveTasks,
      fun _ ↦ hstate, h.registered, h.onStoppedCallback, h.messageQueue⟩, rfl,
      by simp [SubscriberEvent.answer?]⟩
  | opened channelDef channelType hdefs =>
    exact ⟨⟨h.tasks, h.stopping, h.startTasks, h.stopMessageLoopTasks, h.receiveTasks,
      fun _ ↦ hstate, h.registered, h.onStoppedCallback, h.messageQueue⟩, rfl,
      by simp [SubscriberEvent.answer?]⟩

/-- Assumes: the loop is started, so that no callback was left. -/
theorem Settled.stopping_of_started (h : p.Settled) (hstate : p.subscriberState = .started)
    (callback : Bool) :
    ({ p with onStoppedCallback := callback, subscriberState := .stopping } :
      Subscriber M).Settled where
  tasks := by
    have htasks := h.tasks
    rwa [active, hstate] at htasks
  stopping _ := rfl
  startTasks := h.startTasks
  stopMessageLoopTasks := h.stopMessageLoopTasks
  receiveTasks := nofun
  connecting hconnecting := by
    have hstopped := h.connecting hconnecting
    rw [hstate] at hstopped
    cases hstopped
  registered := h.registered
  onStoppedCallback _ := rfl
  messageQueue := h.messageQueue

theorem Settled.onStoppedCallback_eq_false (h : p.Settled)
    (hstate : p.subscriberState ≠ .stopping) : p.onStoppedCallback = false := by
  cases hset : p.onStoppedCallback with
  | false => rfl
  | true => exact absurd (h.onStoppedCallback hset) hstate

theorem Settled.stopMessageLoop (h : p.Settled) : KeepsSettled p (p.stopMessageLoop false) := by
  refine ⟨?_, ?_, by simp⟩
  · by_cases hstate : p.subscriberState = .started
    · rw [stopMessageLoop_of_started hstate]
      exact h.stopping_of_started hstate false
    · rw [Subscriber.stopMessageLoop, if_neg hstate]
      exact h
  · by_cases hstate : p.subscriberState = .started
    · rw [stopMessageLoop_of_started hstate]
      exact (h.onStoppedCallback_eq_false (by simp [hstate])).symm
    · rw [Subscriber.stopMessageLoop, if_neg hstate]

theorem FindCase.keepsSettled {topicInfo : TopicInfo} (hcase : FindCase p topicInfo result)
    (h : p.Settled) : KeepsSettled p result := by
  have hprocess : (p.process topicInfo).Settled := h.of_eq rfl rfl rfl rfl rfl rfl rfl rfl rfl rfl
  cases hcase with
  | putOff =>
    exact ⟨h.of_eq rfl rfl rfl rfl rfl rfl rfl rfl rfl rfl, rfl, List.forall_mem_nil _⟩
  | dropped => exact ⟨h, rfl, List.forall_mem_nil _⟩
  | stop hregister hstate hstatus =>
    have hkeeps := hprocess.stopMessageLoop
    exact ⟨hkeeps.settled, hkeeps.onStoppedCallback, hkeeps.silent⟩
  | ignored => exact ⟨hprocess, rfl, List.forall_mem_nil _⟩
  | update =>
    exact ⟨h.of_eq rfl rfl rfl rfl rfl rfl rfl rfl rfl rfl, rfl, by simp [SubscriberEvent.answer?]⟩
  | connect hregister hstate hstatus =>
    have hnext : ((p.process topicInfo).setTopicInfo topicInfo).fromFirst.Settled :=
      h.of_eq rfl rfl rfl rfl rfl rfl rfl rfl rfl rfl
    have hkeeps := (connectToPublisher_cases _).keepsSettled hnext hstate
    exact ⟨hkeeps.settled, hkeeps.onStoppedCallback, hkeeps.silent⟩

theorem Settled.dynamicFind (h : p.Settled) (topicInfo : TopicInfo) :
    KeepsSettled p (p.dynamicFind resolves topicInfo) := by
  unfold Subscriber.dynamicFind
  split_ifs
  · exact ⟨h.of_eq rfl rfl rfl rfl rfl rfl rfl rfl rfl rfl, rfl, List.forall_mem_nil _⟩
  · exact (onFindPublisher_cases p topicInfo).keepsSettled h

/-! ### Receives -/

@[simp]
theorem stopMessageLoopTasks_stopMessageLoop (p : Subscriber M) (callback : Bool) :
    (p.stopMessageLoop callback).1.stopMessageLoopTasks = p.stopMessageLoopTasks := by
  unfold stopMessageLoop
  split <;> rfl

@[simp]
theorem stopMessageLoopTasks_receiveMessageLoop (p : Subscriber M) :
    p.receiveMessageLoop.stopMessageLoopTasks = p.stopMessageLoopTasks := by
  unfold receiveMessageLoop
  split <;> rfl

@[simp]
theorem stopMessageLoopTasks_receiveNext (p : Subscriber M) :
    p.receiveNext.stopMessageLoopTasks = p.stopMessageLoopTasks := by
  unfold receiveNext
  split
  · rfl
  · simp

theorem ReceiveCase.stopMessageLoopTasks (hcase : ReceiveCase p result) :
    result.1.stopMessageLoopTasks = p.stopMessageLoopTasks := by
  cases hcase <;> simp [onMessage, onFailure]

theorem stopMessageLoopTasks_receiveAll (p : Subscriber M) (received : List (ReceiveResult M)) :
    (p.receiveAll received).1.stopMessageLoopTasks = p.stopMessageLoopTasks :=
  receiveAll_keeps (K := fun q ↦ q.stopMessageLoopTasks = p.stopMessageLoopTasks)
    (fun q first heq ↦ (handleReceived_cases q.received first).stopMessageLoopTasks.trans heq)
    rfl received

@[simp]
theorem messageQueue_stopMessageLoop (p : Subscriber M) (callback : Bool) :
    (p.stopMessageLoop callback).1.messageQueue = p.messageQueue := by
  unfold stopMessageLoop
  split <;> rfl

@[simp]
theorem messageQueue_receiveMessageLoop (p : Subscriber M) :
    p.receiveMessageLoop.messageQueue = p.messageQueue := by
  unfold receiveMessageLoop
  split <;> rfl

@[simp]
theorem messageQueue_receiveNext (p : Subscriber M) :
    p.receiveNext.messageQueue = p.messageQueue := by
  unfold receiveNext
  split
  · rfl
  · simp

theorem ReceiveCase.messageQueue (hcase : ReceiveCase p result) (h : p.messageQueue.Sound) :
    result.1.messageQueue.Sound := by
  cases hcase with
  | message hstate message =>
    rw [messageQueue_receiveNext]
    exact h.push message
  | _ => simpa [onFailure] using h

theorem messageQueue_receiveAll (h : p.messageQueue.Sound) (received : List (ReceiveResult M)) :
    (p.receiveAll received).1.messageQueue.Sound :=
  receiveAll_keeps (K := fun q ↦ q.messageQueue.Sound)
    (fun q first hsound ↦ (handleReceived_cases q.received first).messageQueue hsound) h received

theorem ReceiveCase.silent (hcase : ReceiveCase p result) :
    ∀ e ∈ result.2, e.answer? = none := by
  cases hcase <;> simp [SubscriberEvent.answer?]

theorem silent_receiveAll (p : Subscriber M) (received : List (ReceiveResult M)) :
    ∀ e ∈ (p.receiveAll received).2, e.answer? = none :=
  forall_mem_receiveAll (fun q first ↦ (handleReceived_cases q.received first).silent) p received

/-- Assumes: receives while the loop is started. -/
theorem Settled.receive (h : p.Settled) (hstate : p.subscriberState = .started)
    (hframe : ReceiveFrame p p') (htasks : p'.stopMessageLoopTasks = p.stopMessageLoopTasks)
    (hqueue : p'.messageQueue.Sound) : p'.Settled ∧ p'.onStoppedCallback = p.onStoppedCallback := by
  have hnone := h.onStoppedCallback_eq_false (by simp [hstate])
  have hnone' := hframe.onStoppedCallback hnone
  have hrunning : p'.subscriberState ≠ .stopped := hframe.ne_stopped (by simp [hstate])
  have hactive : p'.active = p.active := by
    rw [active, active, if_neg hrunning, if_neg (by simp [hstate])]
  refine ⟨⟨?_, fun htask ↦ ?_, hframe.tasks.2.2.trans h.startTasks,
    htasks.trans h.stopMessageLoopTasks, fun hstopped ↦ absurd hstopped hrunning, fun hconn ↦ ?_,
    ?_, fun hset ↦ ?_, hqueue⟩, hnone'.trans hnone.symm⟩
  · rw [hframe.tasks.1, hframe.tasks.2.1, hactive, h.tasks]
  · rw [hframe.tasks.2.1] at htask
    have hstopping := h.stopping htask
    rw [hstate] at hstopping
    cases hstopping
  · rw [hframe.isConnecting] at hconn
    have hstopped := h.connecting hconn
    rw [hstate] at hstopped
    cases hstopped
  · rw [hframe.registerState]
    exact h.registered
  · rw [hnone'] at hset
    cases hset

theorem Settled.onReceiveMessage (h : p.Settled) (received : ReceiveResult M) :
    KeepsSettled p (p.onReceiveMessage received) := by
  have hcase := handleReceived_cases p.received received
  by_cases hstate : p.subscriberState = .started
  · obtain ⟨hsettled, hstopped⟩ := h.receive hstate (receiveFrame_onReceiveMessage p received)
      hcase.stopMessageLoopTasks (hcase.messageQueue h.messageQueue)
    exact ⟨hsettled, hstopped, hcase.silent⟩
  · have hlate : p.onReceiveMessage received = (p.received, []) := if_pos hstate
    rw [hlate]
    have hconnecting : p.received.isConnecting = p.isConnecting := by
      unfold isConnecting Subscriber.received
      cases p.channel <;> rfl
    refine ⟨⟨h.tasks, h.stopping, h.startTasks, h.stopMessageLoopTasks, h.receiveTasks, ?_,
      h.registered, h.onStoppedCallback, h.messageQueue⟩, rfl, List.forall_mem_nil _⟩
    rw [hconnecting]
    exact h.connecting

theorem Settled.receiveMessageLoop (h : p.Settled) :
    KeepsSettled p (p.takeReceiveTask.receiveMessageLoop, []) := by
  have htaken : p.takeReceiveTask.Settled :=
    ⟨h.tasks, h.stopping, h.startTasks, h.stopMessageLoopTasks,
      fun hstate ↦ by simp [takeReceiveTask, h.receiveTasks hstate], h.connecting, h.registered,
      h.onStoppedCallback, h.messageQueue⟩
  by_cases hstate : p.subscriberState = .started
  · obtain ⟨hsettled, hstopped⟩ := htaken.receive hstate (receiveFrame_receiveMessageLoop _)
      (by simp) (by simpa using htaken.messageQueue)
    exact ⟨hsettled, hstopped, List.forall_mem_nil _⟩
  · have hlate : p.takeReceiveTask.receiveMessageLoop = p.takeReceiveTask := if_neg hstate
    rw [hlate]
    exact ⟨htaken, rfl, List.forall_mem_nil _⟩

/-! ### The loop -/

theorem messageQueue_tellFront (h : p.messageQueue.Sound) :
    p.tellFront.1.messageQueue.Sound := by
  unfold tellFront
  split
  · exact h.pop
  · exact h

/-- Assumes: a loop that is not stopped, none of whose tasks is posted. -/
theorem NotifyCase.keepsSettled (hcase : NotifyCase p result)
    (hstate : p.subscriberState ≠ .stopped) (htasks : p.notifyTasks + p.stopTasks = 0)
    (hstart : p.startTasks = 0) (hstopLoop : p.stopMessageLoopTasks = 0)
    (hconnecting : p.isConnecting = false)
    (hregister : p.registerState = .registered ∨ p.registerState = .unregistered)
    (hstopped : p.onStoppedCallback = true → p.subscriberState = .stopping)
    (hsound : p.messageQueue.Sound) : KeepsSettled p result := by
  have hqueue := messageQueue_tellFront hsound
  obtain ⟨-, htold⟩ := hcase.frame
  have hactive : p.active = 1 := if_neg hstate
  have hsilent : ∀ e ∈ result.2, e.answer? = none := by
    intro e he
    obtain ⟨message, rfl⟩ := htold e he
    rfl
  have hnever : p.isConnecting = true → p.subscriberState = .stopped := by
    rw [hconnecting]
    exact nofun
  cases hcase with
  | stop hstopping =>
    refine ⟨⟨?_, fun _ ↦ hstopping, hstart, hstopLoop, fun heq ↦ absurd heq hstate, hnever,
      hregister, hstopped, hqueue⟩, rfl, hsilent⟩
    show p.notifyTasks + (p.stopTasks + 1) = p.active
    omega
  | notify =>
    refine ⟨⟨?_, fun htask ↦ ?_, hstart, hstopLoop, fun heq ↦ absurd heq hstate, hnever,
      hregister, hstopped, hqueue⟩, rfl, hsilent⟩
    · show p.notifyTasks + 1 + p.stopTasks = p.active
      omega
    · have htask' : 0 < p.stopTasks := htask
      omega

theorem Settled.isConnecting_eq_false (h : p.Settled) (hstate : p.subscriberState ≠ .stopped) :
    p.isConnecting = false := by
  cases hconnecting : p.isConnecting with
  | false => rfl
  | true => exact absurd (h.connecting hconnecting) hstate

theorem Settled.notifyMessageLoop (h : p.Settled) (htask : 0 < p.notifyTasks) :
    KeepsSettled p p.takeNotifyTask.notifyMessageLoop := by
  obtain ⟨hstate, htasks⟩ := ne_stopped_of_task h.tasks (by omega)
  have hrest : p.takeNotifyTask.notifyTasks + p.takeNotifyTask.stopTasks = 0 := by
    show p.notifyTasks - 1 + p.stopTasks = 0
    omega
  have hkeeps := (notifyMessageLoop_cases (p := p.takeNotifyTask) hstate).keepsSettled hstate hrest
    h.startTasks h.stopMessageLoopTasks (h.isConnecting_eq_false hstate) h.registered
    h.onStoppedCallback h.messageQueue
  exact ⟨hkeeps.settled, hkeeps.onStoppedCallback, hkeeps.silent⟩

/-- Assumes: a stopped loop, and a channel that is connected. -/
theorem Settled.startMessageLoop (h : p.Settled) (hestablished : p.isConnecting = false)
    (hstate : p.subscriberState = .stopped) (received : List (ReceiveResult M)) :
    KeepsSettled p (p.startMessageLoop received) := by
  have hcases := startMessageLoop_cases p received
  revert hcases
  generalize p.startMessageLoop received = result
  rintro (hrefused | hputOff | ⟨hregister, -⟩)
  · exact ⟨h, rfl, List.forall_mem_nil _⟩
  · rw [hstate] at hputOff
    cases hputOff
  · have hframe := receiveFrame_firstReceives p received
    have hrunning : (p.firstReceives received).1.subscriberState ≠ .stopped :=
      hframe.ne_stopped nofun
    have htasks : p.notifyTasks + p.stopTasks = 0 := h.tasks.trans (if_pos hstate)
    have hnone := h.onStoppedCallback_eq_false (by simp [hstate])
    have hnone' := hframe.onStoppedCallback hnone
    have hstopLoop : (p.firstReceives received).1.stopMessageLoopTasks = 0 := by
      rw [firstReceives, stopMessageLoopTasks_receiveAll, stopMessageLoopTasks_receiveMessageLoop]
      exact h.stopMessageLoopTasks
    have hkeeps := (notifyMessageLoop_cases hrunning).keepsSettled hrunning
      (by rw [hframe.tasks.1, hframe.tasks.2.1]; exact htasks)
      (hframe.tasks.2.2.trans h.startTasks) hstopLoop (hframe.isConnecting.trans hestablished)
      (by rw [hframe.registerState]; exact h.registered)
      (by rw [hnone']; exact nofun)
      (messageQueue_receiveAll (by simpa [justStarted] using Pool.sound_reserve _ _) received)
    refine ⟨hkeeps.settled, (hkeeps.onStoppedCallback.trans hnone').trans hnone.symm, ?_⟩
    refine List.forall_mem_cons.mpr ⟨rfl, List.forall_mem_append.mpr ⟨?_, hkeeps.silent⟩⟩
    exact silent_receiveAll _ received

theorem onStoppedCallback_justStopped (p : Subscriber M) :
    p.justStopped.onStoppedCallback = p.onStoppedCallback := by
  unfold justStopped
  split <;> rfl

theorem findTasks_justStopped (p : Subscriber M) : p.justStopped.findTasks = p.findTasks := by
  unfold justStopped
  split <;> rfl

/-- Assumes: no task but those of `OnFindPublisher` is posted any more. -/
theorem settled_justStopped (htasks : p.notifyTasks + p.stopTasks = 0) (hstart : p.startTasks = 0)
    (hstopLoop : p.stopMessageLoopTasks = 0) (hreceive : p.receiveTasks = 0)
    (hregister : p.registerState = .registered ∨ p.registerState = .unregistered)
    (hqueue : p.messageQueue.Sound) :
    ({ p.justStopped with onStoppedCallback := false } : Subscriber M).Settled := by
  have hnone : 0 < p.stopTasks → SubscriberState.stopped = .stopping := fun htask ↦ by omega
  unfold justStopped
  split_ifs with hunregistered
  · exact ⟨htasks, hnone, hstart, hstopLoop, fun _ ↦ hreceive, fun _ ↦ rfl, hregister, nofun,
      Pool.sound_of_capacity 0⟩
  · exact ⟨htasks, hnone, hstart, hstopLoop, fun _ ↦ hreceive, fun _ ↦ rfl, hregister, nofun,
      hqueue⟩

/-- Assumes: the loop is stopped, and no callback was left. -/
theorem Settled.dynamicAfterStop (h : p.Settled) (hstate : p.subscriberState = .stopped) :
    KeepsSettled p (p.dynamicAfterStop resolves) := by
  have hnone := h.onStoppedCallback_eq_false (by simp [hstate])
  have hafter : KeepsSettled p p.afterStop := by
    have hcase := afterStop_cases p
    revert hcase
    generalize p.afterStop = result
    intro hcase
    cases hcase with
    | answered hset =>
      rw [hnone] at hset
      cases hset
    | update topicInfo =>
      have htaken : p.takeUpdate.Settled := h.of_eq rfl rfl rfl rfl rfl rfl rfl rfl rfl rfl
      have hkeeps := (onFindPublisher_cases _ topicInfo).keepsSettled htaken
      exact ⟨hkeeps.settled, hkeeps.onStoppedCallback, hkeeps.silent⟩
    | reconnect =>
      have hfirst : p.fromFirst.Settled := h.of_eq rfl rfl rfl rfl rfl rfl rfl rfl rfl rfl
      have hkeeps := (connectToPublisher_cases _).keepsSettled hfirst hstate
      exact ⟨hkeeps.settled, hkeeps.onStoppedCallback, hkeeps.silent⟩
    | rest => exact ⟨h, rfl, List.forall_mem_nil _⟩
  unfold Subscriber.dynamicAfterStop
  rw [if_neg (by simp [hnone])]
  split
  · have htaken : p.takeUpdate.Settled := h.of_eq rfl rfl rfl rfl rfl rfl rfl rfl rfl rfl
    rename_i topicInfo _
    have hkeeps := htaken.dynamicFind resolves topicInfo
    exact ⟨hkeeps.settled, hkeeps.onStoppedCallback, hkeeps.silent⟩
  · exact hafter

/-- What `Stop` comes to: the callback that was left is run, and nothing else is done then. -/
structure Stops (p : Subscriber M) (result : Subscriber M × List (SubscriberEvent M)) : Prop where
  settled : result.1.Settled
  onStoppedCallback : result.1.onStoppedCallback = false
  answer : result.2.findSome? SubscriberEvent.answer? =
    if p.onStoppedCallback then some .OK else none
  stopped : p.onStoppedCallback = true →
    result.1.subscriberState = .stopped ∧ result.1.findTasks = p.findTasks

theorem Settled.dynamicStop (h : p.Settled) (htask : 0 < p.stopTasks)
    (hreceive : p.receiveTasks = 0) : Stops p (p.takeStopTask.dynamicStop resolves) := by
  obtain ⟨-, htasks⟩ := ne_stopped_of_task h.tasks (by omega)
  have hrest : p.takeStopTask.notifyTasks + p.takeStopTask.stopTasks = 0 := by
    show p.notifyTasks + (p.stopTasks - 1) = 0
    omega
  have hstopped := settled_justStopped (p := p.takeStopTask) hrest h.startTasks
    h.stopMessageLoopTasks hreceive h.registered h.messageQueue
  have hset : p.takeStopTask.justStopped.onStoppedCallback = p.onStoppedCallback :=
    onStoppedCallback_justStopped _
  have hstate : p.takeStopTask.justStopped.subscriberState = .stopped := rfl
  cases hcallback : p.onStoppedCallback with
  | true =>
    rw [hcallback] at hset
    have hafter : p.takeStopTask.justStopped.dynamicAfterStop resolves =
        ({ p.takeStopTask.justStopped with onStoppedCallback := false }, [.answered .OK]) := by
      rw [Subscriber.dynamicAfterStop, if_pos hset, afterStop, if_pos hset]
    rw [Subscriber.dynamicStop, hafter]
    exact ⟨hstopped, rfl, by rw [hcallback]; rfl, fun _ ↦ ⟨hstate, findTasks_justStopped _⟩⟩
  | false =>
    rw [hcallback] at hset
    have hsettled : p.takeStopTask.justStopped.Settled :=
      hstopped.of_eq rfl rfl rfl rfl rfl rfl rfl rfl hset rfl
    have hkeeps := hsettled.dynamicAfterStop resolves hstate
    refine ⟨hkeeps.settled, hkeeps.onStoppedCallback.trans hset, ?_, fun hnever ↦ ?_⟩
    · rw [hcallback, if_neg (by simp), Subscriber.dynamicStop,
        List.findSome?_cons_of_isNone (by rfl)]
      exact List.findSome?_eq_none_iff.mpr hkeeps.silent
    · rw [hcallback] at hnever
      cases hnever

/-- What `Unsubscribe` comes to: its callback is left for `Stop`, or is run with an error. -/
theorem Settled.dynamicUnsubscribe (h : p.Settled) :
    p.dynamicUnsubscribe.1.Settled ∧
    ((p.dynamicUnsubscribe.2 = [] ∧ p.onStoppedCallback = false ∧
      p.dynamicUnsubscribe.1.onStoppedCallback = true) ∨
    (∃ message, p.dynamicUnsubscribe.2 = [.answered (aborted message)]) ∧
      p.dynamicUnsubscribe.1.onStoppedCallback = p.onStoppedCallback) := by
  unfold Subscriber.dynamicUnsubscribe
  split_ifs with hunregistered
  · exact ⟨h, Or.inr ⟨⟨_, rfl⟩, rfl⟩⟩
  · have hleft : ({ p with registerState := .unregistered } : Subscriber M).Settled :=
      ⟨h.tasks, h.stopping, h.startTasks, h.stopMessageLoopTasks, h.receiveTasks, h.connecting,
        Or.inr rfl, h.onStoppedCallback, h.messageQueue⟩
    by_cases hstate : p.subscriberState = .started
    · have hstopped : ({ p with registerState := .unregistered } : Subscriber M).stopMessageLoop
          true = ({ p with
            registerState := .unregistered, onStoppedCallback := true
            subscriberState := .stopping }, []) := if_pos hstate
      rw [hstopped]
      exact ⟨hleft.stopping_of_started hstate true,
        Or.inl ⟨rfl, h.onStoppedCallback_eq_false (by simp [hstate]), rfl⟩⟩
    · have hrefused : ({ p with registerState := .unregistered } : Subscriber M).stopMessageLoop
          true = ({ p with registerState := .unregistered },
            [.answered (aborted "Already stopping or stopped.")]) := if_neg hstate
      rw [hrefused]
      exact ⟨hleft, Or.inr ⟨⟨_, rfl⟩, rfl⟩⟩

/-! ### Steps -/

theorem Settled.setPhase (h : p.Settled) (hconnecting : p.isConnecting = true)
    (phase : ChannelPhase) : (p.setPhase phase).Settled :=
  ⟨h.tasks, h.stopping, h.startTasks, h.stopMessageLoopTasks, h.receiveTasks,
    fun _ ↦ h.connecting hconnecting, h.registered, h.onStoppedCallback, h.messageQueue⟩

/-- The step lemma, for all steps but `Stop`. -/
theorem Settled.dynamicStep (h : p.Settled) {hasRos : Bool} {a : SubscriberAction M}
    (hstop : a ≠ .runStop) (hstep : p.dynamicStep resolves hasRos a = some result) :
    KeepsSettled p result := by
  by_cases hfind : a = .runFindPublisher
  · subst hfind
    obtain ⟨topicInfo, -, rfl⟩ := Option.map_eq_some_iff.mp hstep
    have htaken : p.takeFindTask.Settled := h.of_eq rfl rfl rfl rfl rfl rfl rfl rfl rfl rfl
    have hkeeps := htaken.dynamicFind resolves topicInfo
    exact ⟨hkeeps.settled, hkeeps.onStoppedCallback, hkeeps.silent⟩
  have hshared : p.step hasRos a = some result := by
    cases a <;> first | exact hstep | cases hstep | exact absurd rfl hstop | exact absurd rfl hfind
  cases step_cases h.startTasks hshared with
  | requestSubscribe | onSubscribeTopicAsync | requestUnsubscribe | onUnubscribeTopicAsync
  | onFindPublisher => cases hstep
  | handshake hconnecting =>
    exact ⟨h.setPhase hconnecting .handshaking, rfl, List.forall_mem_nil _⟩
  | established _ received hconnecting =>
    have hkeeps := (h.setPhase hconnecting .established).startMessageLoop
      (isConnecting_setPhase_established p) (h.connecting hconnecting) received
    exact ⟨hkeeps.settled, hkeeps.onStoppedCallback, hkeeps.silent⟩
  | next hconnecting =>
    have hnext : p.tryNext.Settled := h.of_eq rfl rfl rfl rfl rfl rfl rfl rfl rfl rfl
    have hkeeps := (connectToPublisher_cases _).keepsSettled hnext (h.connecting hconnecting)
    exact ⟨hkeeps.settled, hkeeps.onStoppedCallback, hkeeps.silent⟩
  | onReceiveMessage received => exact h.onReceiveMessage received
  | runFindPublisher => exact absurd rfl hfind
  | runStopMessageLoop =>
    simp only [step, h.stopMessageLoopTasks] at hshared
    cases hshared
  | runReceiveMessageLoop => exact h.receiveMessageLoop
  | runNotifyMessageLoop htask => exact h.notifyMessageLoop htask
  | runStop => exact absurd rfl hstop

/-! ### The tasks of a loop that stops -/

/-- The tasks that are run before `Stop`, and the messages that are told before it. -/
def untilStop (p : Subscriber M) : ℕ := p.receiveTasks + p.messageQueue.index.size + p.notifyTasks

theorem size_tellFront (h : p.messageQueue.Sound) :
    p.tellFront.1.messageQueue.index.size ≤ p.messageQueue.index.size ∧
    (p.tellFront.1.messageQueue.empty = false →
      p.tellFront.1.messageQueue.index.size < p.messageQueue.index.size) := by
  cases hempty : p.messageQueue.empty with
  | true =>
    have hnone : p.tellFront = (p, []) := by
      rw [tellFront, Pool.front?, if_pos hempty]
    rw [hnone, hempty]
    exact ⟨le_rfl, fun hfalse ↦ absurd hfalse.symm Bool.false_ne_true⟩
  | false =>
    obtain ⟨message, hfront⟩ := Option.isSome_iff_exists.mp (h.front?_isSome hempty)
    have hpop := h.size_pop hempty
    have htold : p.tellFront.1.messageQueue = p.messageQueue.pop := by
      rw [tellFront, hfront]
    rw [htold]
    exact ⟨by omega, fun _ ↦ by omega⟩

/-- Assumes: a loop that stops, and a task of `NotifyMessageLoop`. -/
theorem Settled.untilStop_notifyMessageLoop (h : p.Settled) (hstate : p.subscriberState = .stopping)
    (htask : 0 < p.notifyTasks) :
    p.takeNotifyTask.notifyMessageLoop.1.untilStop < p.untilStop := by
  obtain ⟨hsize, hshorter⟩ := size_tellFront h.messageQueue
  have hfront : p.takeNotifyTask.tellFront.1.messageQueue = p.tellFront.1.messageQueue := by
    simp only [tellFront, takeNotifyTask]
    cases p.messageQueue.front? <;> rfl
  rw [Subscriber.notifyMessageLoop, if_neg (by simp [takeNotifyTask, hstate]), tellFront_eq, hfront]
  simp only [takeNotifyTask, hstate, true_and]
  split_ifs with hempty
  · simp only [untilStop]
    omega
  · have hless := hshorter (by simpa using hempty)
    simp only [untilStop]
    omega

/-- Assumes: a callback that was left. A task of the loop is posted that brings `Stop` nearer, or is
`Stop`. -/
theorem Settled.exists_task (h : p.Settled) (hleft : p.onStoppedCallback = true) (hasRos : Bool) :
    (0 < p.stopTasks ∧ p.receiveTasks = 0) ∨
    ∃ a result, a.isLoopTask = true ∧ a ≠ .runStop ∧
      p.dynamicStep resolves hasRos a = some result ∧ result.1.untilStop < p.untilStop := by
  have hstate := h.onStoppedCallback hleft
  have htasks : p.notifyTasks + p.stopTasks = 1 :=
    h.tasks.trans (if_neg (by simp [hstate]))
  by_cases hreceive : p.receiveTasks = 0
  · by_cases hstop : 0 < p.stopTasks
    · exact Or.inl ⟨hstop, hreceive⟩
    · have htask : 0 < p.notifyTasks := by omega
      exact Or.inr ⟨.runNotifyMessageLoop, _, rfl, nofun, if_pos htask,
        h.untilStop_notifyMessageLoop hstate htask⟩
  · have hlate : p.takeReceiveTask.receiveMessageLoop = p.takeReceiveTask :=
      if_neg (by simp [takeReceiveTask, hstate])
    refine Or.inr ⟨.runReceiveMessageLoop, (p.takeReceiveTask, []), rfl, nofun, ?_, ?_⟩
    · show (if 0 < p.receiveTasks ∧ ¬ (p.subscriberState = .started ∧ p.isReceiving = true) then
        some (p.takeReceiveTask.receiveMessageLoop, []) else none) = _
      rw [if_pos ⟨Nat.pos_of_ne_zero hreceive, by simp [hstate]⟩, hlate]
    · simp only [untilStop, takeReceiveTask]
      omega

end Subscriber

end Felicia
