import Felicia.Communication.SubscriberHandlers

/-!
# The message loop of a subscriber

`NotifyMessageLoop` of `felicia/core/communication/subscriber.h` posts itself until the loop is
stopping and the queue is empty, and then it posts `Stop`. `Looped` is what holds in every run: one
of the two tasks is posted as long as the loop is started or stopping and none when it is stopped,
a connect or a handshake is under way only when it is stopped, and `on_message_callback_` is set
whenever it may still be run. `Keeps` is what each handler keeps of it, `keeps_step` what a step
keeps, and `single_notify_loop` puts the consequences for whole runs together.
-/

set_option autoImplicit false
set_option relaxedAutoImplicit false

namespace Felicia

open Support TransitionSystem

/-! ### One loop -/

namespace SubscriberEvent

variable {M : Type}

def isStarted : SubscriberEvent M → Bool
  | .started _ _ => true
  | _ => false

def isStopped : SubscriberEvent M → Bool
  | .stopped => true
  | _ => false

/-- The event is not of the loop, and no message. -/
def isPlain : SubscriberEvent M → Bool
  | .started _ _ | .stopped | .message _ _ => false
  | _ => true

theorem countP_isStarted_of_isPlain {events : List (SubscriberEvent M)}
    (h : ∀ e ∈ events, e.isPlain = true) : events.countP isStarted = 0 := by
  refine List.countP_eq_zero.mpr fun e he hstarted ↦ ?_
  cases e with
  | started => cases h _ he
  | _ => cases hstarted

theorem countP_isStopped_of_isPlain {events : List (SubscriberEvent M)}
    (h : ∀ e ∈ events, e.isPlain = true) : events.countP isStopped = 0 := by
  refine List.countP_eq_zero.mpr fun e he hstopped ↦ ?_
  cases e with
  | stopped => cases h _ he
  | _ => cases hstopped

end SubscriberEvent

namespace Subscriber

variable {M : Type} {p p' : Subscriber M} {result : Subscriber M × List (SubscriberEvent M)}

/-- How many loops there are. -/
def active (p : Subscriber M) : ℕ := if p.subscriberState = .stopped then 0 else 1

/-- `on_message_callback_` may still be run. -/
def MayNotify (p : Subscriber M) : Prop :=
  p.subscriberState ≠ .stopped ∨ p.isConnecting = true ∨ p.registerState = .registered ∨
    p.registerState = .unregistering

/-- What holds of the loop in every run. -/
structure Looped (p : Subscriber M) : Prop where
  tasks : p.notifyTasks + p.stopTasks = p.active
  stopping : 0 < p.stopTasks → p.subscriberState = .stopping
  startTasks : p.startTasks = 0
  onStoppedCallback : p.onStoppedCallback = false
  connecting : p.isConnecting = true → p.subscriberState = .stopped
  callback : p.MayNotify → p.onMessageCallback = true

/-- What a handler keeps: the loop is as it has to be, it is started when there was none and stopped
when there was one, and no message is told without a callback. -/
structure Keeps (p : Subscriber M) (result : Subscriber M × List (SubscriberEvent M)) : Prop where
  looped : result.1.Looped
  periods : result.2.countP SubscriberEvent.isStarted + p.active =
    result.2.countP SubscriberEvent.isStopped + result.1.active
  messages : ∀ message isSet, .message message isSet ∈ result.2 → isSet = true

/-- Assumes: a handler that neither starts nor stops the loop and tells no message. -/
theorem Keeps.of_plain (h : result.1.Looped) (hactive : result.1.active = p.active)
    (hplain : ∀ e ∈ result.2, e.isPlain = true) : Keeps p result where
  looped := h
  periods := by
    rw [SubscriberEvent.countP_isStarted_of_isPlain hplain,
      SubscriberEvent.countP_isStopped_of_isPlain hplain, hactive]
  messages := fun _ _ hmem ↦ by cases hplain _ hmem

/-- Assumes: a change of the register state and of what does not concern the loop. -/
theorem Looped.of_eq (h : p.Looped) (htasks : p'.notifyTasks = p.notifyTasks)
    (hstop : p'.stopTasks = p.stopTasks) (hstart : p'.startTasks = p.startTasks)
    (hstopped : p'.onStoppedCallback = p.onStoppedCallback) (hchannel : p'.channel = p.channel)
    (hstate : p'.subscriberState = p.subscriberState)
    (hcallback : p'.MayNotify → p'.onMessageCallback = true) : p'.Looped where
  tasks := by rw [active, htasks, hstop, hstate]; exact h.tasks
  stopping := by rw [hstop, hstate]; exact h.stopping
  startTasks := hstart.trans h.startTasks
  onStoppedCallback := hstopped.trans h.onStoppedCallback
  connecting := by rw [isConnecting, hchannel, hstate]; exact h.connecting
  callback := hcallback

/-- Assumes: a register state that does not by itself ask for the callback. -/
theorem Looped.callback_of_mayNotify (h : p.Looped) (hchannel : p'.channel = p.channel)
    (hstate : p'.subscriberState = p.subscriberState) (hregistered : p'.registerState ≠ .registered)
    (hunregistering : p'.registerState ≠ .unregistering) (hmay : p'.MayNotify) :
    p.onMessageCallback = true := by
  rcases hmay with hactive | hconnecting | heq | heq
  · exact h.callback (.inl (hstate ▸ hactive))
  · rw [isConnecting, hchannel] at hconnecting
    exact h.callback (.inr (.inl hconnecting))
  · exact absurd heq hregistered
  · exact absurd heq hunregistering

theorem ReceiveFrame.looped (h : ReceiveFrame p p') (hp : p.Looped) :
    p'.Looped ∧ p'.active = p.active := by
  have hactive : p'.active = p.active := by
    unfold active
    rcases h.subscriberState with heq | ⟨hstarted, hstopping⟩
    · rw [heq]
    · rw [hstarted, hstopping]
      rfl
  have hstopped : p'.subscriberState = .stopped ↔ p.subscriberState = .stopped := by
    rcases h.subscriberState with heq | ⟨hstarted, hstopping⟩
    · rw [heq]
    · simp [hstarted, hstopping]
  refine ⟨⟨?_, fun htask ↦ ?_, ?_, h.onStoppedCallback hp.onStoppedCallback, ?_, ?_⟩, hactive⟩
  · rw [h.tasks.1, h.tasks.2.1, hactive, hp.tasks]
  · rcases h.subscriberState with heq | ⟨-, hstopping⟩
    · rw [heq]
      exact hp.stopping (h.tasks.2.1 ▸ htask)
    · exact hstopping
  · rw [h.tasks.2.2, hp.startTasks]
  · rw [h.isConnecting, hstopped]
    exact hp.connecting
  · unfold MayNotify
    rw [h.isConnecting, h.registerState, h.callbacks.1, ne_eq, hstopped]
    exact hp.callback

theorem keeps_stopMessageLoop (h : p.Looped) : Keeps p (p.stopMessageLoop false) := by
  obtain ⟨hlooped, hactive⟩ := (receiveFrame_stopMessageLoop p).looped h
  exact .of_plain hlooped hactive (by simp)

/-- Assumes: a stopped loop, and a callback if there is somebody to connect to. -/
theorem ConnectCase.keeps (hcase : ConnectCase p result) (h : p.Looped)
    (hstate : p.subscriberState = .stopped)
    (hcallback : p.topicInfo.topicSource.channelDefs ≠ [] → p.onMessageCallback = true) :
    Keeps p result := by
  cases hcase with
  | failed channelType status isSet =>
    refine .of_plain ⟨h.tasks, h.stopping, h.startTasks, h.onStoppedCallback, fun _ ↦ hstate,
      fun hmay ↦ ?_⟩ rfl (by simp [SubscriberEvent.isPlain])
    rcases hmay with hnot | hconnecting | hregister
    · exact absurd hstate hnot
    · cases hconnecting
    · exact h.callback (.inr (.inr hregister))
  | opened channelDef channelType hdefs =>
    exact .of_plain ⟨h.tasks, h.stopping, h.startTasks, h.onStoppedCallback, fun _ ↦ hstate,
      fun _ ↦ hcallback hdefs⟩ rfl (by simp [SubscriberEvent.isPlain])

theorem FindCase.keeps {topicInfo : TopicInfo} (hcase : FindCase p topicInfo result)
    (h : p.Looped) : Keeps p result := by
  have hprocess : (p.process topicInfo).Looped := h.of_eq rfl rfl rfl rfl rfl rfl h.callback
  cases hcase with
  | putOff =>
    exact .of_plain (h.of_eq rfl rfl rfl rfl rfl rfl h.callback) rfl (List.forall_mem_nil _)
  | dropped => exact .of_plain h rfl (List.forall_mem_nil _)
  | stop hregister hstate hstatus =>
    have hkeeps := keeps_stopMessageLoop hprocess
    exact ⟨hkeeps.looped, hkeeps.periods, hkeeps.messages⟩
  | ignored => exact .of_plain hprocess rfl (List.forall_mem_nil _)
  | update =>
    exact .of_plain (h.of_eq rfl rfl rfl rfl rfl rfl h.callback) rfl
      (by simp [SubscriberEvent.isPlain])
  | connect hregister hstate hstatus =>
    have hlooped : ((p.process topicInfo).setTopicInfo topicInfo).fromFirst.Looped :=
      h.of_eq rfl rfl rfl rfl rfl rfl h.callback
    have hkeeps := (connectToPublisher_cases _).keeps hlooped hstate fun _ ↦
      h.callback (.inr (.inr (.inl hregister)))
    exact ⟨hkeeps.looped, hkeeps.periods, hkeeps.messages⟩

theorem ReceiveCase.isPlain (hcase : ReceiveCase p result) : ∀ e ∈ result.2, e.isPlain = true := by
  cases hcase <;> simp [SubscriberEvent.isPlain]

theorem isPlain_receiveAll (p : Subscriber M) (received : List (ReceiveResult M)) :
    ∀ e ∈ (p.receiveAll received).2, e.isPlain = true :=
  forall_mem_receiveAll (fun q first ↦ (handleReceived_cases q.received first).isPlain) p received

theorem keeps_onReceiveMessage (h : p.Looped) (received : ReceiveResult M) :
    Keeps p (p.onReceiveMessage received) := by
  obtain ⟨hlooped, hactive⟩ := (receiveFrame_onReceiveMessage p received).looped h
  exact .of_plain hlooped hactive (handleReceived_cases p.received received).isPlain

/-! ### The loop goes on -/

theorem countP_eq_zero_of_messages {events : List (SubscriberEvent M)} {isSet : Bool}
    (h : ∀ e ∈ events, ∃ message, e = .message message isSet) :
    events.countP SubscriberEvent.isStarted = 0 ∧
      events.countP SubscriberEvent.isStopped = 0 := by
  constructor
  all_goals
    refine List.countP_eq_zero.mpr fun e he hnever ↦ ?_
    obtain ⟨message, rfl⟩ := h e he
    cases hnever

/-- Assumes: a loop that is not stopped, none of whose tasks is posted. -/
theorem NotifyCase.keeps (hcase : NotifyCase p result) (hstate : p.subscriberState ≠ .stopped)
    (htasks : p.notifyTasks + p.stopTasks = 0) (hstart : p.startTasks = 0)
    (hstopped : p.onStoppedCallback = false) (hconnecting : p.isConnecting = false)
    (hcallback : p.onMessageCallback = true) : Keeps p result := by
  obtain ⟨-, htold⟩ := hcase.frame
  obtain ⟨hstarts, hstops⟩ := countP_eq_zero_of_messages htold
  have hactive : p.active = 1 := if_neg hstate
  have hnever : p.isConnecting = true → p.subscriberState = .stopped := by
    rw [hconnecting]
    exact nofun
  have hmessages : ∀ message isSet, .message message isSet ∈ result.2 → isSet = true := by
    intro message isSet hmem
    obtain ⟨_, heq⟩ := htold _ hmem
    cases heq
    exact hcallback
  cases hcase with
  | stop hstopping =>
    refine ⟨⟨?_, fun _ ↦ hstopping, hstart, hstopped, hnever, fun _ ↦ hcallback⟩, ?_, hmessages⟩
    · show p.notifyTasks + (p.stopTasks + 1) = p.active
      omega
    · show _ + p.active = _ + p.active
      rw [hstarts, hstops]
  | notify =>
    refine ⟨⟨?_, fun htask ↦ ?_, hstart, hstopped, hnever, fun _ ↦ hcallback⟩, ?_, hmessages⟩
    · show p.notifyTasks + 1 + p.stopTasks = p.active
      omega
    · have htask' : 0 < p.stopTasks := htask
      omega
    · show _ + p.active = _ + p.active
      rw [hstarts, hstops]

theorem keeps_startMessageLoop (h : p.Looped) (hestablished : p.isConnecting = false)
    (hcallback : p.onMessageCallback = true) (hstate : p.subscriberState = .stopped)
    (received : List (ReceiveResult M)) : Keeps p (p.startMessageLoop received) := by
  have hcases := startMessageLoop_cases p received
  revert hcases
  generalize p.startMessageLoop received = result
  rintro (hrefused | hputOff | ⟨hregister, -⟩)
  · exact .of_plain h rfl (List.forall_mem_nil _)
  · rw [hstate] at hputOff
    cases hputOff
  · have hframe := receiveFrame_firstReceives p received
    have hplain : ∀ e ∈ (p.firstReceives received).2, e.isPlain = true := isPlain_receiveAll _ _
    have hrunning : (p.firstReceives received).1.subscriberState ≠ .stopped :=
      hframe.ne_stopped nofun
    have htasks : p.notifyTasks + p.stopTasks = 0 := h.tasks.trans (if_pos hstate)
    have hkeeps := (notifyMessageLoop_cases hrunning).keeps hrunning
      (by rw [hframe.tasks.1, hframe.tasks.2.1]; exact htasks)
      (hframe.tasks.2.2.trans h.startTasks) (hframe.onStoppedCallback h.onStoppedCallback)
      (hframe.isConnecting.trans hestablished) (hframe.callbacks.1.trans hcallback)
    refine ⟨hkeeps.looped, ?_, fun message isSet hmem ↦ ?_⟩
    · have hperiods := hkeeps.periods
      have hstarts := SubscriberEvent.countP_isStarted_of_isPlain hplain
      have hstops := SubscriberEvent.countP_isStopped_of_isPlain hplain
      have hbefore : p.active = 0 := if_pos hstate
      have hafter : (p.firstReceives received).1.active = 1 := if_neg hrunning
      rw [List.countP_cons_of_pos (by rfl),
        List.countP_cons_of_neg (by simp [SubscriberEvent.isStopped]), List.countP_append,
        List.countP_append]
      dsimp only
      omega
    · rcases List.mem_cons.mp hmem with heq | hmem
      · cases heq
      · rcases List.mem_append.mp hmem with hfirst | hnotified
        · cases hplain _ hfirst
        · exact hkeeps.messages message isSet hnotified

/-! ### The loop ends -/

/-- Assumes: the loop is stopped, and whoever may be connected to has a callback. -/
theorem AfterStopCase.keeps (hcase : AfterStopCase p result) (h : p.Looped)
    (hstate : p.subscriberState = .stopped)
    (hcallback : p.topicInfo.topicSource.channelDefs ≠ [] → p.onMessageCallback = true) :
    Keeps p result := by
  cases hcase with
  | answered hset =>
    rw [h.onStoppedCallback] at hset
    cases hset
  | update topicInfo =>
    have hlooped : p.takeUpdate.Looped := h.of_eq rfl rfl rfl rfl rfl rfl h.callback
    have hkeeps := (onFindPublisher_cases _ topicInfo).keeps hlooped
    exact ⟨hkeeps.looped, hkeeps.periods, hkeeps.messages⟩
  | reconnect =>
    have hlooped : p.fromFirst.Looped := h.of_eq rfl rfl rfl rfl rfl rfl h.callback
    have hkeeps := (connectToPublisher_cases _).keeps hlooped hstate hcallback
    exact ⟨hkeeps.looped, hkeeps.periods, hkeeps.messages⟩
  | rest => exact .of_plain h rfl (List.forall_mem_nil _)

/-- Assumes: no task of the loop is posted any more. -/
theorem looped_justStopped (hstart : p.startTasks = 0) (hstopped : p.onStoppedCallback = false)
    (htasks : p.notifyTasks + p.stopTasks = 0) (hcallback : p.onMessageCallback = true) :
    p.justStopped.Looped ∧
      (p.justStopped.topicInfo.topicSource.channelDefs ≠ [] →
        p.justStopped.onMessageCallback = true) := by
  have hnone : 0 < p.stopTasks → SubscriberState.stopped = .stopping := fun htask ↦ by omega
  unfold justStopped
  split_ifs with hregister
  · refine ⟨⟨htasks, hnone, hstart, hstopped, fun _ ↦ rfl, fun hmay ↦ ?_⟩,
      fun hdefs ↦ absurd rfl hdefs⟩
    have hnot : ¬ (p.registerState = .registered ∨ p.registerState = .unregistering) := by
      simp [hregister]
    rcases hmay with hnever | hnever | hnever
    · exact absurd rfl hnever
    · cases hnever
    · exact absurd hnever hnot
  · exact ⟨⟨htasks, hnone, hstart, hstopped, fun _ ↦ rfl, fun _ ↦ hcallback⟩, fun _ ↦ hcallback⟩

/-- A loop that is not stopped has a callback, and its channel is connected. -/
theorem Looped.of_ne_stopped (h : p.Looped) (hstate : p.subscriberState ≠ .stopped) :
    p.onMessageCallback = true ∧ p.isConnecting = false := by
  refine ⟨h.callback (.inl hstate), ?_⟩
  cases hconnecting : p.isConnecting with
  | false => rfl
  | true => exact absurd (h.connecting hconnecting) hstate

/-- Assumes: a task of the loop is posted, and as many as the loop needs. It is the only one. -/
theorem ne_stopped_of_task (htasks : p.notifyTasks + p.stopTasks = p.active)
    (htask : 0 < p.notifyTasks + p.stopTasks) :
    p.subscriberState ≠ .stopped ∧ p.notifyTasks + p.stopTasks = 1 := by
  unfold active at htasks
  split_ifs at htasks with hstopped
  · omega
  · exact ⟨hstopped, htasks⟩

/-- Assumes: the task of the loop that is posted is `Stop`, and it is run. -/
theorem keeps_stop (h : p.Looped) (htask : 0 < p.stopTasks) : Keeps p p.takeStopTask.stop := by
  obtain ⟨hstate, htasks⟩ := ne_stopped_of_task h.tasks (by omega)
  obtain ⟨hcallback, -⟩ := h.of_ne_stopped hstate
  have hrest : p.takeStopTask.notifyTasks + p.takeStopTask.stopTasks = 0 := by
    show p.notifyTasks + (p.stopTasks - 1) = 0
    omega
  obtain ⟨hlooped, hdefs⟩ := looped_justStopped (p := p.takeStopTask) h.startTasks
    h.onStoppedCallback hrest hcallback
  have hkeeps := (afterStop_cases p.takeStopTask.justStopped).keeps hlooped rfl hdefs
  refine ⟨hkeeps.looped, ?_, fun message isSet hmem ↦ ?_⟩
  · have hperiods := hkeeps.periods
    have hactive : p.active = 1 := if_neg hstate
    have hafter : p.takeStopTask.justStopped.active = 0 := rfl
    rw [stop, List.countP_cons_of_neg (by simp [SubscriberEvent.isStarted]),
      List.countP_cons_of_pos (by rfl)]
    dsimp only
    omega
  · rcases List.mem_cons.mp hmem with heq | hmem
    · cases heq
    · exact hkeeps.messages message isSet hmem

/-- Assumes: the task of the loop that is posted is `NotifyMessageLoop`, and it is run. -/
theorem keeps_notifyMessageLoop (h : p.Looped) (htask : 0 < p.notifyTasks) :
    Keeps p p.takeNotifyTask.notifyMessageLoop := by
  obtain ⟨hstate, htasks⟩ := ne_stopped_of_task h.tasks (by omega)
  obtain ⟨hcallback, hconnecting⟩ := h.of_ne_stopped hstate
  have hrest : p.takeNotifyTask.notifyTasks + p.takeNotifyTask.stopTasks = 0 := by
    show p.notifyTasks - 1 + p.stopTasks = 0
    omega
  have hkeeps := (notifyMessageLoop_cases (p := p.takeNotifyTask) hstate).keeps hstate hrest
    h.startTasks h.onStoppedCallback hconnecting hcallback
  exact ⟨hkeeps.looped, hkeeps.periods, hkeeps.messages⟩

/-! ### Steps -/

/-- Assumes: a connect or a handshake is under way. -/
theorem looped_setPhase (h : p.Looped) (hconnecting : p.isConnecting = true)
    (phase : ChannelPhase) : (p.setPhase phase).Looped where
  tasks := h.tasks
  stopping := h.stopping
  startTasks := h.startTasks
  onStoppedCallback := h.onStoppedCallback
  connecting := fun _ ↦ h.connecting hconnecting
  callback := fun _ ↦ h.callback (.inr (.inl hconnecting))

/-- Assumes: a connect or a handshake is under way. It succeeds. -/
theorem keeps_established (h : p.Looped) (hconnecting : p.isConnecting = true)
    (received : List (ReceiveResult M)) :
    Keeps p ((p.setPhase .established).startMessageLoop received) := by
  have hkeeps := keeps_startMessageLoop (looped_setPhase h hconnecting .established)
    (isConnecting_setPhase_established p) (h.callback (.inr (.inl hconnecting)))
    (h.connecting hconnecting) received
  exact ⟨hkeeps.looped, hkeeps.periods, hkeeps.messages⟩

/-- Assumes: a connect or a handshake is under way. It fails. -/
theorem keeps_tryNext (h : p.Looped) (hconnecting : p.isConnecting = true) :
    Keeps p p.tryNext.connectToPublisher := by
  have hlooped : p.tryNext.Looped := h.of_eq rfl rfl rfl rfl rfl rfl h.callback
  have hkeeps := (connectToPublisher_cases _).keeps hlooped (h.connecting hconnecting) fun _ ↦
    h.callback (.inr (.inl hconnecting))
  exact ⟨hkeeps.looped, hkeeps.periods, hkeeps.messages⟩

theorem keeps_onSubscribeTopicAsync (h : p.Looped) (subscription : Subscription)
    (status : Status) : Keeps p (p.onSubscribeTopicAsync subscription status) := by
  unfold onSubscribeTopicAsync
  split_ifs with hregister hstatus
  · exact .of_plain h rfl (by simp [SubscriberEvent.isPlain])
  · refine .of_plain (h.of_eq rfl rfl rfl rfl rfl rfl ?_) rfl (by simp [SubscriberEvent.isPlain])
    exact h.callback_of_mayNotify rfl rfl (by simp) (by simp)
  · exact .of_plain (h.of_eq rfl rfl rfl rfl rfl rfl fun _ ↦ rfl) rfl
      (by simp [SubscriberEvent.isPlain])

theorem keeps_onUnubscribeTopicAsync (h : p.Looped) (status : Status) (isMainThread : Bool) :
    Keeps p (p.onUnubscribeTopicAsync status isMainThread) := by
  unfold onUnubscribeTopicAsync
  by_cases hregister : p.registerState = .unregistering
  · have hcallback : p.onMessageCallback = true := h.callback (.inr (.inr (.inr hregister)))
    have hlooped : ∀ state, Looped { p with registerState := state } := fun state ↦
      h.of_eq rfl rfl rfl rfl rfl rfl fun _ ↦ hcallback
    rw [if_neg (not_not_intro hregister)]
    split_ifs
    · exact .of_plain (hlooped .registered) rfl (by simp [SubscriberEvent.isPlain])
    · have hkeeps := keeps_stopMessageLoop (hlooped .unregistered)
      refine .of_plain hkeeps.looped ?_ (by simp [SubscriberEvent.isPlain])
      exact ((receiveFrame_stopMessageLoop _).looped (hlooped .unregistered)).2
    · refine .of_plain ?_ rfl (by simp [SubscriberEvent.isPlain])
      exact h.of_eq rfl rfl rfl rfl rfl rfl fun _ ↦ hcallback
  · rw [if_pos hregister]
    exact .of_plain h rfl (by simp [SubscriberEvent.isPlain])

theorem keeps_requestSubscribe (h : p.Looped) : Keeps p p.requestSubscribe := by
  unfold requestSubscribe
  split_ifs with hregister
  · exact .of_plain h rfl (by simp [SubscriberEvent.isPlain])
  · refine .of_plain (h.of_eq rfl rfl rfl rfl rfl rfl ?_) rfl (List.forall_mem_nil _)
    exact h.callback_of_mayNotify rfl rfl (by simp) (by simp)

theorem keeps_requestUnsubscribe (h : p.Looped) : Keeps p p.requestUnsubscribe := by
  unfold requestUnsubscribe
  split_ifs with hregister
  · exact .of_plain h rfl (by simp [SubscriberEvent.isPlain])
  · refine .of_plain (h.of_eq rfl rfl rfl rfl rfl rfl fun _ ↦ ?_) rfl (List.forall_mem_nil _)
    exact h.callback (.inr (.inr (.inl (not_not.mp hregister))))

theorem keeps_step (h : p.Looped) {hasRos : Bool} {a : SubscriberAction M}
    (hstep : p.step hasRos a = some result) : Keeps p result := by
  cases step_cases h.startTasks hstep with
  | requestSubscribe => exact keeps_requestSubscribe h
  | onSubscribeTopicAsync subscription status =>
    exact keeps_onSubscribeTopicAsync h subscription status
  | requestUnsubscribe => exact keeps_requestUnsubscribe h
  | onUnubscribeTopicAsync status isMainThread =>
    exact keeps_onUnubscribeTopicAsync h status isMainThread
  | onFindPublisher topicInfo => exact (onFindPublisher_cases p topicInfo).keeps h
  | handshake hconnecting =>
    exact .of_plain (looped_setPhase h hconnecting .handshaking) rfl (List.forall_mem_nil _)
  | established _ received hconnecting => exact keeps_established h hconnecting received
  | next hconnecting => exact keeps_tryNext h hconnecting
  | onReceiveMessage received => exact keeps_onReceiveMessage h received
  | runFindPublisher topicInfo =>
    have hlooped : p.takeFindTask.Looped := h.of_eq rfl rfl rfl rfl rfl rfl h.callback
    have hkeeps := (onFindPublisher_cases _ topicInfo).keeps hlooped
    exact ⟨hkeeps.looped, hkeeps.periods, hkeeps.messages⟩
  | runStopMessageLoop =>
    have hlooped : p.takeStopMessageLoopTask.Looped := h.of_eq rfl rfl rfl rfl rfl rfl h.callback
    have hkeeps := keeps_stopMessageLoop hlooped
    exact ⟨hkeeps.looped, hkeeps.periods, hkeeps.messages⟩
  | runReceiveMessageLoop =>
    have hlooped : p.takeReceiveTask.Looped := h.of_eq rfl rfl rfl rfl rfl rfl h.callback
    obtain ⟨hafter, hactive⟩ := (receiveFrame_receiveMessageLoop _).looped hlooped
    exact .of_plain hafter hactive (List.forall_mem_nil _)
  | runNotifyMessageLoop htask => exact keeps_notifyMessageLoop h htask
  | runStop htask => exact keeps_stop h htask

/-! ### Runs -/

theorem looped_initial : Looped ({} : Subscriber M) where
  tasks := rfl
  stopping := nofun
  startTasks := rfl
  onStoppedCallback := rfl
  connecting := nofun
  callback := by simp [MayNotify, isConnecting]

theorem looped_of_run {hasRos : Bool} {guard : Subscriber M → SubscriberAction M → Prop}
    {history : List (SubscriberEvent M)} (run : Run (subscribing hasRos) guard p history) :
    p.Looped := by
  refine run.invariant (I := fun p _ ↦ p.Looped) ?_ ?_
  · rintro s rfl
    exact looped_initial
  · intro s a s' history observed _ hlooped _ hstep
    exact (keeps_step hlooped hstep).looped

/-- In every run, one `NotifyMessageLoop` or `Stop` task is posted if the loop is started or
stopping and none if it is stopped; the loop was stopped once for each time it was started, or is
about to be; and `on_message_callback_` was set whenever it was run. -/
theorem single_notify_loop (hasRos : Bool) (p : Subscriber M) (history : List (SubscriberEvent M))
    (run : Run (subscribing hasRos) unguarded p history) :
    (p.notifyTasks + p.stopTasks = if p.subscriberState = .stopped then 0 else 1) ∧
    (history.countP SubscriberEvent.isStarted = history.countP SubscriberEvent.isStopped +
      if p.subscriberState = .stopped then 0 else 1) ∧
    ∀ message isSet, .message message isSet ∈ history → isSet = true := by
  have hinv : p.Looped ∧ history.countP SubscriberEvent.isStarted =
      history.countP SubscriberEvent.isStopped + p.active ∧
      ∀ message isSet, .message message isSet ∈ history → isSet = true := by
    refine run.invariant (I := fun p history ↦ p.Looped ∧
      history.countP SubscriberEvent.isStarted =
        history.countP SubscriberEvent.isStopped + p.active ∧
      ∀ message isSet, .message message isSet ∈ history → isSet = true) ?_ ?_
    · rintro s rfl
      exact ⟨looped_initial, rfl, by simp⟩
    · rintro s a s' history observed - ⟨hlooped, hperiods, hmessages⟩ - hstep
      have hkeeps := keeps_step hlooped hstep
      refine ⟨hkeeps.looped, ?_, fun message isSet hmem ↦ ?_⟩
      · have hstepped := hkeeps.periods
        rw [List.countP_append, List.countP_append]
        dsimp only at hstepped
        omega
      · rcases List.mem_append.mp hmem with hold | hnew
        · exact hmessages message isSet hold
        · exact hkeeps.messages message isSet hnew
  exact ⟨hinv.1.tasks, hinv.2⟩

end Subscriber

namespace Scenario

/-- A publisher that can be reached over one channel. -/
def publisherOver (type : ChannelType) (typeName : String) : TopicInfo :=
  { topic := "topic", typeName, topicSource := ⟨[{ type }]⟩ }

/-- A subscription over any kind of channel. -/
def anyChannel : Subscription := ⟨31, 10, true⟩

/-- A subscriber is registered, and told of a publisher. -/
def subscribeTo (topicInfo : TopicInfo) : List (SubscriberAction ℕ) :=
  [.requestSubscribe, .onSubscribeTopicAsync anyChannel Status.OK, .onFindPublisher topicInfo]

/-- A subscriber gets a message while its loop starts, tells it, and is unsubscribed. -/
def subscribeOnce : List (SubscriberAction ℕ) :=
  subscribeTo (publisherOver .tcp "type") ++
    [.onConnectToPublisher Status.OK [.message 1, .message 2], .requestUnsubscribe,
      .onUnubscribeTopicAsync Status.OK true, .runNotifyMessageLoop, .runStop]

end Scenario

namespace Subscriber

/-- Two messages are told, and the loop is stopped once. -/
theorem single_notify_loop_of_two_messages :
    ∃ p : Subscriber ℕ, ∃ history, Run (subscribing false) unguarded p history ∧
      .message 2 true ∈ history ∧ p.notifyTasks + p.stopTasks = 0 ∧
      history.countP SubscriberEvent.isStarted = 1 := by
  have hexec : ((subscribing (M := ℕ) false).exec unguarded {} [] Scenario.subscribeOnce).map
      (fun result ↦ (result.2.contains (.message 2 true), result.1.subscriberState,
        result.2.countP SubscriberEvent.isStopped)) = some (true, .stopped, 1) := by
    decide
  obtain ⟨⟨p, history⟩, hrun, heq⟩ := Option.map_eq_some_iff.mp hexec
  simp only [Prod.mk.injEq, List.contains_iff_mem] at heq
  have run : Run (subscribing false) unguarded p history := (Run.start rfl).of_exec hrun
  obtain ⟨htasks, hperiods, -⟩ := single_notify_loop false p history run
  rw [if_pos heq.2.1] at htasks hperiods
  exact ⟨p, history, run, heq.1, htasks, hperiods.trans heq.2.2⟩

end Subscriber

end Felicia
