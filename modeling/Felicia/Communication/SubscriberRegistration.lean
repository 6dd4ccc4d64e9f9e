import Felicia.Communication.SubscriberLoop

/-!
# What an earlier registration of a subscriber leaves behind

`Stop` of `felicia/core/communication/subscriber.h` releases the channel, the queue, the publisher
and the callbacks of a subscriber that is unregistered, and nothing else does. It is reached through
the running loop only: if the reply to an unsubscription comes when the loop is stopped, because no
publisher was found or the connect is still under way, `StopMessageLoop` has nothing to stop and
everything stays. If the next subscription is asked for before `Stop` has run, `Stop` finds the
subscriber registering and releases nothing.

`ReleasesFirst` excludes these two, and then a subscriber that is unregistered and stopped is as
good as new, and the loop is started only for a channel of the current registration:
`clean_while_releases_first`. `Fresh` is the invariant.
-/

set_option autoImplicit false
set_option relaxedAutoImplicit false

namespace Felicia

open Support TransitionSystem

namespace Subscriber

variable {M : Type} {p p' : Subscriber M} {result : Subscriber M × List (SubscriberEvent M)}

/-- Nothing is left of a registration. -/
def Clean (p : Subscriber M) : Prop :=
  p.channel = none ∧ p.topicInfo = {} ∧ p.topicInfoToUpdate = none ∧
    p.messageQueue.empty = true ∧ p.onMessageCallback = false ∧ p.onErrorCallback = false

/-- An unsubscription succeeds while the loop is started or stopping, and a subscription is asked
for when it is stopped. -/
def ReleasesFirst (p : Subscriber M) : SubscriberAction M → Prop
  | .onUnubscribeTopicAsync status _ =>
    p.registerState = .unregistering → status.isOk = true → p.subscriberState ≠ .stopped
  | .requestSubscribe => p.registerState = .unregistered → p.subscriberState = .stopped
  | _ => True

instance (p : Subscriber M) : DecidablePred p.ReleasesFirst
  | .onUnubscribeTopicAsync status _ =>
    inferInstanceAs (Decidable (p.registerState = .unregistering → status.isOk = true →
      p.subscriberState ≠ .stopped))
  | .requestSubscribe =>
    inferInstanceAs (Decidable (p.registerState = .unregistered → p.subscriberState = .stopped))
  | .onSubscribeTopicAsync _ _ | .requestUnsubscribe | .onFindPublisher _
  | .onConnectToPublisher _ _ | .onRosTopicHandshake _ _ | .onReceiveMessage _
  | .runFindPublisher | .runStartMessageLoop _ | .runStopMessageLoop | .runReceiveMessageLoop
  | .runNotifyMessageLoop | .runStop => isTrue trivial

/-- The subscriber is not registered. -/
def Unowned (p : Subscriber M) : Prop :=
  p.registerState = .unregistered ∨ p.registerState = .registering

/-- What is left of earlier registrations while nobody subscribes too early. -/
structure Fresh (p : Subscriber M) : Prop where
  clean : p.Unowned → p.subscriberState = .stopped → p.Clean
  registering : p.registerState = .registering → p.subscriberState = .stopped
  registration : ∀ channel ∈ p.channel, channel.registration = p.registrations

/-- What a handler keeps: nothing is left behind, and the loop is started for a channel of the
current registration. -/
structure KeepsFresh (result : Subscriber M × List (SubscriberEvent M)) : Prop where
  fresh : result.1.Fresh
  started : ∀ opened current, .started opened current ∈ result.2 → opened = current

theorem KeepsFresh.of_plain (h : result.1.Fresh) (hplain : ∀ e ∈ result.2, e.isPlain = true) :
    KeepsFresh result where
  fresh := h
  started := fun _ _ hmem ↦ by cases hplain _ hmem

/-! ### Registered subscribers -/

/-- Assumes: a subscriber that is registered, or about to be unregistered. -/
theorem Fresh.of_owned (howned : ¬ p.Unowned)
    (hregistration : ∀ channel ∈ p.channel, channel.registration = p.registrations) : p.Fresh where
  clean := fun hunowned ↦ absurd hunowned howned
  registering := fun hregistering ↦ absurd (.inr hregistering) howned
  registration := hregistration

/-- Assumes: a subscriber that is not registered, and whose loop is still to be stopped. -/
theorem Fresh.of_not_stopped (hregister : p.registerState ≠ .registering)
    (hstate : p.subscriberState ≠ .stopped)
    (hregistration : ∀ channel ∈ p.channel, channel.registration = p.registrations) : p.Fresh where
  clean := fun _ hstopped ↦ absurd hstopped hstate
  registering := fun hregistering ↦ absurd hregistering hregister
  registration := hregistration

theorem ReceiveFrame.registration (h : ReceiveFrame p p')
    (hp : ∀ channel ∈ p.channel, channel.registration = p.registrations) :
    ∀ channel ∈ p'.channel, channel.registration = p'.registrations := by
  intro channel hchannel
  rw [h.registrations]
  have hmap := h.channel
  rw [hchannel, Option.map_some] at hmap
  obtain ⟨old, hold, heq⟩ := Option.map_eq_some_iff.mp hmap.symm
  have hfixed : old.fixed.registration = channel.fixed.registration := by rw [heq]
  exact hfixed.symm.trans (hp old hold)

/-- Assumes: a loop that is not stopped. -/
theorem ReceiveFrame.fresh (h : ReceiveFrame p p') (hp : p.Fresh)
    (hstate : p.subscriberState ≠ .stopped) : p'.Fresh := by
  refine .of_not_stopped ?_ (h.ne_stopped hstate) (h.registration hp.registration)
  rw [h.registerState]
  exact fun hregistering ↦ hstate (hp.registering hregistering)

theorem ConnectCase.isPlain (hcase : ConnectCase p result) : ∀ e ∈ result.2, e.isPlain = true := by
  cases hcase <;> simp [SubscriberEvent.isPlain]

theorem FindCase.isPlain {topicInfo : TopicInfo} (hcase : FindCase p topicInfo result) :
    ∀ e ∈ result.2, e.isPlain = true := by
  cases hcase with
  | stop => simp
  | connect => exact (connectToPublisher_cases _).isPlain
  | _ => simp [SubscriberEvent.isPlain]

/-- The channel that `ConnectToPublisher` opens is of the current registration. -/
theorem ConnectCase.registration (hcase : ConnectCase p result) :
    result.1.registerState = p.registerState ∧
      ∀ channel ∈ result.1.channel, channel.registration = result.1.registrations := by
  cases hcase with
  | failed => exact ⟨rfl, fun _ hmem ↦ absurd hmem (Option.not_mem_none _)⟩
  | opened =>
    refine ⟨rfl, fun channel hchannel ↦ ?_⟩
    cases hchannel
    rfl

/-- Assumes: a subscriber that is registered, or about to be unregistered. -/
theorem ConnectCase.keepsFresh (hcase : ConnectCase p result) (howned : ¬ p.Unowned) :
    KeepsFresh result := by
  obtain ⟨hregister, hregistration⟩ := hcase.registration
  refine .of_plain (.of_owned ?_ hregistration) hcase.isPlain
  rwa [Unowned, hregister]

theorem FindCase.keepsFresh {topicInfo : TopicInfo} (hcase : FindCase p topicInfo result)
    (h : p.Fresh) : KeepsFresh result := by
  refine .of_plain ?_ hcase.isPlain
  have hrest : p.registerState = .registered → ¬ p.Unowned := by
    intro hregister
    simp [Unowned, hregister]
  cases hcase with
  | putOff => exact ⟨h.clean, h.registering, h.registration⟩
  | dropped => exact h
  | stop hregister =>
    have hframe := receiveFrame_stopMessageLoop (p.process topicInfo)
    refine .of_owned ?_ (hframe.registration h.registration)
    rw [Unowned, hframe.registerState]
    exact hrest hregister
  | ignored hregister => exact .of_owned (hrest hregister) h.registration
  | update hregister => exact .of_owned (hrest hregister) h.registration
  | connect hregister =>
    have howned : ¬ ((p.process topicInfo).setTopicInfo topicInfo).fromFirst.Unowned :=
      hrest hregister
    exact ((connectToPublisher_cases _).keepsFresh howned).fresh

/-! ### Connects -/

/-- A subscriber that is connecting is registered, or about to be unregistered. -/
theorem Fresh.owned_of_isConnecting (h : p.Fresh) (hlooped : p.Looped)
    (hconnecting : p.isConnecting = true) : ¬ p.Unowned := by
  intro hunowned
  have hclean := h.clean hunowned (hlooped.connecting hconnecting)
  simp [isConnecting, hclean.1] at hconnecting

theorem registration_setPhase (h : p.Fresh) (phase : ChannelPhase) :
    ∀ channel ∈ (p.setPhase phase).channel, channel.registration = p.registrations := by
  intro channel hchannel
  obtain ⟨old, hold, rfl⟩ := Option.map_eq_some_iff.mp hchannel
  exact h.registration old hold

/-- Assumes: a subscriber that is registered, or about to be unregistered, and whose channel is of
the current registration. -/
theorem StartCase.keepsFresh {received : List (ReceiveResult M)}
    (hcase : StartCase p received result) (howned : ¬ p.Unowned)
    (hregistration : ∀ channel ∈ p.channel, channel.registration = p.registrations)
    (hchannel : p.channel.isSome) : KeepsFresh result := by
  cases hcase with
  | refused => exact .of_plain (.of_owned howned hregistration) (List.forall_mem_nil _)
  | putOff => exact .of_plain (.of_owned howned hregistration) (List.forall_mem_nil _)
  | started hregister hstate =>
    have hframe := receiveFrame_firstReceives p received
    obtain ⟨⟨_, _, _, heq⟩, htold⟩ := (notifyMessageLoop_cases (hframe.ne_stopped nofun)).frame
    refine ⟨?_, fun opened current hmem ↦ ?_⟩
    · rw [heq]
      refine .of_owned ?_ (hframe.registration hregistration)
      rw [Unowned, hframe.registerState]
      exact howned
    · rcases List.mem_cons.mp hmem with hstarted | hmem
      · obtain ⟨channel, hsome⟩ := Option.isSome_iff_exists.mp hchannel
        cases hstarted
        rw [hsome]
        exact hregistration channel hsome
      · rcases List.mem_append.mp hmem with hfirst | hlast
        · cases isPlain_receiveAll _ _ _ hfirst
        · obtain ⟨_, hnever⟩ := htold _ hlast
          cases hnever

/-! ### The end of the loop -/

/-- Assumes: a subscriber that is registered, or about to be unregistered. -/
theorem AfterStopCase.keepsFresh_of_owned (hcase : AfterStopCase p result) (howned : ¬ p.Unowned)
    (hregistration : ∀ channel ∈ p.channel, channel.registration = p.registrations) :
    KeepsFresh result := by
  cases hcase with
  | answered =>
    exact .of_plain (.of_owned howned hregistration) (by simp [SubscriberEvent.isPlain])
  | update topicInfo =>
    have hfresh : p.takeUpdate.Fresh := .of_owned howned hregistration
    exact (onFindPublisher_cases _ topicInfo).keepsFresh hfresh
  | reconnect =>
    have howned' : ¬ p.fromFirst.Unowned := howned
    exact (connectToPublisher_cases _).keepsFresh howned'
  | rest => exact .of_plain (.of_owned howned hregistration) (List.forall_mem_nil _)

/-- Assumes: nothing is left of the registration but an update that was cleared. -/
theorem AfterStopCase.clean (hcase : AfterStopCase p result)
    (hclean : p.takeUpdate.Clean)
    (hregister : p.registerState = .unregistered) (hstate : p.subscriberState = .stopped)
    (hstopped : p.onStoppedCallback = false) :
    result.1.Clean ∧ result.1.registerState = .unregistered ∧
      ∀ e ∈ result.2, e.isPlain = true := by
  obtain ⟨hchannel, htopic, -, hrest⟩ := hclean
  cases hcase with
  | answered hset =>
    rw [hstopped] at hset
    cases hset
  | update topicInfo =>
    have hstate' : p.takeUpdate.subscriberState ≠ .stopping := by
      show p.subscriberState ≠ .stopping
      rw [hstate]
      exact nofun
    rw [onFindPublisher_of_unregistered (p := p.takeUpdate) hregister hstate']
    exact ⟨⟨hchannel, htopic, rfl, hrest⟩, hregister, List.forall_mem_nil _⟩
  | reconnect hupdate =>
    -- The publisher was cleared, so there is nothing to connect to.
    have hcase := connectToPublisher_cases p.fromFirst
    have hdefs : p.fromFirst.topicInfo.topicSource.channelDefs = [] :=
      congrArg (·.topicSource.channelDefs) htopic
    refine ⟨?_, hcase.registration.1.trans hregister, hcase.isPlain⟩
    rw [connectToPublisher_of_nil hdefs]
    exact ⟨rfl, htopic, hupdate, hrest⟩
  | rest hupdate => exact ⟨⟨hchannel, htopic, hupdate, hrest⟩, hregister, List.forall_mem_nil _⟩

/-- Assumes: a loop that is not stopped yet. -/
theorem keepsFresh_stop (h : p.Fresh) (hstate : p.subscriberState ≠ .stopped)
    (hstopped : p.onStoppedCallback = false) : KeepsFresh p.stop := by
  have hcase := afterStop_cases p.justStopped
  have hskip : ∀ opened current, .started opened current ∈ p.stop.2 →
      .started opened current ∈ p.justStopped.afterStop.2 := by
    intro opened current hmem
    rcases List.mem_cons.mp hmem with heq | hmem
    · cases heq
    · exact hmem
  by_cases hregister : p.registerState = .unregistered
  · have hreleased : p.justStopped = { p.released with subscriberState := .stopped } := by
      rw [justStopped, if_pos hregister]
    rw [hreleased] at hcase hskip
    obtain ⟨hclean, hafter, hplain⟩ := hcase.clean ⟨rfl, rfl, rfl, rfl, rfl, rfl⟩ hregister rfl
      hstopped
    have hfresh : p.stop.1.Fresh := by
      rw [stop, hreleased]
      refine ⟨fun _ _ ↦ hclean, fun hregistering ↦ ?_, fun channel hchannel ↦ ?_⟩
      · rw [hafter] at hregistering
        cases hregistering
      · rw [hclean.1] at hchannel
        cases hchannel
    exact ⟨hfresh, fun opened current hmem ↦ by cases hplain _ (hskip opened current hmem)⟩
  · have hkept : p.justStopped = { p with subscriberState := .stopped } := by
      rw [justStopped, if_neg hregister]
    have howned : ¬ p.Unowned := by
      rintro (hunregistered | hregistering)
      · exact hregister hunregistered
      · exact hstate (h.registering hregistering)
    rw [hkept] at hcase hskip
    have hkeeps := hcase.keepsFresh_of_owned howned h.registration
    refine ⟨?_, fun opened current hmem ↦ hkeeps.started opened current (hskip _ _ hmem)⟩
    rw [stop, hkept]
    exact hkeeps.fresh

/-! ### Steps -/

/-- Assumes: the loop of an earlier registration has stopped. -/
theorem keepsFresh_requestSubscribe (h : p.Fresh)
    (hguard : p.ReleasesFirst .requestSubscribe) : KeepsFresh p.requestSubscribe := by
  unfold requestSubscribe
  split_ifs with hregister
  · exact .of_plain h (by simp [SubscriberEvent.isPlain])
  · have hunregistered := not_not.mp hregister
    have hstopped := hguard hunregistered
    have hclean := h.clean (.inl hunregistered) hstopped
    refine .of_plain ⟨fun _ _ ↦ hclean, fun _ ↦ hstopped, fun channel hchannel ↦ ?_⟩
      (List.forall_mem_nil _)
    cases hclean.1.symm.trans hchannel

theorem keepsFresh_onSubscribeTopicAsync (h : p.Fresh) (subscription : Subscription)
    (status : Status) : KeepsFresh (p.onSubscribeTopicAsync subscription status) := by
  unfold onSubscribeTopicAsync
  split_ifs with hregister hstatus
  · exact .of_plain h (by simp [SubscriberEvent.isPlain])
  · have hregistering := not_not.mp hregister
    exact .of_plain ⟨fun _ ↦ h.clean (.inr hregistering), by simp, h.registration⟩
      (by simp [SubscriberEvent.isPlain])
  · exact .of_plain (.of_owned (by simp [Unowned]) h.registration)
      (by simp [SubscriberEvent.isPlain])

theorem keepsFresh_requestUnsubscribe (h : p.Fresh) : KeepsFresh p.requestUnsubscribe := by
  unfold requestUnsubscribe
  split_ifs with hregister
  · exact .of_plain h (by simp [SubscriberEvent.isPlain])
  · exact .of_plain (.of_owned (by simp [Unowned]) h.registration) (List.forall_mem_nil _)

/-- Assumes: a loop that is still to be stopped, where the master agrees. -/
theorem keepsFresh_onUnubscribeTopicAsync (h : p.Fresh) (status : Status) (isMainThread : Bool)
    (hguard : p.ReleasesFirst (.onUnubscribeTopicAsync status isMainThread)) :
    KeepsFresh (p.onUnubscribeTopicAsync status isMainThread) := by
  unfold onUnubscribeTopicAsync
  split_ifs with hregister hstatus hmain
  · exact .of_plain h (by simp [SubscriberEvent.isPlain])
  · exact .of_plain (.of_owned (by simp [Unowned]) h.registration)
      (by simp [SubscriberEvent.isPlain])
  · have hstate := hguard (not_not.mp hregister) (by simpa using hstatus)
    have hfresh : Fresh { p with registerState := .unregistered } :=
      .of_not_stopped (by simp) hstate h.registration
    exact .of_plain ((receiveFrame_stopMessageLoop _).fresh hfresh hstate)
      (by simp [SubscriberEvent.isPlain])
  · have hstate := hguard (not_not.mp hregister) (by simpa using hstatus)
    exact .of_plain (.of_not_stopped (by simp) hstate h.registration)
      (by simp [SubscriberEvent.isPlain])

theorem keepsFresh_onReceiveMessage (h : p.Fresh) (hreceiving : p.isReceiving = true)
    (received : ReceiveResult M) : KeepsFresh (p.onReceiveMessage received) := by
  have hframe := receiveFrame_onReceiveMessage p received
  refine .of_plain ?_ (handleReceived_cases p.received received).isPlain
  by_cases hstate : p.subscriberState = .stopped
  · have howned : ¬ p.Unowned := by
      intro hunowned
      simp [isReceiving, (h.clean hunowned hstate).1] at hreceiving
    refine .of_owned ?_ (hframe.registration h.registration)
    rwa [Unowned, hframe.registerState]
  · exact hframe.fresh h hstate

theorem fresh_stopMessageLoop (h : p.Fresh) : (p.stopMessageLoop false).1.Fresh := by
  by_cases hstate : p.subscriberState = .stopped
  · rw [stopMessageLoop, if_neg (by simp [hstate])]
    exact h
  · exact (receiveFrame_stopMessageLoop _).fresh h hstate

theorem fresh_receiveMessageLoop (h : p.Fresh) : p.receiveMessageLoop.Fresh := by
  by_cases hstate : p.subscriberState = .stopped
  · rw [receiveMessageLoop, if_neg (by simp [hstate])]
    exact h
  · exact (receiveFrame_receiveMessageLoop _).fresh h hstate

theorem keepsFresh_step (h : p.Fresh) (hlooped : p.Looped) {hasRos : Bool}
    {a : SubscriberAction M} (hguard : p.ReleasesFirst a)
    (hstep : p.step hasRos a = some result) : KeepsFresh result := by
  cases step_cases hlooped.startTasks hstep with
  | requestSubscribe => exact keepsFresh_requestSubscribe h hguard
  | onSubscribeTopicAsync subscription status =>
    exact keepsFresh_onSubscribeTopicAsync h subscription status
  | requestUnsubscribe => exact keepsFresh_requestUnsubscribe h
  | onUnubscribeTopicAsync status isMainThread =>
    exact keepsFresh_onUnubscribeTopicAsync h status isMainThread hguard
  | onFindPublisher topicInfo => exact (onFindPublisher_cases p topicInfo).keepsFresh h
  | handshake hconnecting =>
    exact .of_plain (.of_owned (h.owned_of_isConnecting hlooped hconnecting)
      (registration_setPhase h .handshaking)) (List.forall_mem_nil _)
  | established _ received hconnecting =>
    have hsome : (p.setPhase .established).channel.isSome := by
      obtain ⟨channel, hchannel, -⟩ := (Option.any_eq_true ..).mp hconnecting
      simp [setPhase, hchannel]
    have howned : ¬ (p.setPhase .established).Unowned :=
      h.owned_of_isConnecting hlooped hconnecting
    exact (startMessageLoop_cases _ received).keepsFresh howned
      (registration_setPhase h .established) hsome
  | next hconnecting =>
    have howned : ¬ p.tryNext.Unowned := h.owned_of_isConnecting hlooped hconnecting
    exact (connectToPublisher_cases _).keepsFresh howned
  | onReceiveMessage received hreceiving =>
    exact keepsFresh_onReceiveMessage h hreceiving received
  | runFindPublisher topicInfo =>
    have hfresh : p.takeFindTask.Fresh := ⟨h.clean, h.registering, h.registration⟩
    exact (onFindPublisher_cases _ topicInfo).keepsFresh hfresh
  | runStopMessageLoop =>
    have hfresh : p.takeStopMessageLoopTask.Fresh := ⟨h.clean, h.registering, h.registration⟩
    exact .of_plain (fresh_stopMessageLoop hfresh) (by simp)
  | runReceiveMessageLoop =>
    have hfresh : p.takeReceiveTask.Fresh := ⟨h.clean, h.registering, h.registration⟩
    exact .of_plain (fresh_receiveMessageLoop hfresh) (List.forall_mem_nil _)
  | runNotifyMessageLoop htask =>
    have hstate := (ne_stopped_of_task hlooped.tasks (by omega)).1
    obtain ⟨⟨_, _, _, heq⟩, htold⟩ :=
      (notifyMessageLoop_cases (p := p.takeNotifyTask) hstate).frame
    refine ⟨?_, fun opened current hmem ↦ ?_⟩
    · rw [heq]
      exact .of_not_stopped (fun hregistering ↦ hstate (h.registering hregistering)) hstate
        h.registration
    · obtain ⟨_, hnever⟩ := htold _ hmem
      cases hnever
  | runStop htask =>
    have hfresh : p.takeStopTask.Fresh := ⟨h.clean, h.registering, h.registration⟩
    have hstate := (ne_stopped_of_task hlooped.tasks (by omega)).1
    exact keepsFresh_stop hfresh hstate hlooped.onStoppedCallback

/-! ### Runs -/

/-- Assumes: a run in which every unsubscription succeeds while the loop is started or stopping, and
every subscription is asked for when the loop is stopped. Whenever the subscriber is unregistered
and stopped and no task of the loop is posted, nothing is left of a registration; and the loop was
only started for channels that were opened under the registration of that moment. -/
theorem clean_while_releases_first (hasRos : Bool) (p : Subscriber M)
    (history : List (SubscriberEvent M)) (run : Run (subscribing hasRos) ReleasesFirst p history) :
    (p.registerState = .unregistered → p.subscriberState = .stopped →
      p.notifyTasks = 0 → p.stopTasks = 0 → p.Clean) ∧
    ∀ opened current, .started opened current ∈ history → opened = current := by
  have hsafe : p.Fresh ∧ ∀ e ∈ history, ∀ opened current, e = .started opened current →
      opened = current := by
    refine run.safe ?_ ?_
    · rintro s rfl
      exact ⟨fun _ _ ↦ ⟨rfl, rfl, rfl, rfl, rfl, rfl⟩, nofun,
        fun _ hmem ↦ absurd hmem (Option.not_mem_none _)⟩
    · rintro s a s' observed ⟨history, run⟩ hfresh hguard hstep
      have hkeeps := keepsFresh_step hfresh (looped_of_run run) hguard hstep
      refine ⟨hkeeps.fresh, fun e hmem opened current heq ↦ ?_⟩
      exact hkeeps.started opened current (heq ▸ hmem)
  refine ⟨fun hregister hstate _ _ ↦ hsafe.1.clean (.inl hregister) hstate, ?_⟩
  exact fun opened current hmem ↦ hsafe.2 _ hmem opened current rfl

/-- A subscriber that is unsubscribed while its loop runs, and subscribes again. -/
theorem clean_after_unsubscription :
    ∃ p : Subscriber ℕ, ∃ history, Run (subscribing false) ReleasesFirst p history ∧
      p.registrations = 1 ∧ p.Clean := by
  have hexec : ((subscribing (M := ℕ) false).exec ReleasesFirst {} [] Scenario.subscribeOnce).map
      (fun result ↦ (result.1.registerState, result.1.subscriberState, result.1.notifyTasks,
        result.1.stopTasks, result.1.registrations)) =
      some (.unregistered, .stopped, 0, 0, 1) := by
    decide
  obtain ⟨⟨p, history⟩, hrun, heq⟩ := Option.map_eq_some_iff.mp hexec
  simp only [Prod.mk.injEq] at heq
  have run : Run (subscribing false) ReleasesFirst p history := (Run.start rfl).of_exec hrun
  obtain ⟨hclean, -⟩ := clean_while_releases_first false p history run
  exact ⟨p, history, run, heq.2.2.2.2, hclean heq.1 heq.2.1 heq.2.2.1 heq.2.2.2.1⟩

end Subscriber

namespace Scenario

/-- A subscriber is unsubscribed while it connects. -/
def unsubscribeWhileConnecting : List (SubscriberAction ℕ) :=
  subscribeTo (publisherOver .tcp "type") ++
    [.requestUnsubscribe, .onUnubscribeTopicAsync Status.OK true]

end Scenario

namespace Subscriber

/-- Unsubscribed while it connects, a subscriber is not clean; subscribed again before the connect
completes, it starts its loop for the channel of the first registration. -/
theorem unclean_of_unsubscription_while_connecting :
    (¬ ∀ (p : Subscriber ℕ) history, Run (subscribing false) unguarded p history →
      p.registerState = .unregistered → p.subscriberState = .stopped →
        p.notifyTasks = 0 → p.stopTasks = 0 → p.Clean) ∧
    ¬ ∀ (p : Subscriber ℕ) history, Run (subscribing false) unguarded p history →
      ∀ opened current, .started opened current ∈ history → opened = current := by
  constructor
  · intro hall
    have hexec : ((subscribing (M := ℕ) false).exec unguarded {} []
        Scenario.unsubscribeWhileConnecting).map
        (fun result ↦ (result.1.registerState, result.1.subscriberState, result.1.notifyTasks,
          result.1.stopTasks, result.1.onMessageCallback)) =
        some (.unregistered, .stopped, 0, 0, true) := by
      decide
    obtain ⟨⟨p, history⟩, hrun, heq⟩ := Option.map_eq_some_iff.mp hexec
    simp only [Prod.mk.injEq] at heq
    have hclean := hall p history ((Run.start rfl).of_exec hrun) heq.1 heq.2.1 heq.2.2.1
      heq.2.2.2.1
    cases hclean.2.2.2.2.1.symm.trans heq.2.2.2.2
  · intro hall
    have hexec : ((subscribing (M := ℕ) false).exec unguarded {} []
        (Scenario.unsubscribeWhileConnecting ++
          [.requestSubscribe, .onConnectToPublisher Status.OK []])).map
        (fun result ↦ result.2.contains (.started 1 2)) = some true := by
      decide
    obtain ⟨⟨p, history⟩, hrun, heq⟩ := Option.map_eq_some_iff.mp hexec
    have hmem : .started 1 2 ∈ history := List.contains_iff_mem.mp heq
    cases hall p history ((Run.start rfl).of_exec hrun) 1 2 hmem

end Subscriber

end Felicia
