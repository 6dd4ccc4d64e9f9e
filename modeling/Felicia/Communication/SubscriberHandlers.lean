import Felicia.Communication.Subscriber

/-!
# What the handlers of a subscriber can come to

One inversion lemma for each handler of `felicia/core/communication/subscriber.h`, with the
conditions under which each outcome comes: `handleReceived_cases`, `connectToPublisher_cases`,
`onFindPublisher_cases`, `startMessageLoop_cases`, `afterStop_cases`, `notifyMessageLoop_cases`,
and `step_cases` for the actions. `ReceiveFrame` is what receives leave alone, however many of them
complete in a step.
-/

set_option autoImplicit false
set_option relaxedAutoImplicit false

namespace Felicia

open Support TransitionSystem

/-- A connect or a handshake succeeds. -/
def SubscriberAction.Succeeds {M : Type} (a : SubscriberAction M) : Prop :=
  ∃ status received, status.isOk = true ∧
    (a = .onConnectToPublisher status received ∨ a = .onRosTopicHandshake status received)

/-- A channel without what receives change. -/
def SubscriberChannel.fixed (channel : SubscriberChannel) : SubscriberChannel :=
  { channel with receiving := false, failures := 0 }

namespace Subscriber

variable {M : Type} {p p' p'' : Subscriber M}

/-- A connect or a handshake is under way. -/
def isConnecting (p : Subscriber M) : Bool := p.channel.any (·.phase ≠ .established)

/-! ### What a receive leaves alone -/

/-- What receives leave alone, and that they can only stop the loop. -/
structure ReceiveFrame (p p' : Subscriber M) : Prop where
  channel : p'.channel.map SubscriberChannel.fixed = p.channel.map SubscriberChannel.fixed
  topicInfo : p'.topicInfo = p.topicInfo
  topicInfoToUpdate : p'.topicInfoToUpdate = p.topicInfoToUpdate
  callbacks : p'.onMessageCallback = p.onMessageCallback ∧ p'.onErrorCallback = p.onErrorCallback
  onStoppedCallback : p.onStoppedCallback = false → p'.onStoppedCallback = false
  registerState : p'.registerState = p.registerState
  subscriberState : p'.subscriberState = p.subscriberState ∨
    p.subscriberState = .started ∧ p'.subscriberState = .stopping
  tasks : p'.notifyTasks = p.notifyTasks ∧ p'.stopTasks = p.stopTasks ∧
    p'.startTasks = p.startTasks
  registrations : p'.registrations = p.registrations
  notifications : p'.processed = p.processed ∧ p'.unsubscribed = p.unsubscribed

namespace ReceiveFrame

theorem refl (p : Subscriber M) : ReceiveFrame p p :=
  ⟨rfl, rfl, rfl, ⟨rfl, rfl⟩, id, rfl, .inl rfl, ⟨rfl, rfl, rfl⟩, rfl, ⟨rfl, rfl⟩⟩

theorem trans (h : ReceiveFrame p p') (h' : ReceiveFrame p' p'') : ReceiveFrame p p'' where
  channel := h'.channel.trans h.channel
  topicInfo := h'.topicInfo.trans h.topicInfo
  topicInfoToUpdate := h'.topicInfoToUpdate.trans h.topicInfoToUpdate
  callbacks := ⟨h'.callbacks.1.trans h.callbacks.1, h'.callbacks.2.trans h.callbacks.2⟩
  onStoppedCallback := fun hp ↦ h'.onStoppedCallback (h.onStoppedCallback hp)
  registerState := h'.registerState.trans h.registerState
  subscriberState := by
    rcases h.subscriberState with heq | ⟨hstarted, hstopping⟩
    · rw [← heq]
      exact h'.subscriberState
    · rcases h'.subscriberState with heq | ⟨hstarted', -⟩
      · exact .inr ⟨hstarted, heq.trans hstopping⟩
      · rw [hstopping] at hstarted'
        cases hstarted'
  tasks := ⟨h'.tasks.1.trans h.tasks.1, h'.tasks.2.1.trans h.tasks.2.1,
    h'.tasks.2.2.trans h.tasks.2.2⟩
  registrations := h'.registrations.trans h.registrations
  notifications := ⟨h'.notifications.1.trans h.notifications.1,
    h'.notifications.2.trans h.notifications.2⟩

theorem isConnecting (h : ReceiveFrame p p') : p'.isConnecting = p.isConnecting := by
  have hany : ∀ channel : Option SubscriberChannel,
      channel.any (·.phase ≠ .established) =
        (channel.map SubscriberChannel.fixed).any (·.phase ≠ .established) := by
    intro channel
    cases channel <;> rfl
  rw [Subscriber.isConnecting, Subscriber.isConnecting, hany, h.channel, ← hany]

theorem ne_stopped (h : ReceiveFrame p p') (hstate : p.subscriberState ≠ .stopped) :
    p'.subscriberState ≠ .stopped := by
  rcases h.subscriberState with heq | ⟨-, hstopping⟩
  · rw [heq]
    exact hstate
  · rw [hstopping]
    exact nofun

/-- Assumes: a change of what receives change in the channel. -/
theorem of_channel (f : SubscriberChannel → SubscriberChannel) (hf : ∀ c, (f c).fixed = c.fixed) :
    ReceiveFrame p { p with channel := p.channel.map f } :=
  { refl p with
    channel := by
      show (p.channel.map f).map SubscriberChannel.fixed = p.channel.map SubscriberChannel.fixed
      rw [Option.map_map]
      exact congrArg (Option.map · p.channel) (funext hf) }

end ReceiveFrame

theorem receiveFrame_stopMessageLoop (p : Subscriber M) :
    ReceiveFrame p (p.stopMessageLoop false).1 := by
  by_cases hstarted : p.subscriberState = .started
  · rw [stopMessageLoop, if_pos hstarted]
    exact { ReceiveFrame.refl p with
      onStoppedCallback := fun _ ↦ rfl, subscriberState := .inr ⟨hstarted, rfl⟩ }
  · rw [stopMessageLoop, if_neg hstarted]
    exact ReceiveFrame.refl p

theorem receiveFrame_receiveMessageLoop (p : Subscriber M) :
    ReceiveFrame p p.receiveMessageLoop := by
  unfold receiveMessageLoop
  split_ifs
  · exact ReceiveFrame.of_channel _ fun _ ↦ rfl
  · exact ReceiveFrame.refl p

@[simp]
theorem subscriberState_receiveMessageLoop (p : Subscriber M) :
    p.receiveMessageLoop.subscriberState = p.subscriberState := by
  unfold receiveMessageLoop
  split <;> rfl

@[simp]
theorem subscriberState_receiveNext (p : Subscriber M) :
    p.receiveNext.subscriberState = p.subscriberState := by
  unfold receiveNext
  split
  · rfl
  · simp

theorem receiveFrame_receiveNext (p : Subscriber M) : ReceiveFrame p p.receiveNext := by
  unfold receiveNext
  split_ifs
  · exact { ReceiveFrame.refl p with }
  · exact receiveFrame_receiveMessageLoop p

theorem receiveFrame_onMessage (p : Subscriber M) (message : M) :
    ReceiveFrame p (p.onMessage message) :=
  { ReceiveFrame.of_channel (p := p) (fun c ↦ { c with failures := 0 }) fun _ ↦ rfl with }

theorem receiveFrame_onFailure (p : Subscriber M) : ReceiveFrame p p.onFailure :=
  { ReceiveFrame.of_channel (p := p) (fun c ↦ { c with failures := c.failures + 1 })
      fun _ ↦ rfl with }

/-- What `OnReceiveMessage` can come to. -/
inductive ReceiveCase (p : Subscriber M) : Subscriber M × List (SubscriberEvent M) → Prop
  /-- The loop is not started. -/
  | late (hstate : p.subscriberState ≠ .started) : ReceiveCase p (p, [])
  | message (hstate : p.subscriberState = .started) (message : M) :
      ReceiveCase p ((p.onMessage message).receiveNext, [])
  /-- The connection is lost. -/
  | lost (hstate : p.subscriberState = .started) (status : Status) (isSet : Bool) :
      ReceiveCase p (({ p with gaveUp := true }.stopMessageLoop false).1, [.error status isSet])
  /-- Too many receives failed. -/
  | failed (hstate : p.subscriberState = .started) (status : Status) (isSet : Bool)
      (hfailed : maximumReceiveMessageFailedAllowed ≤ p.onFailure.receiveMessageFailedCnt) :
      ReceiveCase p ((p.onFailure.stopMessageLoop false).1,
        [.error status isSet, .failed ((p.onFailure.channel.map (·.failures)).getD 0)])
  | failure (hstate : p.subscriberState = .started) (status : Status) (isSet : Bool)
      (hfailed : p.onFailure.receiveMessageFailedCnt < maximumReceiveMessageFailedAllowed) :
      ReceiveCase p (p.onFailure.receiveNext, [.error status isSet])

theorem handleReceived_cases (p : Subscriber M) (received : ReceiveResult M) :
    ReceiveCase p (p.handleReceived received) := by
  unfold handleReceived
  by_cases hstate : p.subscriberState = .started
  · rw [if_neg (not_not_intro hstate)]
    cases received with
    | message message => exact .message hstate message
    | failure status isConnected =>
      dsimp only
      split_ifs with hlost hfailed
      · exact .lost hstate _ _
      · exact .failed hstate _ _ hfailed
      · exact .failure hstate _ _ (Nat.lt_of_not_le hfailed)
  · rw [if_pos hstate]
    exact .late hstate

theorem ReceiveCase.frame {result : Subscriber M × List (SubscriberEvent M)}
    (h : ReceiveCase p result) : ReceiveFrame p result.1 := by
  cases h with
  | late => exact ReceiveFrame.refl p
  | message _ message =>
    exact (receiveFrame_onMessage p message).trans (receiveFrame_receiveNext _)
  | lost =>
    have hgaveUp : ReceiveFrame p { p with gaveUp := true } := { ReceiveFrame.refl p with }
    exact hgaveUp.trans (receiveFrame_stopMessageLoop _)
  | failed => exact (receiveFrame_onFailure p).trans (receiveFrame_stopMessageLoop _)
  | failure => exact (receiveFrame_onFailure p).trans (receiveFrame_receiveNext _)

theorem receiveFrame_onReceiveMessage (p : Subscriber M) (received : ReceiveResult M) :
    ReceiveFrame p (p.onReceiveMessage received).1 :=
  (ReceiveFrame.of_channel (p := p) (fun c ↦ { c with receiving := false }) fun _ ↦ rfl).trans
    (handleReceived_cases p.received received).frame

/-- Assumes: a receive keeps a property of the subscriber, and shows events of a kind then. So do
the receives that end one after the other. -/
theorem receiveAll_rule {K : Subscriber M → Prop} {S : SubscriberEvent M → Prop}
    (hstep : ∀ (p : Subscriber M) (first : ReceiveResult M), K p →
      K (p.onReceiveMessage first).1 ∧ ∀ e ∈ (p.onReceiveMessage first).2, S e)
    (h : K p) (received : List (ReceiveResult M)) :
    K (p.receiveAll received).1 ∧ ∀ e ∈ (p.receiveAll received).2, S e := by
  induction received generalizing p with
  | nil => exact ⟨h, List.forall_mem_nil _⟩
  | cons first rest ih =>
    obtain ⟨hkept, hshown⟩ := hstep p first h
    unfold receiveAll
    split_ifs
    · obtain ⟨hrest, hothers⟩ := ih hkept
      exact ⟨hrest, List.forall_mem_append.mpr ⟨hshown, hothers⟩⟩
    · exact ⟨h, List.forall_mem_nil _⟩

/-- The rule for what is kept. -/
theorem receiveAll_keeps {K : Subscriber M → Prop}
    (hstep : ∀ (p : Subscriber M) (first : ReceiveResult M), K p → K (p.onReceiveMessage first).1)
    (h : K p) (received : List (ReceiveResult M)) : K (p.receiveAll received).1 :=
  (receiveAll_rule (S := fun _ ↦ True)
    (fun p first hp ↦ ⟨hstep p first hp, fun _ _ ↦ trivial⟩) h received).1

/-- The rule for what is shown. -/
theorem forall_mem_receiveAll {S : SubscriberEvent M → Prop}
    (hstep : ∀ (p : Subscriber M) (first : ReceiveResult M),
      ∀ e ∈ (p.onReceiveMessage first).2, S e)
    (p : Subscriber M) (received : List (ReceiveResult M)) :
    ∀ e ∈ (p.receiveAll received).2, S e :=
  (receiveAll_rule (K := fun _ ↦ True) (p := p)
    (fun p first _ ↦ ⟨trivial, hstep p first⟩) trivial received).2

theorem receiveFrame_receiveAll (p : Subscriber M) (received : List (ReceiveResult M)) :
    ReceiveFrame p (p.receiveAll received).1 :=
  receiveAll_keeps (fun q first h ↦ h.trans (receiveFrame_onReceiveMessage q first))
    (ReceiveFrame.refl p) received

theorem receiveFrame_firstReceives (p : Subscriber M) (received : List (ReceiveResult M)) :
    ReceiveFrame p.justStarted (p.firstReceives received).1 :=
  (receiveFrame_receiveMessageLoop _).trans (receiveFrame_receiveAll _ _)

/-! ### What the other handlers can come to -/

/-- Without a callback there is nothing to see when a loop is stopped. -/
@[simp]
theorem stopMessageLoop_events (p : Subscriber M) : (p.stopMessageLoop false).2 = [] := by
  unfold stopMessageLoop
  split <;> rfl

theorem stopMessageLoop_of_started (hstate : p.subscriberState = .started) (callback : Bool) :
    (p.stopMessageLoop callback).1 =
      { p with onStoppedCallback := callback, subscriberState := .stopping } := by
  rw [stopMessageLoop, if_pos hstate]

/-- What `ConnectToPublisher` can come to. -/
inductive ConnectCase (p : Subscriber M) : Subscriber M × List (SubscriberEvent M) → Prop
  | failed (channelType : ℕ) (status : Status) (isSet : Bool) :
      ConnectCase p ({ p with channel := none, channelType, gaveUp := true }, [.error status isSet])
  | opened (channelDef : ChannelDef) (channelType : ℕ)
      (hdefs : p.topicInfo.topicSource.channelDefs ≠ []) :
      ConnectCase p
        ({ p with
           channel := some
             { type := channelDef.type, registration := p.registrations, topicInfo := p.topicInfo }
           channelType
           gaveUp := false },
          [.opened channelDef])

theorem matchChannelDef_nil (channelTypes rounds channelType : ℕ) :
    (matchChannelDef [] channelTypes rounds channelType).1 = none := by
  induction rounds generalizing channelType with
  | zero => rfl
  | succ rounds ih =>
    unfold matchChannelDef
    split_ifs
    · rfl
    · simpa using ih _
    · simpa using ih _

theorem connectToPublisher_cases (p : Subscriber M) : ConnectCase p p.connectToPublisher := by
  unfold connectToPublisher
  cases hmatch : matchChannelDef p.topicInfo.topicSource.channelDefs p.channelTypes 31
      p.channelType with
  | mk channelDef channelType =>
    cases channelDef with
    | none => exact .failed channelType _ _
    | some channelDef =>
      refine .opened channelDef channelType fun hnil ↦ ?_
      have hnone := matchChannelDef_nil p.channelTypes 31 p.channelType
      rw [hnil] at hmatch
      rw [hmatch] at hnone
      cases hnone

theorem connectToPublisher_of_nil (hnil : p.topicInfo.topicSource.channelDefs = []) :
    p.connectToPublisher.1 =
      { p with
        channel := none, channelType := p.connectToPublisher.1.channelType, gaveUp := true } := by
  have hcase := connectToPublisher_cases p
  revert hcase
  generalize p.connectToPublisher = result
  rintro (_ | ⟨_, _, hdefs⟩)
  · rfl
  · exact absurd hnil hdefs

/-- What `OnFindPublisher` can come to. -/
inductive FindCase (p : Subscriber M) (topicInfo : TopicInfo) :
    Subscriber M × List (SubscriberEvent M) → Prop
  | putOff (hstate : p.registerState = .registering ∨ p.registerState = .unregistering ∨
      p.subscriberState = .stopping) :
      FindCase p topicInfo ({ p with findTasks := p.findTasks ++ [topicInfo] }, [])
  | dropped (hregister : p.registerState = .unregistered) : FindCase p topicInfo (p, [])
  /-- The publisher is gone. -/
  | stop (hregister : p.registerState = .registered) (hstate : p.subscriberState = .started)
      (hstatus : topicInfo.status = .unregistered) :
      FindCase p topicInfo ((p.process topicInfo).stopMessageLoop false)
  | ignored (hregister : p.registerState = .registered) (hstate : p.subscriberState = .stopped)
      (hstatus : topicInfo.status = .unregistered) :
      FindCase p topicInfo (p.process topicInfo, [])
  /-- The publisher is another one. -/
  | update (hregister : p.registerState = .registered) (hstate : p.subscriberState = .started)
      (hstatus : topicInfo.status = .registered) :
      FindCase p topicInfo
        ({ p.process topicInfo with topicInfoToUpdate := some topicInfo },
          [.checkedUDP (p.channel.map (·.type))])
  | connect (hregister : p.registerState = .registered) (hstate : p.subscriberState = .stopped)
      (hstatus : topicInfo.status = .registered) :
      FindCase p topicInfo
        ((p.process topicInfo).setTopicInfo topicInfo).fromFirst.connectToPublisher

theorem onFindPublisher_cases (p : Subscriber M) (topicInfo : TopicInfo) :
    FindCase p topicInfo (p.onFindPublisher topicInfo) := by
  unfold onFindPublisher
  by_cases hputOff : p.registerState = .registering ∨ p.registerState = .unregistering ∨
      p.subscriberState = .stopping
  · rw [if_pos hputOff]
    exact .putOff hputOff
  rw [if_neg hputOff]
  by_cases hdropped : p.registerState = .unregistered
  · rw [if_pos hdropped]
    exact .dropped hdropped
  rw [if_neg hdropped]
  have hregister : p.registerState = .registered := by
    cases h : p.registerState <;> simp [h] at hputOff hdropped ⊢
  unfold follow
  by_cases hstarted : p.subscriberState = .started
  · have hstarted' : (p.process topicInfo).subscriberState = .started := hstarted
    split <;> rename_i hstatus <;> rw [if_pos hstarted']
    · exact .stop hregister hstarted hstatus
    · exact .update hregister hstarted hstatus
  · have hstarted' : ¬ (p.process topicInfo).subscriberState = .started := hstarted
    have hstopped : p.subscriberState = .stopped := by
      cases h : p.subscriberState <;> simp [h] at hputOff hstarted ⊢
    split <;> rename_i hstatus <;> rw [if_neg hstarted']
    · exact .ignored hregister hstopped hstatus
    · exact .connect hregister hstopped hstatus

theorem onFindPublisher_of_unregistered {topicInfo : TopicInfo}
    (hregister : p.registerState = .unregistered) (hstate : p.subscriberState ≠ .stopping) :
    p.onFindPublisher topicInfo = (p, []) := by
  rw [onFindPublisher, if_neg (by simp [hregister, hstate]), if_pos hregister]

/-- What `StartMessageLoop` can come to. -/
inductive StartCase (p : Subscriber M) (received : List (ReceiveResult M)) :
    Subscriber M × List (SubscriberEvent M) → Prop
  | refused (hstate : p.registerState = .unregistering ∨ p.registerState = .unregistered ∨
      p.subscriberState = .started) : StartCase p received (p, [])
  | putOff (hstate : p.subscriberState = .stopping) :
      StartCase p received ({ p with startTasks := p.startTasks + 1 }, [])
  | started (hregister : p.registerState = .registering ∨ p.registerState = .registered)
      (hstate : p.subscriberState = .stopped) :
      StartCase p received
        ((p.firstReceives received).1.notifyMessageLoop.1,
          .started ((p.channel.map (·.registration)).getD 0) p.registrations ::
            ((p.firstReceives received).2 ++ (p.firstReceives received).1.notifyMessageLoop.2))

theorem startMessageLoop_cases (p : Subscriber M) (received : List (ReceiveResult M)) :
    StartCase p received (p.startMessageLoop received) := by
  unfold startMessageLoop
  by_cases hregister : p.registerState = .unregistering ∨ p.registerState = .unregistered
  · rw [if_pos hregister]
    exact .refused (hregister.imp_right .inl)
  rw [if_neg hregister]
  split <;> rename_i hstate
  · exact .putOff hstate
  · exact .refused (.inr (.inr hstate))
  · refine .started ?_ hstate
    cases h : p.registerState <;> simp [h] at hregister ⊢

/-- What `Stop` can come to, after the state is set to stopped. -/
inductive AfterStopCase (p : Subscriber M) : Subscriber M × List (SubscriberEvent M) → Prop
  | answered (hset : p.onStoppedCallback = true) :
      AfterStopCase p ({ p with onStoppedCallback := false }, [.answered .OK])
  | update (topicInfo : TopicInfo) (hupdate : p.topicInfoToUpdate = some topicInfo) :
      AfterStopCase p (p.takeUpdate.onFindPublisher topicInfo)
  | reconnect (hupdate : p.topicInfoToUpdate = none)
      (hfailed : maximumReceiveMessageFailedAllowed ≤ p.receiveMessageFailedCnt) :
      AfterStopCase p p.fromFirst.connectToPublisher
  | rest (hupdate : p.topicInfoToUpdate = none)
      (hfailed : p.receiveMessageFailedCnt < maximumReceiveMessageFailedAllowed) :
      AfterStopCase p (p, [])

theorem afterStop_cases (p : Subscriber M) : AfterStopCase p p.afterStop := by
  unfold afterStop
  by_cases hset : p.onStoppedCallback = true
  · rw [if_pos hset]
    exact .answered hset
  rw [if_neg hset]
  split <;> rename_i hupdate
  · exact .update _ hupdate
  · split_ifs with hfailed
    · exact .reconnect hupdate hfailed
    · exact .rest hupdate (Nat.lt_of_not_le hfailed)

/-- What `NotifyMessageLoop` can come to while the loop is not stopped. -/
inductive NotifyCase (p : Subscriber M) : Subscriber M × List (SubscriberEvent M) → Prop
  | stop (hstate : p.subscriberState = .stopping) :
      NotifyCase p
        ({ p with messageQueue := p.tellFront.1.messageQueue, stopTasks := p.stopTasks + 1 },
          p.tellFront.2)
  | notify :
      NotifyCase p
        ({ p with messageQueue := p.tellFront.1.messageQueue, notifyTasks := p.notifyTasks + 1 },
          p.tellFront.2)

theorem tellFront_eq (p : Subscriber M) :
    p.tellFront.1 = { p with messageQueue := p.tellFront.1.messageQueue } := by
  unfold tellFront
  cases p.messageQueue.front? <;> rfl

theorem notifyMessageLoop_cases (hstate : p.subscriberState ≠ .stopped) :
    NotifyCase p p.notifyMessageLoop := by
  rw [notifyMessageLoop, if_neg hstate, tellFront_eq p]
  dsimp only
  split_ifs with h
  · exact .stop h.1
  · exact .notify

/-- `NotifyMessageLoop` changes the queue and its tasks, and all that is seen of it is a message. -/
theorem NotifyCase.frame {result : Subscriber M × List (SubscriberEvent M)}
    (hcase : NotifyCase p result) :
    (∃ messageQueue notifyTasks stopTasks,
      result.1 = { p with messageQueue, notifyTasks, stopTasks }) ∧
    ∀ e ∈ result.2, ∃ message, e = .message message p.onMessageCallback := by
  have htold : ∀ e ∈ p.tellFront.2, ∃ message, e = .message message p.onMessageCallback := by
    unfold tellFront
    cases p.messageQueue.front? with
    | none => exact List.forall_mem_nil _
    | some message =>
      intro e he
      exact ⟨message, List.mem_singleton.mp he⟩
  cases hcase with
  | stop => exact ⟨⟨_, _, _, rfl⟩, htold⟩
  | notify => exact ⟨⟨_, _, _, rfl⟩, htold⟩

/-! ### Steps -/

theorem isConnecting_of_isInPhase {phase : ChannelPhase} (hphase : p.isInPhase phase = true)
    (hne : phase ≠ .established) : p.isConnecting = true := by
  obtain ⟨channel, hchannel, hin⟩ := (Option.any_eq_true ..).mp hphase
  refine (Option.any_eq_true ..).mpr ⟨channel, hchannel, ?_⟩
  have heq : channel.phase = phase := by simpa using hin
  simpa [heq] using hne

theorem isConnecting_setPhase_established (p : Subscriber M) :
    (p.setPhase .established).isConnecting = false := by
  unfold isConnecting setPhase
  cases p.channel <;> rfl

/-- What a step can come to, if no `StartMessageLoop` task is posted. -/
inductive StepCase (p : Subscriber M) :
    SubscriberAction M → Subscriber M × List (SubscriberEvent M) → Prop
  | requestSubscribe : StepCase p .requestSubscribe p.requestSubscribe
  | onSubscribeTopicAsync (subscription : Subscription) (status : Status) :
      StepCase p (.onSubscribeTopicAsync subscription status)
        (p.onSubscribeTopicAsync subscription status)
  | requestUnsubscribe : StepCase p .requestUnsubscribe p.requestUnsubscribe
  | onUnubscribeTopicAsync (status : Status) (isMainThread : Bool) :
      StepCase p (.onUnubscribeTopicAsync status isMainThread)
        (p.onUnubscribeTopicAsync status isMainThread)
  | onFindPublisher (topicInfo : TopicInfo) :
      StepCase p (.onFindPublisher topicInfo) (p.onFindPublisher topicInfo)
  /-- The connection is there, and the ROS handshake begins. -/
  | handshake {a : SubscriberAction M} (hconnecting : p.isConnecting = true) :
      StepCase p a (p.setPhase .handshaking, [])
  | established {a : SubscriberAction M} (hsucceeds : a.Succeeds)
      (received : List (ReceiveResult M)) (hconnecting : p.isConnecting = true) :
      StepCase p a ((p.setPhase .established).startMessageLoop received)
  | next {a : SubscriberAction M} (hconnecting : p.isConnecting = true) :
      StepCase p a p.tryNext.connectToPublisher
  | onReceiveMessage (received : ReceiveResult M) (hreceiving : p.isReceiving = true) :
      StepCase p (.onReceiveMessage received) (p.onReceiveMessage received)
  | runFindPublisher (topicInfo : TopicInfo) (hfind : p.findTasks.head? = some topicInfo) :
      StepCase p .runFindPublisher (p.takeFindTask.onFindPublisher topicInfo)
  | runStopMessageLoop :
      StepCase p .runStopMessageLoop
        (p.takeStopMessageLoopTask.stopMessageLoop false)
  | runReceiveMessageLoop :
      StepCase p .runReceiveMessageLoop (p.takeReceiveTask.receiveMessageLoop, [])
  | runNotifyMessageLoop (htask : 0 < p.notifyTasks) :
      StepCase p .runNotifyMessageLoop p.takeNotifyTask.notifyMessageLoop
  | runStop (htask : 0 < p.stopTasks) : StepCase p .runStop p.takeStopTask.stop

theorem step_cases (hstart : p.startTasks = 0) {hasRos : Bool} {a : SubscriberAction M}
    {result : Subscriber M × List (SubscriberEvent M)} (hstep : p.step hasRos a = some result) :
    StepCase p a result := by
  cases a with
  | requestSubscribe =>
    cases Option.some.inj hstep
    exact .requestSubscribe
  | onSubscribeTopicAsync subscription status =>
    cases Option.some.inj hstep
    exact .onSubscribeTopicAsync subscription status
  | requestUnsubscribe =>
    cases Option.some.inj hstep
    exact .requestUnsubscribe
  | onUnubscribeTopicAsync status isMainThread =>
    cases Option.some.inj hstep
    exact .onUnubscribeTopicAsync status isMainThread
  | onFindPublisher topicInfo =>
    cases Option.some.inj hstep
    exact .onFindPublisher topicInfo
  | onConnectToPublisher status received =>
    simp only [step] at hstep
    split_ifs at hstep with hphase
    cases Option.some.inj hstep
    have hconnecting := isConnecting_of_isInPhase hphase nofun
    unfold onConnectToPublisher
    split_ifs with hstatus
    · exact .handshake hconnecting
    · exact .established ⟨status, received, hstatus, .inl rfl⟩ received hconnecting
    · exact .next hconnecting
  | onRosTopicHandshake status received =>
    simp only [step] at hstep
    split_ifs at hstep with hphase
    cases Option.some.inj hstep
    have hconnecting := isConnecting_of_isInPhase hphase nofun
    unfold onRosTopicHandshake
    split_ifs with hstatus
    · exact .established ⟨status, received, hstatus, .inr rfl⟩ received hconnecting
    · exact .next hconnecting
  | onReceiveMessage received =>
    simp only [step] at hstep
    split_ifs at hstep with hreceiving
    cases Option.some.inj hstep
    exact .onReceiveMessage received hreceiving
  | runFindPublisher =>
    obtain ⟨topicInfo, hfind, rfl⟩ := Option.map_eq_some_iff.mp hstep
    exact .runFindPublisher topicInfo hfind
  | runStartMessageLoop received =>
    simp only [step, hstart] at hstep
    cases hstep
  | runStopMessageLoop =>
    simp only [step] at hstep
    split_ifs at hstep
    cases Option.some.inj hstep
    exact .runStopMessageLoop
  | runReceiveMessageLoop =>
    simp only [step] at hstep
    split_ifs at hstep
    cases Option.some.inj hstep
    exact .runReceiveMessageLoop
  | runNotifyMessageLoop =>
    simp only [step] at hstep
    split_ifs at hstep with htask
    cases Option.some.inj hstep
    exact .runNotifyMessageLoop htask
  | runStop =>
    simp only [step] at hstep
    split_ifs at hstep with htask
    cases Option.some.inj hstep
    exact .runStop htask

end Subscriber

end Felicia
