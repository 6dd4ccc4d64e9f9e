import Felicia.Communication.SubscriberLoop

/-!
# How a subscriber follows its publisher

`OnFindPublisher` of `felicia/core/communication/subscriber.h` connects to the publisher it is told
of. If the loop is started it only remembers the new publisher for `Stop`, with a comment that the
loop has to be stopped, but nothing stops it: the subscriber goes on with the old publisher until
something else ends the loop. A `DCHECK` there says that the channel is a UDP channel, which a
publisher that registers again over another kind of channel does not respect. And a
`StopMessageLoop` that was posted for an earlier registration can end the loop of a later one for
good.

`UpdatesInTime` excludes these, and then the subscriber is always connecting or connected to the
publisher it was told of last, or has given up with an error: `follows_while_updates_in_time`.
`Aimed` and `Pursues` are the invariant.
-/

set_option autoImplicit false
set_option relaxedAutoImplicit false

namespace Felicia

open Support TransitionSystem

namespace Subscriber

variable {M : Type} {p p' : Subscriber M} {result : Subscriber M × List (SubscriberEvent M)}
  {topicInfo : TopicInfo}

/-! ### What it means to follow a publisher -/

/-- The last notification was of this publisher, and no unsubscription was asked for since. -/
def Following (p : Subscriber M) (topicInfo : TopicInfo) : Prop :=
  p.processed = some topicInfo ∧ topicInfo.status = .registered ∧ p.unsubscribed = false

/-- The subscriber is connecting or connected to a publisher, or has given up with an error, or is
stopping in order to connect to it. -/
def Follows (p : Subscriber M) (topicInfo : TopicInfo) : Prop :=
  (p.topicInfo = topicInfo ∧ ∃ channel ∈ p.channel, channel.topicInfo = topicInfo ∧
    (channel.phase ≠ .established ∨ p.subscriberState ≠ .stopped)) ∨
  p.gaveUp = true ∨
  p.subscriberState = .stopping ∧ p.topicInfoToUpdate = some topicInfo

/-- A notification of another publisher, or over anything but UDP, does not come while the loop is
started. -/
def MayFind (p : Subscriber M) (topicInfo : TopicInfo) : Prop :=
  p.registerState = .registered → p.subscriberState = .started → topicInfo.status = .registered →
    p.channel.map (·.type) = some .udp ∧ topicInfo = p.topicInfo

instance (p : Subscriber M) (topicInfo : TopicInfo) : Decidable (p.MayFind topicInfo) :=
  inferInstanceAs (Decidable (_ → _ → _ → _ ∧ _))

/-- A publisher that is taken up while the loop is started is the one it is connected to, over UDP,
and a `StopMessageLoop` task that finds the loop started was posted for this registration. -/
def UpdatesInTime (p : Subscriber M) : SubscriberAction M → Prop
  | .onFindPublisher topicInfo => p.MayFind topicInfo
  | .runFindPublisher => ∀ topicInfo ∈ p.findTasks.head?, p.MayFind topicInfo
  | .runStopMessageLoop => p.subscriberState = .started → p.registerState = .unregistered
  | _ => True

instance (p : Subscriber M) : DecidablePred p.UpdatesInTime
  | .onFindPublisher topicInfo => inferInstanceAs (Decidable (p.MayFind topicInfo))
  | .runFindPublisher =>
    inferInstanceAs (Decidable (∀ topicInfo ∈ p.findTasks.head?, p.MayFind topicInfo))
  | .runStopMessageLoop =>
    inferInstanceAs (Decidable (p.subscriberState = .started → p.registerState = .unregistered))
  | .requestSubscribe | .onSubscribeTopicAsync _ _ | .requestUnsubscribe
  | .onUnubscribeTopicAsync _ _ | .onConnectToPublisher _ _ | .onRosTopicHandshake _ _
  | .onReceiveMessage _ | .runStartMessageLoop _ | .runReceiveMessageLoop
  | .runNotifyMessageLoop | .runStop => isTrue trivial

/-! ### The invariant -/

/-- The publisher that is followed is the one to connect to, and so is the one of the channel and of
an update. -/
structure Aimed (p : Subscriber M) : Prop where
  registered : ∀ topicInfo, p.Following topicInfo → p.registerState = .registered
  topicInfo : ∀ topicInfo, p.Following topicInfo → p.topicInfo = topicInfo
  update : ∀ topicInfo ∈ p.topicInfoToUpdate, topicInfo = p.topicInfo ∧
    topicInfo.status = .registered ∧ p.subscriberState ≠ .stopped
  channel : ∀ channel ∈ p.channel, channel.topicInfo = p.topicInfo
  opened : p.subscriberState ≠ .stopped → p.channel.isSome

/-- The loop will be stopped because of failures. -/
def hasFailed (p : Subscriber M) : Bool :=
  decide (maximumReceiveMessageFailedAllowed ≤ p.receiveMessageFailedCnt)

/-- The subscriber is at work on connecting to a publisher or receiving from it, or has given up. -/
def Pursues (p : Subscriber M) (topicInfo : TopicInfo) : Prop :=
  p.isConnecting = true ∨ p.gaveUp = true ∨ p.subscriberState = .started ∨
    p.subscriberState = .stopping ∧
      (p.topicInfoToUpdate = some topicInfo ∨ p.hasFailed = true)

/-- What a handler keeps: the publisher is pursued, and the `DCHECK` holds. -/
structure KeepsAim (result : Subscriber M × List (SubscriberEvent M)) : Prop where
  aimed : result.1.Aimed
  pursues : ∀ topicInfo, result.1.Following topicInfo → result.1.Pursues topicInfo
  checked : ∀ type, .checkedUDP type ∈ result.2 → type = some .udp

theorem Aimed.topicInfoToUpdate_eq_none (h : p.Aimed) (hstate : p.subscriberState = .stopped) :
    p.topicInfoToUpdate = none := by
  cases hupdate : p.topicInfoToUpdate with
  | none => rfl
  | some t => exact absurd hstate (h.update t hupdate).2.2

theorem Aimed.follows (h : p.Aimed) (hfollowing : p.Following topicInfo)
    (hpursues : p.Pursues topicInfo) : p.Follows topicInfo := by
  have htopic := h.topicInfo topicInfo hfollowing
  have hopen : p.subscriberState ≠ .stopped → p.Follows topicInfo := by
    intro hstate
    obtain ⟨channel, hchannel⟩ := Option.isSome_iff_exists.mp (h.opened hstate)
    exact .inl ⟨htopic, channel, hchannel, (h.channel channel hchannel).trans htopic, .inr hstate⟩
  rcases hpursues with hconnecting | hgaveUp | hstarted | ⟨hstopping, -⟩
  · obtain ⟨channel, hchannel, hphase⟩ := (Option.any_eq_true ..).mp hconnecting
    exact .inl ⟨htopic, channel, hchannel, (h.channel channel hchannel).trans htopic,
      .inl (by simpa using hphase)⟩
  · exact .inr (.inl hgaveUp)
  · exact hopen (by simp [hstarted])
  · exact hopen (by simp [hstopping])

/-! ### Receives -/

theorem ReceiveFrame.following (h : ReceiveFrame p p') :
    p'.Following topicInfo ↔ p.Following topicInfo := by
  rw [Following, Following, h.notifications.1, h.notifications.2]

theorem ReceiveFrame.aimed (h : ReceiveFrame p p') (hp : p.Aimed) : p'.Aimed := by
  refine ⟨fun t ht ↦ ?_, fun t ht ↦ ?_, fun t ht ↦ ?_, fun channel hchannel ↦ ?_, fun hstate ↦ ?_⟩
  · rw [h.registerState]
    exact hp.registered t (h.following.mp ht)
  · rw [h.topicInfo]
    exact hp.topicInfo t (h.following.mp ht)
  · rw [h.topicInfoToUpdate] at ht
    rw [h.topicInfo]
    obtain ⟨heq, hstatus, hstate⟩ := hp.update t ht
    exact ⟨heq, hstatus, h.ne_stopped hstate⟩
  · have hmap := h.channel
    rw [hchannel, Option.map_some] at hmap
    obtain ⟨old, hold, heq⟩ := Option.map_eq_some_iff.mp hmap.symm
    have hfixed : old.fixed.topicInfo = channel.fixed.topicInfo := by rw [heq]
    rw [h.topicInfo]
    exact hfixed.symm.trans (hp.channel old hold)
  · have hold : p.subscriberState ≠ .stopped := by
      rcases h.subscriberState with heq | ⟨hstarted, -⟩
      · rwa [← heq]
      · simp [hstarted]
    have hmap := congrArg Option.isSome h.channel
    rw [Option.isSome_map, Option.isSome_map] at hmap
    rw [hmap]
    exact hp.opened hold

theorem ReceiveCase.pursues (hcase : ReceiveCase p result) (h : p.Pursues topicInfo) :
    result.1.Pursues topicInfo := by
  cases hcase with
  | late => exact h
  | message hstate =>
    refine .inr (.inr (.inl ?_))
    rw [subscriberState_receiveNext]
    exact hstate
  | lost hstate =>
    refine .inr (.inl ?_)
    have hstarted : ({ p with gaveUp := true } : Subscriber M).subscriberState = .started := hstate
    rw [stopMessageLoop_of_started hstarted]
  | failed hstate status isSet hfailed =>
    refine .inr (.inr (.inr ?_))
    have hstarted : p.onFailure.subscriberState = .started := hstate
    rw [stopMessageLoop_of_started hstarted]
    exact ⟨rfl, .inr (by simpa [hasFailed] using hfailed)⟩
  | failure hstate =>
    refine .inr (.inr (.inl ?_))
    rw [subscriberState_receiveNext]
    exact hstate

theorem pursues_received (h : p.Pursues topicInfo) : p.received.Pursues topicInfo := by
  have hconnecting : p.received.isConnecting = p.isConnecting :=
    (ReceiveFrame.of_channel (p := p) (fun c ↦ { c with receiving := false }) fun _ ↦
      rfl).isConnecting
  unfold Pursues
  rw [hconnecting]
  exact h

theorem pursues_receiveMessageLoop (h : p.Pursues topicInfo) :
    p.receiveMessageLoop.Pursues topicInfo := by
  unfold Pursues
  rw [(receiveFrame_receiveMessageLoop p).isConnecting]
  unfold receiveMessageLoop
  split <;> exact h

theorem pursues_receiveAll (h : p.Pursues topicInfo) (received : List (ReceiveResult M)) :
    (p.receiveAll received).1.Pursues topicInfo :=
  receiveAll_keeps (K := fun q ↦ q.Pursues topicInfo)
    (fun q first hpursues ↦
      (handleReceived_cases q.received first).pursues (pursues_received hpursues)) h received

/-! ### Connects and notifications -/

/-- Assumes: a stopped loop and nothing to update, and that the publisher to connect to is the one
that is followed. -/
theorem ConnectCase.keepsAim (hcase : ConnectCase p result)
    (hregistered : ∀ t, p.Following t → p.registerState = .registered)
    (htopic : ∀ t, p.Following t → p.topicInfo = t) (hupdate : p.topicInfoToUpdate = none)
    (hstate : p.subscriberState = .stopped) : KeepsAim result := by
  have hnone : ∀ t ∈ p.topicInfoToUpdate, t = p.topicInfo ∧ t.status = .registered ∧
      p.subscriberState ≠ .stopped := by
    intro t ht
    rw [hupdate] at ht
    cases ht
  cases hcase with
  | failed =>
    exact ⟨⟨hregistered, htopic, hnone, fun _ hmem ↦ absurd hmem (Option.not_mem_none _),
      fun h ↦ absurd hstate h⟩, fun _ _ ↦ .inr (.inl rfl), by simp⟩
  | opened =>
    refine ⟨⟨hregistered, htopic, hnone, fun channel hchannel ↦ ?_, fun h ↦ absurd hstate h⟩,
      fun _ _ ↦ .inl rfl, by simp⟩
    cases hchannel
    rfl

/-- Assumes: the notification may come. -/
theorem FindCase.keepsAim (hcase : FindCase p topicInfo result) (h : p.Aimed)
    (hpursues : p.subscriberState = .stopping → ∀ t, p.Following t → p.Pursues t)
    (hmay : p.MayFind topicInfo) : KeepsAim result := by
  have hfollowing : ∀ t, (p.process topicInfo).Following t → t = topicInfo ∧
      topicInfo.status = .registered := by
    rintro t ⟨heq, hstatus, -⟩
    cases heq
    exact ⟨rfl, hstatus⟩
  have hlost : topicInfo.status = .unregistered → ∀ t, ¬ (p.process topicInfo).Following t := by
    intro hstatus t ht
    rw [(hfollowing t ht).2] at hstatus
    cases hstatus
  have hprocess : topicInfo.status = .unregistered → (p.process topicInfo).Aimed := fun hstatus ↦
    ⟨fun t ht ↦ absurd ht (hlost hstatus t), fun t ht ↦ absurd ht (hlost hstatus t), h.update,
      h.channel, h.opened⟩
  cases hcase with
  | putOff hstate =>
    refine ⟨⟨h.registered, h.topicInfo, h.update, h.channel, h.opened⟩, fun t ht ↦ ?_, by simp⟩
    rcases hstate with hregister | hregister | hstopping
    · cases (h.registered t ht).symm.trans hregister
    · cases (h.registered t ht).symm.trans hregister
    · exact hpursues hstopping t ht
  | dropped hregister =>
    refine ⟨h, fun t ht ↦ ?_, by simp⟩
    cases (h.registered t ht).symm.trans hregister
  | stop hregister hstate hstatus =>
    have hframe := receiveFrame_stopMessageLoop (p.process topicInfo)
    exact ⟨hframe.aimed (hprocess hstatus), fun t ht ↦
      absurd (hframe.following.mp ht) (hlost hstatus t), by simp⟩
  | ignored hregister hstate hstatus =>
    exact ⟨hprocess hstatus, fun t ht ↦ absurd ht (hlost hstatus t), by simp⟩
  | update hregister hstate hstatus =>
    obtain ⟨hudp, heq⟩ := hmay hregister hstate hstatus
    refine ⟨⟨fun _ _ ↦ hregister, fun t ht ↦ ?_, fun t ht ↦ ?_, h.channel, h.opened⟩,
      fun t ht ↦ .inr (.inr (.inl hstate)), fun type htype ↦ ?_⟩
    · exact heq.symm.trans (hfollowing t ht).1.symm
    · cases ht
      exact ⟨heq, hstatus, by simp [process, hstate]⟩
    · cases List.mem_singleton.mp htype
      exact hudp
  | connect hregister hstate hstatus =>
    have hnone := h.topicInfoToUpdate_eq_none hstate
    exact (connectToPublisher_cases _).keepsAim
      (p := ((p.process topicInfo).setTopicInfo topicInfo).fromFirst) (fun _ _ ↦ hregister)
      (fun t ht ↦ (hfollowing t ht).1.symm) hnone hstate

/-! ### The loop -/

theorem KeepsAim.of_not_following (h : result.1.Aimed)
    (hnot : ∀ t, ¬ result.1.Following t) (hchecked : ∀ type, .checkedUDP type ∉ result.2) :
    KeepsAim result where
  aimed := h
  pursues := fun t ht ↦ absurd ht (hnot t)
  checked := fun type htype ↦ absurd htype (hchecked type)

theorem NotifyCase.keepsAim (hcase : NotifyCase p result) (h : p.Aimed)
    (hpursues : ∀ t, p.Following t → p.Pursues t) : KeepsAim result := by
  obtain ⟨⟨_, _, _, heq⟩, htold⟩ := hcase.frame
  refine ⟨?_, ?_, fun type htype ↦ ?_⟩
  · rw [heq]
    exact ⟨h.registered, h.topicInfo, h.update, h.channel, h.opened⟩
  · rw [heq]
    exact hpursues
  · obtain ⟨_, hnever⟩ := htold _ htype
    cases hnever

theorem ReceiveCase.checked (hcase : ReceiveCase p result) (type : Option ChannelType) :
    .checkedUDP type ∉ result.2 := by
  cases hcase <;> simp

theorem checked_receiveAll (p : Subscriber M) (received : List (ReceiveResult M))
    (type : Option ChannelType) : .checkedUDP type ∉ (p.receiveAll received).2 := by
  intro hmem
  have hother : ∀ e ∈ (p.receiveAll received).2, e ≠ .checkedUDP type := by
    refine forall_mem_receiveAll (fun q first e he heq ↦ ?_) p received
    exact (handleReceived_cases q.received first).checked type (heq ▸ he)
  exact hother _ hmem rfl

/-- Assumes: a channel that has just been established. -/
theorem StartCase.keepsAim {received : List (ReceiveResult M)}
    (hcase : StartCase p received result) (h : p.Aimed) (hstate : p.subscriberState = .stopped)
    (hchannel : p.channel.isSome) : KeepsAim result := by
  cases hcase with
  | refused hrefused =>
    refine .of_not_following h (fun t ht ↦ ?_) (by simp)
    have hregistered := h.registered t ht
    rcases hrefused with hunregistering | hunregistered | hstarted
    · cases hregistered.symm.trans hunregistering
    · cases hregistered.symm.trans hunregistered
    · cases hstate.symm.trans hstarted
  | putOff hstopping => cases hstate.symm.trans hstopping
  | started =>
    have hstarted : p.justStarted.Aimed :=
      ⟨h.registered, h.topicInfo, fun t ht ↦ absurd hstate (h.update t ht).2.2, h.channel,
        fun _ ↦ hchannel⟩
    have hframe := receiveFrame_firstReceives p received
    have hpursues : ∀ t, (p.firstReceives received).1.Following t →
        (p.firstReceives received).1.Pursues t := by
      refine fun t _ ↦ pursues_receiveAll (.inr (.inr (.inl ?_))) received
      rw [subscriberState_receiveMessageLoop]
      rfl
    have hkeeps := (notifyMessageLoop_cases (hframe.ne_stopped nofun)).keepsAim
      (hframe.aimed hstarted) hpursues
    refine ⟨hkeeps.aimed, hkeeps.pursues, fun type htype ↦ ?_⟩
    rcases List.mem_cons.mp htype with heq | hmem
    · cases heq
    · rcases List.mem_append.mp hmem with hfirst | hlast
      · exact absurd hfirst (checked_receiveAll _ _ type)
      · exact hkeeps.checked type hlast

/-- Assumes: the loop is stopped; if there is nothing to update and not enough receives failed, an
error was told. -/
theorem AfterStopCase.keepsAim (hcase : AfterStopCase p result)
    (hstopped : p.onStoppedCallback = false) (hstate : p.subscriberState = .stopped)
    (hregistered : ∀ t, p.Following t → p.registerState = .registered)
    (htopic : ∀ t, p.Following t → p.topicInfo = t)
    (hchannel : ∀ channel ∈ p.channel, channel.topicInfo = p.topicInfo)
    (hgaveUp : p.topicInfoToUpdate = none → p.hasFailed = false → ∀ t, p.Following t →
      p.gaveUp = true) : KeepsAim result := by
  have hopened : p.subscriberState ≠ .stopped → p.channel.isSome := fun hne ↦ absurd hstate hne
  cases hcase with
  | answered hset => cases hset.symm.trans hstopped
  | update topicInfo hupdate =>
    have haimed : p.takeUpdate.Aimed :=
      ⟨hregistered, htopic, fun _ hmem ↦ absurd hmem (Option.not_mem_none _), hchannel, hopened⟩
    have hnot : p.takeUpdate.subscriberState = .stopped := hstate
    refine (onFindPublisher_cases _ topicInfo).keepsAim haimed (fun hstopping ↦ ?_)
      fun _ hstarted ↦ ?_
    · cases hnot.symm.trans hstopping
    · cases hnot.symm.trans hstarted
  | reconnect hupdate =>
    exact (connectToPublisher_cases _).keepsAim (p := p.fromFirst) hregistered htopic hupdate hstate
  | rest hupdate hfailed =>
    refine ⟨⟨hregistered, htopic, fun t ht ↦ ?_, hchannel, hopened⟩, fun t ht ↦ ?_, by simp⟩
    · cases hupdate.symm.trans ht
    · have hnot : p.hasFailed = false := by simpa [hasFailed] using hfailed
      exact .inr (.inl (hgaveUp hupdate hnot t ht))

/-- Assumes: a loop that is stopping, and a publisher that is pursued until then. -/
theorem gaveUp_of_pursues (hpursues : p.Pursues topicInfo) (hstate : p.subscriberState = .stopping)
    (hconnecting : p.isConnecting = false) (hupdate : p.topicInfoToUpdate = none)
    (hfailed : p.hasFailed = false) : p.gaveUp = true := by
  rcases hpursues with hnever | hgaveUp | hnever | ⟨-, hnever | hnever⟩
  · cases hconnecting.symm.trans hnever
  · exact hgaveUp
  · cases hstate.symm.trans hnever
  · cases hnever.symm.trans hupdate
  · cases hnever.symm.trans hfailed

/-- Assumes: a loop that is stopping. -/
theorem keepsAim_stop (h : p.Aimed) (hpursues : ∀ t, p.Following t → p.Pursues t)
    (hstate : p.subscriberState = .stopping) (hconnecting : p.isConnecting = false)
    (hstopped : p.onStoppedCallback = false) : KeepsAim p.stop := by
  have hkeeps : KeepsAim p.justStopped.afterStop := by
    by_cases hregister : p.registerState = .unregistered
    · have hnot : ∀ t, ¬ p.Following t := fun t ht ↦ by
        cases (h.registered t ht).symm.trans hregister
      have hreleased : p.justStopped = { p.released with subscriberState := .stopped } := by
        rw [justStopped, if_pos hregister]
      rw [hreleased]
      exact (afterStop_cases _).keepsAim hstopped rfl (fun t ht ↦ absurd ht (hnot t))
        (fun t ht ↦ absurd ht (hnot t)) (fun _ hmem ↦ absurd hmem (Option.not_mem_none _))
        fun _ _ t ht ↦ absurd ht (hnot t)
    · have hkept : p.justStopped = { p with subscriberState := .stopped } := by
        rw [justStopped, if_neg hregister]
      rw [hkept]
      exact (afterStop_cases _).keepsAim hstopped rfl h.registered h.topicInfo h.channel
        fun hupdate hfailed t ht ↦
          gaveUp_of_pursues (p := p) (hpursues t ht) hstate hconnecting hupdate hfailed
  refine ⟨hkeeps.aimed, hkeeps.pursues, fun type htype ↦ ?_⟩
  rcases List.mem_cons.mp htype with heq | hmem
  · cases heq
  · exact hkeeps.checked type hmem

/-! ### Steps -/

/-- Assumes: a step that leaves the loop, the publisher and the notifications as they are. -/
theorem KeepsAim.of_eq (h : p.Aimed) (hpursues : ∀ t, p.Following t → p.Pursues t)
    {events : List (SubscriberEvent M)} (hfollowing : ∀ t, p'.Following t → p.Following t)
    (hregister : ∀ t, p'.Following t → p'.registerState = .registered)
    (htopic : p'.topicInfo = p.topicInfo) (hupdate : p'.topicInfoToUpdate = p.topicInfoToUpdate)
    (hchannel : p'.channel = p.channel) (hstate : p'.subscriberState = p.subscriberState)
    (hgaveUp : p'.gaveUp = p.gaveUp)
    (hcount : p'.receiveMessageFailedCnt = p.receiveMessageFailedCnt)
    (hchecked : ∀ type, .checkedUDP type ∉ events) : KeepsAim (p', events) where
  aimed := by
    refine ⟨hregister, fun t ht ↦ ?_, ?_, ?_, ?_⟩
    · show p'.topicInfo = t
      rw [htopic]
      exact h.topicInfo t (hfollowing t ht)
    · rw [hupdate, htopic, hstate]
      exact h.update
    · rw [hchannel, htopic]
      exact h.channel
    · rw [hstate, hchannel]
      exact h.opened
  pursues := fun t ht ↦ by
    have hold := hpursues t (hfollowing t ht)
    unfold Pursues isConnecting hasFailed at hold ⊢
    rw [hchannel, hgaveUp, hstate, hupdate, hcount]
    exact hold
  checked := fun type htype ↦ absurd htype (hchecked type)

theorem Aimed.not_following (h : p.Aimed) (hstate : p.registerState ≠ .registered)
    (topicInfo : TopicInfo) : ¬ p.Following topicInfo := fun hfollowing ↦
  hstate (h.registered topicInfo hfollowing)

theorem keepsAim_requestSubscribe (h : p.Aimed) (hpursues : ∀ t, p.Following t → p.Pursues t) :
    KeepsAim p.requestSubscribe := by
  unfold requestSubscribe
  split_ifs with hunregistered
  · exact ⟨h, hpursues, by simp⟩
  · have hnot := h.not_following (by simp [not_not.mp hunregistered])
    exact .of_eq h hpursues (fun _ ↦ id) (fun t ht ↦ absurd ht (hnot t)) rfl rfl rfl rfl rfl rfl
      (by simp)

theorem keepsAim_onSubscribeTopicAsync (h : p.Aimed)
    (hpursues : ∀ t, p.Following t → p.Pursues t) (subscription : Subscription)
    (status : Status) : KeepsAim (p.onSubscribeTopicAsync subscription status) := by
  unfold onSubscribeTopicAsync
  split_ifs with hregistering hstatus
  · exact ⟨h, hpursues, by simp⟩
  · have hnot := h.not_following (by simp [not_not.mp hregistering])
    exact .of_eq h hpursues (fun _ ↦ id) (fun t ht ↦ absurd ht (hnot t)) rfl rfl rfl rfl rfl rfl
      (by simp)
  · exact .of_eq h hpursues (fun _ ↦ id) (fun t ht ↦ rfl) rfl rfl rfl rfl rfl rfl (by simp)

/-- The publisher is no longer followed. -/
theorem keepsAim_requestUnsubscribe (h : p.Aimed) (hpursues : ∀ t, p.Following t → p.Pursues t) :
    KeepsAim p.requestUnsubscribe := by
  unfold requestUnsubscribe
  split_ifs with hregistered
  · exact ⟨h, hpursues, by simp⟩
  · have hnot : ∀ t,
        ¬ Following { p with registerState := .unregistering, unsubscribed := true } t :=
      fun t ht ↦ by cases ht.2.2
    exact .of_eq h hpursues (fun t ht ↦ absurd ht (hnot t)) (fun t ht ↦ absurd ht (hnot t)) rfl
      rfl rfl rfl rfl rfl (by simp)

/-- Assumes: a publisher that is not followed. -/
theorem keepsAim_stopMessageLoop (h : p.Aimed) (hnot : ∀ t, ¬ p.Following t)
    {events : List (SubscriberEvent M)} (hchecked : ∀ type, .checkedUDP type ∉ events) :
    KeepsAim ((p.stopMessageLoop false).1, events) := by
  have hframe := receiveFrame_stopMessageLoop p
  exact .of_not_following (hframe.aimed h) (fun t ht ↦ hnot t (hframe.following.mp ht)) hchecked

theorem keepsAim_onUnubscribeTopicAsync (h : p.Aimed)
    (hpursues : ∀ t, p.Following t → p.Pursues t) (status : Status) (isMainThread : Bool) :
    KeepsAim (p.onUnubscribeTopicAsync status isMainThread) := by
  unfold onUnubscribeTopicAsync
  split_ifs with hunregistering hstatus hmain
  · exact ⟨h, hpursues, by simp⟩
  · exact .of_eq h hpursues (fun _ ↦ id) (fun t ht ↦ rfl) rfl rfl rfl rfl rfl rfl (by simp)
  · have hnot := h.not_following (by simp [not_not.mp hunregistering])
    have haimed : Aimed { p with registerState := .unregistered } :=
      ⟨fun t ht ↦ absurd ht (hnot t), h.topicInfo, h.update, h.channel, h.opened⟩
    exact keepsAim_stopMessageLoop haimed hnot (by simp)
  · have hnot := h.not_following (by simp [not_not.mp hunregistering])
    exact .of_eq h hpursues (fun _ ↦ id) (fun t ht ↦ absurd ht (hnot t)) rfl rfl rfl rfl rfl rfl
      (by simp)

/-- Assumes: a loop that is stopped. -/
theorem Aimed.setPhase (h : p.Aimed) (hstate : p.subscriberState = .stopped)
    (phase : ChannelPhase) : (p.setPhase phase).Aimed := by
  refine ⟨h.registered, h.topicInfo, h.update, fun channel hchannel ↦ ?_, fun hactive ↦ ?_⟩
  · obtain ⟨old, hold, rfl⟩ := Option.map_eq_some_iff.mp hchannel
    exact h.channel old hold
  · exact absurd hstate hactive

theorem keepsAim_step (h : p.Aimed) (hpursues : ∀ t, p.Following t → p.Pursues t)
    (hlooped : p.Looped) {hasRos : Bool} {a : SubscriberAction M} (hguard : p.UpdatesInTime a)
    (hstep : p.step hasRos a = some result) : KeepsAim result := by
  cases step_cases hlooped.startTasks hstep with
  | requestSubscribe => exact keepsAim_requestSubscribe h hpursues
  | onSubscribeTopicAsync subscription status =>
    exact keepsAim_onSubscribeTopicAsync h hpursues subscription status
  | requestUnsubscribe => exact keepsAim_requestUnsubscribe h hpursues
  | onUnubscribeTopicAsync status isMainThread =>
    exact keepsAim_onUnubscribeTopicAsync h hpursues status isMainThread
  | onFindPublisher topicInfo =>
    exact (onFindPublisher_cases p topicInfo).keepsAim h (fun _ ↦ hpursues) hguard
  | handshake hconnecting =>
    refine ⟨h.setPhase (hlooped.connecting hconnecting) .handshaking, fun t ht ↦ .inl ?_, by simp⟩
    obtain ⟨channel, hchannel, -⟩ := (Option.any_eq_true ..).mp hconnecting
    simp [isConnecting, setPhase, hchannel]
  | established _ received hconnecting =>
    obtain ⟨channel, hchannel, -⟩ := (Option.any_eq_true ..).mp hconnecting
    have hstate := hlooped.connecting hconnecting
    exact (startMessageLoop_cases _ received).keepsAim (h.setPhase hstate .established) hstate
      (by simp [setPhase, hchannel])
  | next hconnecting =>
    have hstate := hlooped.connecting hconnecting
    have hnone := h.topicInfoToUpdate_eq_none hstate
    exact (connectToPublisher_cases _).keepsAim (p := p.tryNext) h.registered h.topicInfo hnone
      hstate
  | onReceiveMessage received =>
    have hframe := receiveFrame_onReceiveMessage p received
    have hcase := handleReceived_cases p.received received
    exact ⟨hframe.aimed h, fun t ht ↦ hcase.pursues (pursues_received
      (hpursues t (hframe.following.mp ht))), fun type htype ↦ absurd htype (hcase.checked type)⟩
  | runFindPublisher topicInfo hfind =>
    have haimed : p.takeFindTask.Aimed :=
      ⟨h.registered, h.topicInfo, h.update, h.channel, h.opened⟩
    exact (onFindPublisher_cases _ topicInfo).keepsAim haimed (fun _ ↦ hpursues)
      (hguard topicInfo hfind)
  | runStopMessageLoop =>
    have haimed : p.takeStopMessageLoopTask.Aimed :=
      ⟨h.registered, h.topicInfo, h.update, h.channel, h.opened⟩
    by_cases hstarted : p.subscriberState = .started
    · have hnot := h.not_following (by simp [hguard hstarted])
      have hchecked : ∀ type,
          .checkedUDP type ∉ (p.takeStopMessageLoopTask.stopMessageLoop false).2 := by simp
      exact keepsAim_stopMessageLoop haimed hnot hchecked
    · have hsame : p.takeStopMessageLoopTask.stopMessageLoop false =
          (p.takeStopMessageLoopTask, []) := if_neg hstarted
      rw [hsame]
      exact ⟨haimed, hpursues, by simp⟩
  | runReceiveMessageLoop =>
    have haimed : p.takeReceiveTask.Aimed :=
      ⟨h.registered, h.topicInfo, h.update, h.channel, h.opened⟩
    have hframe := receiveFrame_receiveMessageLoop p.takeReceiveTask
    exact ⟨hframe.aimed haimed, fun t ht ↦ pursues_receiveMessageLoop (p := p.takeReceiveTask)
      (hpursues t (hframe.following.mp ht)), by simp⟩
  | runNotifyMessageLoop htask =>
    have hstate := (ne_stopped_of_task hlooped.tasks (by omega)).1
    have haimed : p.takeNotifyTask.Aimed :=
      ⟨h.registered, h.topicInfo, h.update, h.channel, h.opened⟩
    exact (notifyMessageLoop_cases (p := p.takeNotifyTask) hstate).keepsAim haimed hpursues
  | runStop htask =>
    have hstopping := hlooped.stopping htask
    have haimed : p.takeStopTask.Aimed :=
      ⟨h.registered, h.topicInfo, h.update, h.channel, h.opened⟩
    exact keepsAim_stop haimed hpursues hstopping
      (hlooped.of_ne_stopped (by simp [hstopping])).2 hlooped.onStoppedCallback

/-! ### Runs -/

/-- Assumes: a run in which no other publisher is taken up while the loop is started, and no
`StopMessageLoop` task of an earlier registration finds the loop started. The subscriber follows the
publisher that it was told of last; if its loop is started, then on a channel that was opened for
that publisher; and the `DCHECK` on the kind of channel held. -/
theorem follows_while_updates_in_time (hasRos : Bool) (p : Subscriber M)
    (history : List (SubscriberEvent M)) (run : Run (subscribing hasRos) UpdatesInTime p history) :
    (∀ topicInfo, p.Following topicInfo → p.Follows topicInfo ∧
      (p.subscriberState = .started → ∃ channel ∈ p.channel, channel.topicInfo = topicInfo)) ∧
    ∀ type, .checkedUDP type ∈ history → type = some .udp := by
  have hsafe : (p.Aimed ∧ ∀ t, p.Following t → p.Pursues t) ∧
      ∀ e ∈ history, ∀ type, e = .checkedUDP type → type = some .udp := by
    refine run.safe (I := fun p ↦ p.Aimed ∧ ∀ t, p.Following t → p.Pursues t) ?_ ?_
    · rintro s rfl
      have hnot : ∀ t, ¬ ({} : Subscriber M).Following t := fun t ht ↦ by cases ht.1
      exact ⟨⟨fun t ht ↦ absurd ht (hnot t), fun t ht ↦ absurd ht (hnot t),
        fun _ hmem ↦ absurd hmem (Option.not_mem_none _),
        fun _ hmem ↦ absurd hmem (Option.not_mem_none _), fun hstate ↦ absurd rfl hstate⟩,
        fun t ht ↦ absurd ht (hnot t)⟩
    · rintro s a s' observed ⟨history, run⟩ ⟨haimed, hpursues⟩ hguard hstep
      have hkeeps := keepsAim_step haimed hpursues (looped_of_run run) hguard hstep
      refine ⟨⟨hkeeps.aimed, hkeeps.pursues⟩, fun e hmem type heq ↦ ?_⟩
      exact hkeeps.checked type (heq ▸ hmem)
  obtain ⟨⟨haimed, hpursues⟩, hchecked⟩ := hsafe
  refine ⟨fun t ht ↦ ⟨haimed.follows ht (hpursues t ht), fun hstarted ↦ ?_⟩,
    fun type hmem ↦ hchecked _ hmem type rfl⟩
  obtain ⟨channel, hchannel⟩ := Option.isSome_iff_exists.mp (haimed.opened (by simp [hstarted]))
  exact ⟨channel, hchannel, (haimed.channel channel hchannel).trans (haimed.topicInfo t ht)⟩

end Subscriber

namespace Scenario

/-- A subscriber has failed to receive so often that it connects again. -/
def reconnect : List (SubscriberAction ℕ) :=
  subscribeTo (publisherOver .udp "type") ++
    [.onConnectToPublisher Status.OK (List.replicate 5 (.failure (aborted "") true)),
      .runStop]

/-- A publisher is gone while the subscriber connects to it, and another one comes while it
receives. -/
def republish (type : ChannelType) : List (SubscriberAction ℕ) :=
  subscribeTo (publisherOver type "old") ++
    [.onFindPublisher { publisherOver type "old" with status := .unregistered },
      .onConnectToPublisher Status.OK [], .onFindPublisher (publisherOver type "new")]

end Scenario

namespace Subscriber

/-- After five failures the subscriber is connecting again. -/
theorem follows_after_failures :
    ∃ p : Subscriber ℕ, ∃ history, Run (subscribing false) UpdatesInTime p history ∧
      p.subscriberState = .stopped ∧ p.Follows (Scenario.publisherOver .udp "type") := by
  have hexec : ((subscribing (M := ℕ) false).exec UpdatesInTime {} [] Scenario.reconnect).map
      (fun result ↦ (result.1.subscriberState, result.1.processed, result.1.unsubscribed)) =
      some (.stopped, some (Scenario.publisherOver .udp "type"), false) := by
    decide
  obtain ⟨⟨p, history⟩, hrun, heq⟩ := Option.map_eq_some_iff.mp hexec
  simp only [Prod.mk.injEq] at heq
  have run : Run (subscribing false) UpdatesInTime p history := (Run.start rfl).of_exec hrun
  obtain ⟨hfollows, -⟩ := follows_while_updates_in_time false p history run
  exact ⟨p, history, run, heq.1, (hfollows _ ⟨heq.2.1, rfl, heq.2.2⟩).1⟩

/-- Told of another publisher while it receives over UDP, the subscriber stays with the old one; and
over TCP, the `DCHECK` fails. -/
theorem publisher_not_followed :
    (¬ ∀ (p : Subscriber ℕ) history, Run (subscribing false) unguarded p history →
      ∀ topicInfo, p.Following topicInfo → p.Follows topicInfo) ∧
    ¬ ∀ (p : Subscriber ℕ) history, Run (subscribing false) unguarded p history →
      ∀ type, .checkedUDP type ∈ history → type = some .udp := by
  constructor
  · intro hall
    have hexec : ((subscribing (M := ℕ) false).exec unguarded {} [] (Scenario.republish .udp)).map
        (fun result ↦ ((result.1.processed, result.1.unsubscribed), result.1.subscriberState,
          result.1.gaveUp, result.1.topicInfo)) =
        some ((some (Scenario.publisherOver .udp "new"), false), .started, false,
          Scenario.publisherOver .udp "old") := by
      decide
    obtain ⟨⟨p, history⟩, hrun, heq⟩ := Option.map_eq_some_iff.mp hexec
    simp only [Prod.mk.injEq] at heq
    obtain ⟨⟨hprocessed, hunsubscribed⟩, hstate, hgaveUp, htopic⟩ := heq
    rcases hall p history ((Run.start rfl).of_exec hrun) _ ⟨hprocessed, rfl, hunsubscribed⟩ with
      ⟨hnever, -⟩ | hnever | ⟨hnever, -⟩
    · exact absurd (htopic.symm.trans hnever) (by decide)
    · cases hgaveUp.symm.trans hnever
    · cases hstate.symm.trans hnever
  · intro hall
    have hexec : ((subscribing (M := ℕ) false).exec unguarded {} [] (Scenario.republish .tcp)).map
        (fun result ↦ result.2.contains (.checkedUDP (some .tcp))) = some true := by
      decide
    obtain ⟨⟨p, history⟩, hrun, heq⟩ := Option.map_eq_some_iff.mp hexec
    have hmem : .checkedUDP (some .tcp) ∈ history := List.contains_iff_mem.mp heq
    cases hall p history ((Run.start rfl).of_exec hrun) _ hmem

end Subscriber

end Felicia
