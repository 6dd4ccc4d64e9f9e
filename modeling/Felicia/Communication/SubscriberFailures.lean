import Felicia.Communication.SubscriberLoop

/-!
# When a subscriber gives a publisher up

`OnReceiveMessage` of `felicia/core/communication/subscriber.h` stops the loop when too many
receives in a row failed, and `Stop` reads the same counter to tell whether it has to connect again.
Nothing sets the counter back when a new connection is made. So the first failure on the new
connection stops its loop; and if the publisher is withdrawn, `Stop` takes the old count for a
reason to connect to it again. `Stop` also connects after a withdrawal if an update was put off
before, or if the withdrawal was taken up while the connect was under way, which cancels nothing.

`CountsAnew` excludes these, and then the loop is stopped on a connected channel only after five
failures in a row on this channel, and a publisher that is withdrawn is not connected to again:
`patient_while_counts_anew`. `Counted` is the invariant.
-/

set_option autoImplicit false
set_option relaxedAutoImplicit false

namespace Felicia

open Support TransitionSystem

namespace Subscriber

variable {M : Type} {p p' : Subscriber M} {result : Subscriber M × List (SubscriberEvent M)}
  {topicInfo : TopicInfo}

/-- The last notification was that the publisher is gone. -/
def Withdrawn (p : Subscriber M) : Prop :=
  ∃ topicInfo ∈ p.processed, topicInfo.status = .unregistered

/-- A withdrawal is not taken up while a connect is under way or an update is due. -/
def MayWithdraw (p : Subscriber M) (topicInfo : TopicInfo) : Prop :=
  p.registerState = .registered → p.subscriberState ≠ .stopping →
    topicInfo.status = .unregistered → p.isConnecting = false ∧ p.topicInfoToUpdate = none

instance (p : Subscriber M) (topicInfo : TopicInfo) : Decidable (p.MayWithdraw topicInfo) :=
  inferInstanceAs (Decidable (_ → _ → _ → _ ∧ _))

/-- A connection that succeeds finds no failures counted, unless the subscriber is being
unsubscribed. -/
def MayStart (p : Subscriber M) (status : Status) : Prop :=
  status.isOk = true → p.registerState = .registering ∨ p.registerState = .registered →
    p.receiveMessageFailedCnt = 0

instance (p : Subscriber M) (status : Status) : Decidable (p.MayStart status) :=
  inferInstanceAs (Decidable (_ → _ ∨ _ → _))

/-- The loop starts when no failures are counted, and a withdrawal comes when neither a connect is
under way nor an update is due. -/
def CountsAnew (p : Subscriber M) : SubscriberAction M → Prop
  | .onConnectToPublisher status _ | .onRosTopicHandshake status _ => p.MayStart status
  | .onFindPublisher topicInfo => p.MayWithdraw topicInfo
  | .runFindPublisher => ∀ topicInfo ∈ p.findTasks.head?, p.MayWithdraw topicInfo
  | _ => True

instance (p : Subscriber M) : DecidablePred p.CountsAnew
  | .onConnectToPublisher status _ | .onRosTopicHandshake status _ =>
    inferInstanceAs (Decidable (p.MayStart status))
  | .onFindPublisher topicInfo => inferInstanceAs (Decidable (p.MayWithdraw topicInfo))
  | .runFindPublisher =>
    inferInstanceAs (Decidable (∀ topicInfo ∈ p.findTasks.head?, p.MayWithdraw topicInfo))
  | .requestSubscribe | .onSubscribeTopicAsync _ _ | .requestUnsubscribe
  | .onUnubscribeTopicAsync _ _ | .onReceiveMessage _ | .runStartMessageLoop _
  | .runStopMessageLoop | .runReceiveMessageLoop | .runNotifyMessageLoop | .runStop =>
    isTrue trivial

/-! ### The invariant -/

/-- What the counter says while it is set back in time. -/
structure Counted (p : Subscriber M) : Prop where
  counts : p.subscriberState ≠ .stopped →
    p.channel.map (·.failures) = some p.receiveMessageFailedCnt
  below : p.subscriberState = .started →
    p.receiveMessageFailedCnt < maximumReceiveMessageFailedAllowed
  unused : p.isConnecting = true → p.channel.map (·.failures) = some 0
  withdrawn : p.Withdrawn →
    (p.subscriberState = .stopping ∧ p.topicInfoToUpdate = none ∧
      p.receiveMessageFailedCnt < maximumReceiveMessageFailedAllowed) ∨
    p.subscriberState = .stopped ∧ p.isConnecting = false

/-- What a handler keeps: the counter is right, and the loop is stopped on a connected channel only
after enough failures on it. -/
structure KeepsCount (result : Subscriber M × List (SubscriberEvent M)) : Prop where
  counted : result.1.Counted
  failed : ∀ failures, .failed failures ∈ result.2 →
    maximumReceiveMessageFailedAllowed ≤ failures

/-- Assumes: a step that leaves the loop, the channel and the counter as they are. -/
theorem Counted.of_eq (h : p.Counted) (hprocessed : p'.processed = p.processed)
    (hupdate : p'.topicInfoToUpdate = p.topicInfoToUpdate) (hchannel : p'.channel = p.channel)
    (hstate : p'.subscriberState = p.subscriberState)
    (hcount : p'.receiveMessageFailedCnt = p.receiveMessageFailedCnt) : p'.Counted := by
  refine ⟨?_, ?_, ?_, ?_⟩
  · rw [hstate, hchannel, hcount]
    exact h.counts
  · rw [hstate, hcount]
    exact h.below
  · rw [isConnecting, hchannel]
    exact h.unused
  · rw [Withdrawn, hprocessed, hstate, hupdate, hcount, isConnecting, hchannel]
    exact h.withdrawn

/-- Assumes: a stopped loop whose publisher is not withdrawn. -/
theorem Counted.of_stopped (hstate : p.subscriberState = .stopped) (hnot : ¬ p.Withdrawn)
    (hunused : p.isConnecting = true → p.channel.map (·.failures) = some 0) : p.Counted where
  counts := fun hne ↦ absurd hstate hne
  below := fun hstarted ↦ by cases hstate.symm.trans hstarted
  unused := hunused
  withdrawn := fun hwithdrawn ↦ absurd hwithdrawn hnot

theorem Counted.not_withdrawn_of_started (h : p.Counted) (hstate : p.subscriberState = .started) :
    ¬ p.Withdrawn := by
  intro hwithdrawn
  rcases h.withdrawn hwithdrawn with ⟨hstopping, -⟩ | ⟨hstopped, -⟩
  · cases hstate.symm.trans hstopping
  · cases hstate.symm.trans hstopped

theorem Counted.not_withdrawn_of_isConnecting (h : p.Counted) (hlooped : p.Looped)
    (hconnecting : p.isConnecting = true) : ¬ p.Withdrawn := by
  intro hwithdrawn
  rcases h.withdrawn hwithdrawn with ⟨hstopping, -⟩ | ⟨-, hnot⟩
  · cases (hlooped.connecting hconnecting).symm.trans hstopping
  · cases hconnecting.symm.trans hnot

/-! ### Receives -/

theorem ReceiveFrame.withdrawn (h : ReceiveFrame p p') : p'.Withdrawn ↔ p.Withdrawn := by
  rw [Withdrawn, Withdrawn, h.notifications.1]

theorem failures_receiveMessageLoop (p : Subscriber M) :
    p.receiveMessageLoop.channel.map (·.failures) = p.channel.map (·.failures) ∧
      p.receiveMessageLoop.receiveMessageFailedCnt = p.receiveMessageFailedCnt := by
  unfold receiveMessageLoop
  split
  · exact ⟨by cases p.channel <;> rfl, rfl⟩
  · exact ⟨rfl, rfl⟩

theorem failures_receiveNext (p : Subscriber M) :
    p.receiveNext.channel.map (·.failures) = p.channel.map (·.failures) ∧
      p.receiveNext.receiveMessageFailedCnt = p.receiveMessageFailedCnt := by
  unfold receiveNext
  split
  · exact ⟨rfl, rfl⟩
  · exact failures_receiveMessageLoop p

/-- Assumes: a loop that was started and a channel that is established. -/
theorem ReceiveFrame.counted (h : ReceiveFrame p p') (hp : p.Counted)
    (hstate : p.subscriberState = .started) (hconnecting : p.isConnecting = false)
    (hcounts : p'.channel.map (·.failures) = some p'.receiveMessageFailedCnt)
    (hbelow : p'.subscriberState = .started →
      p'.receiveMessageFailedCnt < maximumReceiveMessageFailedAllowed) : p'.Counted where
  counts := fun _ ↦ hcounts
  below := hbelow
  unused := fun hnever ↦ by cases hconnecting.symm.trans (h.isConnecting.symm.trans hnever)
  withdrawn := fun hwithdrawn ↦
    absurd (h.withdrawn.mp hwithdrawn) (hp.not_withdrawn_of_started hstate)

/-- Assumes: a started loop. A failure more is counted on both sides, without overflow. -/
theorem Counted.onFailure (h : p.Counted) (hstate : p.subscriberState = .started) :
    p.onFailure.receiveMessageFailedCnt = p.receiveMessageFailedCnt + 1 ∧
      p.onFailure.channel.map (·.failures) = some (p.receiveMessageFailedCnt + 1) := by
  have hbelow := h.below hstate
  have hcounts := h.counts (by simp [hstate])
  unfold maximumReceiveMessageFailedAllowed at hbelow
  constructor
  · show (p.receiveMessageFailedCnt + 1) % 2 ^ 8 = _
    omega
  · show (p.channel.map _).map _ = _
    cases hchannel : p.channel with
    | none => simp [hchannel] at hcounts
    | some channel =>
      rw [hchannel] at hcounts
      have heq : channel.failures = p.receiveMessageFailedCnt := Option.some.inj hcounts
      simp [heq]

theorem ReceiveCase.keepsCount (hcase : ReceiveCase p result) (h : p.Counted)
    (hconnecting : p.subscriberState = .started → p.isConnecting = false) : KeepsCount result := by
  have hframe := hcase.frame
  cases hcase with
  | late => exact ⟨h, by simp⟩
  | message hstate message =>
    obtain ⟨hfailures, hcount⟩ := failures_receiveNext (p.onMessage message)
    have hzero : (p.onMessage message).channel.map (·.failures) = some 0 := by
      have hcounts := h.counts (by simp [hstate])
      cases hchannel : p.channel with
      | none => simp [hchannel] at hcounts
      | some channel => simp [onMessage, hchannel]
    refine ⟨hframe.counted h hstate (hconnecting hstate) ?_ fun _ ↦ ?_, by simp⟩
    · rw [hfailures, hcount, hzero]
      rfl
    · show (p.onMessage message).receiveNext.receiveMessageFailedCnt < _
      rw [hcount]
      exact Nat.zero_lt_succ 4
  | lost hstate =>
    have hstarted : ({ p with gaveUp := true } : Subscriber M).subscriberState = .started := hstate
    rw [stopMessageLoop_of_started hstarted] at hframe ⊢
    exact ⟨hframe.counted h hstate (hconnecting hstate) (h.counts (by simp [hstate])) nofun,
      by simp⟩
  | failed hstate status isSet hfailed =>
    obtain ⟨hcount, hfailures⟩ := h.onFailure hstate
    have hstarted : p.onFailure.subscriberState = .started := hstate
    rw [stopMessageLoop_of_started hstarted] at hframe ⊢
    refine ⟨hframe.counted h hstate (hconnecting hstate) (hfailures.trans (by rw [← hcount])) nofun,
      fun failures hmem ↦ ?_⟩
    have heq : failures = p.receiveMessageFailedCnt + 1 := by simpa [hfailures] using hmem
    rw [heq, ← hcount]
    exact hfailed
  | failure hstate status isSet hfailed =>
    obtain ⟨hcount, hfailures⟩ := h.onFailure hstate
    obtain ⟨hnext, hcount'⟩ := failures_receiveNext p.onFailure
    refine ⟨hframe.counted h hstate (hconnecting hstate) ?_ fun _ ↦ ?_, by simp⟩
    · rw [hnext, hcount', hfailures, hcount]
    · show p.onFailure.receiveNext.receiveMessageFailedCnt < _
      rw [hcount']
      exact hfailed

theorem isConnecting_received (p : Subscriber M) : p.received.isConnecting = p.isConnecting := by
  unfold received isConnecting
  cases p.channel <;> rfl

theorem counted_received (h : p.Counted) : p.received.Counted := by
  have hfailures : p.received.channel.map (·.failures) = p.channel.map (·.failures) := by
    unfold received
    cases p.channel <;> rfl
  refine ⟨?_, h.below, ?_, ?_⟩
  · rw [hfailures]
    exact h.counts
  · rw [isConnecting_received, hfailures]
    exact h.unused
  · rw [isConnecting_received]
    exact h.withdrawn

theorem keepsCount_onReceiveMessage (h : p.Counted)
    (hconnecting : p.subscriberState = .started → p.isConnecting = false)
    (received : ReceiveResult M) : KeepsCount (p.onReceiveMessage received) := by
  refine (handleReceived_cases p.received received).keepsCount (counted_received h) fun hstate ↦ ?_
  rw [isConnecting_received]
  exact hconnecting hstate

theorem keepsCount_receiveAll (h : p.Counted) (hconnecting : p.isConnecting = false)
    (received : List (ReceiveResult M)) : KeepsCount (p.receiveAll received) := by
  have hkept := receiveAll_rule (K := fun q ↦ q.Counted ∧ q.isConnecting = false)
    (S := fun e ↦ ∀ failures, e = .failed failures → maximumReceiveMessageFailedAllowed ≤ failures)
    (fun q first hq ↦ ?_) ⟨h, hconnecting⟩ received
  · exact ⟨hkept.1.1, fun failures hmem ↦ hkept.2 _ hmem failures rfl⟩
  · have hfirst := keepsCount_onReceiveMessage hq.1 (fun _ ↦ hq.2) first
    have hstill := (receiveFrame_onReceiveMessage q first).isConnecting.trans hq.2
    exact ⟨⟨hfirst.counted, hstill⟩, fun e he failures heq ↦ hfirst.failed failures (heq ▸ he)⟩

/-! ### Connects and notifications -/

/-- Assumes: a stopped loop whose publisher is not withdrawn. -/
theorem ConnectCase.keepsCount (hcase : ConnectCase p result)
    (hstate : p.subscriberState = .stopped)
    (hnot : ¬ p.Withdrawn) : KeepsCount result := by
  cases hcase with
  | failed => exact ⟨.of_stopped hstate hnot nofun, by simp⟩
  | opened => exact ⟨.of_stopped hstate hnot fun _ ↦ rfl, by simp⟩

/-- Assumes: the notification may come. -/
theorem FindCase.keepsCount (hcase : FindCase p topicInfo result) (h : p.Counted)
    (hmay : p.MayWithdraw topicInfo) : KeepsCount result := by
  have hregistered : topicInfo.status = .registered → ¬ (p.process topicInfo).Withdrawn := by
    rintro hstatus ⟨t, ht, hwithdrawn⟩
    cases ht
    cases hstatus.symm.trans hwithdrawn
  cases hcase with
  | putOff => exact ⟨h.of_eq rfl rfl rfl rfl rfl, by simp⟩
  | dropped => exact ⟨h, by simp⟩
  | stop hregister hstate hstatus =>
    obtain ⟨-, hupdate⟩ := hmay hregister (by simp [hstate]) hstatus
    have hstarted : (p.process topicInfo).subscriberState = .started := hstate
    refine ⟨?_, by simp⟩
    rw [stopMessageLoop_of_started hstarted]
    exact ⟨fun _ ↦ h.counts (by simp [hstate]), nofun, h.unused,
      fun _ ↦ .inl ⟨rfl, hupdate, h.below hstate⟩⟩
  | ignored hregister hstate hstatus =>
    obtain ⟨hconnecting, -⟩ := hmay hregister (by simp [hstate]) hstatus
    exact ⟨⟨h.counts, h.below, h.unused, fun _ ↦ .inr ⟨hstate, hconnecting⟩⟩, by simp⟩
  | update hregister hstate hstatus =>
    exact ⟨⟨h.counts, h.below, h.unused, fun hnever ↦ absurd hnever (hregistered hstatus)⟩,
      by simp⟩
  | connect hregister hstate hstatus =>
    exact (connectToPublisher_cases _).keepsCount
      (p := ((p.process topicInfo).setTopicInfo topicInfo).fromFirst) hstate (hregistered hstatus)

/-! ### The loop -/

theorem NotifyCase.keepsCount (hcase : NotifyCase p result) (h : p.Counted) :
    KeepsCount result := by
  obtain ⟨⟨_, _, _, heq⟩, htold⟩ := hcase.frame
  refine ⟨?_, fun failures hmem ↦ ?_⟩
  · rw [heq]
    exact h.of_eq rfl rfl rfl rfl rfl
  · obtain ⟨_, hnever⟩ := htold _ hmem
    cases hnever

/-- Assumes: a channel that has just been established and on which nothing failed, and no failures
counted if the loop starts. -/
theorem StartCase.keepsCount {received : List (ReceiveResult M)}
    (hcase : StartCase p received result) (hstate : p.subscriberState = .stopped)
    (hconnecting : p.isConnecting = false) (hnot : ¬ p.Withdrawn)
    (hunused : p.channel.map (·.failures) = some 0)
    (hcount : p.registerState = .registering ∨ p.registerState = .registered →
      p.receiveMessageFailedCnt = 0) : KeepsCount result := by
  cases hcase with
  | refused => exact ⟨.of_stopped hstate hnot fun _ ↦ hunused, by simp⟩
  | putOff hstopping => cases hstate.symm.trans hstopping
  | started hregister =>
    have hzero := hcount hregister
    obtain ⟨hfailures, hcount'⟩ := failures_receiveMessageLoop p.justStarted
    have hframe := receiveFrame_receiveMessageLoop p.justStarted
    have hjust : p.justStarted.receiveMessageLoop.Counted := by
      refine ⟨fun _ ↦ ?_, fun _ ↦ ?_, fun hnever ↦ ?_, fun hwithdrawn ↦ ?_⟩
      · rw [hfailures, hcount']
        exact hunused.trans (congrArg some hzero.symm)
      · rw [hcount']
        show p.receiveMessageFailedCnt < _
        rw [hzero]
        exact Nat.zero_lt_succ 4
      · cases hconnecting.symm.trans (hframe.isConnecting.symm.trans hnever)
      · exact absurd (hframe.withdrawn.mp hwithdrawn) hnot
    have hall := keepsCount_receiveAll hjust (hframe.isConnecting.trans hconnecting) received
    have hrunning := (receiveFrame_firstReceives p received).ne_stopped nofun
    have hkeeps := (notifyMessageLoop_cases hrunning).keepsCount hall.counted
    refine ⟨hkeeps.counted, fun failures hmem ↦ ?_⟩
    rcases List.mem_cons.mp hmem with heq | hmem
    · cases heq
    · rcases List.mem_append.mp hmem with hfirst | hlast
      · exact hall.failed failures hfirst
      · exact hkeeps.failed failures hlast

/-- Assumes: a stopped loop and no connect under way. -/
theorem Counted.of_idle (hstate : p.subscriberState = .stopped)
    (hconnecting : p.isConnecting = false) : p.Counted where
  counts := fun hne ↦ absurd hstate hne
  below := fun hstarted ↦ by cases hstate.symm.trans hstarted
  unused := fun hnever ↦ by cases hconnecting.symm.trans hnever
  withdrawn := fun _ ↦ .inr ⟨hstate, hconnecting⟩

/-- Assumes: the loop is stopped; if the publisher is withdrawn, there is nothing to update and not
enough receives failed. -/
theorem AfterStopCase.keepsCount (hcase : AfterStopCase p result)
    (hstate : p.subscriberState = .stopped) (hconnecting : p.isConnecting = false)
    (hwithdrawn : p.Withdrawn → p.topicInfoToUpdate = none ∧
      p.receiveMessageFailedCnt < maximumReceiveMessageFailedAllowed) :
    KeepsCount result ∧ (p.Withdrawn → ∀ channelDef, .opened channelDef ∉ result.2) := by
  cases hcase with
  | answered => exact ⟨⟨.of_idle hstate hconnecting, by simp⟩, by simp⟩
  | update topicInfo hupdate =>
    have hnot : ¬ p.Withdrawn := fun h ↦ by cases hupdate.symm.trans (hwithdrawn h).1
    have hidle : p.takeUpdate.Counted := .of_idle hstate hconnecting
    exact ⟨(onFindPublisher_cases _ topicInfo).keepsCount hidle fun _ _ _ ↦ ⟨hconnecting, rfl⟩,
      fun h ↦ absurd h hnot⟩
  | reconnect hupdate hfailed =>
    have hnot : ¬ p.Withdrawn := fun h ↦ absurd hfailed (Nat.not_le_of_lt (hwithdrawn h).2)
    exact ⟨(connectToPublisher_cases _).keepsCount (p := p.fromFirst) hstate hnot,
      fun h ↦ absurd h hnot⟩
  | rest => exact ⟨⟨.of_idle hstate hconnecting, by simp⟩, by simp⟩

/-- Assumes: a loop that is not stopped. -/
theorem keepsCount_stop (h : p.Counted) (hstate : p.subscriberState ≠ .stopped)
    (hconnecting : p.isConnecting = false) :
    KeepsCount p.stop ∧ (p.Withdrawn → ∀ channelDef, .opened channelDef ∉ p.stop.2) := by
  have hwithdrawn : p.Withdrawn → p.topicInfoToUpdate = none ∧
      p.receiveMessageFailedCnt < maximumReceiveMessageFailedAllowed := by
    intro hp
    rcases h.withdrawn hp with ⟨-, hrest⟩ | ⟨hstopped, -⟩
    · exact hrest
    · exact absurd hstopped hstate
  have hkeeps : KeepsCount p.justStopped.afterStop ∧
      (p.Withdrawn → ∀ channelDef, .opened channelDef ∉ p.justStopped.afterStop.2) := by
    by_cases hregister : p.registerState = .unregistered
    · have hreleased : p.justStopped = { p.released with subscriberState := .stopped } := by
        rw [justStopped, if_pos hregister]
      rw [hreleased]
      refine (afterStop_cases _).keepsCount rfl rfl fun hp ↦ ⟨?_, (hwithdrawn hp).2⟩
      show p.topicInfoToUpdate.map _ = none
      rw [(hwithdrawn hp).1]
      rfl
    · have hkept : p.justStopped = { p with subscriberState := .stopped } := by
        rw [justStopped, if_neg hregister]
      rw [hkept]
      exact (afterStop_cases _).keepsCount rfl hconnecting hwithdrawn
  obtain ⟨hcount, hopened⟩ := hkeeps
  refine ⟨⟨hcount.counted, fun failures hmem ↦ ?_⟩, fun hp channelDef hmem ↦ ?_⟩
  · rcases List.mem_cons.mp hmem with heq | hmem
    · cases heq
    · exact hcount.failed failures hmem
  · rcases List.mem_cons.mp hmem with heq | hmem
    · cases heq
    · exact hopened hp channelDef hmem

/-! ### Steps -/

theorem counted_stopMessageLoop (h : p.Counted)
    (hnot : p.subscriberState = .started → ¬ p.Withdrawn) :
    (p.stopMessageLoop false).1.Counted := by
  by_cases hstate : p.subscriberState = .started
  · rw [stopMessageLoop_of_started hstate]
    exact ⟨fun _ ↦ h.counts (by simp [hstate]), nofun, h.unused,
      fun hwithdrawn ↦ absurd hwithdrawn (hnot hstate)⟩
  · rw [stopMessageLoop, if_neg hstate]
    exact h

theorem failures_setPhase (p : Subscriber M) (phase : ChannelPhase) :
    (p.setPhase phase).channel.map (·.failures) = p.channel.map (·.failures) := by
  unfold setPhase
  cases p.channel <;> rfl

theorem mayStart_of_succeeds {a : SubscriberAction M} (hguard : p.CountsAnew a)
    (hsucceeds : a.Succeeds) :
    p.registerState = .registering ∨ p.registerState = .registered →
      p.receiveMessageFailedCnt = 0 := by
  obtain ⟨status, received, hstatus, rfl | rfl⟩ := hsucceeds
  · exact hguard hstatus
  · exact hguard hstatus

theorem keepsCount_requestSubscribe (h : p.Counted) : KeepsCount p.requestSubscribe := by
  unfold requestSubscribe
  split_ifs
  · exact ⟨h, by simp⟩
  · exact ⟨h.of_eq rfl rfl rfl rfl rfl, by simp⟩

theorem keepsCount_onSubscribeTopicAsync (h : p.Counted) (subscription : Subscription)
    (status : Status) : KeepsCount (p.onSubscribeTopicAsync subscription status) := by
  unfold onSubscribeTopicAsync
  split_ifs
  · exact ⟨h, by simp⟩
  · exact ⟨h.of_eq rfl rfl rfl rfl rfl, by simp⟩
  · exact ⟨h.of_eq rfl rfl rfl rfl rfl, by simp⟩

theorem keepsCount_requestUnsubscribe (h : p.Counted) : KeepsCount p.requestUnsubscribe := by
  unfold requestUnsubscribe
  split_ifs
  · exact ⟨h, by simp⟩
  · exact ⟨h.of_eq rfl rfl rfl rfl rfl, by simp⟩

theorem keepsCount_onUnubscribeTopicAsync (h : p.Counted) (status : Status)
    (isMainThread : Bool) : KeepsCount (p.onUnubscribeTopicAsync status isMainThread) := by
  unfold onUnubscribeTopicAsync
  split_ifs
  · exact ⟨h, by simp⟩
  · exact ⟨h.of_eq rfl rfl rfl rfl rfl, by simp⟩
  · have hcounted : Counted { p with registerState := .unregistered } :=
      h.of_eq rfl rfl rfl rfl rfl
    exact ⟨counted_stopMessageLoop hcounted hcounted.not_withdrawn_of_started, by simp⟩
  · exact ⟨h.of_eq rfl rfl rfl rfl rfl, by simp⟩

/-- Assumes: a channel that is established if the loop is started. -/
theorem counted_receiveMessageLoop (h : p.Counted)
    (hrunning : p.subscriberState = .started → p.isConnecting = false) :
    p.receiveMessageLoop.Counted := by
  by_cases hstate : p.subscriberState = .started
  · obtain ⟨hfailures, hcount⟩ := failures_receiveMessageLoop p
    refine (receiveFrame_receiveMessageLoop _).counted h hstate (hrunning hstate) ?_ fun _ ↦ ?_
    · rw [hfailures, hcount]
      exact h.counts (by simp [hstate])
    · rw [hcount]
      exact h.below hstate
  · rw [receiveMessageLoop, if_neg hstate]
    exact h

theorem keepsCount_step (h : p.Counted) (hlooped : p.Looped) {hasRos : Bool}
    {a : SubscriberAction M} (hguard : p.CountsAnew a) (hstep : p.step hasRos a = some result) :
    KeepsCount result := by
  have hrunning : p.subscriberState = .started → p.isConnecting = false := fun hstate ↦
    (hlooped.of_ne_stopped (by simp [hstate])).2
  cases step_cases hlooped.startTasks hstep with
  | requestSubscribe => exact keepsCount_requestSubscribe h
  | onSubscribeTopicAsync subscription status =>
    exact keepsCount_onSubscribeTopicAsync h subscription status
  | requestUnsubscribe => exact keepsCount_requestUnsubscribe h
  | onUnubscribeTopicAsync status isMainThread =>
    exact keepsCount_onUnubscribeTopicAsync h status isMainThread
  | onFindPublisher topicInfo => exact (onFindPublisher_cases p topicInfo).keepsCount h hguard
  | handshake hconnecting =>
    refine ⟨.of_stopped (hlooped.connecting hconnecting)
      (h.not_withdrawn_of_isConnecting hlooped hconnecting) fun _ ↦ ?_, by simp⟩
    rw [failures_setPhase]
    exact h.unused hconnecting
  | established hsucceeds received hconnecting =>
    exact (startMessageLoop_cases _ received).keepsCount (p := p.setPhase .established)
      (hlooped.connecting hconnecting) (isConnecting_setPhase_established p)
      (h.not_withdrawn_of_isConnecting hlooped hconnecting)
      ((failures_setPhase p .established).trans (h.unused hconnecting))
      (mayStart_of_succeeds (p := p) hguard hsucceeds)
  | next hconnecting =>
    exact (connectToPublisher_cases _).keepsCount (p := p.tryNext)
      (hlooped.connecting hconnecting) (h.not_withdrawn_of_isConnecting hlooped hconnecting)
  | onReceiveMessage received => exact keepsCount_onReceiveMessage h hrunning received
  | runFindPublisher topicInfo hfind =>
    have hcounted : p.takeFindTask.Counted := h.of_eq rfl rfl rfl rfl rfl
    exact (onFindPublisher_cases _ topicInfo).keepsCount hcounted (hguard topicInfo hfind)
  | runStopMessageLoop =>
    have hcounted : p.takeStopMessageLoopTask.Counted := h.of_eq rfl rfl rfl rfl rfl
    exact ⟨counted_stopMessageLoop hcounted hcounted.not_withdrawn_of_started, by simp⟩
  | runReceiveMessageLoop =>
    have hcounted : p.takeReceiveTask.Counted := h.of_eq rfl rfl rfl rfl rfl
    exact ⟨counted_receiveMessageLoop hcounted hrunning, by simp⟩
  | runNotifyMessageLoop htask =>
    have hstate := (ne_stopped_of_task hlooped.tasks (by omega)).1
    have hcounted : p.takeNotifyTask.Counted := h.of_eq rfl rfl rfl rfl rfl
    exact (notifyMessageLoop_cases (p := p.takeNotifyTask) hstate).keepsCount hcounted
  | runStop htask =>
    have hstate := (ne_stopped_of_task hlooped.tasks (by omega)).1
    have hcounted : p.takeStopTask.Counted := h.of_eq rfl rfl rfl rfl rfl
    exact (keepsCount_stop hcounted hstate (hlooped.of_ne_stopped hstate).2).1

/-! ### Runs -/

/-- Assumes: a run in which the loop starts when no failures are counted, and withdrawals are taken
up when neither a connect is under way nor an update is due. The loop was stopped on a connected
channel only after five failures in a row on it; and when the publisher is withdrawn, `Stop` does
not connect. -/
theorem patient_while_counts_anew (hasRos : Bool) (p : Subscriber M)
    (history : List (SubscriberEvent M)) (run : Run (subscribing hasRos) CountsAnew p history) :
    (∀ failures, .failed failures ∈ history → maximumReceiveMessageFailedAllowed ≤ failures) ∧
    (p.Withdrawn → ∀ p' events, p.step hasRos .runStop = some (p', events) →
      ∀ channelDef, .opened channelDef ∉ events) := by
  have hsafe : p.Counted ∧ ∀ e ∈ history, ∀ failures, e = .failed failures →
      maximumReceiveMessageFailedAllowed ≤ failures := by
    refine run.safe ?_ ?_
    · rintro s rfl
      exact .of_idle rfl rfl
    · rintro s a s' observed ⟨history, run⟩ hcounted hguard hstep
      have hkeeps := keepsCount_step hcounted (looped_of_run run) hguard hstep
      refine ⟨hkeeps.counted, fun e hmem failures heq ↦ ?_⟩
      exact hkeeps.failed failures (heq ▸ hmem)
  have hlooped := looped_of_run run
  refine ⟨fun failures hmem ↦ hsafe.2 _ hmem failures rfl, fun hwithdrawn p' events hstep ↦ ?_⟩
  simp only [step] at hstep
  split_ifs at hstep with htask
  have hstate := (ne_stopped_of_task hlooped.tasks (by omega)).1
  have hcounted : p.takeStopTask.Counted := hsafe.1.of_eq rfl rfl rfl rfl rfl
  have hopened := (keepsCount_stop hcounted hstate (hlooped.of_ne_stopped hstate).2).2 hwithdrawn
  rw [Option.some.inj hstep] at hopened
  exact hopened

end Subscriber

namespace Scenario

/-- A publisher is withdrawn while the subscriber receives from it and two receives failed. -/
def withdraw : List (SubscriberAction ℕ) :=
  subscribeTo (publisherOver .udp "type") ++
    [.onConnectToPublisher Status.OK (List.replicate 2 (.failure (aborted "") true)),
      .onFindPublisher { publisherOver .udp "type" with status := .unregistered },
      .runNotifyMessageLoop]

/-- A receive fails on the connection that was made after five failures. -/
def failAgain : List (SubscriberAction ℕ) :=
  subscribeTo (publisherOver .udp "type") ++
    [.onConnectToPublisher Status.OK (List.replicate 5 (.failure (aborted "") true)), .runStop,
      .onConnectToPublisher Status.OK []]

end Scenario

namespace Subscriber

/-- `Stop` does not connect to the withdrawn publisher. -/
theorem patient_of_withdrawal :
    ∃ p : Subscriber ℕ, ∃ history, Run (subscribing false) CountsAnew p history ∧
      p.Withdrawn ∧ 0 < p.stopTasks ∧ ∀ p' events, p.step false .runStop = some (p', events) →
        ∀ channelDef, .opened channelDef ∉ events := by
  have hexec : ((subscribing (M := ℕ) false).exec CountsAnew {} [] Scenario.withdraw).map
      (fun result ↦ (result.1.processed, result.1.stopTasks)) =
      some (some { Scenario.publisherOver .udp "type" with status := .unregistered }, 1) := by
    decide
  obtain ⟨⟨p, history⟩, hrun, heq⟩ := Option.map_eq_some_iff.mp hexec
  simp only [Prod.mk.injEq] at heq
  have run : Run (subscribing false) CountsAnew p history := (Run.start rfl).of_exec hrun
  have hwithdrawn : p.Withdrawn := ⟨_, heq.1, rfl⟩
  obtain ⟨-, hpatient⟩ := patient_while_counts_anew false p history run
  exact ⟨p, history, run, hwithdrawn, by rw [heq.2]; exact Nat.one_pos, hpatient hwithdrawn⟩

/-- On the connection that was made after five failures, the first failure stops the loop; and if
the publisher is withdrawn instead, `Stop` connects to it again. -/
theorem impatient_after_failures :
    (¬ ∀ (p : Subscriber ℕ) history, Run (subscribing false) unguarded p history →
      ∀ failures, .failed failures ∈ history → maximumReceiveMessageFailedAllowed ≤ failures) ∧
    ¬ ∀ (p : Subscriber ℕ) history, Run (subscribing false) unguarded p history →
      p.Withdrawn → ∀ p' events, p.step false .runStop = some (p', events) →
        ∀ channelDef, .opened channelDef ∉ events := by
  constructor
  · intro hall
    have hexec : ((subscribing (M := ℕ) false).exec unguarded {} []
        (Scenario.failAgain ++ [.onReceiveMessage (.failure (aborted "") true)])).map
        (fun result ↦ result.2.contains (.failed 1)) = some true := by
      decide
    obtain ⟨⟨p, history⟩, hrun, heq⟩ := Option.map_eq_some_iff.mp hexec
    have hmem : .failed 1 ∈ history := List.contains_iff_mem.mp heq
    have hle := hall p history ((Run.start rfl).of_exec hrun) 1 hmem
    exact absurd hle (by decide)
  · intro hall
    have hexec : ((subscribing (M := ℕ) false).exec unguarded {} []
        (Scenario.failAgain ++
          [.onFindPublisher { Scenario.publisherOver .udp "type" with status := .unregistered },
            .runNotifyMessageLoop])).map
        (fun result ↦ (result.1.processed,
          (result.1.step false .runStop).map fun stopped ↦
            stopped.2.contains (.opened { type := .udp }))) =
        some (some { Scenario.publisherOver .udp "type" with status := .unregistered },
          some true) := by
      decide
    obtain ⟨⟨p, history⟩, hrun, heq⟩ := Option.map_eq_some_iff.mp hexec
    simp only [Prod.mk.injEq] at heq
    obtain ⟨⟨p', events⟩, hstep, hopened⟩ := Option.map_eq_some_iff.mp heq.2
    exact hall p history ((Run.start rfl).of_exec hrun) ⟨_, heq.1, rfl⟩ p' events hstep _
      (List.contains_iff_mem.mp hopened)

end Subscriber

end Felicia
