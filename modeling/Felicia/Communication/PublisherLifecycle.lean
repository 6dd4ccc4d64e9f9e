import Felicia.Channel.ChannelBuffer
import Felicia.Communication.RegisterState
import Felicia.Support.Transition
import Felicia.Util.Pool

/-!
# Publishing and unpublishing

`RequestPublish`, `SetupAllChannels`, `RequestUnpublish`, the replies of the master and `Release` of
`felicia/core/communication/publisher.h`. A publisher opens its channels before it asks the master,
and lists their definitions in `topic_info_`. `Release` closes them; on a thread other than the main
one it posts itself to the main thread.

A reply of the master with an error goes back to the state `Unregistered` without `Release`: the
channels stay, and the next `RequestPublish` opens others beside them but lists only those. A reply
with success to an unpublication that does not come on the main thread leaves `Release` to be run:
until then the publisher is unregistered but not released, and a `RequestPublish` in between is
released with it.

`Tidy` is the invariant of the runs without either, and `Tidy.step` is its step lemma.
-/

set_option autoImplicit false
set_option relaxedAutoImplicit false

namespace Felicia

open Support TransitionSystem

/-! ### State -/

/-- The fields of `communication::Settings` that a publisher reads. -/
structure PublisherSettings where
  period : ℤ
  bufferSize : ℕ
  isDynamicBuffer : Bool
  queueSize : ℕ

/-- A channel that was set up, with the definition that its set-up returned. -/
structure OpenChannel where
  type : ChannelType
  channelDef : ChannelDef
  deriving DecidableEq

/-- `Publisher`, with the number of `Release` tasks that were posted. -/
structure RegisteringPublisher (M : Type) where
  messageQueue : Option (Pool M) := none
  topicInfo : TopicInfo := {}
  period : ℤ := 0
  channels : List OpenChannel := []
  sendBuffer : ChannelBuffer := {}
  registerState : RegisterState := .unregistered
  posted : ℕ := 0

/-- What can happen next. -/
inductive RegisteringAction (M : Type)
  /-- `RequestPublish`, with what the set-up of a channel of each type comes to. -/
  | requestPublish (topic : String) (channelTypes : ℕ)
      (outcome : ChannelType → Except Status ChannelDef)
  | onPublishTopicAsync (settings : PublisherSettings) (status : Status)
  /-- `Publish`, up to `SendMessage`. -/
  | publish (message : M)
  /-- `SendMessage`, which takes a message from the queue if some channel can send it. -/
  | sendMessage (canSend : Bool)
  | requestUnpublish (topic : String)
  | onUnpublishTopicAsync (status : Status) (isMainThread : Bool)
  /-- The main thread runs a `Release` task. -/
  | runRelease

/-- What a step does to the outside. -/
inductive RegisteringEffect
  | publishTopic (topicInfo : TopicInfo)
  | unpublishTopic (topic : String)
  /-- `LogOrCallback`. -/
  | answered (status : Status)
  deriving DecidableEq

/-! ### Steps -/

namespace RegisteringPublisher

/-- `ChannelFactory::NewChannel` of the bit of a mask. -/
def newChannel : ℕ → Option ChannelType
  | 0 => some .shm
  | 1 => some .uds
  | 2 => some .udp
  | 3 => some .tcp
  | 4 => some .ws
  | _ => none

/-- The bits of `channel_types`, in the order in which the loop of `SetupAllChannels` looks at them.
A bit that is no channel type ends the loop, so the shift never overflows. -/
def channelTypeBits (channelTypes : ℕ) : List ℕ := (List.range 31).filter channelTypes.testBit

/-- `Publisher::Setup`. A channel that accepts does so even if it could not listen, on a socket that
is not there. -/
def setup (outcome : ChannelType → Except Status ChannelDef) :
    Option ChannelType → Option (Except Status OpenChannel)
  | none => some (.error (aborted "Failed to setup: channel is null."))
  | some type =>
    match outcome type with
    | .ok channelDef => some (.ok { type, channelDef := { channelDef with type } })
    | .error status => if type = .udp ∨ type = .shm then some (.error status) else none

variable {M : Type} (p : RegisteringPublisher M)

/-- `Publisher::Release`. -/
def release (isMainThread : Bool) : RegisteringPublisher M :=
  if !isMainThread then { p with posted := p.posted + 1 }
  else { p with channels := [], topicInfo := {}, messageQueue := none }

/-- `*channel_source->add_channel_defs() = …; channels_.push_back(…)`. -/
def addChannel (channel : OpenChannel) : RegisteringPublisher M :=
  { p with
    topicInfo := { p.topicInfo with
      topicSource :=
        { channelDefs := p.topicInfo.topicSource.channelDefs ++ [channel.channelDef] } }
    channels := p.channels ++ [channel] }

/-- The loop of `Publisher::SetupAllChannels`, and the error it returns, if any. -/
def setupChannels (outcome : ChannelType → Except Status ChannelDef) :
    RegisteringPublisher M → List ℕ → Option (RegisteringPublisher M × Option Status)
  | p, [] => some (p, none)
  | p, bit :: bits =>
    match setup outcome (newChannel bit) with
    | none => none
    | some (.error status) =>
      some ({ p with registerState := .unregistered }.release true, some status)
    | some (.ok channel) => setupChannels outcome (p.addChannel channel) bits

/-- `Publisher::SetupAllChannels`. -/
def setupAllChannels (channelTypes : ℕ) (outcome : ChannelType → Except Status ChannelDef) :
    Option (RegisteringPublisher M × Option Status) :=
  setupChannels outcome { p with topicInfo := { p.topicInfo with topicSource := {} } }
    (channelTypeBits channelTypes)

/-- `Publisher::RequestPublish`, for the type of message that the publisher is for. -/
def requestPublish (typeName : String) (implType : ImplType) (topic : String) (channelTypes : ℕ)
    (outcome : ChannelType → Except Status ChannelDef) :
    Option (RegisteringPublisher M × List RegisteringEffect) :=
  if p.registerState ≠ .unregistered then
    some (p, [.answered p.registerState.invalidStateError])
  else (setupAllChannels { p with registerState := .registering } channelTypes outcome).map
    fun
      | (p, some status) => (p, [.answered status])
      | (p, none) =>
        let topicInfo := { p.topicInfo with topic, typeName, implType }
        ({ p with topicInfo }, [.publishTopic topicInfo])

/-- `Publisher::OnPublishTopicAsync`. -/
def onPublishTopicAsync (settings : PublisherSettings) (status : Status) :
    RegisteringPublisher M × List RegisteringEffect :=
  if p.registerState ≠ .registering then (p, [.answered p.registerState.invalidStateError])
  else if !status.isOk then ({ p with registerState := .unregistered }, [.answered status])
  else
    ({ p with
       period := settings.period
       messageQueue := some { index := { capacity := settings.queueSize } }
       sendBuffer := if settings.isDynamicBuffer then { p.sendBuffer with isDynamic := true }
         else p.sendBuffer.setCapacity settings.bufferSize
       registerState := .registered }, [.answered status])

/-- `Publisher::RequestUnpublish`. -/
def requestUnpublish (topic : String) : RegisteringPublisher M × List RegisteringEffect :=
  if p.registerState ≠ .registered then (p, [.answered p.registerState.invalidStateError])
  else ({ p with registerState := .unregistering }, [.unpublishTopic topic])

/-- `Publisher::OnUnpublishTopicAsync`. -/
def onUnpublishTopicAsync (status : Status) (isMainThread : Bool) :
    RegisteringPublisher M × List RegisteringEffect :=
  if p.registerState ≠ .unregistering then (p, [.answered p.registerState.invalidStateError])
  else if !status.isOk then ({ p with registerState := .registered }, [.answered status])
  else ({ p with registerState := .unregistered }.release isMainThread, [.answered status])

def step (typeName : String) (implType : ImplType) :
    RegisteringAction M → Option (RegisteringPublisher M × List RegisteringEffect)
  | .requestPublish topic channelTypes outcome =>
    p.requestPublish typeName implType topic channelTypes outcome
  | .onPublishTopicAsync settings status => some (p.onPublishTopicAsync settings status)
  | .publish message => some ({ p with messageQueue := p.messageQueue.map (·.push message) }, [])
  | .sendMessage canSend =>
    if canSend && !p.channels.isEmpty then
      some ({ p with messageQueue := p.messageQueue.map (·.pop) }, [])
    else some (p, [])
  | .requestUnpublish topic => some (p.requestUnpublish topic)
  | .onUnpublishTopicAsync status isMainThread =>
    some (p.onUnpublishTopicAsync status isMainThread)
  | .runRelease =>
    if p.posted = 0 then none else some ({ p with posted := p.posted - 1 }.release true, [])

end RegisteringPublisher

/-- A publisher from its construction on. -/
def registeringPublisher (M : Type) (typeName : String) (implType : ImplType) :
    TransitionSystem (RegisteringPublisher M) (RegisteringAction M) RegisteringEffect where
  Initial p := p = {}
  step p a := p.step typeName implType a

/-! ### Channels and their definitions -/

namespace RegisteringPublisher

variable {M : Type}

/-- The channels are those that `topic_info_` lists, in its order. -/
def Corresponds (p : RegisteringPublisher M) : Prop :=
  p.channels.map (·.channelDef) = p.topicInfo.topicSource.channelDefs ∧
    ∀ channel ∈ p.channels, channel.channelDef.type = channel.type

/-- Nothing is left of a publication. -/
def Released (p : RegisteringPublisher M) : Prop :=
  p.channels = [] ∧ p.topicInfo = {} ∧ p.messageQueue = none

/-- The channels are those that are listed, and an unregistered publisher was released. -/
def Consistent (p : RegisteringPublisher M) : Prop :=
  p.Corresponds ∧ (p.registerState = .unregistered → p.Released)

/-- The master accepts every publication. -/
def accepted (p : RegisteringPublisher M) : RegisteringAction M → Bool
  | .onPublishTopicAsync _ status => p.registerState ≠ .registering || status.isOk
  | _ => true

/-- What the master accepts of unpublications is told on the main thread. -/
def toldOnMainThread (p : RegisteringPublisher M) : RegisteringAction M → Bool
  | .onUnpublishTopicAsync status isMainThread =>
    p.registerState ≠ .unregistering || !status.isOk || isMainThread
  | _ => true

/-- Nothing is published while a `Release` is to be run. -/
def unhurried (p : RegisteringPublisher M) : RegisteringAction M → Bool
  | .requestPublish _ _ _ => p.posted = 0
  | _ => true

/-- The master accepts every publication, and what it accepts of unpublications is told on the main
thread. -/
def Orderly (p : RegisteringPublisher M) (a : RegisteringAction M) : Prop :=
  p.accepted a = true ∧ p.toldOnMainThread a = true

/-- The master accepts every publication, and nothing is published while a `Release` is to be run.
-/
def Patient (p : RegisteringPublisher M) (a : RegisteringAction M) : Prop :=
  p.accepted a = true ∧ p.unhurried a = true

instance (p : RegisteringPublisher M) (a : RegisteringAction M) : Decidable (p.Orderly a) :=
  inferInstanceAs (Decidable (_ ∧ _))

instance (p : RegisteringPublisher M) (a : RegisteringAction M) : Decidable (p.Patient a) :=
  inferInstanceAs (Decidable (_ ∧ _))

/-- The channels are those that are listed, and an unregistered publisher was released, or is to
be. -/
structure Tidy (p : RegisteringPublisher M) : Prop where
  corresponds : p.Corresponds
  released : p.posted = 0 → p.registerState = .unregistered → p.Released
  posted : p.posted ≠ 0 → p.posted = 1 ∧ p.registerState = .unregistered

variable {p p' : RegisteringPublisher M}

theorem Released.corresponds (h : p.Released) : p.Corresponds := by
  obtain ⟨hchannels, htopic, -⟩ := h
  constructor
  · rw [hchannels, htopic]
    rfl
  · rw [hchannels]
    exact List.forall_mem_nil _

theorem Corresponds.addChannel (h : p.Corresponds) {channel : OpenChannel}
    (htype : channel.channelDef.type = channel.type) : (p.addChannel channel).Corresponds := by
  constructor
  · simp [RegisteringPublisher.addChannel, h.1]
  · exact List.forall_mem_append.mpr ⟨h.2, List.forall_mem_singleton.mpr htype⟩

theorem type_of_setup {outcome : ChannelType → Except Status ChannelDef}
    {type? : Option ChannelType} {channel : OpenChannel}
    (h : setup outcome type? = some (.ok channel)) : channel.channelDef.type = channel.type := by
  cases type? with
  | none => cases h
  | some type =>
    simp only [setup] at h
    split at h
    · cases h
      rfl
    · split_ifs at h
      cases h

theorem Tidy.of_released (h : p.Released) (hposted : p.posted = 0) : p.Tidy :=
  ⟨h.corresponds, fun _ _ ↦ h, fun hne ↦ absurd hposted hne⟩

/-- Assumes: a change of the messages in the queue. -/
theorem Tidy.mapQueue (h : p.Tidy) (f : Pool M → Pool M) :
    Tidy { p with messageQueue := p.messageQueue.map f } := by
  refine ⟨h.corresponds, fun hposted hstate ↦ ?_, h.posted⟩
  obtain ⟨hchannels, htopic, hqueue⟩ := h.released hposted hstate
  exact ⟨hchannels, htopic, by simp [hqueue]⟩

/-- Assumes: channels that are those that are listed. A set-up that fails releases all of them, and
one that does not leaves those that are listed. -/
theorem setupChannels_spec {outcome : ChannelType → Except Status ChannelDef} {bits : List ℕ}
    {error : Option Status} (hp : p.Corresponds)
    (h : setupChannels outcome p bits = some (p', error)) :
    p'.posted = p.posted ∧
      if error.isSome then p'.registerState = .unregistered ∧ p'.Released
      else p'.registerState = p.registerState ∧ p'.Corresponds := by
  induction bits generalizing p with
  | nil =>
    cases h
    exact ⟨rfl, rfl, hp⟩
  | cons bit bits ih =>
    simp only [setupChannels] at h
    split at h
    next => cases h
    next status hsetup =>
      cases h
      exact ⟨rfl, rfl, rfl, rfl, rfl⟩
    next channel hsetup =>
      have hrest := ih (hp.addChannel (type_of_setup hsetup)) h
      exact hrest

variable {typeName : String} {implType : ImplType} {effects : List RegisteringEffect}
  {a : RegisteringAction M}

/-- Assumes: a tidy publisher that is to run no `Release`. -/
theorem Tidy.requestPublish (h : p.Tidy) (hposted : p.posted = 0) {topic : String}
    {channelTypes : ℕ} {outcome : ChannelType → Except Status ChannelDef}
    (hstep : p.requestPublish typeName implType topic channelTypes outcome = some (p', effects)) :
    p'.Tidy ∧ p'.posted = 0 := by
  unfold RegisteringPublisher.requestPublish at hstep
  split_ifs at hstep with hstate
  · cases hstep
    exact ⟨h, hposted⟩
  · have hreleased := h.released hposted (not_not.mp hstate)
    obtain ⟨⟨q, error⟩, hsetup, heq⟩ := Option.map_eq_some_iff.mp hstep
    have hcleared : Corresponds { p with
        registerState := .registering, topicInfo := { p.topicInfo with topicSource := {} } } := by
      refine ⟨?_, ?_⟩
      · simp [hreleased.1]
      · simp [hreleased.1]
    obtain ⟨hq, hspec⟩ := setupChannels_spec hcleared hsetup
    cases error with
    | some status =>
      cases heq
      exact ⟨⟨hspec.2.corresponds, fun _ _ ↦ hspec.2, fun hne ↦ absurd (hq.trans hposted) hne⟩,
        hq.trans hposted⟩
    | none =>
      cases heq
      refine ⟨⟨hspec.2, fun _ hunregistered ↦ ?_, fun hne ↦ absurd (hq.trans hposted) hne⟩,
        hq.trans hposted⟩
      cases hspec.1.symm.trans hunregistered

/-- Assumes: a tidy publisher that is not unregistered. It is to run no `Release`. -/
theorem Tidy.posted_eq_zero (h : p.Tidy) (hstate : p.registerState ≠ .unregistered) :
    p.posted = 0 := by
  by_contra hne
  exact hstate (h.posted hne).2

/-- Assumes: a tidy publisher whose register state changes, and is `Unregistered` neither before nor
after. -/
theorem Tidy.toState (h : p.Tidy) (hstate : p.registerState ≠ .unregistered)
    {state : RegisterState} (hnew : state ≠ .unregistered) :
    Tidy { p with registerState := state } :=
  ⟨h.corresponds, fun _ heq ↦ absurd heq hnew, fun hne ↦ absurd (h.posted hne).2 hstate⟩

/-- Assumes: a publication that the master accepts. -/
theorem Tidy.onPublishTopicAsync (h : p.Tidy) {settings : PublisherSettings} {status : Status}
    (haccepted : p.accepted (.onPublishTopicAsync settings status) = true) :
    (p.onPublishTopicAsync settings status).1.Tidy ∧
      (p.onPublishTopicAsync settings status).1.posted = p.posted := by
  unfold RegisteringPublisher.onPublishTopicAsync
  by_cases hstate : p.registerState = .registering
  · have hok : status.isOk = true := by simpa [accepted, hstate] using haccepted
    rw [if_neg (not_not.mpr hstate), if_neg (by simp [hok])]
    have hposted : p.posted = 0 := h.posted_eq_zero (by simp [hstate])
    refine ⟨⟨h.corresponds, fun _ hunregistered ↦ ?_, fun hne ↦ absurd hposted hne⟩, rfl⟩
    cases hunregistered
  · rw [if_pos hstate]
    exact ⟨h, rfl⟩

theorem Tidy.requestUnpublish (h : p.Tidy) (topic : String) :
    (p.requestUnpublish topic).1.Tidy ∧ (p.requestUnpublish topic).1.posted = p.posted := by
  unfold RegisteringPublisher.requestUnpublish
  split_ifs with hstate
  · exact ⟨h, rfl⟩
  · exact ⟨h.toState (by simp [not_not.mp hstate]) (by simp), rfl⟩

theorem Tidy.onUnpublishTopicAsync (h : p.Tidy) (status : Status) (isMainThread : Bool) :
    (p.onUnpublishTopicAsync status isMainThread).1.Tidy := by
  unfold RegisteringPublisher.onUnpublishTopicAsync
  split_ifs with hstate hok
  · exact h
  · exact h.toState (by simp [not_not.mp hstate]) (by simp)
  · have hposted : p.posted = 0 := h.posted_eq_zero (by simp [not_not.mp hstate])
    cases isMainThread with
    | true => exact .of_released ⟨rfl, rfl, rfl⟩ hposted
    | false =>
      refine ⟨h.corresponds, fun hzero ↦ ?_, fun _ ↦ ⟨?_, rfl⟩⟩
      · simp [release] at hzero
      · simp [release, hposted]

theorem Tidy.step (h : p.Tidy) (hguard : p.Patient a)
    (hstep : p.step typeName implType a = some (p', effects)) : p'.Tidy := by
  cases a with
  | requestPublish topic channelTypes outcome =>
    exact (h.requestPublish (of_decide_eq_true hguard.2) hstep).1
  | onPublishTopicAsync settings status =>
    have hresult := (h.onPublishTopicAsync hguard.1).1
    rwa [Option.some.inj hstep] at hresult
  | publish message =>
    cases hstep
    exact h.mapQueue _
  | sendMessage canSend =>
    simp only [RegisteringPublisher.step] at hstep
    split_ifs at hstep
    · cases hstep
      exact h.mapQueue _
    · cases hstep
      exact h
  | requestUnpublish topic =>
    have hresult := (h.requestUnpublish topic).1
    rwa [Option.some.inj hstep] at hresult
  | onUnpublishTopicAsync status isMainThread =>
    have hresult := h.onUnpublishTopicAsync status isMainThread
    rwa [Option.some.inj hstep] at hresult
  | runRelease =>
    simp only [RegisteringPublisher.step] at hstep
    split_ifs at hstep with hposted
    cases hstep
    refine .of_released ⟨rfl, rfl, rfl⟩ ?_
    simp [release, (h.posted hposted).1]

/-- Assumes: a step in which what the master accepts of unpublications is told on the main thread.
It posts no `Release`. -/
theorem Tidy.posted_step (h : p.Tidy) (hposted : p.posted = 0) (hguard : p.Orderly a)
    (hstep : p.step typeName implType a = some (p', effects)) : p'.posted = 0 := by
  cases a with
  | requestPublish topic channelTypes outcome => exact (h.requestPublish hposted hstep).2
  | onPublishTopicAsync settings status =>
    have hresult := (h.onPublishTopicAsync hguard.1).2
    rw [Option.some.inj hstep] at hresult
    exact hresult.trans hposted
  | publish message =>
    cases hstep
    exact hposted
  | sendMessage canSend =>
    simp only [RegisteringPublisher.step] at hstep
    split_ifs at hstep <;> cases hstep <;> exact hposted
  | requestUnpublish topic =>
    have hresult := (h.requestUnpublish topic).2
    rw [Option.some.inj hstep] at hresult
    exact hresult.trans hposted
  | onUnpublishTopicAsync status isMainThread =>
    have heq : p.onUnpublishTopicAsync status isMainThread = (p', effects) := Option.some.inj hstep
    unfold RegisteringPublisher.onUnpublishTopicAsync at heq
    split_ifs at heq with hstate hok
    · cases heq
      exact hposted
    · cases heq
      exact hposted
    · have hmain : isMainThread = true := by
        simpa [toldOnMainThread, not_not.mp hstate, hok] using hguard.2
      rw [hmain] at heq
      cases heq
      exact hposted
  | runRelease => simp [RegisteringPublisher.step, hposted] at hstep

theorem Orderly.patient (h : p.Orderly a) (hposted : p.posted = 0) : p.Patient a := by
  refine ⟨h.1, ?_⟩
  cases a with
  | requestPublish topic channelTypes outcome => exact decide_eq_true hposted
  | _ => rfl

/-- In every run in which the master accepts every publication, and what it accepts of
unpublications is told on the main thread, in every state the channels are those that `topic_info_`
lists, in its order, and an unregistered publisher has no channels, a clear `topic_info_` and no
queue. If the master accepts every publication and nothing is published while a `Release` is to be
run, wherever the replies come, the same holds of every state in which no `Release` is to be run,
and the channels are those that are listed in all of them. -/
theorem publisher_consistent (M : Type) (typeName : String) (implType : ImplType) :
    (∀ p, Reachable (registeringPublisher M typeName implType) Orderly p → p.Consistent) ∧
    ∀ p, Reachable (registeringPublisher M typeName implType) Patient p →
      p.Corresponds ∧ (p.posted = 0 → p.Consistent) := by
  have hinitial : Tidy ({} : RegisteringPublisher M) := .of_released ⟨rfl, rfl, rfl⟩ rfl
  constructor
  · intro p hreach
    have hinv : p.Tidy ∧ p.posted = 0 := by
      refine hreach.invariant (I := fun p ↦ p.Tidy ∧ p.posted = 0) ?_ ?_
      · rintro p rfl
        exact ⟨hinitial, rfl⟩
      · rintro p a p' effects ⟨htidy, hposted⟩ hguard hstep
        exact ⟨htidy.step (hguard.patient hposted) hstep, htidy.posted_step hposted hguard hstep⟩
    exact ⟨hinv.1.corresponds, hinv.1.released hinv.2⟩
  · intro p hreach
    have htidy : p.Tidy := by
      refine hreach.invariant ?_ fun p a p' effects htidy hguard hstep ↦ htidy.step hguard hstep
      rintro p rfl
      exact hinitial
    exact ⟨htidy.corresponds, fun hposted ↦ ⟨htidy.corresponds, htidy.released hposted⟩⟩

end RegisteringPublisher

namespace Scenario

/-- A port for every channel. -/
def anyPort (_ : ChannelType) : Except Status ChannelDef :=
  .ok { ipEndpoint := some { ip := "10.0.0.2", port := ⟨4000, by decide⟩ } }

/-- Publish over TCP. -/
def requestPublish : RegisteringAction ℕ := .requestPublish "topic" 8 anyPort

/-- The master answers. -/
def publishReply (status : Status) : RegisteringAction ℕ :=
  .onPublishTopicAsync ⟨1000, 1024, false, 10⟩ status

/-- The topic is published, and unpublished again. -/
def publishedOnce : List (RegisteringAction ℕ) :=
  [requestPublish, publishReply .OK, .publish 1, .requestUnpublish "topic",
    .onUnpublishTopicAsync .OK true]

end Scenario

namespace RegisteringPublisher

/-- The topic is published, unpublished and published again. -/
theorem publisher_consistent_of_published :
    ∃ p, Reachable (registeringPublisher ℕ "Type" .protobuf) Orderly p ∧
      p.registerState = .registered ∧ p.channels.map (·.type) = [.tcp] ∧ p.Consistent := by
  have hexec : ((registeringPublisher ℕ "Type" .protobuf).exec Orderly {} []
      (Scenario.publishedOnce ++ [Scenario.requestPublish, Scenario.publishReply .OK])).map
      (fun result ↦ (result.1.registerState, result.1.channels.map (·.type))) =
      some (.registered, [.tcp]) := by
    decide
  obtain ⟨⟨p, history⟩, hrun, heq⟩ := Option.map_eq_some_iff.mp hexec
  obtain ⟨hstate, hchannels⟩ := Prod.mk.inj heq
  have hreach : Reachable (registeringPublisher ℕ "Type" .protobuf) Orderly p :=
    ⟨history, (Run.start rfl).of_exec hrun⟩
  exact ⟨p, hreach, hstate, hchannels, (publisher_consistent ℕ "Type" .protobuf).1 p hreach⟩

/-- The master refuses a publication: the publisher is unregistered and keeps its channel. When it
publishes again, it has two channels and lists one. -/
theorem refused_publication_keeps_channels :
    (¬ ∀ p, Reachable (registeringPublisher ℕ "Type" .protobuf) unguarded p →
      p.registerState = .unregistered → p.Released) ∧
    ¬ ∀ p, Reachable (registeringPublisher ℕ "Type" .protobuf) unguarded p → p.Corresponds := by
  refine ⟨fun h ↦ ?_, fun h ↦ ?_⟩
  · have hexec : ((registeringPublisher ℕ "Type" .protobuf).exec unguarded {} []
        [Scenario.requestPublish, Scenario.publishReply (aborted "")]).map
        (fun result ↦ (result.1.registerState, result.1.channels.length)) =
        some (.unregistered, 1) := by
      decide
    obtain ⟨⟨p, history⟩, hrun, heq⟩ := Option.map_eq_some_iff.mp hexec
    obtain ⟨hstate, hlength⟩ := Prod.mk.inj heq
    have hreleased := h p ⟨history, (Run.start rfl).of_exec hrun⟩ hstate
    dsimp only at hlength
    rw [hreleased.1] at hlength
    cases hlength
  · have hexec : ((registeringPublisher ℕ "Type" .protobuf).exec unguarded {} []
        [Scenario.requestPublish, Scenario.publishReply (aborted ""), Scenario.requestPublish]).map
        (fun result ↦
          (result.1.channels.length, result.1.topicInfo.topicSource.channelDefs.length)) =
        some (2, 1) := by
      decide
    obtain ⟨⟨p, history⟩, hrun, heq⟩ := Option.map_eq_some_iff.mp hexec
    obtain ⟨hchannels, hdefs⟩ := Prod.mk.inj heq
    have hcorresponds := (h p ⟨history, (Run.start rfl).of_exec hrun⟩).1
    dsimp only at hchannels hdefs
    rw [← hcorresponds, List.length_map, hchannels] at hdefs
    cases hdefs

end RegisteringPublisher

end Felicia
