import Felicia.Communication.PublisherLifecycle
import Felicia.Support.Transition

/-!
# Subscribers

`Subscriber` of `felicia/core/communication/subscriber.h`: two state machines, one for how far it is
with the master (`RegisterState`) and one for its message loop (`SubscriberState`), a channel to a
publisher, and the tasks that it posts to the main thread. The replies of the master come on another
thread; everything else runs on the main thread, where `StopMessageLoop` is posted from elsewhere.
What a handler does is one step. A request that a user callback makes in the middle of a handler
changes nothing that the handler reads afterwards, so it is a step after it.

A channel that is destroyed drops the connect or the receive that it had under way. A connect or a
receive is started by the last call of its handler, and may complete at once or later; only the
receives that complete while `StartMessageLoop` runs are part of a larger step. A second receive on
a channel that already receives is refused by a `DCHECK` of the channel. The delays of tasks are not
modelled: a task that was posted may run at any later time.

Some fields are not in the source and no handler reads them: the number of registrations, what is
known of the notifications, and of a channel what it was opened for and how many receives in a row
failed on it.
-/

set_option autoImplicit false
set_option relaxedAutoImplicit false

namespace Felicia

open Support TransitionSystem

/-! ### State -/

/-- `communication::SubscriberState`. -/
inductive SubscriberState
  | started | stopping | stopped
  deriving DecidableEq, Repr

/-- The number of a `ChannelDef::Type`. -/
def ChannelType.toNat : ChannelType → ℕ
  | .none => 0
  | .shm => 1
  | .uds => 2
  | .udp => 4
  | .tcp => 8
  | .ws => 16

/-- How far a channel is: `Connect` is under way, or the ROS handshake, or neither. -/
inductive ChannelPhase
  | connecting | handshaking | established
  deriving DecidableEq, Repr

/-- `channel_`. -/
structure SubscriberChannel where
  type : ChannelType
  phase : ChannelPhase := .connecting
  /-- A receive is under way. -/
  receiving : Bool := false
  /-- The number of the registration under which it was opened. -/
  registration : ℕ
  /-- The publisher it was opened for. -/
  topicInfo : TopicInfo
  /-- The receives that failed since it was opened or since the last that did not. -/
  failures : ℕ := 0
  deriving DecidableEq

/-- `kMaximumReceiveMessageFailedAllowed`. -/
def maximumReceiveMessageFailedAllowed : ℕ := 5

/-- `Subscriber`, with the tasks that it posted. -/
structure Subscriber (M : Type) where
  messageQueue : Pool M := Pool.cleared
  topicInfo : TopicInfo := {}
  topicInfoToUpdate : Option TopicInfo := none
  channelTypes : ℕ := 0
  channel : Option SubscriberChannel := none
  channelType : ℕ := 0
  /-- `on_message_callback_` is set. -/
  onMessageCallback : Bool := false
  /-- `on_error_callback_` is set. -/
  onErrorCallback : Bool := false
  /-- `on_stopped_callback_` is set. -/
  onStoppedCallback : Bool := false
  registerState : RegisterState := .unregistered
  subscriberState : SubscriberState := .stopped
  queueSize : ℕ := 0
  /-- A `uint8_t`. -/
  receiveMessageFailedCnt : ℕ := 0
  startTasks : ℕ := 0
  stopMessageLoopTasks : ℕ := 0
  receiveTasks : ℕ := 0
  notifyTasks : ℕ := 0
  stopTasks : ℕ := 0
  /-- `OnFindPublisher` tasks, the oldest first. -/
  findTasks : List TopicInfo := []
  /-- How often a subscription was asked for. -/
  registrations : ℕ := 0
  /-- The last notification that was not dropped or put off. -/
  processed : Option TopicInfo := none
  /-- An unsubscription was asked for since that notification. -/
  unsubscribed : Bool := false
  /-- No publisher could be connected to, or the connection was lost, and an error was told. -/
  gaveUp : Bool := false

/-- What a receive comes to. -/
inductive ReceiveResult (M : Type)
  | message (message : M)
  /-- An error, and whether the socket is still connected. -/
  | failure (status : Status) (isConnected : Bool)

/-- What the subscriber is asked for. -/
structure Subscription where
  channelTypes : ℕ
  queueSize : ℕ
  onErrorCallback : Bool
  deriving DecidableEq

/-- What is seen of a subscriber. -/
inductive SubscriberEvent (M : Type)
  /-- The callback of a request or of `StopMessageLoop` is run, or its error logged. -/
  | answered (status : Status)
  /-- `on_error_callback_` is run if it is set, or the error is logged. -/
  | error (status : Status) (isSet : Bool)
  /-- `on_message_callback_` is run. -/
  | message (message : M) (isSet : Bool)
  /-- `Connect` of a new channel is called. -/
  | opened (channelDef : ChannelDef)
  /-- `DCHECK(channel_->IsUDPChannel())`. -/
  | checkedUDP (type : Option ChannelType)
  /-- `StartMessageLoop` starts the loop, with a channel that was opened under some registration. -/
  | started (opened current : ℕ)
  /-- `OnReceiveMessage` stops the loop on a channel that is still connected. -/
  | failed (failures : ℕ)
  /-- `Stop`. -/
  | stopped
  deriving DecidableEq

/-- What can happen next. -/
inductive SubscriberAction (M : Type)
  | requestSubscribe
  | onSubscribeTopicAsync (subscription : Subscription) (status : Status)
  | requestUnsubscribe
  | onUnubscribeTopicAsync (status : Status) (isMainThread : Bool)
  | onFindPublisher (topicInfo : TopicInfo)
  /-- `Connect` completes, with the receives that complete before the loop is started. -/
  | onConnectToPublisher (status : Status) (received : List (ReceiveResult M))
  | onRosTopicHandshake (status : Status) (received : List (ReceiveResult M))
  | onReceiveMessage (received : ReceiveResult M)
  | runFindPublisher
  | runStartMessageLoop (received : List (ReceiveResult M))
  | runStopMessageLoop
  | runReceiveMessageLoop
  | runNotifyMessageLoop
  | runStop

/-! ### Handlers -/

namespace Subscriber

variable {M : Type} (p : Subscriber M)

/-- The loop of `ConnectToPublisher`, from a channel type on: the definition that it finds, and
where it stops. The channel type is an `int` and is doubled in every round, which bounds the rounds.
-/
def matchChannelDef (channelDefs : List ChannelDef) (channelTypes : ℕ) :
    ℕ → ℕ → Option ChannelDef × ℕ
  | 0, channelType => (none, channelType)
  | rounds + 1, channelType =>
    if channelTypes < channelType then (none, channelType)
    else
      let matched := if channelType &&& channelTypes = 0 then none
        else channelDefs.find? fun channelDef ↦ channelDef.type.toNat = channelType
      match matched with
      | some channelDef => (some channelDef, channelType)
      | none => matchChannelDef channelDefs channelTypes rounds (channelType <<< 1)

/-- `Subscriber::ConnectToPublisher`. -/
def connectToPublisher : Subscriber M × List (SubscriberEvent M) :=
  match matchChannelDef p.topicInfo.topicSource.channelDefs p.channelTypes 31 p.channelType with
  | (none, channelType) =>
    ({ p with channel := none, channelType, gaveUp := true },
      [.error ⟨.unavailable, "Failed to connect to publisher."⟩ p.onErrorCallback])
  | (some channelDef, channelType) =>
    ({ p with
       channel := some
         { type := channelDef.type, registration := p.registrations, topicInfo := p.topicInfo }
       channelType
       gaveUp := false },
      [.opened channelDef])

/-- `Subscriber::StopMessageLoop` on the main thread. -/
def stopMessageLoop (callback : Bool) : Subscriber M × List (SubscriberEvent M) :=
  if p.subscriberState = .started then
    ({ p with onStoppedCallback := callback, subscriberState := .stopping }, [])
  else (p, if callback then [.answered (aborted "Already stopping or stopped.")] else [])

/-- The channel types are tried from the first on. -/
def fromFirst : Subscriber M := { p with channelType := 1 }

/-- A notification is taken up. -/
def process (topicInfo : TopicInfo) : Subscriber M :=
  { p with processed := some topicInfo, unsubscribed := false }

/-- Where to connect to, also after a failure. -/
def setTopicInfo (topicInfo : TopicInfo) : Subscriber M := { p with topicInfo }

/-- What `Subscriber::OnFindPublisher` does when the subscriber is registered. A subscriber that
knows its type of message resolves it. -/
def follow (topicInfo : TopicInfo) : Subscriber M × List (SubscriberEvent M) :=
  match topicInfo.status with
  | .unregistered => if p.subscriberState = .started then p.stopMessageLoop false else (p, [])
  | .registered =>
    if p.subscriberState = .started then
      ({ p with topicInfoToUpdate := some topicInfo }, [.checkedUDP (p.channel.map (·.type))])
    else (p.setTopicInfo topicInfo).fromFirst.connectToPublisher

/-- `Subscriber::OnFindPublisher`. -/
def onFindPublisher (topicInfo : TopicInfo) : Subscriber M × List (SubscriberEvent M) :=
  if p.registerState = .registering ∨ p.registerState = .unregistering ∨
      p.subscriberState = .stopping then
    ({ p with findTasks := p.findTasks ++ [topicInfo] }, [])
  else if p.registerState = .unregistered then (p, [])
  else (p.process topicInfo).follow topicInfo

/-- `Subscriber::ReceiveMessageLoop`. -/
def receiveMessageLoop : Subscriber M :=
  if p.subscriberState = .started then
    { p with channel := p.channel.map fun channel ↦ { channel with receiving := true } }
  else p

/-- The end of `Subscriber::OnReceiveMessage`: the next receive, at once or after the period. -/
def receiveNext : Subscriber M :=
  if p.channel.any fun channel ↦ channel.type = .shm then
    { p with receiveTasks := p.receiveTasks + 1 }
  else p.receiveMessageLoop

/-- A receive succeeded. -/
def onMessage (message : M) : Subscriber M :=
  { p with
    receiveMessageFailedCnt := 0
    channel := p.channel.map fun channel ↦ { channel with failures := 0 }
    messageQueue := p.messageQueue.push message }

/-- A receive failed on a channel that is still connected. -/
def onFailure : Subscriber M :=
  { p with
    receiveMessageFailedCnt := (p.receiveMessageFailedCnt + 1) % 2 ^ 8
    channel := p.channel.map fun channel ↦ { channel with failures := channel.failures + 1 } }

/-- `Subscriber::OnReceiveMessage`, for a receive that is no longer under way. -/
def handleReceived (received : ReceiveResult M) : Subscriber M × List (SubscriberEvent M) :=
  if p.subscriberState ≠ .started then (p, [])
  else match received with
    | .message message => ((p.onMessage message).receiveNext, [])
    | .failure status isConnected =>
      let error := SubscriberEvent.error ⟨status.errorCode, "Failed to receive a message: " ++
        cStr status.errorMessage⟩ p.onErrorCallback
      if (p.channel.any fun channel ↦ channel.type = .tcp) && !isConnected then
        (({ p with gaveUp := true }.stopMessageLoop false).1, [error])
      else if maximumReceiveMessageFailedAllowed ≤ p.onFailure.receiveMessageFailedCnt then
        ((p.onFailure.stopMessageLoop false).1,
          [error, .failed ((p.onFailure.channel.map (·.failures)).getD 0)])
      else (p.onFailure.receiveNext, [error])

/-- The receive is no longer under way. -/
def received : Subscriber M :=
  { p with channel := p.channel.map fun channel ↦ { channel with receiving := false } }

/-- A receive completes. -/
def onReceiveMessage (received : ReceiveResult M) : Subscriber M × List (SubscriberEvent M) :=
  p.received.handleReceived received

/-- The front message is told to the user. -/
def tellFront : Subscriber M × List (SubscriberEvent M) :=
  match p.messageQueue.front? with
  | some message =>
    ({ p with messageQueue := p.messageQueue.pop }, [.message message p.onMessageCallback])
  | none => (p, [])

/-- `Subscriber::NotifyMessageLoop`. -/
def notifyMessageLoop : Subscriber M × List (SubscriberEvent M) :=
  if p.subscriberState = .stopped then (p, [])
  else
    let q : Subscriber M := p.tellFront.1
    if q.subscriberState = .stopping ∧ q.messageQueue.empty = true then
      ({ q with stopTasks := q.stopTasks + 1 }, p.tellFront.2)
    else ({ q with notifyTasks := q.notifyTasks + 1 }, p.tellFront.2)

/-- The channel receives. -/
def isReceiving : Bool := p.channel.any (·.receiving)

/-- Receives that complete before the call that started them returns. -/
def receiveAll : Subscriber M → List (ReceiveResult M) → Subscriber M × List (SubscriberEvent M)
  | p, [] => (p, [])
  | p, received :: rest =>
    if p.isReceiving then
      let first := p.onReceiveMessage received
      let others := receiveAll first.1 rest
      (others.1, first.2 ++ others.2)
    else (p, [])

/-- The loop is started, and the queue has room for its messages. -/
def justStarted : Subscriber M :=
  { p with subscriberState := .started, messageQueue := p.messageQueue.reserve p.queueSize }

/-- The receives that complete while the loop is started. -/
def firstReceives (received : List (ReceiveResult M)) : Subscriber M × List (SubscriberEvent M) :=
  p.justStarted.receiveMessageLoop.receiveAll received

/-- `Subscriber::StartMessageLoop` on the main thread. -/
def startMessageLoop (received : List (ReceiveResult M)) :
    Subscriber M × List (SubscriberEvent M) :=
  if p.registerState = .unregistering ∨ p.registerState = .unregistered then (p, [])
  else match p.subscriberState with
    | .stopping => ({ p with startTasks := p.startTasks + 1 }, [])
    | .started => (p, [])
    | .stopped =>
      let notified := (p.firstReceives received).1.notifyMessageLoop
      (notified.1, .started ((p.channel.map (·.registration)).getD 0) p.registrations ::
        ((p.firstReceives received).2 ++ notified.2))

/-- The next channel type is tried. -/
def tryNext : Subscriber M := { p with channelType := p.channelType <<< 1 }

/-- The channel, further on. -/
def setPhase (phase : ChannelPhase) : Subscriber M :=
  { p with channel := p.channel.map fun channel ↦ { channel with phase } }

/-- `Subscriber::OnConnectToPublisher`. -/
def onConnectToPublisher (hasRos : Bool) (status : Status) (received : List (ReceiveResult M)) :
    Subscriber M × List (SubscriberEvent M) :=
  if status.isOk then
    if hasRos && isUsingRosProtocol p.topicInfo.topic then (p.setPhase .handshaking, [])
    else (p.setPhase .established).startMessageLoop received
  else p.tryNext.connectToPublisher

/-- `Subscriber::OnRosTopicHandshake`. -/
def onRosTopicHandshake (status : Status) (received : List (ReceiveResult M)) :
    Subscriber M × List (SubscriberEvent M) :=
  if status.isOk then (p.setPhase .established).startMessageLoop received
  else p.tryNext.connectToPublisher

/-- What `Subscriber::Stop` releases when the subscriber is unregistered. -/
def released : Subscriber M :=
  { p with
    topicInfo := {}
    topicInfoToUpdate := p.topicInfoToUpdate.map fun _ ↦ {}
    channel := none
    messageQueue := Pool.cleared
    onMessageCallback := false
    onErrorCallback := false }

/-- The update is no longer due. -/
def takeUpdate : Subscriber M := { p with topicInfoToUpdate := none }

/-- `Subscriber::Stop`, after the state is set to stopped. -/
def afterStop : Subscriber M × List (SubscriberEvent M) :=
  if p.onStoppedCallback then ({ p with onStoppedCallback := false }, [.answered .OK])
  else match p.topicInfoToUpdate with
    | some topicInfo => p.takeUpdate.onFindPublisher topicInfo
    | none =>
      if maximumReceiveMessageFailedAllowed ≤ p.receiveMessageFailedCnt then
        p.fromFirst.connectToPublisher
      else (p, [])

/-- `Subscriber::Stop`, until the state is set to stopped. -/
def justStopped : Subscriber M :=
  { (if p.registerState = .unregistered then p.released else p) with subscriberState := .stopped }

/-- `Subscriber::Stop`. -/
def stop : Subscriber M × List (SubscriberEvent M) :=
  (p.justStopped.afterStop.1, .stopped :: p.justStopped.afterStop.2)

/-- `Subscriber::OnSubscribeTopicAsync`. -/
def onSubscribeTopicAsync (subscription : Subscription) (status : Status) :
    Subscriber M × List (SubscriberEvent M) :=
  if p.registerState ≠ .registering then (p, [.answered p.registerState.invalidStateError])
  else if !status.isOk then ({ p with registerState := .unregistered }, [.answered status])
  else
    ({ p with
       channelTypes := subscription.channelTypes
       onMessageCallback := true
       onErrorCallback := subscription.onErrorCallback
       queueSize := subscription.queueSize
       registerState := .registered },
      [.answered status])

/-- `Subscriber::OnUnubscribeTopicAsync`. -/
def onUnubscribeTopicAsync (status : Status) (isMainThread : Bool) :
    Subscriber M × List (SubscriberEvent M) :=
  if p.registerState ≠ .unregistering then (p, [.answered p.registerState.invalidStateError])
  else if !status.isOk then ({ p with registerState := .registered }, [.answered status])
  else
    let q : Subscriber M := { p with registerState := .unregistered }
    if isMainThread then ((q.stopMessageLoop false).1, [.answered status])
    else ({ q with stopMessageLoopTasks := p.stopMessageLoopTasks + 1 }, [.answered status])

/-- `Subscriber::RequestSubscribe` on the main thread. -/
def requestSubscribe : Subscriber M × List (SubscriberEvent M) :=
  if p.registerState ≠ .unregistered then (p, [.answered p.registerState.invalidStateError])
  else ({ p with registerState := .registering, registrations := p.registrations + 1 }, [])

/-- `Subscriber::RequestUnsubscribe` on the main thread. -/
def requestUnsubscribe : Subscriber M × List (SubscriberEvent M) :=
  if p.registerState ≠ .registered then (p, [.answered p.registerState.invalidStateError])
  else ({ p with registerState := .unregistering, unsubscribed := true }, [])

/-! ### Steps -/

/-- The channel is in a phase. -/
def isInPhase (phase : ChannelPhase) : Bool := p.channel.any (·.phase = phase)

/-- The first `OnFindPublisher` task is no longer posted. -/
def takeFindTask : Subscriber M := { p with findTasks := p.findTasks.tail }

def takeStartTask : Subscriber M := { p with startTasks := p.startTasks - 1 }

def takeStopMessageLoopTask : Subscriber M :=
  { p with stopMessageLoopTasks := p.stopMessageLoopTasks - 1 }

def takeReceiveTask : Subscriber M := { p with receiveTasks := p.receiveTasks - 1 }

def takeNotifyTask : Subscriber M := { p with notifyTasks := p.notifyTasks - 1 }

def takeStopTask : Subscriber M := { p with stopTasks := p.stopTasks - 1 }

def step (hasRos : Bool) : SubscriberAction M → Option (Subscriber M × List (SubscriberEvent M))
  | .requestSubscribe => some p.requestSubscribe
  | .onSubscribeTopicAsync subscription status =>
    some (p.onSubscribeTopicAsync subscription status)
  | .requestUnsubscribe => some p.requestUnsubscribe
  | .onUnubscribeTopicAsync status isMainThread =>
    some (p.onUnubscribeTopicAsync status isMainThread)
  | .onFindPublisher topicInfo => some (p.onFindPublisher topicInfo)
  | .onConnectToPublisher status received =>
    if p.isInPhase .connecting then some (p.onConnectToPublisher hasRos status received) else none
  | .onRosTopicHandshake status received =>
    if p.isInPhase .handshaking then some (p.onRosTopicHandshake status received) else none
  | .onReceiveMessage received =>
    if p.isReceiving then some (p.onReceiveMessage received) else none
  | .runFindPublisher =>
    p.findTasks.head?.map fun topicInfo ↦ p.takeFindTask.onFindPublisher topicInfo
  | .runStartMessageLoop received =>
    if 0 < p.startTasks then some (p.takeStartTask.startMessageLoop received) else none
  | .runStopMessageLoop =>
    if 0 < p.stopMessageLoopTasks then
      some (p.takeStopMessageLoopTask.stopMessageLoop false)
    else none
  | .runReceiveMessageLoop =>
    if 0 < p.receiveTasks ∧ ¬ (p.subscriberState = .started ∧ p.isReceiving = true) then
      some (p.takeReceiveTask.receiveMessageLoop, [])
    else none
  | .runNotifyMessageLoop =>
    if 0 < p.notifyTasks then some p.takeNotifyTask.notifyMessageLoop else none
  | .runStop => if 0 < p.stopTasks then some p.takeStopTask.stop else none

end Subscriber

/-- A subscriber from its construction on, with or without ROS compiled in. -/
def subscribing {M : Type} (hasRos : Bool) :
    TransitionSystem (Subscriber M) (SubscriberAction M) (SubscriberEvent M) where
  Initial p := p = {}
  step p a := p.step hasRos a

end Felicia
