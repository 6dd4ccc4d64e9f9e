import Felicia.Master.Errors
import Felicia.Master.Registry

/-!
# The tasks of the master thread

The `Notify*` and `Do*` functions of `felicia/core/master/master.cc`. A task runs on the master
thread against the registry and yields the new registry with the list of what it did to the
outside, in order: callbacks run, responses filled in, notifications sent, calls to the ROS master
and log lines.

Each handler that changes one node first settles a `Reason` under the lock and then answers
according to it. The first half is shared (`Registry.withNode`): the node is looked up, the request
may be refused, and otherwise the operation is run on the node. `withNode_cases` says all that half
can do. In a build with ROS a name that starts with `ros://` is passed on to the ROS master after
the change is made; its answer is then the answer of the request. `Handles` says all that such a
handler does to the outside.

The ROS master is outside of the repository. `RosMasterProxy` gives the status of each call, the
endpoint a service lookup finds and what `PubUpdate` learns about the publishers of a topic; nothing
is assumed of them.
-/

set_option autoImplicit false
set_option relaxedAutoImplicit false

namespace Felicia

/-- A `StatusOnceCallback`, named by the number of its request. -/
abbrev StatusOnceCallback := ℕ

/-! ### The ROS master -/

/-- The calls of `RosMasterProxy`. -/
inductive RosCall
  | registerPublisher (topic topicType : String)
  | registerSubscriber (topic topicType : String)
  | unregisterPublisher (topic : String)
  | unregisterSubscriber (topic : String)
  | registerService (service : String) (ipEndpoint : IPEndPoint)
  | unregisterService (service : String) (ipEndpoint : IPEndPoint)
  | lookupService (service : String)
  deriving DecidableEq

/-- What `RosMasterProxy::PubUpdate` learns: that a topic has no publisher, that one of the
publishers answered with its endpoint, or that none answered. -/
inductive PubUpdate
  | noPublisher
  | publisher (ipEndpoint : IPEndPoint) (rosNodeName : String)
  | noAnswer

/-- The answers of the ROS master. -/
structure RosMasterProxy where
  status : RosCall → Status
  /-- The endpoint `LookupService` fills in. -/
  ipEndpoint : String → IPEndPoint
  /-- What the `PubUpdate` of `RegisterSubscriber` learns. -/
  pubUpdate : String → PubUpdate

/-- The topic info that `PubUpdate` hands to `Master::NotifyAllSubscribers`. -/
def PubUpdate.topicInfo (topic : String) : PubUpdate → Option TopicInfo
  | .noPublisher => some { topic := attachRosProtocol topic, status := .unregistered }
  | .publisher ipEndpoint rosNodeName => some
      { topic := attachRosProtocol topic
        topicSource := ⟨[{ type := .tcp, ipEndpoint := some ipEndpoint }]⟩
        rosNodeName }
  | .noAnswer => none

/-- `ConsumeRosProtocol` in a build with ROS; a build without it has no ROS names. -/
def rosName (hasRos : Bool) (text : String) : Option String :=
  if hasRos then consumeRosProtocol text else none

/-! ### Effects -/

/-- What a handler writes to the response of its request. -/
inductive Response
  | registerClient (id : Uint32)
  | listClients (clientInfos : List ClientInfo)
  | registerNode (nodeInfo : NodeInfo)
  | listNodes (nodeInfos : List NodeInfo) (publishingTopics subscribingTopics : List String)
  | listTopics (topicInfos : List TopicInfo)
  | listServices (serviceInfos : List ServiceInfo)
  deriving DecidableEq

/-- The lines the master logs when it changed the registry. -/
inductive LogEntry
  | addClient (id : Uint32)
  | removeClient (id : Uint32)
  | addNode (nodeInfo : NodeInfo)
  | removeNode (nodeInfo : NodeInfo)
  | publishTopic (nodeInfo : NodeInfo) (topic : String)
  | unpublishTopic (nodeInfo : NodeInfo) (topic : String)
  | subscribeTopic (nodeInfo : NodeInfo) (topic : String)
  | unsubscribeTopic (nodeInfo : NodeInfo) (topic : String)
  | registerServiceClient (nodeInfo : NodeInfo) (service : String)
  | unregisterServiceClient (nodeInfo : NodeInfo) (service : String)
  | registerServiceServer (nodeInfo : NodeInfo) (service : String)
  | unregisterServiceServer (nodeInfo : NodeInfo) (service : String)
  deriving DecidableEq

/-- What a step of the master does to the outside. -/
inductive Effect
  /-- `std::move(callback).Run(status)`. -/
  | reply (callback : StatusOnceCallback) (status : Status)
  /-- `*result = response`. -/
  | respond (callback : StatusOnceCallback) (response : Response)
  /-- `DoNotifyClient`: a connection of its own to the client's watcher, for one notification. -/
  | notify (nodeInfo : NodeInfo) (source : ChannelSource) (notification : MasterNotification)
  /-- A call to the ROS master. -/
  | ros (call : RosCall)
  | log (entry : LogEntry)
  deriving DecidableEq

/-- `Master::Reason`. -/
inductive Reason
  | none | topicAlreadyPublishingOnNode | topicNotPublishingOnNode | topicAlreadySubscribingOnNode
  | topicNotSubscribingOnNode | serviceAlreadyServingOnNode | serviceNotServingOnNode
  | serviceAlreadyRequestingOnNode | serviceNotRequestingOnNode | unknownFailed
  deriving DecidableEq

/-! ### Notifications -/

namespace Registry

/-- `Master::DoNotifyClient`. -/
def doNotifyClient (r : Registry) (nodeInfo : NodeInfo) (notification : MasterNotification) :
    List Effect :=
  match r.clientMap.find nodeInfo.clientId with
  | none => []
  | some client =>
    [.notify nodeInfo client.clientInfo.masterNotificationWatcherSource notification]

/-- `Master::NotifySubscriber`. -/
def notifySubscriber (r : Registry) (topic : String) (subscribingNodeInfo : NodeInfo) :
    List Effect :=
  match (r.findNodes { publishingTopic := topic }).head? with
  | none => []
  | some publishingNode =>
    r.doNotifyClient subscribingNodeInfo { topicInfo := publishingNode.getTopicInfo topic }

/-- `Master::NotifyAllSubscribers`, for one topic. The watchers follow the subscribers. -/
def notifyAllSubscribers (r : Registry) (topicInfo : TopicInfo) : List Effect :=
  (r.findNodes { subscribingTopic := topicInfo.topic } ++
    r.findNodes { watcher := true }).flatMap fun n ↦
      r.doNotifyClient n.nodeInfo { topicInfo := some topicInfo }

/-- `Master::NotifyServiceClient`. -/
def notifyServiceClient (r : Registry) (service : String) (clientNodeInfo : NodeInfo) :
    List Effect :=
  match (r.findNodes { servingService := service }).head? with
  | none => []
  | some serverNode =>
    r.doNotifyClient clientNodeInfo { serviceInfo := serverNode.getServiceInfo service }

/-- `Master::NotifyAllServiceClients`, for one service. -/
def notifyAllServiceClients (r : Registry) (serviceInfo : ServiceInfo) : List Effect :=
  (r.findNodes { requestingService := serviceInfo.service }).flatMap fun n ↦
    r.doNotifyClient n.nodeInfo { serviceInfo := some serviceInfo }

/-- `Master::NotifyWatcher`: the first watcher learns of every published topic. -/
def notifyWatcher (r : Registry) : List Effect :=
  match (r.findNodes { watcher := true }).head? with
  | none => []
  | some watcherNode => (r.findTopicInfos { all := true }).flatMap fun topicInfo ↦
      r.doNotifyClient watcherNode.nodeInfo { topicInfo := some topicInfo }

/-! ### Changing one node -/

/-- The half of a handler under the lock: find the node, refuse with a reason or run the operation
on it. -/
def withNode (r : Registry) (nodeInfo : NodeInfo) (refuse : Node → Bool) (reason : Reason)
    (f : Node → Node) : Reason × Registry :=
  match r.findNode nodeInfo with
  | none => (.unknownFailed, r)
  | some n => if refuse n then (reason, r) else (.none, r.updateNode nodeInfo f)

/-- Assumes: a refusal with a reason. The half under the lock leaves the registry unchanged and
gives a reason, or gives none and ran the operation on the node it found. -/
theorem withNode_cases (r : Registry) (nodeInfo : NodeInfo) (refuse : Node → Bool)
    {reason : Reason} (hreason : reason ≠ .none) (f : Node → Node) :
    ((r.withNode nodeInfo refuse reason f).1 ≠ .none ∧
        (r.withNode nodeInfo refuse reason f).2 = r ∧
        ∀ n, r.findNode nodeInfo = some n → refuse n = true) ∨
      ∃ n, r.findNode nodeInfo = some n ∧ refuse n = false ∧
        r.withNode nodeInfo refuse reason f = (.none, r.updateNode nodeInfo f) := by
  unfold withNode
  cases hfind : r.findNode nodeInfo with
  | none => exact Or.inl ⟨by simp, rfl, by simp⟩
  | some n =>
    by_cases hrefuse : refuse n
    · exact Or.inl ⟨by simpa [hrefuse] using hreason, by simp [hrefuse], by simpa using hrefuse⟩
    · exact Or.inr ⟨n, rfl, by simpa using hrefuse, by simp [hrefuse]⟩

/-- Assumes: a node that is found and not refused. -/
theorem withNode_of_find {r : Registry} {nodeInfo : NodeInfo} {n : Node} {refuse : Node → Bool}
    (hfind : r.findNode nodeInfo = some n) (h : refuse n = false) (reason : Reason)
    (f : Node → Node) :
    r.withNode nodeInfo refuse reason f = (.none, r.updateNode nodeInfo f) := by
  simp [withNode, hfind, h]

/-- `Master::DoPublishTopic`, the half under the lock. -/
def publishTopic (r : Registry) (nodeInfo : NodeInfo) (topicInfo : TopicInfo) :
    Reason × Registry :=
  if (r.findNodes { publishingTopic := topicInfo.topic }).length > 0 then
    (.topicAlreadyPublishingOnNode, r)
  else
    r.withNode nodeInfo (fun _ ↦ false) .unknownFailed (Node.registerPublishingTopic topicInfo)

/-- `Master::DoUnpublishTopic`, the half under the lock. -/
def unpublishTopic (r : Registry) (nodeInfo : NodeInfo) (topic : String) : Reason × Registry :=
  r.withNode nodeInfo (fun n ↦ !n.isPublishingTopic topic) .topicNotPublishingOnNode
    (Node.unregisterPublishingTopic topic)

/-- `Master::DoSubscribeTopic`, the half under the lock. -/
def subscribeTopic (r : Registry) (nodeInfo : NodeInfo) (topic : String) : Reason × Registry :=
  r.withNode nodeInfo (·.isSubscribingTopic topic) .topicAlreadySubscribingOnNode
    (Node.registerSubscribingTopic topic)

/-- `Master::DoUnsubscribeTopic`, the half under the lock. -/
def unsubscribeTopic (r : Registry) (nodeInfo : NodeInfo) (topic : String) : Reason × Registry :=
  r.withNode nodeInfo (fun n ↦ !n.isSubscribingTopic topic) .topicNotSubscribingOnNode
    (Node.unregisterSubscribingTopic topic)

/-- `Master::DoRegisterServiceClient`, the half under the lock. -/
def registerServiceClient (r : Registry) (nodeInfo : NodeInfo) (service : String) :
    Reason × Registry :=
  r.withNode nodeInfo (·.isRequestingService service) .serviceAlreadyRequestingOnNode
    (Node.registerRequestingService service)

/-- `Master::DoUnregisterServiceClient`, the half under the lock. -/
def unregisterServiceClient (r : Registry) (nodeInfo : NodeInfo) (service : String) :
    Reason × Registry :=
  r.withNode nodeInfo (fun n ↦ !n.isRequestingService service) .serviceNotRequestingOnNode
    (Node.unregisterRequestingService service)

/-- `Master::DoRegisterServiceServer`, the half under the lock. -/
def registerServiceServer (r : Registry) (nodeInfo : NodeInfo) (serviceInfo : ServiceInfo) :
    Reason × Registry :=
  if (r.findNodes { servingService := serviceInfo.service }).length > 0 then
    (.serviceAlreadyServingOnNode, r)
  else
    r.withNode nodeInfo (fun _ ↦ false) .unknownFailed (Node.registerServingService serviceInfo)

/-- `Master::DoUnregisterServiceServer`, the half under the lock. -/
def unregisterServiceServer (r : Registry) (nodeInfo : NodeInfo) (service : String) :
    Reason × Registry :=
  r.withNode nodeInfo (fun n ↦ !n.isServingService service) .serviceNotServingOnNode
    (Node.unregisterServingService service)

end Registry

/-! ### Tasks -/

/-- What is posted to the master thread, with the callback to run. -/
inductive Task
  | doRegisterClient (client : Client) (callback : StatusOnceCallback)
  | doRegisterNode (node : Node) (callback : StatusOnceCallback)
  | doUnregisterNode (nodeInfo : NodeInfo) (callback : StatusOnceCallback)
  | doListNodes (nodeFilter : NodeFilter) (callback : StatusOnceCallback)
  | doPublishTopic (nodeInfo : NodeInfo) (topicInfo : TopicInfo) (callback : StatusOnceCallback)
  | doUnpublishTopic (nodeInfo : NodeInfo) (topic : String) (callback : StatusOnceCallback)
  | doSubscribeTopic (nodeInfo : NodeInfo) (topic topicType : String)
      (callback : StatusOnceCallback)
  | doUnsubscribeTopic (nodeInfo : NodeInfo) (topic : String) (callback : StatusOnceCallback)
  | doRegisterServiceClient (nodeInfo : NodeInfo) (service : String)
      (callback : StatusOnceCallback)
  | doUnregisterServiceClient (nodeInfo : NodeInfo) (service : String)
      (callback : StatusOnceCallback)
  | doRegisterServiceServer (nodeInfo : NodeInfo) (serviceInfo : ServiceInfo)
      (callback : StatusOnceCallback)
  | doUnregisterServiceServer (nodeInfo : NodeInfo) (service : String)
      (callback : StatusOnceCallback)
  | notifyAllSubscribers (topicInfo : TopicInfo)
  deriving DecidableEq

section Handlers

variable (hasRos : Bool) (ros : RosMasterProxy)

/-- `Master::UnregisterRosTopicsAndServices`. -/
def unregisterRosTopicsAndServices (publishingTopicInfos : List TopicInfo)
    (subscribingTopics : List String) (servingServiceInfos : List ServiceInfo) : List Effect :=
  (publishingTopicInfos.filterMap fun info ↦
      (rosName hasRos info.topic).map fun topic ↦ .ros (.unregisterPublisher topic)) ++
    (subscribingTopics.filterMap fun topic ↦
      (rosName hasRos topic).map fun topic ↦ .ros (.unregisterSubscriber topic)) ++
    servingServiceInfos.filterMap fun info ↦ (rosName hasRos info.service).map fun service ↦
      .ros (.unregisterService service info.serviceSource.firstIpEndpoint)

/-- What follows the removal of a node or a client: its topics and services are announced as
unregistered to the nodes that are left. -/
def notifyRemoved (r : Registry) (publishingTopicInfos : List TopicInfo)
    (subscribingTopics : List String) (servingServiceInfos : List ServiceInfo) : List Effect :=
  (publishingTopicInfos.flatMap fun info ↦
      r.notifyAllSubscribers { info with status := .unregistered }) ++
    (servingServiceInfos.flatMap fun info ↦
      r.notifyAllServiceClients { info with status := .unregistered }) ++
    unregisterRosTopicsAndServices hasRos publishingTopicInfos subscribingTopics
      servingServiceInfos

/-- `Master::RemoveClient`. -/
def removeClient (r : Registry) (clientInfo : ClientInfo) : Option (Registry × List Effect) :=
  (r.eraseClient clientInfo.id).map fun erased ↦
    (erased.1, .log (.removeClient clientInfo.id) ::
      notifyRemoved hasRos erased.1 (erased.2.findTopicInfos { all := true })
        erased.2.findAllSubscribingTopics (erased.2.findServiceInfos { all := true }))

/-- `Master::RemoveNode`. -/
def removeNode (r : Registry) (nodeInfo : NodeInfo) : Option (Registry × List Effect) :=
  (r.eraseNode nodeInfo).map fun r' ↦
    (r', (if r.checkIfClientExists nodeInfo.clientId then [.log (.removeNode nodeInfo)] else []) ++
      match r.findNode nodeInfo with
      | none => []
      | some n => notifyRemoved hasRos r' n.allPublishingTopicInfos n.allSubscribingTopics
          n.allServingServiceInfos)

/-- `Master::DoRegisterClient`, up to the start of the heart beat listener. -/
def doRegisterClient (r : Registry) (client : Client) (callback : StatusOnceCallback) :
    Option (Registry × List Effect) :=
  (r.addClient client.clientInfo.id client).map fun r' ↦
    (r', [.log (.addClient client.clientInfo.id), .reply callback .OK])

/-- `Master::DoRegisterNode`. The answer does not depend on whether the node was added. -/
def doRegisterNode (r : Registry) (node : Node) (callback : StatusOnceCallback) :
    Option (Registry × List Effect) :=
  (r.addNode node).map fun r' ↦
    (r', (if r.checkIfClientExists node.nodeInfo.clientId then [.log (.addNode node.nodeInfo)]
        else []) ++
      .reply callback .OK :: if node.nodeInfo.watcher then r'.notifyWatcher else [])

/-- `Master::DoUnregisterNode`. -/
def doUnregisterNode (r : Registry) (nodeInfo : NodeInfo) (callback : StatusOnceCallback) :
    Option (Registry × List Effect) :=
  (removeNode hasRos r nodeInfo).map fun removed ↦
    (removed.1, removed.2 ++ [.reply callback .OK])

/-- `Master::DoListNodes`. -/
def doListNodes (r : Registry) (nodeFilter : NodeFilter) (callback : StatusOnceCallback) :
    List Effect :=
  let nodes := r.findNodes nodeFilter
  let response : Response :=
    if nodeFilter.name ≠ "" then
      match nodes.head? with
      | none => .listNodes [] [] []
      | some n => .listNodes [] (n.allPublishingTopicInfos.map (·.topic)) n.allSubscribingTopics
    else .listNodes (nodes.map (·.nodeInfo)) [] []
  [.respond callback response, .reply callback .OK]

/-- Whether a topic can be published to ROS, which reaches its publishers by TCP only. -/
def hasTcpChannel (source : ChannelSource) : Bool := source.channelDefs.any (·.type = .tcp)

/-- `Master::DoPublishTopic`. -/
def doPublishTopic (r : Registry) (nodeInfo : NodeInfo) (topicInfo : TopicInfo)
    (callback : StatusOnceCallback) : Registry × List Effect :=
  let published := r.publishTopic nodeInfo topicInfo
  (published.2, match published.1 with
    | .none => .log (.publishTopic nodeInfo topicInfo.topic) ::
      match rosName hasRos topicInfo.topic with
      | some rosTopic =>
        if hasTcpChannel topicInfo.topicSource then
          let call := .registerPublisher rosTopic topicInfo.typeName
          [.ros call, .reply callback (ros.status call)]
        else [.reply callback Errors.rosTopicNeedsTcp]
      | none => .reply callback .OK :: published.2.notifyAllSubscribers topicInfo
    | .topicAlreadyPublishingOnNode =>
      [.reply callback (Errors.topicAlreadyPublishingOnNode nodeInfo topicInfo)]
    | .unknownFailed => [.reply callback (Errors.failedToPublishTopic topicInfo)]
    | _ => [])

/-- `Master::DoUnpublishTopic`. The stored info is copied before it is removed. -/
def doUnpublishTopic (r : Registry) (nodeInfo : NodeInfo) (topic : String)
    (callback : StatusOnceCallback) : Registry × List Effect :=
  let unpublished := r.unpublishTopic nodeInfo topic
  let topicInfo := ((r.findNode nodeInfo).bind (·.getTopicInfo topic)).getD {}
  (unpublished.2, match unpublished.1 with
    | .none => .log (.unpublishTopic nodeInfo topic) ::
      match rosName hasRos topicInfo.topic with
      | some rosTopic =>
        let call := .unregisterPublisher rosTopic
        [.ros call, .reply callback (ros.status call)]
      | none => .reply callback .OK ::
          unpublished.2.notifyAllSubscribers { topicInfo with status := .unregistered }
    | .topicNotPublishingOnNode =>
      [.reply callback (Errors.topicNotPublishingOnNode nodeInfo topic)]
    | .unknownFailed => [.reply callback (Errors.failedToUnpublishTopic topic)]
    | _ => [])

/-- `RosMasterProxy::RegisterSubscriber`: once registered, the subscribers hear of the publisher
that ROS knows, before the request is answered. -/
def rosRegisterSubscriber (r : Registry) (rosTopic topicType : String)
    (callback : StatusOnceCallback) : List Effect :=
  let call := .registerSubscriber rosTopic topicType
  .ros call :: (if (ros.status call).isOk then
      match (ros.pubUpdate rosTopic).topicInfo rosTopic with
      | some topicInfo => r.notifyAllSubscribers topicInfo
      | none => []
    else []) ++ [.reply callback (ros.status call)]

/-- `Master::DoSubscribeTopic`. -/
def doSubscribeTopic (r : Registry) (nodeInfo : NodeInfo) (topic topicType : String)
    (callback : StatusOnceCallback) : Registry × List Effect :=
  let subscribed := r.subscribeTopic nodeInfo topic
  (subscribed.2, match subscribed.1 with
    | .none => .log (.subscribeTopic nodeInfo topic) ::
      match rosName hasRos topic with
      | some rosTopic => rosRegisterSubscriber ros subscribed.2 rosTopic topicType callback
      | none => .reply callback .OK :: subscribed.2.notifySubscriber topic nodeInfo
    | .topicAlreadySubscribingOnNode =>
      [.reply callback (Errors.topicAlreadySubscribingOnNode nodeInfo topic)]
    | .unknownFailed => [.reply callback (Errors.failedToSubscribeTopic topic)]
    | _ => [])

/-- `Master::DoUnsubscribeTopic`. -/
def doUnsubscribeTopic (r : Registry) (nodeInfo : NodeInfo) (topic : String)
    (callback : StatusOnceCallback) : Registry × List Effect :=
  let unsubscribed := r.unsubscribeTopic nodeInfo topic
  (unsubscribed.2, match unsubscribed.1 with
    | .none => .log (.unsubscribeTopic nodeInfo topic) ::
      match rosName hasRos topic with
      | some rosTopic =>
        let call := .unregisterSubscriber rosTopic
        [.ros call, .reply callback (ros.status call)]
      | none => [.reply callback .OK]
    | .topicNotSubscribingOnNode =>
      [.reply callback (Errors.topicNotSubscribingOnNode nodeInfo topic)]
    | .unknownFailed => [.reply callback (Errors.failedToUnsubscribeTopic topic)]
    | _ => [])

/-- `Master::DoRegisterServiceClient`. -/
def doRegisterServiceClient (r : Registry) (nodeInfo : NodeInfo) (service : String)
    (callback : StatusOnceCallback) : Registry × List Effect :=
  let requested := r.registerServiceClient nodeInfo service
  (requested.2, match requested.1 with
    | .none => .log (.registerServiceClient nodeInfo service) ::
      match rosName hasRos service with
      | some rosService =>
        let call := .lookupService rosService
        let source : ChannelSource :=
          ⟨[{ type := .tcp, ipEndpoint := some (ros.ipEndpoint rosService) }]⟩
        [.ros call, .reply callback (ros.status call)] ++
          if (ros.status call).isOk then
            requested.2.doNotifyClient nodeInfo
              { serviceInfo := some { service := service, serviceSource := source } }
          else []
      | none => .reply callback .OK :: requested.2.notifyServiceClient service nodeInfo
    | .serviceAlreadyRequestingOnNode =>
      [.reply callback (Errors.serviceAlreadyRequestingOnNode nodeInfo service)]
    | .unknownFailed => [.reply callback (Errors.failedToRegisterServiceClient service)]
    | _ => [])

/-- `Master::DoUnregisterServiceClient`. It is the one handler that does not tell ROS. -/
def doUnregisterServiceClient (r : Registry) (nodeInfo : NodeInfo) (service : String)
    (callback : StatusOnceCallback) : Registry × List Effect :=
  let unrequested := r.unregisterServiceClient nodeInfo service
  (unrequested.2, match unrequested.1 with
    | .none => [.log (.unregisterServiceClient nodeInfo service), .reply callback .OK]
    | .serviceNotRequestingOnNode =>
      [.reply callback (Errors.serviceNotRequestingOnNode nodeInfo service)]
    | .unknownFailed => [.reply callback (Errors.failedToUnregisterServiceClient service)]
    | _ => [])

/-- `Master::DoRegisterServiceServer`. -/
def doRegisterServiceServer (r : Registry) (nodeInfo : NodeInfo) (serviceInfo : ServiceInfo)
    (callback : StatusOnceCallback) : Registry × List Effect :=
  let served := r.registerServiceServer nodeInfo serviceInfo
  (served.2, match served.1 with
    | .none => .log (.registerServiceServer nodeInfo serviceInfo.service) ::
      match rosName hasRos serviceInfo.service with
      | some rosService =>
        let call := .registerService rosService serviceInfo.serviceSource.firstIpEndpoint
        [.ros call, .reply callback (ros.status call)]
      | none => .reply callback .OK :: served.2.notifyAllServiceClients serviceInfo
    | .serviceAlreadyServingOnNode =>
      [.reply callback (Errors.serviceAlreadyServingOnNode nodeInfo serviceInfo)]
    | .unknownFailed => [.reply callback (Errors.failedToRegisterServiceServer serviceInfo)]
    | _ => [])

/-- `Master::DoUnregisterServiceServer`. The stored info is copied before it is removed. -/
def doUnregisterServiceServer (r : Registry) (nodeInfo : NodeInfo) (service : String)
    (callback : StatusOnceCallback) : Registry × List Effect :=
  let unserved := r.unregisterServiceServer nodeInfo service
  let serviceInfo := ((r.findNode nodeInfo).bind (·.getServiceInfo service)).getD {}
  (unserved.2, match unserved.1 with
    | .none => .log (.unregisterServiceServer nodeInfo service) ::
      match rosName hasRos serviceInfo.service with
      | some rosService =>
        let call := .unregisterService rosService serviceInfo.serviceSource.firstIpEndpoint
        [.ros call, .reply callback (ros.status call)]
      | none => .reply callback .OK ::
          unserved.2.notifyAllServiceClients { serviceInfo with status := .unregistered }
    | .serviceNotServingOnNode =>
      [.reply callback (Errors.serviceNotServingOnNode nodeInfo service)]
    | .unknownFailed => [.reply callback (Errors.failedToUnregisterServiceServer service)]
    | _ => [])

/-- A task on the master thread. -/
def runTask (r : Registry) : Task → Option (Registry × List Effect)
  | .doRegisterClient client callback => doRegisterClient r client callback
  | .doRegisterNode node callback => doRegisterNode r node callback
  | .doUnregisterNode nodeInfo callback => doUnregisterNode hasRos r nodeInfo callback
  | .doListNodes nodeFilter callback => some (r, doListNodes r nodeFilter callback)
  | .doPublishTopic nodeInfo topicInfo callback =>
    some (doPublishTopic hasRos ros r nodeInfo topicInfo callback)
  | .doUnpublishTopic nodeInfo topic callback =>
    some (doUnpublishTopic hasRos ros r nodeInfo topic callback)
  | .doSubscribeTopic nodeInfo topic topicType callback =>
    some (doSubscribeTopic hasRos ros r nodeInfo topic topicType callback)
  | .doUnsubscribeTopic nodeInfo topic callback =>
    some (doUnsubscribeTopic hasRos ros r nodeInfo topic callback)
  | .doRegisterServiceClient nodeInfo service callback =>
    some (doRegisterServiceClient hasRos ros r nodeInfo service callback)
  | .doUnregisterServiceClient nodeInfo service callback =>
    some (doUnregisterServiceClient r nodeInfo service callback)
  | .doRegisterServiceServer nodeInfo serviceInfo callback =>
    some (doRegisterServiceServer hasRos ros r nodeInfo serviceInfo callback)
  | .doUnregisterServiceServer nodeInfo service callback =>
    some (doUnregisterServiceServer hasRos ros r nodeInfo service callback)
  | .notifyAllSubscribers topicInfo => some (r, r.notifyAllSubscribers topicInfo)

end Handlers

/-! ### What the handlers do -/

namespace Registry

/-- A notification of a kind that goes where a registered client listens. -/
def Notifies (r : Registry) (P : MasterNotification → Prop) (e : Effect) : Prop :=
  ∃ nodeInfo notification, P notification ∧ ∃ client ∈ r.clientMap.values,
    e = .notify nodeInfo client.clientInfo.masterNotificationWatcherSource notification

variable (r : Registry)

theorem notifies_doNotifyClient (nodeInfo : NodeInfo) {notification : MasterNotification}
    {P : MasterNotification → Prop} (h : P notification) :
    ∀ e ∈ r.doNotifyClient nodeInfo notification, r.Notifies P e := by
  unfold doNotifyClient
  cases hclient : r.clientMap.find nodeInfo.clientId with
  | none => exact List.forall_mem_nil _
  | some client =>
    have hmem : client ∈ r.clientMap.values := r.clientMap.mem_values_iff.mpr ⟨_, hclient⟩
    exact List.forall_mem_singleton.mpr ⟨nodeInfo, notification, h, client, hmem, rfl⟩

theorem notifies_notifySubscriber (topic : String) (nodeInfo : NodeInfo) :
    ∀ e ∈ r.notifySubscriber topic nodeInfo, r.Notifies (·.serviceInfo = none) e := by
  unfold notifySubscriber
  cases (r.findNodes { publishingTopic := topic }).head? with
  | none => exact List.forall_mem_nil _
  | some n => exact r.notifies_doNotifyClient _ rfl

theorem notifies_notifyAllSubscribers (topicInfo : TopicInfo) :
    ∀ e ∈ r.notifyAllSubscribers topicInfo, r.Notifies (·.serviceInfo = none) e := by
  intro e he
  obtain ⟨n, -, hn⟩ := List.mem_flatMap.mp he
  exact r.notifies_doNotifyClient _ (P := (·.serviceInfo = none)) rfl e hn

theorem notifies_notifyServiceClient (service : String) (nodeInfo : NodeInfo) :
    ∀ e ∈ r.notifyServiceClient service nodeInfo, r.Notifies (·.topicInfo = none) e := by
  unfold notifyServiceClient
  cases (r.findNodes { servingService := service }).head? with
  | none => exact List.forall_mem_nil _
  | some n => exact r.notifies_doNotifyClient _ rfl

theorem notifies_notifyAllServiceClients (serviceInfo : ServiceInfo) :
    ∀ e ∈ r.notifyAllServiceClients serviceInfo, r.Notifies (·.topicInfo = none) e := by
  intro e he
  obtain ⟨n, -, hn⟩ := List.mem_flatMap.mp he
  exact r.notifies_doNotifyClient _ (P := (·.topicInfo = none)) rfl e hn

theorem notifies_notifyWatcher :
    ∀ e ∈ r.notifyWatcher, r.Notifies (·.serviceInfo = none) e := by
  unfold notifyWatcher
  cases (r.findNodes { watcher := true }).head? with
  | none => exact List.forall_mem_nil _
  | some n =>
    intro e he
    obtain ⟨topicInfo, -, htopic⟩ := List.mem_flatMap.mp he
    exact r.notifies_doNotifyClient _ (P := (·.serviceInfo = none)) rfl e htopic

end Registry

theorem of_mem_unregisterRosTopicsAndServices {hasRos : Bool} {infos : List TopicInfo}
    {topics : List String} {services : List ServiceInfo} {e : Effect}
    (h : e ∈ unregisterRosTopicsAndServices hasRos infos topics services) :
    ∃ call, e = .ros call := by
  rcases List.mem_append.mp h with h | h
  · rcases List.mem_append.mp h with h | h
    all_goals
      obtain ⟨a, -, ha⟩ := List.mem_filterMap.mp h
      obtain ⟨name, -, rfl⟩ := Option.map_eq_some_iff.mp ha
      exact ⟨_, rfl⟩
  · obtain ⟨a, -, ha⟩ := List.mem_filterMap.mp h
    obtain ⟨name, -, rfl⟩ := Option.map_eq_some_iff.mp ha
    exact ⟨_, rfl⟩

/-- What a handler of topics or services does: it logs its change, answers, calls ROS and sends
notifications of its kind. -/
inductive Handles (entry : LogEntry) (r : Registry) (P : MasterNotification → Prop) : Effect → Prop
  | log : Handles entry r P (.log entry)
  | reply (callback : StatusOnceCallback) (status : Status) :
      Handles entry r P (.reply callback status)
  | ros (call : RosCall) : Handles entry r P (.ros call)
  | notifies {e : Effect} (h : r.Notifies P e) : Handles entry r P e

section Handles

variable (hasRos : Bool) (ros : RosMasterProxy) (r : Registry) (nodeInfo : NodeInfo)
  (callback : StatusOnceCallback)

theorem handles_doPublishTopic (topicInfo : TopicInfo) :
    ∀ e ∈ (doPublishTopic hasRos ros r nodeInfo topicInfo callback).2,
      Handles (.publishTopic nodeInfo topicInfo.topic)
        (doPublishTopic hasRos ros r nodeInfo topicInfo callback).1 (·.serviceInfo = none) e := by
  unfold doPublishTopic
  dsimp only
  split
  · refine List.forall_mem_cons.mpr ⟨.log, ?_⟩
    cases rosName hasRos topicInfo.topic with
    | none =>
      exact List.forall_mem_cons.mpr
        ⟨.reply _ _, fun e he ↦ .notifies (Registry.notifies_notifyAllSubscribers _ _ e he)⟩
    | some rosTopic =>
      dsimp only
      split_ifs <;> simp [Handles.reply, Handles.ros]
  all_goals simp [Handles.reply]

theorem handles_doUnpublishTopic (topic : String) :
    ∀ e ∈ (doUnpublishTopic hasRos ros r nodeInfo topic callback).2,
      Handles (.unpublishTopic nodeInfo topic)
        (doUnpublishTopic hasRos ros r nodeInfo topic callback).1 (·.serviceInfo = none) e := by
  unfold doUnpublishTopic
  dsimp only
  split
  · refine List.forall_mem_cons.mpr ⟨.log, ?_⟩
    split
    · simp [Handles.reply, Handles.ros]
    · exact List.forall_mem_cons.mpr
        ⟨.reply _ _, fun e he ↦ .notifies (Registry.notifies_notifyAllSubscribers _ _ e he)⟩
  all_goals simp [Handles.reply]

theorem handles_doSubscribeTopic (topic topicType : String) :
    ∀ e ∈ (doSubscribeTopic hasRos ros r nodeInfo topic topicType callback).2,
      Handles (.subscribeTopic nodeInfo topic)
        (doSubscribeTopic hasRos ros r nodeInfo topic topicType callback).1
        (·.serviceInfo = none) e := by
  unfold doSubscribeTopic
  dsimp only
  split
  · refine List.forall_mem_cons.mpr ⟨.log, ?_⟩
    cases rosName hasRos topic with
    | none =>
      exact List.forall_mem_cons.mpr
        ⟨.reply _ _, fun e he ↦ .notifies (Registry.notifies_notifySubscriber _ _ _ e he)⟩
    | some rosTopic =>
      refine List.forall_mem_cons.mpr ⟨.ros _, List.forall_mem_append.mpr
        ⟨?_, by simp [Handles.reply]⟩⟩
      split_ifs
      · cases (ros.pubUpdate rosTopic).topicInfo rosTopic with
        | none => exact List.forall_mem_nil _
        | some info =>
          exact fun e he ↦ .notifies (Registry.notifies_notifyAllSubscribers _ info e he)
      · exact List.forall_mem_nil _
  all_goals simp [Handles.reply]

theorem handles_doUnsubscribeTopic (topic : String) :
    ∀ e ∈ (doUnsubscribeTopic hasRos ros r nodeInfo topic callback).2,
      Handles (.unsubscribeTopic nodeInfo topic)
        (doUnsubscribeTopic hasRos ros r nodeInfo topic callback).1 (·.serviceInfo = none) e := by
  unfold doUnsubscribeTopic
  dsimp only
  split
  · refine List.forall_mem_cons.mpr ⟨.log, ?_⟩
    cases rosName hasRos topic <;> simp [Handles.reply, Handles.ros]
  all_goals simp [Handles.reply]

theorem handles_doRegisterServiceClient (service : String) :
    ∀ e ∈ (doRegisterServiceClient hasRos ros r nodeInfo service callback).2,
      Handles (.registerServiceClient nodeInfo service)
        (doRegisterServiceClient hasRos ros r nodeInfo service callback).1
        (·.topicInfo = none) e := by
  unfold doRegisterServiceClient
  dsimp only
  split
  · refine List.forall_mem_cons.mpr ⟨.log, ?_⟩
    cases rosName hasRos service with
    | none =>
      exact List.forall_mem_cons.mpr
        ⟨.reply _ _, fun e he ↦ .notifies (Registry.notifies_notifyServiceClient _ _ _ e he)⟩
    | some rosService =>
      refine List.forall_mem_append.mpr ⟨by simp [Handles.reply, Handles.ros], ?_⟩
      split_ifs
      · intro e he
        exact .notifies (Registry.notifies_doNotifyClient _ _ (P := (·.topicInfo = none)) rfl e he)
      · exact List.forall_mem_nil _
  all_goals simp [Handles.reply]

theorem handles_doUnregisterServiceClient (service : String) :
    ∀ e ∈ (doUnregisterServiceClient r nodeInfo service callback).2,
      Handles (.unregisterServiceClient nodeInfo service)
        (doUnregisterServiceClient r nodeInfo service callback).1 (·.topicInfo = none) e := by
  unfold doUnregisterServiceClient
  dsimp only
  split
  · exact List.forall_mem_cons.mpr ⟨.log, by simp [Handles.reply]⟩
  all_goals simp [Handles.reply]

theorem handles_doRegisterServiceServer (serviceInfo : ServiceInfo) :
    ∀ e ∈ (doRegisterServiceServer hasRos ros r nodeInfo serviceInfo callback).2,
      Handles (.registerServiceServer nodeInfo serviceInfo.service)
        (doRegisterServiceServer hasRos ros r nodeInfo serviceInfo callback).1
        (·.topicInfo = none) e := by
  unfold doRegisterServiceServer
  dsimp only
  split
  · refine List.forall_mem_cons.mpr ⟨.log, ?_⟩
    cases rosName hasRos serviceInfo.service with
    | none =>
      exact List.forall_mem_cons.mpr
        ⟨.reply _ _, fun e he ↦ .notifies (Registry.notifies_notifyAllServiceClients _ _ e he)⟩
    | some rosService => simp [Handles.reply, Handles.ros]
  all_goals simp [Handles.reply]

theorem handles_doUnregisterServiceServer (service : String) :
    ∀ e ∈ (doUnregisterServiceServer hasRos ros r nodeInfo service callback).2,
      Handles (.unregisterServiceServer nodeInfo service)
        (doUnregisterServiceServer hasRos ros r nodeInfo service callback).1
        (·.topicInfo = none) e := by
  unfold doUnregisterServiceServer
  dsimp only
  split
  · refine List.forall_mem_cons.mpr ⟨.log, ?_⟩
    split
    · simp [Handles.reply, Handles.ros]
    · exact List.forall_mem_cons.mpr
        ⟨.reply _ _, fun e he ↦ .notifies (Registry.notifies_notifyAllServiceClients _ _ e he)⟩
  all_goals simp [Handles.reply]

end Handles

end Felicia
