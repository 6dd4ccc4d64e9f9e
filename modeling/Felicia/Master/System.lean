import Felicia.Master.Tasks
import Felicia.Support.Transition

/-!
# The master as a system

The RPC entries of `felicia/core/master/master.cc`, the queue of the master thread and the heart
beat listeners. An entry runs on an RPC thread: it checks the request against the registry as it is
then, and posts a task. The tasks run later, one at a time and in the order they were posted, and
between them other entries run and heart beat listeners may end. A listener that ends runs
`Master::RemoveClient` for its client (`felicia/core/master/heart_beat_listener.cc`); a listener is
started for every client that `DoRegisterClient` registers, unless heart beats are not checked. In a
build with ROS the ROS master may report the publishers of a topic at any time.

`step` is undefined where the source is: a client for which no id was found is dereferenced, and so
is the end of `client_map_` in `RemoveClient`.

`step_cases` is the inversion every invariant goes through. A step posts tasks that own nothing, or
creates a client or a node and posts the task that owns it, or runs the first task, or removes the
client of a listener (`StepCase`). `runTask_change` says what a task can do to the registry
(`Change`), and `NodeOp` which operation it runs on a node, with the test its handler made before.
-/

set_option autoImplicit false
set_option relaxedAutoImplicit false

namespace Felicia

open Support

/-- How the master was built and configured. -/
structure Build where
  /-- `HAS_ROS`. -/
  hasRos : Bool := false
  /-- `check_heart_beat_`. -/
  checkHeartBeat : Bool := true

/-- The requests of `felicia/core/protobuf/master.proto`. -/
inductive Request
  | registerClient (clientInfo : ClientInfo)
  | listClients (clientFilter : ClientFilter)
  | registerNode (nodeInfo : NodeInfo)
  | unregisterNode (nodeInfo : NodeInfo)
  | listNodes (nodeFilter : NodeFilter)
  | publishTopic (nodeInfo : NodeInfo) (topicInfo : TopicInfo)
  | unpublishTopic (nodeInfo : NodeInfo) (topic : String)
  | subscribeTopic (nodeInfo : NodeInfo) (topic topicType : String)
  | unsubscribeTopic (nodeInfo : NodeInfo) (topic : String)
  | listTopics (topicFilter : TopicFilter)
  | registerServiceClient (nodeInfo : NodeInfo) (service : String)
  | unregisterServiceClient (nodeInfo : NodeInfo) (service : String)
  | registerServiceServer (nodeInfo : NodeInfo) (serviceInfo : ServiceInfo)
  | unregisterServiceServer (nodeInfo : NodeInfo) (service : String)
  | listServices (serviceFilter : ServiceFilter)

/-- The master with its thread's queue and the live heart beat listeners. -/
structure System where
  registry : Registry := {}
  tasks : List Task := []
  listeners : List ClientInfo := []
  deriving DecidableEq

/-- What can happen next. -/
inductive Action
  /-- An RPC arrives, with the environment its check of channel sources sees and the random numbers
  it draws. -/
  | entry (env : ChannelEnv) (rand : ℕ → ℕ) (request : Request) (callback : StatusOnceCallback)
  /-- The master thread runs its next task, with the answers of the ROS master. -/
  | runTask (ros : RosMasterProxy)
  /-- The heart beat listener of a client ends. -/
  | heartBeatLost (clientInfo : ClientInfo)
  /-- The ROS master reports the publishers of a topic. -/
  | pubUpdate (topic : String) (update : PubUpdate)

/-! ### RPC entries -/

namespace System

/-- Answer without posting a task. -/
def answer (s : System) (callback : StatusOnceCallback) (status : Status) : System × List Effect :=
  (s, [.reply callback status])

/-- `thread_->task_runner()->PostTask`. -/
def post (s : System) (task : Task) : System × List Effect :=
  ({ s with tasks := s.tasks ++ [task] }, [])

/-- `CHECK_NODE_EXISTS`: the error that is answered, if any. -/
def checkNodeExists (s : System) (nodeInfo : NodeInfo) : Option Status :=
  if !s.registry.checkIfClientExists nodeInfo.clientId then some Errors.clientNotRegistered
  else if !s.registry.checkIfNodeExists nodeInfo then some (Errors.nodeNotRegistered nodeInfo)
  else none

/-- An entry that posts one task for a node that exists. -/
def postForNode (s : System) (nodeInfo : NodeInfo) (callback : StatusOnceCallback) (task : Task) :
    System × List Effect :=
  match s.checkNodeExists nodeInfo with
  | some error => s.answer callback error
  | none => s.post task

/-- `Master::RegisterClient`. When no id was found the callback is run with an error, and the
client that is not there is used all the same. -/
def registerClient (build : Build) (env : ChannelEnv) (rand : ℕ → ℕ) (s : System)
    (clientInfo : ClientInfo) (callback : StatusOnceCallback) : Option (System × List Effect) :=
  if build.checkHeartBeat && !isValidChannelSource env clientInfo.heartBeatSignallerSource then
    some (s.answer callback (Errors.channelSourceNotValid env "heart beat signaller"
      clientInfo.heartBeatSignallerSource))
  else if !isValidChannelSource env clientInfo.masterNotificationWatcherSource then
    some (s.answer callback (Errors.channelSourceNotValid env "master_notification_watcher"
      clientInfo.masterNotificationWatcherSource))
  else match s.registry.newClient clientInfo rand with
    | (_, none) => none
    | (registry, some client) => some
        ({ s with registry, tasks := s.tasks ++ [.doRegisterClient client callback] },
          [.respond callback (.registerClient client.clientInfo.id)])

/-- `Master::ListClients`. -/
def listClients (s : System) (clientFilter : ClientFilter) (callback : StatusOnceCallback) :
    System × List Effect :=
  let clientInfos := s.registry.clientMap.values.map (·.clientInfo)
  let listed := if clientFilter.all then clientInfos
    else (clientInfos.find? (·.id = clientFilter.id)).toList
  (s, [.respond callback (.listClients listed), .reply callback .OK])

/-- `Master::RegisterNode`. -/
def registerNode (rand : ℕ → ℕ) (s : System) (nodeInfo : NodeInfo)
    (callback : StatusOnceCallback) : System × List Effect :=
  if !s.registry.checkIfClientExists nodeInfo.clientId then
    s.answer callback Errors.clientNotRegistered
  else if nodeInfo.watcher && (s.registry.findNodes { watcher := true }).length ≠ 0 then
    s.answer callback Errors.watcherNodeAlreadyRegistered
  else match s.registry.newNode nodeInfo rand with
    | (registry, none) =>
      { s with registry }.answer callback (Errors.nodeAlreadyRegistered nodeInfo)
    | (registry, some node) =>
      ({ s with registry, tasks := s.tasks ++ [.doRegisterNode node callback] },
        [.respond callback (.registerNode node.nodeInfo)])

/-- `Master::PublishTopic`. -/
def publishTopic (env : ChannelEnv) (s : System) (nodeInfo : NodeInfo) (topicInfo : TopicInfo)
    (callback : StatusOnceCallback) : System × List Effect :=
  match s.checkNodeExists nodeInfo with
  | some error => s.answer callback error
  | none =>
    if !isValidChannelSource env topicInfo.topicSource then
      s.answer callback
        (Errors.channelSourceNotValid env "topic source" topicInfo.topicSource)
    else s.post (.doPublishTopic nodeInfo topicInfo callback)

/-- `Master::RegisterServiceServer`. -/
def registerServiceServer (env : ChannelEnv) (s : System) (nodeInfo : NodeInfo)
    (serviceInfo : ServiceInfo) (callback : StatusOnceCallback) : System × List Effect :=
  match s.checkNodeExists nodeInfo with
  | some error => s.answer callback error
  | none =>
    if !isValidChannelSource env serviceInfo.serviceSource then
      s.answer callback
        (Errors.channelSourceNotValid env "service source" serviceInfo.serviceSource)
    else s.post (.doRegisterServiceServer nodeInfo serviceInfo callback)

/-- The RPC entries of the master. -/
def entry (build : Build) (env : ChannelEnv) (rand : ℕ → ℕ) (s : System)
    (callback : StatusOnceCallback) : Request → Option (System × List Effect)
  | .registerClient clientInfo => registerClient build env rand s clientInfo callback
  | .listClients clientFilter => some (s.listClients clientFilter callback)
  | .registerNode nodeInfo => some (registerNode rand s nodeInfo callback)
  | .unregisterNode nodeInfo =>
    some (s.postForNode nodeInfo callback (.doUnregisterNode nodeInfo callback))
  | .listNodes nodeFilter => some (s.post (.doListNodes nodeFilter callback))
  | .publishTopic nodeInfo topicInfo => some (publishTopic env s nodeInfo topicInfo callback)
  | .unpublishTopic nodeInfo topic =>
    some (s.postForNode nodeInfo callback (.doUnpublishTopic nodeInfo topic callback))
  | .subscribeTopic nodeInfo topic topicType =>
    some (s.postForNode nodeInfo callback (.doSubscribeTopic nodeInfo topic topicType callback))
  | .unsubscribeTopic nodeInfo topic =>
    some (s.postForNode nodeInfo callback (.doUnsubscribeTopic nodeInfo topic callback))
  | .listTopics topicFilter => some
      (s, [.respond callback (.listTopics (s.registry.findTopicInfos topicFilter)),
        .reply callback .OK])
  | .registerServiceClient nodeInfo service =>
    some (s.postForNode nodeInfo callback (.doRegisterServiceClient nodeInfo service callback))
  | .unregisterServiceClient nodeInfo service =>
    some (s.postForNode nodeInfo callback (.doUnregisterServiceClient nodeInfo service callback))
  | .registerServiceServer nodeInfo serviceInfo =>
    some (registerServiceServer env s nodeInfo serviceInfo callback)
  | .unregisterServiceServer nodeInfo service =>
    some (s.postForNode nodeInfo callback (.doUnregisterServiceServer nodeInfo service callback))
  | .listServices serviceFilter => some
      (s, [.respond callback (.listServices (s.registry.findServiceInfos serviceFilter)),
        .reply callback .OK])

/-- `Master::DoCheckHeartBeat`, run at the end of `DoRegisterClient`. -/
def startedListeners (build : Build) : Task → List ClientInfo
  | .doRegisterClient client _ => if build.checkHeartBeat then [client.clientInfo] else []
  | _ => []

/-- One step of the system. A thread without a task, a client without a listener and a build
without ROS have nothing to do. -/
def step (build : Build) (s : System) : Action → Option (System × List Effect)
  | .entry env rand request callback => entry build env rand s callback request
  | .runTask ros =>
    match s.tasks with
    | [] => some (s, [])
    | task :: rest => (runTask build.hasRos ros s.registry task).map fun result ↦
        ({ registry := result.1, tasks := rest
           listeners := s.listeners ++ startedListeners build task }, result.2)
  | .heartBeatLost clientInfo =>
    if clientInfo ∈ s.listeners then
      (removeClient build.hasRos s.registry clientInfo).map fun result ↦
        ({ s with registry := result.1, listeners := s.listeners.erase clientInfo }, result.2)
    else some (s, [])
  | .pubUpdate topic update =>
    match build.hasRos, update.topicInfo topic with
    | true, some topicInfo => some (s.post (.notifyAllSubscribers topicInfo))
    | _, _ => some (s, [])

end System

/-- The master as a transition system that starts with an empty registry. -/
def master (build : Build) : TransitionSystem System Action Effect where
  Initial s := s = {}
  step := System.step build

/-! ### What a task can do -/

/-- The node a posted task owns. -/
def Task.node? : Task → Option Node
  | .doRegisterNode node _ => some node
  | _ => none

/-- The client a posted task owns. -/
def Task.client? : Task → Option Client
  | .doRegisterClient client _ => some client
  | _ => none

/-- A task that owns neither a client nor a node. -/
def Task.Plain (task : Task) : Prop := task.node? = none ∧ task.client? = none

/-- The operation that a task runs on the node it found, with the test its handler made before. -/
inductive NodeOp (r : Registry) (n : Node) (nodeInfo : NodeInfo) : Task → (Node → Node) → Prop
  | publish (topicInfo : TopicInfo) (callback : StatusOnceCallback)
      (h : r.findNodes { publishingTopic := topicInfo.topic } = []) :
      NodeOp r n nodeInfo (.doPublishTopic nodeInfo topicInfo callback)
        (Node.registerPublishingTopic topicInfo)
  | unpublish (topic : String) (callback : StatusOnceCallback)
      (h : n.isPublishingTopic topic = true) :
      NodeOp r n nodeInfo (.doUnpublishTopic nodeInfo topic callback)
        (Node.unregisterPublishingTopic topic)
  | subscribe (topic topicType : String) (callback : StatusOnceCallback)
      (h : n.isSubscribingTopic topic = false) :
      NodeOp r n nodeInfo (.doSubscribeTopic nodeInfo topic topicType callback)
        (Node.registerSubscribingTopic topic)
  | unsubscribe (topic : String) (callback : StatusOnceCallback)
      (h : n.isSubscribingTopic topic = true) :
      NodeOp r n nodeInfo (.doUnsubscribeTopic nodeInfo topic callback)
        (Node.unregisterSubscribingTopic topic)
  | request (service : String) (callback : StatusOnceCallback)
      (h : n.isRequestingService service = false) :
      NodeOp r n nodeInfo (.doRegisterServiceClient nodeInfo service callback)
        (Node.registerRequestingService service)
  | unrequest (service : String) (callback : StatusOnceCallback)
      (h : n.isRequestingService service = true) :
      NodeOp r n nodeInfo (.doUnregisterServiceClient nodeInfo service callback)
        (Node.unregisterRequestingService service)
  | serve (serviceInfo : ServiceInfo) (callback : StatusOnceCallback)
      (h : r.findNodes { servingService := serviceInfo.service } = []) :
      NodeOp r n nodeInfo (.doRegisterServiceServer nodeInfo serviceInfo callback)
        (Node.registerServingService serviceInfo)
  | unserve (service : String) (callback : StatusOnceCallback)
      (h : n.isServingService service = true) :
      NodeOp r n nodeInfo (.doUnregisterServiceServer nodeInfo service callback)
        (Node.unregisterServingService service)

namespace NodeOp

variable {r : Registry} {n : Node} {nodeInfo : NodeInfo} {task : Task} {f : Node → Node}

theorem keepsInfo (h : NodeOp r n nodeInfo task f) : Node.KeepsInfo f := by
  cases h with
  | publish => exact Node.keepsInfo_registerPublishingTopic _
  | unpublish => exact Node.keepsInfo_unregisterPublishingTopic _
  | subscribe => exact Node.keepsInfo_registerSubscribingTopic _
  | unsubscribe => exact Node.keepsInfo_unregisterSubscribingTopic _
  | request => exact Node.keepsInfo_registerRequestingService _
  | unrequest => exact Node.keepsInfo_unregisterRequestingService _
  | serve => exact Node.keepsInfo_registerServingService _
  | unserve => exact Node.keepsInfo_unregisterServingService _

theorem plain (h : NodeOp r n nodeInfo task f) : task.Plain := by
  cases h <;> exact ⟨rfl, rfl⟩

end NodeOp

/-- An answer to a request: a callback run or a response filled in. -/
def Effect.IsAnswer : Effect → Prop
  | .reply _ _ | .respond _ _ => True
  | _ => False

/-- What a task does to the registry, and what it says when it changes nothing. -/
inductive Change (r : Registry) : Task → Registry → List Effect → Prop
  | answered {task : Task} {effects : List Effect} (hplain : task.Plain)
      (hanswer : ∀ e ∈ effects, e.IsAnswer) : Change r task r effects
  | notified (topicInfo : TopicInfo) :
      Change r (.notifyAllSubscribers topicInfo) r (r.notifyAllSubscribers topicInfo)
  | addClient {client : Client} {callback : StatusOnceCallback} {r' : Registry}
      {effects : List Effect} (h : r.addClient client.clientInfo.id client = some r') :
      Change r (.doRegisterClient client callback) r' effects
  | addNode {node : Node} {callback : StatusOnceCallback} {r' : Registry} {effects : List Effect}
      (h : r.addNode node = some r') : Change r (.doRegisterNode node callback) r' effects
  | eraseNode {nodeInfo : NodeInfo} {callback : StatusOnceCallback} {r' : Registry}
      {effects : List Effect} (h : r.eraseNode nodeInfo = some r') :
      Change r (.doUnregisterNode nodeInfo callback) r' effects
  | update {task : Task} {nodeInfo : NodeInfo} {n : Node} {f : Node → Node}
      {effects : List Effect} (hfind : r.findNode nodeInfo = some n)
      (hop : NodeOp r n nodeInfo task f) : Change r task (r.updateNode nodeInfo f) effects

/-- Assumes: a task that owns nothing, a refusal with a reason, a node operation that the handler
may run on a node it did not refuse, and a handler that only answers when it refused. -/
theorem Change.of_withNode {r : Registry} {task : Task} (hplain : task.Plain)
    {nodeInfo : NodeInfo} {refuse : Node → Bool} {reason : Reason} (hreason : reason ≠ .none)
    {f : Node → Node} (hop : ∀ n, refuse n = false → NodeOp r n nodeInfo task f)
    {effects : List Effect}
    (hanswer : (r.withNode nodeInfo refuse reason f).1 ≠ .none → ∀ e ∈ effects, e.IsAnswer) :
    Change r task (r.withNode nodeInfo refuse reason f).2 effects := by
  rcases r.withNode_cases nodeInfo refuse hreason f with
    ⟨hrefused, hsame, -⟩ | ⟨n, hfind, hn, hupdate⟩
  · rw [hsame]
    exact .answered hplain (hanswer hrefused)
  · rw [hupdate]
    exact .update hfind (hop n hn)

/-- A task adds the client or the node it owns, removes a node, runs one operation on one node, or
leaves the registry as it is. -/
theorem runTask_change {hasRos : Bool} {ros : RosMasterProxy} {r r' : Registry} {task : Task}
    {effects : List Effect} (h : runTask hasRos ros r task = some (r', effects)) :
    Change r task r' effects := by
  cases task with
  | doRegisterClient client callback =>
    obtain ⟨r'', hadd, heq⟩ := Option.map_eq_some_iff.mp h
    cases heq
    exact .addClient hadd
  | doRegisterNode node callback =>
    obtain ⟨r'', hadd, heq⟩ := Option.map_eq_some_iff.mp h
    cases heq
    exact .addNode hadd
  | doUnregisterNode nodeInfo callback =>
    obtain ⟨removed, hremove, heq⟩ := Option.map_eq_some_iff.mp h
    cases heq
    obtain ⟨r'', herase, rfl⟩ := Option.map_eq_some_iff.mp hremove
    exact .eraseNode herase
  | doListNodes nodeFilter callback =>
    cases h
    exact .answered ⟨rfl, rfl⟩ (by simp [doListNodes, Effect.IsAnswer])
  | doPublishTopic nodeInfo topicInfo callback =>
    cases h
    by_cases hfound : (r.findNodes { publishingTopic := topicInfo.topic }).length > 0
    · simp only [Registry.publishTopic, if_pos hfound]
      exact .answered ⟨rfl, rfl⟩ (by simp [Effect.IsAnswer])
    · have hnil : r.findNodes { publishingTopic := topicInfo.topic } = [] :=
        List.eq_nil_of_length_eq_zero (by omega)
      simp only [Registry.publishTopic, if_neg hfound]
      refine .of_withNode ⟨rfl, rfl⟩ (by simp) (fun n _ ↦ .publish topicInfo callback hnil) ?_
      intro hrefused
      split <;> simp_all [Effect.IsAnswer]
  | doUnpublishTopic nodeInfo topic callback =>
    cases h
    refine .of_withNode ⟨rfl, rfl⟩ (by simp)
      (fun n hn ↦ .unpublish topic callback (by simpa using hn)) ?_
    intro hrefused
    simp only [Registry.unpublishTopic]
    split <;> simp_all [Effect.IsAnswer]
  | doSubscribeTopic nodeInfo topic topicType callback =>
    cases h
    refine .of_withNode ⟨rfl, rfl⟩ (by simp)
      (fun n hn ↦ .subscribe topic topicType callback hn) ?_
    intro hrefused
    simp only [Registry.subscribeTopic]
    split <;> simp_all [Effect.IsAnswer]
  | doUnsubscribeTopic nodeInfo topic callback =>
    cases h
    refine .of_withNode ⟨rfl, rfl⟩ (by simp)
      (fun n hn ↦ .unsubscribe topic callback (by simpa using hn)) ?_
    intro hrefused
    simp only [Registry.unsubscribeTopic]
    split <;> simp_all [Effect.IsAnswer]
  | doRegisterServiceClient nodeInfo service callback =>
    cases h
    refine .of_withNode ⟨rfl, rfl⟩ (by simp) (fun n hn ↦ .request service callback hn) ?_
    intro hrefused
    simp only [Registry.registerServiceClient]
    split <;> simp_all [Effect.IsAnswer]
  | doUnregisterServiceClient nodeInfo service callback =>
    cases h
    refine .of_withNode ⟨rfl, rfl⟩ (by simp)
      (fun n hn ↦ .unrequest service callback (by simpa using hn)) ?_
    intro hrefused
    simp only [Registry.unregisterServiceClient]
    split <;> simp_all [Effect.IsAnswer]
  | doRegisterServiceServer nodeInfo serviceInfo callback =>
    cases h
    by_cases hfound : (r.findNodes { servingService := serviceInfo.service }).length > 0
    · simp only [Registry.registerServiceServer, if_pos hfound]
      exact .answered ⟨rfl, rfl⟩ (by simp [Effect.IsAnswer])
    · have hnil : r.findNodes { servingService := serviceInfo.service } = [] :=
        List.eq_nil_of_length_eq_zero (by omega)
      simp only [Registry.registerServiceServer, if_neg hfound]
      refine .of_withNode ⟨rfl, rfl⟩ (by simp) (fun n _ ↦ .serve serviceInfo callback hnil) ?_
      intro hrefused
      split <;> simp_all [Effect.IsAnswer]
  | doUnregisterServiceServer nodeInfo service callback =>
    cases h
    refine .of_withNode ⟨rfl, rfl⟩ (by simp)
      (fun n hn ↦ .unserve service callback (by simpa using hn)) ?_
    intro hrefused
    simp only [Registry.unregisterServiceServer]
    split <;> simp_all [Effect.IsAnswer]
  | notifyAllSubscribers topicInfo =>
    cases h
    exact .notified topicInfo

/-! ### What a step can do -/

/-- The task that the entry of a request posts once its checks are passed, for the entries that
create neither a client nor a node. -/
def Request.task? (callback : StatusOnceCallback) : Request → Option Task
  | .unregisterNode nodeInfo => some (.doUnregisterNode nodeInfo callback)
  | .listNodes nodeFilter => some (.doListNodes nodeFilter callback)
  | .publishTopic nodeInfo topicInfo => some (.doPublishTopic nodeInfo topicInfo callback)
  | .unpublishTopic nodeInfo topic => some (.doUnpublishTopic nodeInfo topic callback)
  | .subscribeTopic nodeInfo topic topicType =>
    some (.doSubscribeTopic nodeInfo topic topicType callback)
  | .unsubscribeTopic nodeInfo topic => some (.doUnsubscribeTopic nodeInfo topic callback)
  | .registerServiceClient nodeInfo service =>
    some (.doRegisterServiceClient nodeInfo service callback)
  | .unregisterServiceClient nodeInfo service =>
    some (.doUnregisterServiceClient nodeInfo service callback)
  | .registerServiceServer nodeInfo serviceInfo =>
    some (.doRegisterServiceServer nodeInfo serviceInfo callback)
  | .unregisterServiceServer nodeInfo service =>
    some (.doUnregisterServiceServer nodeInfo service callback)
  | _ => none

/-- A task that an action can post, other than for a new client or a new node. -/
def Action.Posts : Action → Task → Prop
  | .entry _ _ request callback, task => request.task? callback = some task
  | .pubUpdate topic update, task =>
    ∃ topicInfo, update.topicInfo topic = some topicInfo ∧ task = .notifyAllSubscribers topicInfo
  | _, _ => False

theorem Action.Posts.plain {a : Action} {task : Task} (h : a.Posts task) : task.Plain := by
  cases a with
  | entry env rand request callback =>
    cases request <;> cases h <;> exact ⟨rfl, rfl⟩
  | pubUpdate topic update =>
    obtain ⟨topicInfo, -, rfl⟩ := h
    exact ⟨rfl, rfl⟩
  | runTask ros => cases h
  | heartBeatLost clientInfo => cases h

/-- The graph of `System.step`, with what each kind of step knows. -/
inductive StepCase (build : Build) (s : System) : Action → System → List Effect → Prop
  | post {a : Action} {effects : List Effect} (new : List Task) (hposts : ∀ t ∈ new, a.Posts t)
      (hanswer : ∀ e ∈ effects, e.IsAnswer) :
      StepCase build s a { s with tasks := s.tasks ++ new } effects
  | newClient {env : ChannelEnv} {rand : ℕ → ℕ} {requested : ClientInfo}
      {callback : StatusOnceCallback} (clientInfo : ClientInfo)
      (hvalid : clientInfo.id ≠ invalidId)
      (hfresh : s.registry.idGenerator.isIn clientInfo.id = false) :
      StepCase build s (.entry env rand (.registerClient requested) callback)
        { s with
          registry :=
            { s.registry with idGenerator := s.registry.idGenerator.add clientInfo.id }
          tasks := s.tasks ++ [.doRegisterClient { clientInfo } callback] }
        [.respond callback (.registerClient clientInfo.id)]
  | newNode {env : ChannelEnv} {rand : ℕ → ℕ} {requested : NodeInfo}
      {callback : StatusOnceCallback} (nodeInfo : NodeInfo) (hname : nodeInfo.name ≠ "")
      (hsame : nodeInfo = { requested with name := nodeInfo.name })
      (hfresh : s.registry.nameGenerator.isIn nodeInfo.name = false)
      (hclient : s.registry.checkIfClientExists nodeInfo.clientId = true)
      (hwatcher : nodeInfo.watcher = true → s.registry.findNodes { watcher := true } = []) :
      StepCase build s (.entry env rand (.registerNode requested) callback)
        { s with
          registry :=
            { s.registry with nameGenerator := s.registry.nameGenerator.add nodeInfo.name }
          tasks := s.tasks ++ [.doRegisterNode { nodeInfo } callback] }
        [.respond callback (.registerNode nodeInfo)]
  | task {ros : RosMasterProxy} {task : Task} {rest : List Task} {r' : Registry}
      {effects : List Effect} (htasks : s.tasks = task :: rest)
      (hrun : runTask build.hasRos ros s.registry task = some (r', effects)) :
      StepCase build s (.runTask ros)
        { registry := r', tasks := rest
          listeners := s.listeners ++ System.startedListeners build task } effects
  | removeClient {clientInfo : ClientInfo} {r' : Registry} {effects : List Effect}
      (hlistener : clientInfo ∈ s.listeners)
      (hremove : removeClient build.hasRos s.registry clientInfo = some (r', effects)) :
      StepCase build s (.heartBeatLost clientInfo)
        { s with registry := r', listeners := s.listeners.erase clientInfo } effects

namespace StepCase

variable {build : Build} {s : System} {a : Action}

theorem of_eq {result : System × List Effect} {s' : System} {effects : List Effect}
    (h : some result = some (s', effects)) (hcase : StepCase build s a result.1 result.2) :
    StepCase build s a s' effects := by
  obtain rfl := Option.some.inj h
  exact hcase

/-- A step that only answers. -/
theorem answered {effects : List Effect} (hanswer : ∀ e ∈ effects, e.IsAnswer) :
    StepCase build s a s effects := by
  have h : StepCase build s a { s with tasks := s.tasks ++ [] } effects :=
    .post [] (by simp) hanswer
  rwa [List.append_nil] at h

theorem answer (callback : StatusOnceCallback) (status : Status) :
    StepCase build s a (s.answer callback status).1 (s.answer callback status).2 :=
  answered (by simp [System.answer, Effect.IsAnswer])

theorem posted (task : Task) (hposts : a.Posts task) :
    StepCase build s a (s.post task).1 (s.post task).2 :=
  .post [task] (List.forall_mem_singleton.mpr hposts) (List.forall_mem_nil _)

theorem postForNode (nodeInfo : NodeInfo) (callback : StatusOnceCallback) (task : Task)
    (hposts : a.Posts task) : StepCase build s a (s.postForNode nodeInfo callback task).1
      (s.postForNode nodeInfo callback task).2 := by
  unfold System.postForNode
  cases s.checkNodeExists nodeInfo with
  | some error => exact answer callback error
  | none => exact posted task hposts

theorem registerClient {env : ChannelEnv} {rand : ℕ → ℕ} {clientInfo : ClientInfo}
    {callback : StatusOnceCallback} {s' : System} {effects : List Effect}
    (h : System.registerClient build env rand s clientInfo callback = some (s', effects)) :
    StepCase build s (.entry env rand (.registerClient clientInfo) callback) s' effects := by
  unfold System.registerClient at h
  split_ifs at h
  · cases h
    exact answer _ _
  · cases h
    exact answer _ _
  · rcases s.registry.idGenerator.generate_cases invalidId (randId rand) with hgen | ⟨k, hk, hgen⟩
    · simp [Registry.newClient, hgen] at h
    · simp only [Registry.newClient, hgen, randId_ne_invalidId, ↓reduceIte] at h
      cases h
      exact .newClient { clientInfo with id := randId rand k } (randId_ne_invalidId rand k) hk

theorem registerNode (env : ChannelEnv) (rand : ℕ → ℕ) (nodeInfo : NodeInfo)
    (callback : StatusOnceCallback) :
    StepCase build s (.entry env rand (.registerNode nodeInfo) callback)
      (System.registerNode rand s nodeInfo callback).1
      (System.registerNode rand s nodeInfo callback).2 := by
  unfold System.registerNode
  split_ifs with hclient hwatcher
  · exact answer _ _
  · exact answer _ _
  · have hclient' : s.registry.checkIfClientExists nodeInfo.clientId = true := by
      simpa using hclient
    have hwatcher' : nodeInfo.watcher = true → s.registry.findNodes { watcher := true } = [] := by
      intro hw
      simpa [hw] using hwatcher
    by_cases hname : nodeInfo.name = ""
    · rcases s.registry.nameGenerator.generate_cases "" (randName rand) with hgen | ⟨k, hk, hgen⟩
      · simp only [Registry.newNode, hname, ne_eq, not_true_eq_false, ↓reduceIte, hgen]
        exact answer _ _
      · simp only [Registry.newNode, hname, ne_eq, not_true_eq_false, ↓reduceIte, hgen,
          randName_ne_empty]
        exact .newNode { nodeInfo with name := randName rand k } (randName_ne_empty rand k) rfl hk
          hclient' hwatcher'
    · by_cases hin : s.registry.nameGenerator.isIn nodeInfo.name
      · simp only [Registry.newNode, ne_eq, hname, not_false_eq_true, ↓reduceIte, hin]
        exact answer _ _
      · simp only [Registry.newNode, ne_eq, hname, not_false_eq_true, ↓reduceIte, hin]
        exact .newNode nodeInfo hname rfl (by simpa using hin) hclient' hwatcher'

theorem publishTopic (env : ChannelEnv) (rand : ℕ → ℕ) (nodeInfo : NodeInfo)
    (topicInfo : TopicInfo) (callback : StatusOnceCallback) :
    StepCase build s (.entry env rand (.publishTopic nodeInfo topicInfo) callback)
      (System.publishTopic env s nodeInfo topicInfo callback).1
      (System.publishTopic env s nodeInfo topicInfo callback).2 := by
  unfold System.publishTopic
  cases s.checkNodeExists nodeInfo with
  | some error => exact answer callback error
  | none =>
    dsimp only
    split_ifs
    · exact answer _ _
    · exact posted _ rfl

theorem registerServiceServer (env : ChannelEnv) (rand : ℕ → ℕ) (nodeInfo : NodeInfo)
    (serviceInfo : ServiceInfo) (callback : StatusOnceCallback) :
    StepCase build s (.entry env rand (.registerServiceServer nodeInfo serviceInfo) callback)
      (System.registerServiceServer env s nodeInfo serviceInfo callback).1
      (System.registerServiceServer env s nodeInfo serviceInfo callback).2 := by
  unfold System.registerServiceServer
  cases s.checkNodeExists nodeInfo with
  | some error => exact answer callback error
  | none =>
    dsimp only
    split_ifs
    · exact answer _ _
    · exact posted _ rfl

end StepCase

/-- Every defined step of the system is one of the kinds of `StepCase`. -/
theorem step_cases {build : Build} {s s' : System} {a : Action} {effects : List Effect}
    (h : System.step build s a = some (s', effects)) : StepCase build s a s' effects := by
  cases a with
  | entry env rand request callback =>
    cases request with
    | registerClient clientInfo => exact .registerClient h
    | listClients clientFilter =>
      cases h
      exact .answered (by simp [Effect.IsAnswer])
    | registerNode nodeInfo =>
      exact .of_eq h (.registerNode env rand nodeInfo callback)
    | unregisterNode nodeInfo =>
      exact .of_eq h (.postForNode _ _ _ rfl)
    | listNodes nodeFilter =>
      cases h
      exact .posted _ rfl
    | publishTopic nodeInfo topicInfo =>
      exact .of_eq h (.publishTopic env rand nodeInfo topicInfo callback)
    | unpublishTopic nodeInfo topic =>
      exact .of_eq h (.postForNode _ _ _ rfl)
    | subscribeTopic nodeInfo topic topicType =>
      exact .of_eq h (.postForNode _ _ _ rfl)
    | unsubscribeTopic nodeInfo topic =>
      exact .of_eq h (.postForNode _ _ _ rfl)
    | listTopics topicFilter =>
      cases h
      exact .answered (by simp [Effect.IsAnswer])
    | registerServiceClient nodeInfo service =>
      exact .of_eq h (.postForNode _ _ _ rfl)
    | unregisterServiceClient nodeInfo service =>
      exact .of_eq h (.postForNode _ _ _ rfl)
    | registerServiceServer nodeInfo serviceInfo =>
      exact .of_eq h (.registerServiceServer env rand nodeInfo serviceInfo callback)
    | unregisterServiceServer nodeInfo service =>
      exact .of_eq h (.postForNode _ _ _ rfl)
    | listServices serviceFilter =>
      cases h
      exact .answered (by simp [Effect.IsAnswer])
  | runTask ros =>
    unfold System.step at h
    cases htasks : s.tasks with
    | nil =>
      simp only [htasks] at h
      cases h
      exact .answered (by simp)
    | cons task rest =>
      simp only [htasks] at h
      obtain ⟨result, hrun, heq⟩ := Option.map_eq_some_iff.mp h
      cases heq
      exact .task htasks hrun
  | heartBeatLost clientInfo =>
    simp only [System.step] at h
    split_ifs at h with hlistener
    · obtain ⟨result, hremove, heq⟩ := Option.map_eq_some_iff.mp h
      cases heq
      exact .removeClient hlistener hremove
    · cases h
      exact .answered (by simp)
  | pubUpdate topic update =>
    simp only [System.step] at h
    split at h
    · rename_i topicInfo _ hinfo
      cases h
      exact .posted _ ⟨topicInfo, hinfo, rfl⟩
    · cases h
      exact .answered (by simp)

/-- Assumes: a property of the waiting tasks that the tasks a step posts have too. -/
theorem StepCase.forall_tasks {build : Build} {s s' : System} {a : Action} {effects : List Effect}
    (hcase : StepCase build s a s' effects) {P : Task → Prop} (hposts : ∀ t, a.Posts t → P t)
    (hclient : ∀ client callback, P (.doRegisterClient client callback))
    (hnode : ∀ node callback, P (.doRegisterNode node callback)) (h : ∀ t ∈ s.tasks, P t) :
    ∀ t ∈ s'.tasks, P t := by
  cases hcase with
  | post new hnew => exact List.forall_mem_append.mpr ⟨h, fun t ht ↦ hposts t (hnew t ht)⟩
  | newClient =>
    exact List.forall_mem_append.mpr ⟨h, List.forall_mem_singleton.mpr (hclient _ _)⟩
  | newNode => exact List.forall_mem_append.mpr ⟨h, List.forall_mem_singleton.mpr (hnode _ _)⟩
  | task htasks =>
    rw [htasks] at h
    exact (List.forall_mem_cons.mp h).2
  | removeClient => exact h

/-! ### Inputs of the concrete runs -/

namespace Scenario

/-- A host where every address is an IP literal. -/
def env : ChannelEnv where
  assignFromIPLiteral _ := true
  resolveHost _ := none
  debugString _ := ""

/-- A ROS master that accepts every call. -/
def ros : RosMasterProxy where
  status _ := .OK
  ipEndpoint _ := default
  pubUpdate _ := .noAnswer

/-- A source that passes every check. -/
def source : ChannelSource := ⟨[{ type := .shm }]⟩

/-- The request of a client for which the id `id` is drawn. -/
def client (id : ℕ) : Action :=
  .entry env (fun _ ↦ id) (.registerClient { heartBeatSignallerSource := source
                                             masterNotificationWatcherSource := source }) 0

/-- A source with a single TCP channel. -/
def tcpSource : ChannelSource :=
  ⟨[{ type := .tcp, ipEndpoint := some { ip := "127.0.0.1" } }]⟩

/-- The info of a client with TCP channels and the id 7. -/
def tcpClientInfo : ClientInfo where
  id := 7
  heartBeatSignallerSource := tcpSource
  masterNotificationWatcherSource := tcpSource

/-- The request of that client. -/
def tcpClient : Action := .entry env (fun _ ↦ 7) (.registerClient tcpClientInfo) 0

/-- A request that draws no random number. -/
def request (r : Request) : Action := .entry env (fun _ ↦ 0) r 1

/-- The master thread runs a task. -/
def run : Action := .runTask ros

/-- A node of the client with id 7. -/
def node (name : String) : NodeInfo := { name, clientId := 7 }

end Scenario

end Felicia
