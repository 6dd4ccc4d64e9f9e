import Felicia.Master.ErrorAtomicity

/-!
# One answer to each request

Every request carries a `StatusOnceCallback`, which is run either by the entry itself or by the one
task that the entry posts. `callbacksRun` lists the callbacks that a step runs. Each handler of the
master thread runs the callback of its task once, whatever reason it settled
(`callbacksRun_runTask`), and each entry either answers or posts (`EntryCase`).

The exception is `Master::RegisterClient`: when no id was found it answers with
`errors::FailedToRegisterClient` and goes on with the client that is not there. `entry_eq_none_iff`
says when that happens.
-/

set_option autoImplicit false
set_option relaxedAutoImplicit false

namespace Felicia

open Support TransitionSystem

/-! ### The callbacks a step runs -/

/-- The callback of a reply. -/
def Effect.callback? : Effect → Option StatusOnceCallback
  | .reply callback _ => some callback
  | _ => none

/-- The callbacks that are run, in order. -/
def callbacksRun (effects : List Effect) : List StatusOnceCallback :=
  effects.filterMap Effect.callback?

@[simp] theorem callbacksRun_nil : callbacksRun [] = [] := rfl

@[simp] theorem callbacksRun_cons_reply (callback : StatusOnceCallback) (status : Status)
    (effects : List Effect) :
    callbacksRun (.reply callback status :: effects) = callback :: callbacksRun effects := rfl

@[simp] theorem callbacksRun_cons_respond (callback : StatusOnceCallback) (response : Response)
    (effects : List Effect) :
    callbacksRun (.respond callback response :: effects) = callbacksRun effects := rfl

@[simp] theorem callbacksRun_cons_ros (call : RosCall) (effects : List Effect) :
    callbacksRun (.ros call :: effects) = callbacksRun effects := rfl

@[simp] theorem callbacksRun_cons_log (entry : LogEntry) (effects : List Effect) :
    callbacksRun (.log entry :: effects) = callbacksRun effects := rfl

@[simp] theorem callbacksRun_append (effects effects' : List Effect) :
    callbacksRun (effects ++ effects') = callbacksRun effects ++ callbacksRun effects' :=
  List.filterMap_append

/-- Assumes: effects without a reply. -/
theorem callbacksRun_eq_nil {effects : List Effect} (h : replies effects = []) :
    callbacksRun effects = [] := by
  apply List.filterMap_eq_nil_iff.mpr
  intro e he
  cases e with
  | reply callback status =>
    have hmem : status ∈ replies effects := mem_replies.mpr ⟨callback, he⟩
    rw [h] at hmem
    cases hmem
  | respond | notify | ros | log => rfl

/-! ### The reasons a handler settles -/

namespace Registry

/-- The half of a handler under the lock settles no reason, the one it was given, or that the node
is gone. -/
theorem withNode_reason (r : Registry) (nodeInfo : NodeInfo) (refuse : Node → Bool)
    (reason : Reason) (f : Node → Node) :
    (r.withNode nodeInfo refuse reason f).1 = .none ∨
      (r.withNode nodeInfo refuse reason f).1 = reason ∨
      (r.withNode nodeInfo refuse reason f).1 = .unknownFailed := by
  unfold withNode
  cases r.findNode nodeInfo with
  | none => exact Or.inr (Or.inr rfl)
  | some n =>
    by_cases hrefuse : refuse n
    · exact Or.inr (Or.inl (by simp [hrefuse]))
    · exact Or.inl (by simp [hrefuse])

theorem publishTopic_reason (r : Registry) (nodeInfo : NodeInfo) (topicInfo : TopicInfo) :
    (r.publishTopic nodeInfo topicInfo).1 = .none ∨
      (r.publishTopic nodeInfo topicInfo).1 = .topicAlreadyPublishingOnNode ∨
      (r.publishTopic nodeInfo topicInfo).1 = .unknownFailed := by
  unfold publishTopic
  split_ifs
  · exact Or.inr (Or.inl rfl)
  · exact (r.withNode_reason nodeInfo _ .unknownFailed _).imp_right
      fun h ↦ Or.inr (or_self_iff.mp h)

theorem registerServiceServer_reason (r : Registry) (nodeInfo : NodeInfo)
    (serviceInfo : ServiceInfo) :
    (r.registerServiceServer nodeInfo serviceInfo).1 = .none ∨
      (r.registerServiceServer nodeInfo serviceInfo).1 = .serviceAlreadyServingOnNode ∨
      (r.registerServiceServer nodeInfo serviceInfo).1 = .unknownFailed := by
  unfold registerServiceServer
  split_ifs
  · exact Or.inr (Or.inl rfl)
  · exact (r.withNode_reason nodeInfo _ .unknownFailed _).imp_right
      fun h ↦ Or.inr (or_self_iff.mp h)

end Registry

/-! ### The handlers -/

section Handlers

variable (hasRos : Bool) (ros : RosMasterProxy) (r : Registry) (nodeInfo : NodeInfo)
  (callback : StatusOnceCallback)

theorem callbacksRun_doPublishTopic (topicInfo : TopicInfo) :
    callbacksRun (doPublishTopic hasRos ros r nodeInfo topicInfo callback).2 = [callback] := by
  simp only [doPublishTopic]
  rcases r.publishTopic_reason nodeInfo topicInfo with h | h | h
  · rw [h]
    cases rosName hasRos topicInfo.topic with
    | none => simp [callbacksRun_eq_nil (Registry.replies_notifyAllSubscribers _ topicInfo)]
    | some rosTopic =>
      by_cases htcp : hasTcpChannel topicInfo.topicSource <;> simp [htcp]
  · rw [h]
    rfl
  · rw [h]
    rfl

theorem callbacksRun_doUnpublishTopic (topic : String) :
    callbacksRun (doUnpublishTopic hasRos ros r nodeInfo topic callback).2 = [callback] := by
  simp only [doUnpublishTopic]
  rcases r.withNode_reason nodeInfo (fun n ↦ !n.isPublishingTopic topic)
    .topicNotPublishingOnNode (Node.unregisterPublishingTopic topic) with h | h | h
  · rw [Registry.unpublishTopic, h]
    cases rosName hasRos (((r.findNode nodeInfo).bind (·.getTopicInfo topic)).getD {}).topic with
    | none => simp [callbacksRun_eq_nil (Registry.replies_notifyAllSubscribers _ _)]
    | some rosTopic => rfl
  · rw [Registry.unpublishTopic, h]
    rfl
  · rw [Registry.unpublishTopic, h]
    rfl

theorem callbacksRun_rosRegisterSubscriber (rosTopic topicType : String) :
    callbacksRun (rosRegisterSubscriber ros r rosTopic topicType callback) = [callback] := by
  simp only [rosRegisterSubscriber]
  cases (ros.status (.registerSubscriber rosTopic topicType)).isOk with
  | false => rfl
  | true =>
    cases (ros.pubUpdate rosTopic).topicInfo rosTopic with
    | none => rfl
    | some topicInfo =>
      simp [callbacksRun_eq_nil (Registry.replies_notifyAllSubscribers r topicInfo)]

theorem callbacksRun_doSubscribeTopic (topic topicType : String) :
    callbacksRun (doSubscribeTopic hasRos ros r nodeInfo topic topicType callback).2 =
      [callback] := by
  simp only [doSubscribeTopic]
  rcases r.withNode_reason nodeInfo (·.isSubscribingTopic topic) .topicAlreadySubscribingOnNode
    (Node.registerSubscribingTopic topic) with h | h | h
  · rw [Registry.subscribeTopic, h]
    cases rosName hasRos topic with
    | none => simp [callbacksRun_eq_nil (Registry.replies_notifySubscriber _ topic nodeInfo)]
    | some rosTopic =>
      exact callbacksRun_rosRegisterSubscriber ros _ callback rosTopic topicType
  · rw [Registry.subscribeTopic, h]
    rfl
  · rw [Registry.subscribeTopic, h]
    rfl

theorem callbacksRun_doUnsubscribeTopic (topic : String) :
    callbacksRun (doUnsubscribeTopic hasRos ros r nodeInfo topic callback).2 = [callback] := by
  simp only [doUnsubscribeTopic]
  rcases r.withNode_reason nodeInfo (fun n ↦ !n.isSubscribingTopic topic)
    .topicNotSubscribingOnNode (Node.unregisterSubscribingTopic topic) with h | h | h
  · rw [Registry.unsubscribeTopic, h]
    cases rosName hasRos topic <;> rfl
  · rw [Registry.unsubscribeTopic, h]
    rfl
  · rw [Registry.unsubscribeTopic, h]
    rfl

theorem callbacksRun_doRegisterServiceClient (service : String) :
    callbacksRun (doRegisterServiceClient hasRos ros r nodeInfo service callback).2 =
      [callback] := by
  simp only [doRegisterServiceClient]
  rcases r.withNode_reason nodeInfo (·.isRequestingService service)
    .serviceAlreadyRequestingOnNode (Node.registerRequestingService service) with h | h | h
  · rw [Registry.registerServiceClient, h]
    cases rosName hasRos service with
    | none => simp [callbacksRun_eq_nil (Registry.replies_notifyServiceClient _ service nodeInfo)]
    | some rosService =>
      cases hok : (ros.status (.lookupService rosService)).isOk with
      | false => simp [hok]
      | true => simp [hok, callbacksRun_eq_nil (Registry.replies_doNotifyClient _ nodeInfo _)]
  · rw [Registry.registerServiceClient, h]
    rfl
  · rw [Registry.registerServiceClient, h]
    rfl

theorem callbacksRun_doUnregisterServiceClient (service : String) :
    callbacksRun (doUnregisterServiceClient r nodeInfo service callback).2 = [callback] := by
  simp only [doUnregisterServiceClient]
  rcases r.withNode_reason nodeInfo (fun n ↦ !n.isRequestingService service)
    .serviceNotRequestingOnNode (Node.unregisterRequestingService service) with h | h | h
  all_goals
    rw [Registry.unregisterServiceClient, h]
    rfl

theorem callbacksRun_doRegisterServiceServer (serviceInfo : ServiceInfo) :
    callbacksRun (doRegisterServiceServer hasRos ros r nodeInfo serviceInfo callback).2 =
      [callback] := by
  simp only [doRegisterServiceServer]
  rcases r.registerServiceServer_reason nodeInfo serviceInfo with h | h | h
  · rw [h]
    cases rosName hasRos serviceInfo.service with
    | none => simp [callbacksRun_eq_nil (Registry.replies_notifyAllServiceClients _ serviceInfo)]
    | some rosService => rfl
  · rw [h]
    rfl
  · rw [h]
    rfl

theorem callbacksRun_doUnregisterServiceServer (service : String) :
    callbacksRun (doUnregisterServiceServer hasRos ros r nodeInfo service callback).2 =
      [callback] := by
  simp only [doUnregisterServiceServer]
  rcases r.withNode_reason nodeInfo (fun n ↦ !n.isServingService service)
    .serviceNotServingOnNode (Node.unregisterServingService service) with h | h | h
  · rw [Registry.unregisterServiceServer, h]
    cases rosName hasRos
      (((r.findNode nodeInfo).bind (·.getServiceInfo service)).getD {}).service with
    | none => simp [callbacksRun_eq_nil (Registry.replies_notifyAllServiceClients _ _)]
    | some rosService => rfl
  · rw [Registry.unregisterServiceServer, h]
    rfl
  · rw [Registry.unregisterServiceServer, h]
    rfl

end Handlers

/-! ### The tasks -/

/-- The callback a task carries. The task that a report of the ROS master posts answers nobody. -/
def Task.callback? : Task → Option StatusOnceCallback
  | .doRegisterClient _ callback | .doRegisterNode _ callback | .doUnregisterNode _ callback
  | .doListNodes _ callback | .doPublishTopic _ _ callback | .doUnpublishTopic _ _ callback
  | .doSubscribeTopic _ _ _ callback | .doUnsubscribeTopic _ _ callback
  | .doRegisterServiceClient _ _ callback | .doUnregisterServiceClient _ _ callback
  | .doRegisterServiceServer _ _ callback | .doUnregisterServiceServer _ _ callback =>
    some callback
  | .notifyAllSubscribers _ => none

theorem callbacksRun_removeNode {hasRos : Bool} {r r' : Registry} {nodeInfo : NodeInfo}
    {effects : List Effect} (h : removeNode hasRos r nodeInfo = some (r', effects)) :
    callbacksRun effects = [] := by
  obtain ⟨erased, -, heq⟩ := Option.map_eq_some_iff.mp h
  cases heq
  apply callbacksRun_eq_nil
  cases r.checkIfClientExists nodeInfo.clientId <;> cases r.findNode nodeInfo <;> simp

/-- A task runs the callback it carries, once, and no other. -/
theorem callbacksRun_runTask {hasRos : Bool} {ros : RosMasterProxy} {r r' : Registry} {task : Task}
    {effects : List Effect} (h : runTask hasRos ros r task = some (r', effects)) :
    callbacksRun effects = task.callback?.toList := by
  cases task with
  | doRegisterClient client callback =>
    obtain ⟨added, -, heq⟩ := Option.map_eq_some_iff.mp h
    cases heq
    rfl
  | doRegisterNode node callback =>
    obtain ⟨added, -, heq⟩ := Option.map_eq_some_iff.mp h
    cases heq
    cases r.checkIfClientExists node.nodeInfo.clientId <;> cases node.nodeInfo.watcher <;>
      simp [callbacksRun_eq_nil r'.replies_notifyWatcher, Task.callback?]
  | doUnregisterNode nodeInfo callback =>
    obtain ⟨⟨removed, before⟩, hremove, heq⟩ := Option.map_eq_some_iff.mp h
    cases heq
    simp [callbacksRun_removeNode hremove, Task.callback?]
  | doListNodes nodeFilter callback =>
    cases h
    rfl
  | doPublishTopic nodeInfo topicInfo callback =>
    cases h
    exact callbacksRun_doPublishTopic hasRos ros r nodeInfo callback topicInfo
  | doUnpublishTopic nodeInfo topic callback =>
    cases h
    exact callbacksRun_doUnpublishTopic hasRos ros r nodeInfo callback topic
  | doSubscribeTopic nodeInfo topic topicType callback =>
    cases h
    exact callbacksRun_doSubscribeTopic hasRos ros r nodeInfo callback topic topicType
  | doUnsubscribeTopic nodeInfo topic callback =>
    cases h
    exact callbacksRun_doUnsubscribeTopic hasRos ros r nodeInfo callback topic
  | doRegisterServiceClient nodeInfo service callback =>
    cases h
    exact callbacksRun_doRegisterServiceClient hasRos ros r nodeInfo callback service
  | doUnregisterServiceClient nodeInfo service callback =>
    cases h
    exact callbacksRun_doUnregisterServiceClient r nodeInfo callback service
  | doRegisterServiceServer nodeInfo serviceInfo callback =>
    cases h
    exact callbacksRun_doRegisterServiceServer hasRos ros r nodeInfo callback serviceInfo
  | doUnregisterServiceServer nodeInfo service callback =>
    cases h
    exact callbacksRun_doUnregisterServiceServer hasRos ros r nodeInfo callback service
  | notifyAllSubscribers topicInfo =>
    cases h
    exact callbacksRun_eq_nil (r.replies_notifyAllSubscribers topicInfo)

/-! ### The entries -/

/-- What a defined entry does with the callback of its request: it runs it, or it posts one task
that carries it. -/
inductive EntryCase (s : System) (callback : StatusOnceCallback) : System → List Effect → Prop
  | answered {s' : System} {effects : List Effect} (hrun : callbacksRun effects = [callback])
      (htasks : s'.tasks = s.tasks) : EntryCase s callback s' effects
  | posted {s' : System} {effects : List Effect} (task : Task)
      (hrun : callbacksRun effects = []) (htask : task.callback? = some callback)
      (htasks : s'.tasks = s.tasks ++ [task]) : EntryCase s callback s' effects

namespace EntryCase

variable {s : System} {callback : StatusOnceCallback}

theorem answer (status : Status) :
    EntryCase s callback (s.answer callback status).1 (s.answer callback status).2 :=
  .answered rfl rfl

theorem post (task : Task) (htask : task.callback? = some callback) :
    EntryCase s callback (s.post task).1 (s.post task).2 :=
  .posted task rfl htask rfl

theorem postForNode (nodeInfo : NodeInfo) (task : Task) (htask : task.callback? = some callback) :
    EntryCase s callback (s.postForNode nodeInfo callback task).1
      (s.postForNode nodeInfo callback task).2 := by
  unfold System.postForNode
  cases s.checkNodeExists nodeInfo with
  | some error => exact answer error
  | none => exact post task htask

theorem registerClient {build : Build} {env : ChannelEnv} {rand : ℕ → ℕ} {clientInfo : ClientInfo}
    {result : System × List Effect}
    (h : System.registerClient build env rand s clientInfo callback = some result) :
    EntryCase s callback result.1 result.2 := by
  unfold System.registerClient at h
  split_ifs at h
  · cases h
    exact answer _
  · cases h
    exact answer _
  · split at h
    · cases h
    · cases h
      exact .posted (.doRegisterClient _ callback) rfl rfl rfl

theorem registerNode (rand : ℕ → ℕ) (nodeInfo : NodeInfo) :
    EntryCase s callback (System.registerNode rand s nodeInfo callback).1
      (System.registerNode rand s nodeInfo callback).2 := by
  unfold System.registerNode
  split_ifs
  · exact answer _
  · exact answer _
  · split
    · exact .answered rfl rfl
    · exact .posted (.doRegisterNode _ callback) rfl rfl rfl

theorem publishTopic (env : ChannelEnv) (nodeInfo : NodeInfo) (topicInfo : TopicInfo) :
    EntryCase s callback (System.publishTopic env s nodeInfo topicInfo callback).1
      (System.publishTopic env s nodeInfo topicInfo callback).2 := by
  unfold System.publishTopic
  cases s.checkNodeExists nodeInfo with
  | some error => exact answer error
  | none =>
    dsimp only
    split_ifs
    · exact answer _
    · exact post _ rfl

theorem registerServiceServer (env : ChannelEnv) (nodeInfo : NodeInfo)
    (serviceInfo : ServiceInfo) :
    EntryCase s callback (System.registerServiceServer env s nodeInfo serviceInfo callback).1
      (System.registerServiceServer env s nodeInfo serviceInfo callback).2 := by
  unfold System.registerServiceServer
  cases s.checkNodeExists nodeInfo with
  | some error => exact answer error
  | none =>
    dsimp only
    split_ifs
    · exact answer _
    · exact post _ rfl

/-- Every defined entry answers or posts. -/
theorem of_entry {build : Build} {env : ChannelEnv} {rand : ℕ → ℕ} {request : Request}
    {result : System × List Effect}
    (h : System.entry build env rand s callback request = some result) :
    EntryCase s callback result.1 result.2 := by
  cases request with
  | registerClient clientInfo => exact registerClient h
  | listClients clientFilter =>
    cases h
    exact .answered rfl rfl
  | registerNode nodeInfo =>
    cases h
    exact registerNode rand nodeInfo
  | listNodes nodeFilter =>
    cases h
    exact post _ rfl
  | publishTopic nodeInfo topicInfo =>
    cases h
    exact publishTopic env nodeInfo topicInfo
  | registerServiceServer nodeInfo serviceInfo =>
    cases h
    exact registerServiceServer env nodeInfo serviceInfo
  | listTopics | listServices =>
    cases h
    exact .answered rfl rfl
  | unregisterNode | unpublishTopic | subscribeTopic | unsubscribeTopic | registerServiceClient
  | unregisterServiceClient | unregisterServiceServer =>
    cases h
    exact postForNode _ _ rfl

end EntryCase

/-! ### The client that is not there -/

/-- A `RegisterClient` whose sources pass the checks while the ids drawn for it are all in use. The
last trial does not count: a loop that reaches it fails whatever is drawn. -/
def Request.FindsNoId (build : Build) (env : ChannelEnv) (rand : ℕ → ℕ) (r : Registry) :
    Request → Prop
  | .registerClient clientInfo =>
    (build.checkHeartBeat = true →
        isValidChannelSource env clientInfo.heartBeatSignallerSource = true) ∧
      isValidChannelSource env clientInfo.masterNotificationWatcherSource = true ∧
      ∀ trial < Generator.kMaximumTrial - 1, r.idGenerator.isIn (randId rand trial) = true
  | _ => False

theorem Generator.drawLoop_exhausted_iff {T : Type*} [LinearOrder T] (g : Generator T)
    (draws : ℕ → T) (left trial : ℕ) :
    (g.drawLoop draws left trial).2 = trial + left + 1 ↔
      ∀ k < left, g.isIn (draws (trial + k)) = true := by
  induction left generalizing trial with
  | zero => simp [drawLoop]
  | succ left ih =>
    unfold drawLoop
    split_ifs with hin
    · rw [show trial + (left + 1) + 1 = trial + 1 + left + 1 by omega, ih (trial + 1)]
      constructor
      · intro h k hk
        cases k with
        | zero => exact hin
        | succ k => simpa [Nat.add_assoc, Nat.add_comm 1] using h k (by omega)
      · intro h k hk
        simpa [Nat.add_assoc, Nat.add_comm 1] using h (k + 1) (by omega)
    · refine iff_of_false ?_ fun h ↦ hin (h 0 (by omega))
      dsimp only
      omega

theorem Registry.newClient_eq_none_iff (r : Registry) (clientInfo : ClientInfo) (rand : ℕ → ℕ) :
    (r.newClient clientInfo rand).2 = none ↔
      ∀ trial < Generator.kMaximumTrial - 1, r.idGenerator.isIn (randId rand trial) = true := by
  have hloop := r.idGenerator.drawLoop_exhausted_iff (randId rand) (Generator.kMaximumTrial - 1) 0
  simp only [Nat.zero_add] at hloop
  rw [← hloop]
  obtain ⟨⟨k, hk⟩, -⟩ := r.idGenerator.drawLoop_spec (randId rand) (Generator.kMaximumTrial - 1) 0
  by_cases hmax : (r.idGenerator.drawLoop (randId rand) (Generator.kMaximumTrial - 1) 0).2 =
      Generator.kMaximumTrial
  · have hgen : r.idGenerator.generate invalidId (randId rand) = (invalidId, r.idGenerator) :=
      if_pos hmax
    exact iff_of_true (by simp [newClient, hgen]) hmax
  · have hgen : r.idGenerator.generate invalidId (randId rand) =
        (randId rand k, r.idGenerator.add (randId rand k)) := by
      rw [← hk]
      exact if_neg hmax
    exact iff_of_false (by simp [newClient, hgen, randId_ne_invalidId]) hmax

/-- The one entry that is undefined is that of a client for which no id is found. -/
theorem System.entry_eq_none_iff {build : Build} {env : ChannelEnv} {rand : ℕ → ℕ} {s : System}
    {callback : StatusOnceCallback} {request : Request} :
    System.entry build env rand s callback request = none ↔
      request.FindsNoId build env rand s.registry := by
  cases request with
  | registerClient clientInfo =>
    rw [Request.FindsNoId, ← s.registry.newClient_eq_none_iff clientInfo rand]
    simp only [entry, registerClient]
    by_cases hbeat : (build.checkHeartBeat &&
        !isValidChannelSource env clientInfo.heartBeatSignallerSource) = true
    · rw [if_pos hbeat]
      simp_all
    · rw [if_neg hbeat]
      by_cases hwatch : isValidChannelSource env clientInfo.masterNotificationWatcherSource = true
      · cases hnew : s.registry.newClient clientInfo rand with
        | mk registry client => cases client <;> simp_all
      · simp_all
  | _ => simp [entry, Request.FindsNoId]

/-! ### Requests -/

/-- A request whose callback is run once over its entry and the task that the entry posts: the entry
is defined, and it runs the callback and posts nothing, or it runs none and posts one task. In
whatever registry that task runs to its end it runs the callback and no other, and it does run to
its end in every reachable state in which it is next. -/
def AnsweredOnce (build : Build) (env : ChannelEnv) (rand : ℕ → ℕ) (s : System)
    (request : Request) (callback : StatusOnceCallback) : Prop :=
  ∃ s' effects, (master build).step s (.entry env rand request callback) = some (s', effects) ∧
    (callbacksRun effects = [callback] ∧ s'.tasks = s.tasks ∨
      callbacksRun effects = [] ∧ ∃ task, s'.tasks = s.tasks ++ [task] ∧
        (∀ ros r r' effects', runTask build.hasRos ros r task = some (r', effects') →
          callbacksRun effects' = [callback]) ∧
        ∀ ros t rest, Reachable (master build) unguarded t → t.tasks = task :: rest →
          ∃ t' effects', (master build).step t (.runTask ros) = some (t', effects') ∧
            callbacksRun effects' = [callback])

/-- In a reachable state the next task runs to its end. -/
theorem exists_step_runTask {build : Build} {t : System} {task : Task} {rest : List Task}
    (h : Reachable (master build) unguarded t) (htasks : t.tasks = task :: rest)
    (ros : RosMasterProxy) :
    ∃ t' effects, (master build).step t (.runTask ros) = some (t', effects) ∧
      callbacksRun effects = task.callback?.toList := by
  obtain ⟨r', effects, hrun, hstep⟩ := (System.owned_of_reachable h).exists_runTask build htasks ros
  exact ⟨_, effects, hstep, callbacksRun_runTask hrun⟩

/-- In every state a request is answered once exactly when it is not the registration of a client
for which no id is found. -/
theorem answered_once_iff (build : Build) (env : ChannelEnv) (rand : ℕ → ℕ) (s : System)
    (request : Request) (callback : StatusOnceCallback) :
    AnsweredOnce build env rand s request callback ↔
      ¬ request.FindsNoId build env rand s.registry := by
  have hentry : System.entry build env rand s callback request = none ↔ _ :=
    System.entry_eq_none_iff
  rw [← hentry]
  constructor
  · rintro ⟨s', effects, hstep, -⟩ hnone
    rw [show (master build).step s (.entry env rand request callback) = none from hnone] at hstep
    cases hstep
  · intro hdefined
    obtain ⟨⟨s', effects⟩, hentry⟩ := Option.ne_none_iff_exists'.mp hdefined
    refine ⟨s', effects, hentry, ?_⟩
    cases EntryCase.of_entry hentry with
    | answered hrun htasks => exact Or.inl ⟨hrun, htasks⟩
    | posted task hrun htask htasks =>
      refine Or.inr ⟨hrun, task, htasks, fun ros r r' effects' hrun' ↦ ?_,
        fun ros t rest hreach hnext ↦ ?_⟩
      · rw [callbacksRun_runTask hrun', htask]
        rfl
      · obtain ⟨t', effects', hstep, hrun'⟩ := exists_step_runTask hreach hnext ros
        refine ⟨t', effects', hstep, ?_⟩
        rw [hrun', htask]
        rfl

/-- The second client for which the same id is drawn throughout is dereferenced though it is not
there. -/
theorem failed_register_client_not_answered_once :
    ¬ ∀ env rand s request callback, Reachable (master {}) unguarded s →
      AnsweredOnce {} env rand s request callback := by
  intro h
  have hexec : ((master {}).exec unguarded {} [] [Scenario.client 7]).map (fun result ↦
      result.1.registry.idGenerator.isIn (randId (fun _ ↦ 7) 0)) = some true := by decide
  obtain ⟨⟨s, history⟩, hrun, hin⟩ := Option.map_eq_some_iff.mp hexec
  let clientInfo : ClientInfo := { heartBeatSignallerSource := Scenario.source
                                   masterNotificationWatcherSource := Scenario.source }
  have hnone : System.entry {} Scenario.env (fun _ ↦ 7) s 1 (.registerClient clientInfo) = none :=
    System.entry_eq_none_iff.mpr ⟨fun _ ↦ by decide, by decide, fun _ _ ↦ hin⟩
  obtain ⟨s', effects, hstep, -⟩ := h Scenario.env (fun _ ↦ 7) s (.registerClient clientInfo) 1
    ⟨history, (Run.start rfl).of_exec hrun⟩
  have hsome : System.entry {} Scenario.env (fun _ ↦ 7) s 1 (.registerClient clientInfo) =
      some (s', effects) := hstep
  rw [hnone] at hsome
  cases hsome

end Felicia
