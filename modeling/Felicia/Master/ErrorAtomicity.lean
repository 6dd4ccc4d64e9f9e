import Felicia.Master.Ownership

/-!
# Answers with an error

A request that fails should leave no trace. The checks of an RPC entry come before anything is
changed, and so do the tests a handler makes under the lock; the calls to the ROS master come after
the change, and an answer of the ROS master other than OK is passed on as the answer of the request
while the change stays.

`Task.accepted` tells from the registry before the task whether the half under the lock will change
it, and `Task.rosFails` whether ROS will then refuse. `replies` lists the statuses a task answers
with. `atomic_withNode` puts the two together for one handler and `atomic_iff` for every task: an
error leaves the registry as it was unless an accepted request fails at ROS.
-/

set_option autoImplicit false
set_option relaxedAutoImplicit false

namespace Felicia

open Support TransitionSystem

/-! ### The statuses a step answers with -/

/-- The status of a reply. -/
def Effect.reply? : Effect → Option Status
  | .reply _ status => some status
  | _ => none

/-- The statuses with which callbacks are run. -/
def replies (effects : List Effect) : List Status := effects.filterMap Effect.reply?

theorem mem_replies {effects : List Effect} {status : Status} :
    status ∈ replies effects ↔ ∃ callback, .reply callback status ∈ effects := by
  rw [replies, List.mem_filterMap]
  constructor
  · rintro ⟨e, he, hstatus⟩
    cases e with
    | reply callback other =>
      cases hstatus
      exact ⟨callback, he⟩
    | respond | notify | ros | log => cases hstatus
  · rintro ⟨callback, he⟩
    exact ⟨_, he, rfl⟩

@[simp] theorem replies_nil : replies [] = [] := rfl

@[simp] theorem replies_cons_reply (callback : StatusOnceCallback) (status : Status)
    (effects : List Effect) :
    replies (.reply callback status :: effects) = status :: replies effects := rfl

@[simp] theorem replies_cons_log (entry : LogEntry) (effects : List Effect) :
    replies (.log entry :: effects) = replies effects := rfl

@[simp] theorem replies_cons_ros (call : RosCall) (effects : List Effect) :
    replies (.ros call :: effects) = replies effects := rfl

@[simp] theorem replies_cons_respond (callback : StatusOnceCallback) (response : Response)
    (effects : List Effect) : replies (.respond callback response :: effects) = replies effects :=
  rfl

@[simp] theorem replies_append (effects effects' : List Effect) :
    replies (effects ++ effects') = replies effects ++ replies effects' :=
  List.filterMap_append

/-- Assumes: notifications. -/
theorem replies_eq_nil {r : Registry} {P : MasterNotification → Prop} {effects : List Effect}
    (h : ∀ e ∈ effects, r.Notifies P e) : replies effects = [] := by
  apply List.filterMap_eq_nil_iff.mpr
  intro e he
  obtain ⟨_, _, _, _, _, rfl⟩ := h e he
  rfl

theorem replies_flatMap_eq_nil {α : Type} (as : List α) {f : α → List Effect}
    (h : ∀ a, replies (f a) = []) : replies (as.flatMap f) = [] := by
  induction as with
  | nil => rfl
  | cons a as ih => rw [List.flatMap_cons, replies_append, h a, ih, List.append_nil]

namespace Registry

variable (r : Registry)

@[simp] theorem replies_doNotifyClient (nodeInfo : NodeInfo) (notification : MasterNotification) :
    replies (r.doNotifyClient nodeInfo notification) = [] :=
  replies_eq_nil (r.notifies_doNotifyClient nodeInfo (P := fun _ ↦ True) trivial)

@[simp] theorem replies_notifySubscriber (topic : String) (nodeInfo : NodeInfo) :
    replies (r.notifySubscriber topic nodeInfo) = [] :=
  replies_eq_nil (r.notifies_notifySubscriber topic nodeInfo)

@[simp] theorem replies_notifyAllSubscribers (topicInfo : TopicInfo) :
    replies (r.notifyAllSubscribers topicInfo) = [] :=
  replies_eq_nil (r.notifies_notifyAllSubscribers topicInfo)

@[simp] theorem replies_notifyServiceClient (service : String) (nodeInfo : NodeInfo) :
    replies (r.notifyServiceClient service nodeInfo) = [] :=
  replies_eq_nil (r.notifies_notifyServiceClient service nodeInfo)

@[simp] theorem replies_notifyAllServiceClients (serviceInfo : ServiceInfo) :
    replies (r.notifyAllServiceClients serviceInfo) = [] :=
  replies_eq_nil (r.notifies_notifyAllServiceClients serviceInfo)

@[simp] theorem replies_notifyWatcher : replies r.notifyWatcher = [] :=
  replies_eq_nil r.notifies_notifyWatcher

end Registry

@[simp] theorem replies_notifyRemoved (hasRos : Bool) (r : Registry) (topicInfos : List TopicInfo)
    (topics : List String) (serviceInfos : List ServiceInfo) :
    replies (notifyRemoved hasRos r topicInfos topics serviceInfos) = [] := by
  simp only [notifyRemoved, replies_append, List.append_eq_nil_iff]
  refine ⟨⟨replies_flatMap_eq_nil _ fun _ ↦ by simp, replies_flatMap_eq_nil _ fun _ ↦ by simp⟩, ?_⟩
  apply List.filterMap_eq_nil_iff.mpr
  intro e he
  obtain ⟨call, rfl⟩ := of_mem_unregisterRosTopicsAndServices he
  rfl

/-! ### Which requests are accepted, and which of them ROS refuses -/

namespace Task

/-- Whether the half of a handler under the lock changes the registry, told from the registry
before. Only the tasks that can call ROS afterwards are of interest. -/
def accepted (r : Registry) : Task → Bool
  | .doPublishTopic nodeInfo topicInfo _ =>
    (r.findNodes { publishingTopic := topicInfo.topic }).length = 0 && (r.findNode nodeInfo).isSome
  | .doUnpublishTopic nodeInfo topic _ => (r.findNode nodeInfo).any (·.isPublishingTopic topic)
  | .doSubscribeTopic nodeInfo topic _ _ =>
    (r.findNode nodeInfo).any fun n ↦ !n.isSubscribingTopic topic
  | .doUnsubscribeTopic nodeInfo topic _ => (r.findNode nodeInfo).any (·.isSubscribingTopic topic)
  | .doRegisterServiceClient nodeInfo service _ =>
    (r.findNode nodeInfo).any fun n ↦ !n.isRequestingService service
  | .doRegisterServiceServer nodeInfo serviceInfo _ =>
    (r.findNodes { servingService := serviceInfo.service }).length = 0 &&
      (r.findNode nodeInfo).isSome
  | .doUnregisterServiceServer nodeInfo service _ =>
    (r.findNode nodeInfo).any (·.isServingService service)
  | _ => false

/-- The call to ROS that follows an accepted request for a ROS name. -/
def rosCall? (hasRos : Bool) (r : Registry) : Task → Option RosCall
  | .doPublishTopic _ topicInfo _ =>
    (rosName hasRos topicInfo.topic).map fun topic ↦ .registerPublisher topic topicInfo.typeName
  | .doUnpublishTopic _ topic _ => (rosName hasRos topic).map .unregisterPublisher
  | .doSubscribeTopic _ topic topicType _ =>
    (rosName hasRos topic).map fun rosTopic ↦ .registerSubscriber rosTopic topicType
  | .doUnsubscribeTopic _ topic _ => (rosName hasRos topic).map .unregisterSubscriber
  | .doRegisterServiceClient _ service _ => (rosName hasRos service).map .lookupService
  | .doRegisterServiceServer _ serviceInfo _ => (rosName hasRos serviceInfo.service).map
      fun service ↦ .registerService service serviceInfo.serviceSource.firstIpEndpoint
  | .doUnregisterServiceServer nodeInfo service _ => (rosName hasRos service).map fun rosService ↦
      let serviceInfo := ((r.findNode nodeInfo).bind (·.getServiceInfo service)).getD {}
      .unregisterService rosService serviceInfo.serviceSource.firstIpEndpoint
  | _ => none

/-- A topic that ROS cannot reach, as it has no TCP channel. -/
def lacksTcp : Task → Bool
  | .doPublishTopic _ topicInfo _ => !hasTcpChannel topicInfo.topicSource
  | _ => false

/-- Whether a request for a ROS name, once accepted, fails at ROS. -/
def rosFails (hasRos : Bool) (ros : RosMasterProxy) (r : Registry) (task : Task) : Bool :=
  (task.rosCall? hasRos r).any fun call ↦ task.lacksTcp || !(ros.status call).isOk

end Task

/-! ### An operation on a node that was accepted changes the registry -/

/-- Assumes: the node of a request was found. After an operation on it, it is found changed. -/
theorem Registry.findNode_updateNode {r : Registry} {nodeInfo : NodeInfo} {n : Node}
    {f : Node → Node} (h : r.findNode nodeInfo = some n) (hf : Node.KeepsInfo f) :
    (r.updateNode nodeInfo f).findNode nodeInfo = some (f n) := by
  obtain ⟨client, hclient, hn⟩ := Option.bind_eq_some_iff.mp h
  have hfind (ns : List Node) (hns : ns.find? (nodeNameChecker nodeInfo) = some n) :
      (updateFirst nodeInfo.name f ns).find? (nodeNameChecker nodeInfo) = some (f n) := by
    induction ns with
    | nil => cases hns
    | cons m ms ih =>
      by_cases hm : m.name = nodeInfo.name
      · have hfm : (f m).name = nodeInfo.name := (congrArg NodeInfo.name (hf m)).trans hm
        rw [List.find?_cons_of_pos (by simpa [nodeNameChecker] using hm)] at hns
        cases hns
        rw [updateFirst, if_pos hm,
          List.find?_cons_of_pos (by simpa [nodeNameChecker] using hfm)]
      · rw [List.find?_cons_of_neg (by simpa [nodeNameChecker] using hm)] at hns
        rw [updateFirst, if_neg hm,
          List.find?_cons_of_neg (by simpa [nodeNameChecker] using hm)]
        exact ih hns
  rw [findNode, updateNode, FlatMap.find_modify, if_pos rfl, hclient]
  exact hfind client.nodes hn

theorem Registry.updateNode_ne {r : Registry} {nodeInfo : NodeInfo} {n : Node} {f : Node → Node}
    (h : r.findNode nodeInfo = some n) (hf : Node.KeepsInfo f) (hne : f n ≠ n) :
    r.updateNode nodeInfo f ≠ r := by
  intro heq
  have hfind := findNode_updateNode h hf
  rw [heq, h] at hfind
  exact hne (Option.some.inj hfind).symm

/-- Assumes: a request that is answered once when the half under the lock accepts it, and whose
operation changes the node when ROS then refuses. -/
theorem atomic_withNode {r r' : Registry} {nodeInfo : NodeInfo} {refuse : Node → Bool}
    {reason : Reason} {f : Node → Node} {accepted fails : Bool} {effects : List Effect}
    (hr' : r' = (r.withNode nodeInfo refuse reason f).2)
    (haccepted : accepted = (r.findNode nodeInfo).any fun n ↦ !refuse n)
    (hreason : reason ≠ .none) (hf : Node.KeepsInfo f)
    (hanswer : ∀ n, r.findNode nodeInfo = some n → refuse n = false →
      r.withNode nodeInfo refuse reason f = (.none, r.updateNode nodeInfo f) →
      ∃ status, replies effects = [status] ∧ status.isOk = !fails)
    (hchange : ∀ n, r.findNode nodeInfo = some n → refuse n = false → fails = true → f n ≠ n) :
    (∀ status ∈ replies effects, status.isOk = false → r' = r) ↔
      ¬ (accepted = true ∧ fails = true) := by
  subst hr' haccepted
  rcases r.withNode_cases nodeInfo refuse hreason f with
    ⟨-, hsame, hrefused⟩ | ⟨n, hfind, hn, hupdate⟩
  · refine iff_of_true (fun _ _ _ ↦ hsame) ?_
    rintro ⟨haccepted, -⟩
    obtain ⟨n, hn, hnot⟩ := (Option.any_eq_true _ _).mp haccepted
    simp [hrefused n hn] at hnot
  · obtain ⟨status, hreplies, hok⟩ := hanswer n hfind hn hupdate
    rw [hupdate, hreplies]
    cases fails with
    | false => simp [hok]
    | true =>
      have hne := Registry.updateNode_ne hfind hf (hchange n hfind hn rfl)
      simp [hok, hne, hfind, hn]

namespace Node

variable {n : Node}

theorem registerPublishingTopic_ne {topicInfo : TopicInfo}
    (h : n.isPublishingTopic topicInfo.topic = false) :
    n.registerPublishingTopic topicInfo ≠ n := by
  intro heq
  rw [← heq] at h
  simp [isPublishingTopic, registerPublishingTopic, FlatMap.contains,
    FlatMap.find_insertOrAssign] at h

theorem unregisterPublishingTopic_ne {topic : String} (h : n.isPublishingTopic topic = true) :
    n.unregisterPublishingTopic topic ≠ n := by
  intro heq
  rw [← heq] at h
  simp [isPublishingTopic, unregisterPublishingTopic, FlatMap.contains, FlatMap.find_erase] at h

theorem registerSubscribingTopic_ne {topic : String} (h : n.isSubscribingTopic topic = false) :
    n.registerSubscribingTopic topic ≠ n := by
  intro heq
  rw [← heq] at h
  simp [isSubscribingTopic, registerSubscribingTopic] at h

theorem unregisterSubscribingTopic_ne {topic : String} (h : n.isSubscribingTopic topic = true) :
    n.unregisterSubscribingTopic topic ≠ n := by
  intro heq
  rw [← heq] at h
  simp [isSubscribingTopic, unregisterSubscribingTopic] at h

theorem registerRequestingService_ne {service : String}
    (h : n.isRequestingService service = false) : n.registerRequestingService service ≠ n := by
  intro heq
  rw [← heq] at h
  simp [isRequestingService, registerRequestingService] at h

theorem registerServingService_ne {serviceInfo : ServiceInfo}
    (h : n.isServingService serviceInfo.service = false) :
    n.registerServingService serviceInfo ≠ n := by
  intro heq
  rw [← heq] at h
  simp [isServingService, registerServingService, FlatMap.contains,
    FlatMap.find_insertOrAssign] at h

theorem unregisterServingService_ne {service : String} (h : n.isServingService service = true) :
    n.unregisterServingService service ≠ n := by
  intro heq
  rw [← heq] at h
  simp [isServingService, unregisterServingService, FlatMap.contains, FlatMap.find_erase] at h

end Node

/-! ### The handlers -/

section Handlers

variable {hasRos : Bool} {ros : RosMasterProxy} {r r' : Registry} {effects : List Effect}

/-! The answer of each handler once the half under the lock has accepted its request. -/

theorem answer_doPublishTopic {nodeInfo : NodeInfo} {topicInfo : TopicInfo}
    (callback : StatusOnceCallback) (h : r.publishTopic nodeInfo topicInfo = (.none, r')) :
    ∃ status, replies (doPublishTopic hasRos ros r nodeInfo topicInfo callback).2 = [status] ∧
      status.isOk = !(Task.doPublishTopic nodeInfo topicInfo callback).rosFails hasRos ros r := by
  simp only [doPublishTopic, h, Task.rosFails, Task.rosCall?, Task.lacksTcp]
  cases rosName hasRos topicInfo.topic with
  | none => simp
  | some rosTopic =>
    by_cases htcp : hasTcpChannel topicInfo.topicSource
    · simp [htcp]
    · simp [htcp, Errors.rosTopicNeedsTcp, Status.isOk]

theorem answer_doUnpublishTopic {nodeInfo : NodeInfo} {topic : String}
    (callback : StatusOnceCallback) (h : r.unpublishTopic nodeInfo topic = (.none, r'))
    (hname : (((r.findNode nodeInfo).bind (·.getTopicInfo topic)).getD {}).topic = topic) :
    ∃ status, replies (doUnpublishTopic hasRos ros r nodeInfo topic callback).2 = [status] ∧
      status.isOk = !(Task.doUnpublishTopic nodeInfo topic callback).rosFails hasRos ros r := by
  simp only [doUnpublishTopic, h, hname, Task.rosFails, Task.rosCall?, Task.lacksTcp]
  cases rosName hasRos topic <;> simp

theorem answer_doSubscribeTopic {nodeInfo : NodeInfo} {topic : String} (topicType : String)
    (callback : StatusOnceCallback) (h : r.subscribeTopic nodeInfo topic = (.none, r')) :
    ∃ status,
      replies (doSubscribeTopic hasRos ros r nodeInfo topic topicType callback).2 = [status] ∧
      status.isOk =
        !(Task.doSubscribeTopic nodeInfo topic topicType callback).rosFails hasRos ros r := by
  simp only [doSubscribeTopic, h, Task.rosFails, Task.rosCall?, Task.lacksTcp]
  cases rosName hasRos topic with
  | none => simp
  | some rosTopic =>
    simp only [rosRegisterSubscriber]
    cases (ros.pubUpdate rosTopic).topicInfo rosTopic <;> split_ifs <;> simp_all

theorem answer_doUnsubscribeTopic {nodeInfo : NodeInfo} {topic : String}
    (callback : StatusOnceCallback) (h : r.unsubscribeTopic nodeInfo topic = (.none, r')) :
    ∃ status, replies (doUnsubscribeTopic hasRos ros r nodeInfo topic callback).2 = [status] ∧
      status.isOk = !(Task.doUnsubscribeTopic nodeInfo topic callback).rosFails hasRos ros r := by
  simp only [doUnsubscribeTopic, h, Task.rosFails, Task.rosCall?, Task.lacksTcp]
  cases rosName hasRos topic <;> simp

theorem answer_doRegisterServiceClient {nodeInfo : NodeInfo} {service : String}
    (callback : StatusOnceCallback) (h : r.registerServiceClient nodeInfo service = (.none, r')) :
    ∃ status,
      replies (doRegisterServiceClient hasRos ros r nodeInfo service callback).2 = [status] ∧
      status.isOk =
        !(Task.doRegisterServiceClient nodeInfo service callback).rosFails hasRos ros r := by
  simp only [doRegisterServiceClient, h, Task.rosFails, Task.rosCall?, Task.lacksTcp]
  cases rosName hasRos service with
  | none => simp
  | some rosService =>
    dsimp only
    split_ifs with hok <;> simp [hok]

theorem answer_doRegisterServiceServer {nodeInfo : NodeInfo} {serviceInfo : ServiceInfo}
    (callback : StatusOnceCallback)
    (h : r.registerServiceServer nodeInfo serviceInfo = (.none, r')) :
    ∃ status,
      replies (doRegisterServiceServer hasRos ros r nodeInfo serviceInfo callback).2 = [status] ∧
      status.isOk =
        !(Task.doRegisterServiceServer nodeInfo serviceInfo callback).rosFails hasRos ros r := by
  simp only [doRegisterServiceServer, h, Task.rosFails, Task.rosCall?, Task.lacksTcp]
  cases rosName hasRos serviceInfo.service <;> simp

theorem answer_doUnregisterServiceServer {nodeInfo : NodeInfo} {service : String}
    (callback : StatusOnceCallback) (h : r.unregisterServiceServer nodeInfo service = (.none, r'))
    (hname : (((r.findNode nodeInfo).bind (·.getServiceInfo service)).getD {}).service = service) :
    ∃ status,
      replies (doUnregisterServiceServer hasRos ros r nodeInfo service callback).2 = [status] ∧
      status.isOk =
        !(Task.doUnregisterServiceServer nodeInfo service callback).rosFails hasRos ros r := by
  simp only [doUnregisterServiceServer, h, hname, Task.rosFails, Task.rosCall?, Task.lacksTcp]
  cases rosName hasRos service <;> simp

/-- The empty name is no ROS name. -/
theorem rosName_empty : rosName hasRos "" = none := by
  unfold rosName
  split_ifs <;> rfl

/-- A request that fails at ROS names a topic or a service. -/
theorem ne_empty_of_rosName {name : String} {call : String → RosCall} {fails : RosCall → Bool}
    (h : ((rosName hasRos name).map call).any fails = true) : name ≠ "" := by
  rintro rfl
  rw [rosName_empty] at h
  cases h

/-- An error leaves the registry unchanged, unless the request was accepted and then fails at ROS.
Assumes: infos stored under their own names. -/
theorem atomic_iff (hkeyed : r.Keyed) (hlabelled : ∀ n ∈ r.nodes, n.Labelled) {task : Task}
    (hrun : runTask hasRos ros r task = some (r', effects)) :
    (∀ status ∈ replies effects, status.isOk = false → r' = r) ↔
      ¬ (task.accepted r = true ∧ task.rosFails hasRos ros r = true) := by
  cases task with
  | doRegisterClient client callback =>
    obtain ⟨r'', -, heq⟩ := Option.map_eq_some_iff.mp hrun
    cases heq
    simp [Task.accepted]
  | doRegisterNode node callback =>
    obtain ⟨r'', -, heq⟩ := Option.map_eq_some_iff.mp hrun
    cases heq
    simp only [replies_append, replies_cons_reply, Task.accepted]
    split_ifs <;> simp
  | doUnregisterNode nodeInfo callback =>
    obtain ⟨removed, hremove, heq⟩ := Option.map_eq_some_iff.mp hrun
    cases heq
    obtain ⟨r'', -, rfl⟩ := Option.map_eq_some_iff.mp hremove
    simp only [replies_append, replies_cons_reply, Task.accepted]
    cases r.findNode nodeInfo <;> split_ifs <;> simp
  | doListNodes nodeFilter callback =>
    cases hrun
    simp [Task.accepted]
  | notifyAllSubscribers topicInfo =>
    cases hrun
    simp [Task.accepted]
  | doPublishTopic nodeInfo topicInfo callback =>
    cases hrun
    by_cases hlen : (r.findNodes { publishingTopic := topicInfo.topic }).length = 0
    · have hlock : r.publishTopic nodeInfo topicInfo = r.withNode nodeInfo (fun _ ↦ false)
          .unknownFailed (Node.registerPublishingTopic topicInfo) := by
        simp [Registry.publishTopic, hlen]
      refine atomic_withNode (congrArg Prod.snd hlock) ?_ (by simp)
        (Node.keepsInfo_registerPublishingTopic topicInfo)
        (fun n _ _ hupdate ↦ answer_doPublishTopic callback (hlock.trans hupdate))
        (fun n hn _ hfails ↦ ?_)
      · cases hfind : r.findNode nodeInfo <;> simp [Task.accepted, hlen, hfind]
      · have hname := ne_empty_of_rosName hfails
        have hnil := List.eq_nil_of_length_eq_zero hlen
        rw [r.findNodes_publishing hname, Option.toList_eq_nil_iff, List.find?_eq_none] at hnil
        refine Node.registerPublishingTopic_ne ?_
        simpa using hnil n (Registry.findNode_spec hkeyed hn).1
    · simp [Registry.publishTopic, Nat.pos_of_ne_zero hlen, Task.accepted, hlen]
  | doUnpublishTopic nodeInfo topic callback =>
    cases hrun
    refine atomic_withNode rfl (by simp [Task.accepted]) (by simp)
      (Node.keepsInfo_unregisterPublishingTopic topic)
      (fun n hn hrefuse hupdate ↦ answer_doUnpublishTopic callback hupdate ?_)
      (fun n _ hrefuse _ ↦ Node.unregisterPublishingTopic_ne (by simpa using hrefuse))
    have hpublishing : n.isPublishingTopic topic = true := by simpa using hrefuse
    obtain ⟨info, hinfo⟩ : ∃ info, n.getTopicInfo topic = some info :=
      Option.isSome_iff_exists.mp hpublishing
    have hlabel := (hlabelled n (Registry.findNode_spec hkeyed hn).1).1 topic info hinfo
    simp [hn, hinfo, hlabel]
  | doSubscribeTopic nodeInfo topic topicType callback =>
    cases hrun
    exact atomic_withNode rfl rfl (by simp) (Node.keepsInfo_registerSubscribingTopic topic)
      (fun n _ _ hupdate ↦ answer_doSubscribeTopic topicType callback hupdate)
      (fun n _ hrefuse _ ↦ Node.registerSubscribingTopic_ne hrefuse)
  | doUnsubscribeTopic nodeInfo topic callback =>
    cases hrun
    exact atomic_withNode rfl (by simp [Task.accepted]) (by simp)
      (Node.keepsInfo_unregisterSubscribingTopic topic)
      (fun n _ _ hupdate ↦ answer_doUnsubscribeTopic callback hupdate)
      (fun n _ hrefuse _ ↦ Node.unregisterSubscribingTopic_ne (by simpa using hrefuse))
  | doRegisterServiceClient nodeInfo service callback =>
    cases hrun
    exact atomic_withNode rfl rfl (by simp) (Node.keepsInfo_registerRequestingService service)
      (fun n _ _ hupdate ↦ answer_doRegisterServiceClient callback hupdate)
      (fun n _ hrefuse _ ↦ Node.registerRequestingService_ne hrefuse)
  | doUnregisterServiceClient nodeInfo service callback =>
    -- The one handler without a call to ROS: an accepted request is answered with OK.
    cases hrun
    simp only [Task.accepted, Bool.false_eq_true, false_and, not_false_eq_true, iff_true]
    have hreason : Reason.serviceNotRequestingOnNode ≠ .none := by decide
    rcases r.withNode_cases nodeInfo (fun n ↦ !n.isRequestingService service) hreason
      (Node.unregisterRequestingService service) with ⟨-, hsame, -⟩ | ⟨-, -, -, hupdate⟩
    · exact fun _ _ _ ↦ hsame
    · simp [Registry.unregisterServiceClient, hupdate]
  | doRegisterServiceServer nodeInfo serviceInfo callback =>
    cases hrun
    by_cases hlen : (r.findNodes { servingService := serviceInfo.service }).length = 0
    · have hlock : r.registerServiceServer nodeInfo serviceInfo = r.withNode nodeInfo
          (fun _ ↦ false) .unknownFailed (Node.registerServingService serviceInfo) := by
        simp [Registry.registerServiceServer, hlen]
      refine atomic_withNode (congrArg Prod.snd hlock) ?_ (by simp)
        (Node.keepsInfo_registerServingService serviceInfo)
        (fun n _ _ hupdate ↦ answer_doRegisterServiceServer callback (hlock.trans hupdate))
        (fun n hn _ hfails ↦ ?_)
      · cases hfind : r.findNode nodeInfo <;> simp [Task.accepted, hlen, hfind]
      · have hname := ne_empty_of_rosName hfails
        have hnil := List.eq_nil_of_length_eq_zero hlen
        exact Node.registerServingService_ne
          ((r.findNodes_serving_eq_nil_iff hname).mp hnil n (Registry.findNode_spec hkeyed hn).1)
    · simp [Registry.registerServiceServer, Nat.pos_of_ne_zero hlen, Task.accepted, hlen]
  | doUnregisterServiceServer nodeInfo service callback =>
    cases hrun
    refine atomic_withNode rfl (by simp [Task.accepted]) (by simp)
      (Node.keepsInfo_unregisterServingService service)
      (fun n hn hrefuse hupdate ↦ answer_doUnregisterServiceServer callback hupdate ?_)
      (fun n _ hrefuse _ ↦ Node.unregisterServingService_ne (by simpa using hrefuse))
    have hserving : n.isServingService service = true := by simpa using hrefuse
    obtain ⟨info, hinfo⟩ : ∃ info, n.getServiceInfo service = some info :=
      Option.isSome_iff_exists.mp hserving
    have hlabel := (hlabelled n (Registry.findNode_spec hkeyed hn).1).2 service info hinfo
    simp [hn, hinfo, hlabel]

end Handlers

/-! ### Requests -/

/-- An entry that answers with an error, or that posts the task of its request, leaves the registry
unchanged. -/
theorem registry_entry {build : Build} {s s' : System} {env : ChannelEnv} {rand : ℕ → ℕ}
    {request : Request} {callback : StatusOnceCallback} {effects : List Effect}
    (hcase : StepCase build s (.entry env rand request callback) s' effects)
    (h : replies effects ≠ [] ∨ (request.task? callback).isSome = true) :
    s'.registry = s.registry := by
  cases hcase with
  | post => rfl
  | newClient => simp [Request.task?] at h
  | newNode => simp [Request.task?] at h

/-- In every reachable state an entry that answers with an error or posts the task of its request
leaves the registry unchanged, and a task that answers with an error does so exactly when its
request was not accepted or did not fail at ROS afterwards. -/
theorem error_atomicity_iff (build : Build) (s : System)
    (h : Reachable (master build) unguarded s) :
    (∀ env rand request callback s' effects, (master build).step s
        (.entry env rand request callback) = some (s', effects) →
      (∀ cb status, .reply cb status ∈ effects → status.isOk = false →
        s'.registry = s.registry) ∧
      ((request.task? callback).isSome = true → s'.registry = s.registry)) ∧
    ∀ ros task rest, s.tasks = task :: rest →
      ∃ s' effects, (master build).step s (.runTask ros) = some (s', effects) ∧
        ((∀ cb status, .reply cb status ∈ effects → status.isOk = false →
            s'.registry = s.registry) ↔
          ¬ (task.accepted s.registry = true ∧
            task.rosFails build.hasRos ros s.registry = true)) := by
  have howned := System.owned_of_reachable h
  have hlabelled := System.labelled_of_reachable h
  constructor
  · intro env rand request callback s' effects hstep
    have hcase : StepCase build s (.entry env rand request callback) s' effects :=
      step_cases hstep
    refine ⟨fun cb status hreply _ ↦ registry_entry hcase (Or.inl fun hnil ↦ ?_), fun htask ↦
      registry_entry hcase (Or.inr htask)⟩
    have hmem := mem_replies.mpr ⟨cb, hreply⟩
    rw [hnil] at hmem
    cases hmem
  · intro ros task rest htasks
    obtain ⟨r', effects, hrun, hstep⟩ := howned.exists_runTask build htasks ros
    refine ⟨_, effects, hstep, ?_⟩
    rw [← atomic_iff howned.owns.keyed hlabelled hrun]
    simp only [mem_replies]
    constructor
    · rintro hatomic status ⟨cb, hreply⟩
      exact hatomic cb status hreply
    · intro hatomic cb status hreply
      exact hatomic status ⟨cb, hreply⟩

/-- A second publisher of a topic is refused and the registry stays as it was. -/
theorem error_atomicity_of_refused_publisher :
    ∃ s s' effects, Reachable (master {}) unguarded s ∧
      (master {}).step s Scenario.run = some (s', effects) ∧
      (∃ status, .reply 1 status ∈ effects ∧ status.isOk = false) ∧
      s'.registry = s.registry := by
  let topicInfo : TopicInfo := { topic := "t", topicSource := Scenario.source }
  have hexec : ((master {}).exec unguarded {} [] [Scenario.client 7, Scenario.run,
      Scenario.request (.registerNode (Scenario.node "a")), Scenario.run,
      Scenario.request (.registerNode (Scenario.node "b")), Scenario.run,
      Scenario.request (.publishTopic (Scenario.node "a") topicInfo), Scenario.run,
      Scenario.request (.publishTopic (Scenario.node "b") topicInfo)]).map (fun result ↦
        (result.1.tasks,
          (Task.doPublishTopic (Scenario.node "b") topicInfo 1).accepted result.1.registry,
          ((master {}).step result.1 Scenario.run).map Prod.snd)) =
      some ([.doPublishTopic (Scenario.node "b") topicInfo 1], false,
        some [.reply 1 (Errors.topicAlreadyPublishingOnNode (Scenario.node "b") topicInfo)]) := by
    decide
  obtain ⟨⟨s, history⟩, hrun, heq⟩ := Option.map_eq_some_iff.mp hexec
  have hreach : Reachable (master {}) unguarded s := ⟨history, (Run.start rfl).of_exec hrun⟩
  have htasks := congrArg Prod.fst heq
  have haccepted := congrArg (·.2.1) heq
  obtain ⟨⟨s', effects⟩, hstep, heffects⟩ :=
    Option.map_eq_some_iff.mp (congrArg (·.2.2) heq)
  obtain ⟨t, effects', hstep', hatomic⟩ :=
    (error_atomicity_iff {} s hreach).2 Scenario.ros _ _ htasks
  have hsame : (t, effects') = (s', effects) := Option.some.inj (hstep'.symm.trans hstep)
  cases hsame
  have hreply : .reply 1 (Errors.topicAlreadyPublishingOnNode (Scenario.node "b") topicInfo) ∈
      effects := by
    rw [show effects = _ from heffects]
    exact List.mem_singleton_self _
  refine ⟨s, s', effects, hreach, hstep, ⟨_, hreply, rfl⟩, hatomic.mpr ?_ 1 _ hreply rfl⟩
  rintro ⟨htrue, -⟩
  exact Bool.false_ne_true (haccepted.symm.trans htrue)

/-- A ROS topic without a TCP channel is refused after it was registered. -/
theorem ros_error_not_atomic :
    ¬ ∀ s, Reachable (master { hasRos := true }) unguarded s → ∀ ros s' effects,
      (master { hasRos := true }).step s (.runTask ros) = some (s', effects) →
      ∀ cb status, .reply cb status ∈ effects → status.isOk = false →
        s'.registry = s.registry := by
  intro h
  have hexec : ((master { hasRos := true }).exec unguarded {} [] [Scenario.client 7, Scenario.run,
      Scenario.request (.registerNode (Scenario.node "a")), Scenario.run,
      Scenario.request (.publishTopic (Scenario.node "a")
        { topic := "ros://t", topicSource := Scenario.source })]).map (fun result ↦
        ((master { hasRos := true }).step result.1 Scenario.run).map fun next ↦
          (decide (next.1.registry = result.1.registry), replies next.2)) =
      some (some (false, [Errors.rosTopicNeedsTcp])) := by
    decide
  obtain ⟨⟨s, history⟩, hrun, heq⟩ := Option.map_eq_some_iff.mp hexec
  obtain ⟨⟨s', effects⟩, hstep, hnext⟩ := Option.map_eq_some_iff.mp heq
  have hreplies : replies effects = [Errors.rosTopicNeedsTcp] := congrArg Prod.snd hnext
  obtain ⟨cb, hreply⟩ : ∃ cb, .reply cb Errors.rosTopicNeedsTcp ∈ effects :=
    mem_replies.mp (hreplies ▸ List.mem_singleton_self _)
  exact of_decide_eq_false (congrArg Prod.fst hnext)
    (h s ⟨history, (Run.start rfl).of_exec hrun⟩ Scenario.ros s' effects hstep cb _ hreply rfl)

end Felicia
