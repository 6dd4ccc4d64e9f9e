import Felicia.Master.Uniqueness
import Felicia.Support.Latest

/-!
# What a step announces about one topic

For one topic a step of the master does one of a few things (`TopicCase`): it says nothing that is
not already so, a node joins and is perhaps the watcher that learns of every topic, the topic is
published and announced to everyone who listens, it is withdrawn and that is announced to everyone,
or a node subscribes and learns of the publisher. `topicCase_step` derives this once from the
handlers, with the recipients read off the registry after the step. The topic has a name and is not
a ROS topic: the empty name is not looked up by `FindNodes`, and ROS topics are announced by the ROS
master's updates too. What is stored, and who is notified, is stated for topics and services alike.
-/

set_option autoImplicit false
set_option relaxedAutoImplicit false

namespace Felicia

open Support TransitionSystem

/-! ### What is stored -/

namespace Registry

/-- Some node stores an info. -/
def Stored {α : Type} (r : Registry) (get : Node → Option α) (info : α) : Prop :=
  ∃ n ∈ r.nodes, get n = some info

/-- Some node publishes a topic with this info. -/
def Published (r : Registry) (topic : String) : TopicInfo → Prop :=
  r.Stored (·.getTopicInfo topic)

/-- Some node serves a service with this info. -/
def Served (r : Registry) (service : String) : ServiceInfo → Prop :=
  r.Stored (·.getServiceInfo service)

section Stored

variable {α : Type} {get : Node → Option α} {r r' : Registry} {nodeInfo : NodeInfo} {n : Node}
  {f : Node → Node}

theorem stored_perm (h : r'.nodes.Perm r.nodes) (info : α) :
    r'.Stored get info ↔ r.Stored get info := by
  simp only [Stored, h.mem_iff]

/-- Assumes: an operation on a node that was found, which keeps what it stores. -/
theorem stored_updateNode (hfind : r.findNode nodeInfo = some n) (hget : get (f n) = get n)
    (hn : n ∈ r.nodes) (info : α) :
    (r.updateNode nodeInfo f).Stored get info ↔ r.Stored get info := by
  obtain ⟨hself, hnew, hold⟩ := mem_nodes_updateNode hfind f
  constructor
  · rintro ⟨m, hm, hinfo⟩
    rcases hnew m hm with rfl | hm
    · exact ⟨n, hn, hget ▸ hinfo⟩
    · exact ⟨m, hm, hinfo⟩
  · rintro ⟨m, hm, hinfo⟩
    rcases hold m hm with rfl | hm
    · exact ⟨f m, hself, hget.trans hinfo⟩
    · exact ⟨m, hm, hinfo⟩

/-- Assumes: nothing was stored, and the operation stores an info. -/
theorem stored_insert (hfind : r.findNode nodeInfo = some n) {info : α}
    (hget : get (f n) = some info) (hnone : ∀ m ∈ r.nodes, (get m).isSome = false) (x : α) :
    (r.updateNode nodeInfo f).Stored get x ↔ x = info := by
  obtain ⟨hself, hnew, -⟩ := mem_nodes_updateNode hfind f
  constructor
  · rintro ⟨m, hm, hx⟩
    rcases hnew m hm with rfl | hm
    · exact Option.some.inj (hx.symm.trans hget)
    · have hnot := hnone m hm
      rw [hx] at hnot
      cases hnot
  · rintro rfl
    exact ⟨_, hself, hget⟩

/-- Assumes: one node at most stores an info. Once the node that does drops it, nothing is
stored. -/
theorem not_stored_erase (hexclusive : r.Exclusive fun m ↦ (get m).isSome)
    (hfind : r.findNode nodeInfo = some n) (hn : (get n).isSome = true) (hget : get (f n) = none)
    (x : α) : ¬ (r.updateNode nodeInfo f).Stored get x := by
  obtain ⟨before, after, hnodes, hupdate⟩ := nodes_updateNode_split hfind
  rintro ⟨m, hm, hx⟩
  have hpos (ms : List Node) (hmem : m ∈ ms) : 0 < ms.countP fun m ↦ (get m).isSome :=
    List.countP_pos_iff.mpr ⟨m, hmem, Option.isSome_iff_exists.mpr ⟨x, hx⟩⟩
  rw [hupdate] at hm
  rw [Exclusive, hnodes, List.countP_append, List.countP_cons, if_pos hn] at hexclusive
  rcases List.mem_append.mp hm with hbefore | hm
  · have := hpos before hbefore
    omega
  rcases List.mem_cons.mp hm with rfl | hafter
  · rw [hget] at hx
    cases hx
  · have := hpos after hafter
    omega

/-- Assumes: one node at most stores an info, and it is among those that are gone. -/
theorem not_stored_removed {gone : List Node} (hperm : r.nodes.Perm (gone ++ r'.nodes))
    (hexclusive : r.Exclusive fun m ↦ (get m).isSome) {g : Node} (hg : g ∈ gone)
    (hstored : (get g).isSome = true) (x : α) : ¬ r'.Stored get x := by
  rintro ⟨n, hn, hx⟩
  rw [Exclusive, hperm.countP_eq, List.countP_append] at hexclusive
  have hpos : 0 < gone.countP fun m ↦ (get m).isSome := List.countP_pos_iff.mpr ⟨g, hg, hstored⟩
  have hpos' : 0 < r'.nodes.countP fun m ↦ (get m).isSome :=
    List.countP_pos_iff.mpr ⟨n, hn, Option.isSome_iff_exists.mpr ⟨x, hx⟩⟩
  omega

/-- Assumes: none of the nodes that are gone stored an info. -/
theorem stored_removed {gone : List Node} (hperm : r.nodes.Perm (gone ++ r'.nodes))
    (hgone : ∀ g ∈ gone, get g = none) (x : α) : r'.Stored get x ↔ r.Stored get x := by
  constructor
  · rintro ⟨n, hn, hinfo⟩
    exact ⟨n, hperm.symm.subset (List.mem_append_right _ hn), hinfo⟩
  · rintro ⟨n, hn, hinfo⟩
    rcases List.mem_append.mp (hperm.subset hn) with hg | hn
    · rw [hgone n hg] at hinfo
      cases hinfo
    · exact ⟨n, hn, hinfo⟩

end Stored

/-! ### Who is notified -/

variable {r : Registry} {nodeInfo : NodeInfo} {notification : MasterNotification} {e : Effect}

theorem of_mem_doNotifyClient (h : e ∈ r.doNotifyClient nodeInfo notification) :
    ∃ source, e = .notify nodeInfo source notification := by
  unfold doNotifyClient at h
  cases hclient : r.clientMap.find nodeInfo.clientId with
  | none => simp [hclient] at h
  | some client =>
    rw [hclient] at h
    exact ⟨_, List.mem_singleton.mp h⟩

/-- Assumes: clients stored under their ids. A registered node can be notified. -/
theorem exists_mem_doNotifyClient (hkeyed : r.Keyed) {n : Node} (hn : n ∈ r.nodes)
    (notification : MasterNotification) :
    ∃ source, .notify n.nodeInfo source notification ∈
      r.doNotifyClient n.nodeInfo notification := by
  obtain ⟨id, client, hclient, hmem⟩ := r.mem_nodes_iff.mp hn
  rw [doNotifyClient, (hkeyed id client hclient).2 n hmem, hclient]
  exact ⟨_, List.mem_singleton_self _⟩

theorem of_mem_notifyAllSubscribers {info : TopicInfo} (h : e ∈ r.notifyAllSubscribers info) :
    ∃ nodeInfo source, e = .notify nodeInfo source { topicInfo := some info } := by
  obtain ⟨n, -, hn⟩ := List.mem_flatMap.mp h
  exact ⟨n.nodeInfo, of_mem_doNotifyClient hn⟩

/-- Assumes: a topic with a name. Its subscribers are notified. -/
theorem exists_notify_subscriber (hkeyed : r.Keyed) {info : TopicInfo} (hname : info.topic ≠ "")
    {n : Node} (hn : n ∈ r.nodes) (hsub : n.isSubscribingTopic info.topic = true) :
    ∃ source, .notify n.nodeInfo source { topicInfo := some info } ∈
      r.notifyAllSubscribers info := by
  obtain ⟨source, hsource⟩ := exists_mem_doNotifyClient hkeyed hn { topicInfo := some info }
  refine ⟨source, List.mem_flatMap.mpr ⟨n, List.mem_append_left _ ?_, hsource⟩⟩
  rw [r.findNodes_subscribing hname]
  exact List.mem_filter.mpr ⟨hn, hsub⟩

/-- The watchers that a lookup finds are notified of every topic. -/
theorem exists_notify_watcher (hkeyed : r.Keyed) (info : TopicInfo) {n : Node}
    (hn : n ∈ r.findNodes { watcher := true }) :
    ∃ source, .notify n.nodeInfo source { topicInfo := some info } ∈
      r.notifyAllSubscribers info := by
  obtain ⟨source, hsource⟩ :=
    exists_mem_doNotifyClient hkeyed (mem_findNodes_watcher hn).1 { topicInfo := some info }
  exact ⟨source, List.mem_flatMap.mpr ⟨n, List.mem_append_right _ hn, hsource⟩⟩

theorem of_mem_notifyAllServiceClients {info : ServiceInfo}
    (h : e ∈ r.notifyAllServiceClients info) :
    ∃ nodeInfo source, e = .notify nodeInfo source { serviceInfo := some info } := by
  obtain ⟨n, -, hn⟩ := List.mem_flatMap.mp h
  exact ⟨n.nodeInfo, of_mem_doNotifyClient hn⟩

/-- Assumes: a service with a name. The nodes that request it are notified. -/
theorem exists_notify_serviceClient (hkeyed : r.Keyed) {info : ServiceInfo}
    (hname : info.service ≠ "") {n : Node} (hn : n ∈ r.nodes)
    (hreq : n.isRequestingService info.service = true) :
    ∃ source, .notify n.nodeInfo source { serviceInfo := some info } ∈
      r.notifyAllServiceClients info := by
  obtain ⟨source, hsource⟩ := exists_mem_doNotifyClient hkeyed hn { serviceInfo := some info }
  refine ⟨source, List.mem_flatMap.mpr ⟨n, ?_, hsource⟩⟩
  rw [r.findNodes_requesting hname]
  exact List.mem_filter.mpr ⟨hn, hreq⟩

/-- A new subscriber learns what is stored. -/
theorem of_mem_notifySubscriber {topic : String} (h : e ∈ r.notifySubscriber topic nodeInfo) :
    ∃ info source, r.Published topic info ∧
      e = .notify nodeInfo source { topicInfo := some info } := by
  by_cases hname : topic = ""
  · subst hname
    simp [notifySubscriber, findNodes_unset] at h
  · simp only [notifySubscriber, r.findNodes_publishing hname] at h
    cases hfind : r.nodes.find? (·.isPublishingTopic topic) with
    | none => simp [hfind] at h
    | some n =>
      have hpublishing := List.find?_some hfind
      obtain ⟨info, hinfo⟩ := Option.isSome_iff_exists.mp hpublishing
      simp only [hfind, Option.toList_some, List.head?_cons] at h
      obtain ⟨source, he⟩ := of_mem_doNotifyClient h
      have hget : n.getTopicInfo topic = some info := hinfo
      rw [hget] at he
      exact ⟨info, source, ⟨n, List.mem_of_find?_eq_some hfind, hget⟩, he⟩

/-- Assumes: a topic with a name that is published, and a subscriber whose client is there. -/
theorem exists_mem_notifySubscriber {topic : String} (hname : topic ≠ "") {info : TopicInfo}
    (hpublished : r.Published topic info) {client : Client}
    (hclient : r.clientMap.find nodeInfo.clientId = some client) :
    ∃ e ∈ r.notifySubscriber topic nodeInfo,
      ∃ info source, e = .notify nodeInfo source { topicInfo := some info } ∧
        r.Published topic info := by
  obtain ⟨m, hm, hinfo⟩ := hpublished
  have hsome : (r.nodes.find? (·.isPublishingTopic topic)).isSome = true :=
    List.find?_isSome.mpr ⟨m, hm, Option.isSome_iff_exists.mpr ⟨info, hinfo⟩⟩
  obtain ⟨n, hn⟩ := Option.isSome_iff_exists.mp hsome
  have hmem : .notify nodeInfo client.clientInfo.masterNotificationWatcherSource
      { topicInfo := n.getTopicInfo topic } ∈ r.notifySubscriber topic nodeInfo := by
    simp [notifySubscriber, r.findNodes_publishing hname, hn, doNotifyClient, hclient]
  obtain ⟨info', source, hstored, heq⟩ := of_mem_notifySubscriber hmem
  exact ⟨_, hmem, info', source, heq, hstored⟩

/-- A new service client learns what is stored. -/
theorem of_mem_notifyServiceClient {service : String}
    (h : e ∈ r.notifyServiceClient service nodeInfo) :
    ∃ info source, r.Served service info ∧
      e = .notify nodeInfo source { serviceInfo := some info } := by
  by_cases hname : service = ""
  · subst hname
    simp [notifyServiceClient, findNodes_unset] at h
  · simp only [notifyServiceClient, r.head?_findNodes_serving hname] at h
    cases hfind : r.nodes.find? (·.isServingService service) with
    | none => simp [hfind] at h
    | some n =>
      have hserving := List.find?_some hfind
      obtain ⟨info, hinfo⟩ := Option.isSome_iff_exists.mp hserving
      simp only [hfind] at h
      obtain ⟨source, he⟩ := of_mem_doNotifyClient h
      have hget : n.getServiceInfo service = some info := hinfo
      rw [hget] at he
      exact ⟨info, source, ⟨n, List.mem_of_find?_eq_some hfind, hget⟩, he⟩

/-- Assumes: a service with a name that is served, and a node whose client is there. -/
theorem exists_mem_notifyServiceClient {service : String} (hname : service ≠ "")
    {info : ServiceInfo} (hserved : r.Served service info) {client : Client}
    (hclient : r.clientMap.find nodeInfo.clientId = some client) :
    ∃ e ∈ r.notifyServiceClient service nodeInfo,
      ∃ info source, e = .notify nodeInfo source { serviceInfo := some info } ∧
        r.Served service info := by
  obtain ⟨m, hm, hinfo⟩ := hserved
  have hsome : (r.nodes.find? (·.isServingService service)).isSome = true :=
    List.find?_isSome.mpr ⟨m, hm, Option.isSome_iff_exists.mpr ⟨info, hinfo⟩⟩
  obtain ⟨n, hn⟩ := Option.isSome_iff_exists.mp hsome
  have hmem : .notify nodeInfo client.clientInfo.masterNotificationWatcherSource
      { serviceInfo := n.getServiceInfo service } ∈ r.notifyServiceClient service nodeInfo := by
    simp [notifyServiceClient, r.head?_findNodes_serving hname, hn, doNotifyClient, hclient]
  obtain ⟨info', source, hstored, heq⟩ := of_mem_notifyServiceClient hmem
  exact ⟨_, hmem, info', source, heq, hstored⟩

/-- Assumes: infos stored under their own names. The watcher learns what is stored. -/
theorem of_mem_notifyWatcher (hlabelled : ∀ n ∈ r.nodes, n.Labelled)
    (h : e ∈ r.notifyWatcher) :
    ∃ nodeInfo info source, r.Published info.topic info ∧
      e = .notify nodeInfo source { topicInfo := some info } := by
  unfold notifyWatcher at h
  cases hhead : (r.findNodes { watcher := true }).head? with
  | none => simp [hhead] at h
  | some w =>
    rw [hhead] at h
    obtain ⟨info, hinfo, he⟩ := List.mem_flatMap.mp h
    obtain ⟨n, hn, hmem⟩ := r.mem_findTopicInfos_all.mp hinfo
    obtain ⟨topic, hfind⟩ := n.topicInfoMap.mem_values_iff.mp hmem
    obtain ⟨source, rfl⟩ := of_mem_doNotifyClient he
    have htopic := (hlabelled n hn).1 topic info hfind
    exact ⟨w.nodeInfo, info, source, ⟨n, hn, by rw [htopic]; exact hfind⟩, rfl⟩

/-- Assumes: the watcher that the lookup finds first. It learns of every topic that is stored. -/
theorem exists_mem_notifyWatcher (hkeyed : r.Keyed) {w : Node}
    (hw : (r.findNodes { watcher := true }).head? = some w) {topic : String} {info : TopicInfo}
    (hpublished : r.Published topic info) :
    ∃ source, .notify w.nodeInfo source { topicInfo := some info } ∈ r.notifyWatcher := by
  obtain ⟨n, hn, hinfo⟩ := hpublished
  have hmem : info ∈ r.findTopicInfos { all := true } :=
    r.mem_findTopicInfos_all.mpr ⟨n, hn, n.topicInfoMap.mem_values_iff.mpr ⟨topic, hinfo⟩⟩
  have hwatcher := mem_findNodes_watcher (List.mem_of_mem_head? hw)
  obtain ⟨source, hsource⟩ :=
    exists_mem_doNotifyClient hkeyed hwatcher.1 { topicInfo := some info }
  refine ⟨source, ?_⟩
  rw [notifyWatcher, hw]
  exact List.mem_flatMap.mpr ⟨info, hmem, hsource⟩

end Registry

/-! ### What a step does about one topic -/

/-- The topic info of a notification. -/
def Effect.topicInfo? : Effect → Option TopicInfo
  | .notify _ _ notification => notification.topicInfo
  | _ => none

/-- A node joins, or a node subscribes to the topic: someone starts to listen. -/
def Effect.opensTopic (topic : String) : Effect → Bool
  | .log (.addNode _) => true
  | .log (.subscribeTopic _ subscribed) => subscribed = topic
  | _ => false

/-- An effect of no concern to those who listen to a topic. -/
def Effect.SilentTopic (topic : String) (e : Effect) : Prop :=
  e.opensTopic topic = false ∧ ∀ info ∈ e.topicInfo?, info.topic ≠ topic

/-- Each node after the step was there before, and subscribed to the topic if it does now. -/
def Followed (topic : String) (r r' : Registry) : Prop :=
  ∀ n ∈ r'.nodes, ∃ m ∈ r.nodes, m.nodeInfo = n.nodeInfo ∧
    (n.isSubscribingTopic topic = true → m.isSubscribingTopic topic = true)

/-- What a step does about a topic. -/
inductive TopicCase (topic : String) (r r' : Registry) (effects : List Effect) : Prop
  /-- What is said about the topic was so before. -/
  | quiet (hopens : ∀ e ∈ effects, e.opensTopic topic = false)
      (hinfo : ∀ e ∈ effects, ∀ info ∈ e.topicInfo?, info.topic = topic →
        r'.Published topic info)
      (hpublished : ∀ info, r'.Published topic info ↔ r.Published topic info)
      (hnodes : Followed topic r r')
  /-- A node joins, and learns of every topic if it is a watcher. -/
  | joined {nodeInfo : NodeInfo} {callback : StatusOnceCallback}
      (heffects : effects = .log (.addNode nodeInfo) :: .reply callback .OK ::
        if nodeInfo.watcher then r'.notifyWatcher else [])
      (hnodes : r'.nodes.Perm ({ nodeInfo } :: r.nodes))
  /-- The topic is published. -/
  | published {nodeInfo : NodeInfo} {callback : StatusOnceCallback} {info : TopicInfo}
      (htopic : info.topic = topic)
      (heffects : effects = .log (.publishTopic nodeInfo info.topic) :: .reply callback .OK ::
        r'.notifyAllSubscribers info)
      (hpublished : ∀ x, r'.Published topic x ↔ x = info) (hnodes : Followed topic r r')
  /-- The topic is withdrawn, by its publisher or with it. -/
  | withdrawn {info : TopicInfo} (htopic : info.topic = topic)
      (hstatus : info.status = .unregistered) (hall : r'.notifyAllSubscribers info ⊆ effects)
      (hopens : ∀ e ∈ effects, e.opensTopic topic = false)
      (hinfo : ∀ e ∈ effects, ∀ i ∈ e.topicInfo?, i.topic = topic → i.status = .unregistered)
      (hpublished : ∀ x, ¬ r'.Published topic x) (hnodes : Followed topic r r')
  /-- A node subscribes and learns of the publisher. -/
  | subscribed {nodeInfo : NodeInfo} {callback : StatusOnceCallback} {n : Node}
      (hfind : r.findNode nodeInfo = some n)
      (heffects : effects = .log (.subscribeTopic nodeInfo topic) :: .reply callback .OK ::
        r'.notifySubscriber topic nodeInfo)
      (hpublished : ∀ info, r'.Published topic info ↔ r.Published topic info)
      (hr' : r' = r.updateNode nodeInfo (Node.registerSubscribingTopic topic))

namespace TopicCase

variable {topic : String} {r r' : Registry} {effects : List Effect}

theorem silent_reply (callback : StatusOnceCallback) (status : Status) :
    (Effect.reply callback status).SilentTopic topic := ⟨rfl, by simp [Effect.topicInfo?]⟩

theorem silent_ros (call : RosCall) : (Effect.ros call).SilentTopic topic :=
  ⟨rfl, by simp [Effect.topicInfo?]⟩

theorem silent_log {entry : LogEntry} (h : (Effect.log entry).opensTopic topic = false) :
    (Effect.log entry).SilentTopic topic := ⟨h, by simp [Effect.topicInfo?]⟩

theorem silent_of_isAnswer (h : ∀ e ∈ effects, e.IsAnswer) :
    ∀ e ∈ effects, e.SilentTopic topic := by
  intro e he
  have hanswer := h e he
  cases e with
  | reply | respond => exact ⟨rfl, by simp [Effect.topicInfo?]⟩
  | notify | ros | log => cases hanswer

/-- Assumes: effects of no concern, and nodes that only change in other respects. -/
theorem of_silent (hsilent : ∀ e ∈ effects, e.SilentTopic topic)
    (hpublished : ∀ info, r'.Published topic info ↔ r.Published topic info)
    (hnodes : Followed topic r r') : TopicCase topic r r' effects :=
  .quiet (fun e he ↦ (hsilent e he).1)
    (fun e he info hinfo htopic ↦ absurd htopic ((hsilent e he).2 info hinfo)) hpublished hnodes

theorem followed_perm (h : r'.nodes.Perm r.nodes) : Followed topic r r' :=
  fun n hn ↦ ⟨n, h.subset hn, rfl, id⟩

/-- Assumes: an operation on a node that was found, which adds no subscription to the topic. -/
theorem followed_updateNode {nodeInfo : NodeInfo} {n : Node} {f : Node → Node}
    (hfind : r.findNode nodeInfo = some n) (hf : Node.KeepsInfo f)
    (hsub : (f n).isSubscribingTopic topic = true → n.isSubscribingTopic topic = true)
    (hn : n ∈ r.nodes) : Followed topic r (r.updateNode nodeInfo f) := by
  obtain ⟨-, hnew, -⟩ := Registry.mem_nodes_updateNode hfind f
  intro m hm
  rcases hnew m hm with rfl | hm
  · exact ⟨n, hn, (hf n).symm, hsub⟩
  · exact ⟨m, hm, rfl, id⟩

theorem silent_notifyAllSubscribers {info : TopicInfo} (h : info.topic ≠ topic) :
    ∀ e ∈ r.notifyAllSubscribers info, e.SilentTopic topic := by
  intro e he
  obtain ⟨nodeInfo, source, rfl⟩ := Registry.of_mem_notifyAllSubscribers he
  refine ⟨rfl, fun i hi ↦ ?_⟩
  obtain rfl : info = i := by simpa [Effect.topicInfo?] using hi
  exact h

/-- What a handler of services says is of no concern to those who listen to a topic. -/
theorem silent_handles {entry : LogEntry} (hlog : (Effect.log entry).opensTopic topic = false)
    {e : Effect} (h : Handles entry r (·.topicInfo = none) e) : e.SilentTopic topic := by
  cases h with
  | log => exact silent_log hlog
  | reply callback status => exact silent_reply callback status
  | ros call => exact silent_ros call
  | notifies hnotifies =>
    obtain ⟨_, notification, hnone, _, -, rfl⟩ := hnotifies
    exact ⟨rfl, by simp [Effect.topicInfo?, hnone]⟩

/-- Every effect of a removal that is about the topic withdraws it. -/
theorem of_mem_notifyRemoved (topic : String) {hasRos : Bool} {infos : List TopicInfo}
    {topics : List String} {services : List ServiceInfo} {e : Effect}
    (h : e ∈ notifyRemoved hasRos r infos topics services) :
    e.opensTopic topic = false ∧ ∀ i ∈ e.topicInfo?, ∃ info ∈ infos,
      i = { info with status := .unregistered } := by
  rcases List.mem_append.mp h with h | h
  · rcases List.mem_append.mp h with h | h
    · obtain ⟨info, hinfo, he⟩ := List.mem_flatMap.mp h
      obtain ⟨nodeInfo, source, rfl⟩ := Registry.of_mem_notifyAllSubscribers he
      refine ⟨rfl, fun i hi ↦ ⟨info, hinfo, ?_⟩⟩
      exact (Option.some.inj hi).symm
    · obtain ⟨info, hinfo, he⟩ := List.mem_flatMap.mp h
      obtain ⟨nodeInfo, source, rfl⟩ := Registry.of_mem_notifyAllServiceClients he
      exact ⟨rfl, by simp [Effect.topicInfo?]⟩
  · obtain ⟨call, rfl⟩ := of_mem_unregisterRosTopicsAndServices h
    exact ⟨rfl, by simp [Effect.topicInfo?]⟩

/-- Assumes: one publisher at most, and a removal whose announced infos are those of the nodes that
are gone. -/
theorem of_removed (hasRos : Bool) (gone : List Node) (infos : List TopicInfo)
    (topics : List String) (services : List ServiceInfo)
    (hperm : r.nodes.Perm (gone ++ r'.nodes))
    (hexclusive : r.Exclusive (·.isPublishingTopic topic))
    (hgone : ∀ info, (∃ g ∈ gone, g.getTopicInfo topic = some info) ↔
      info ∈ infos ∧ info.topic = topic)
    (hsub : notifyRemoved hasRos r' infos topics services ⊆ effects)
    (heffects : ∀ e ∈ effects, e ∈ notifyRemoved hasRos r' infos topics services ∨
      e.SilentTopic topic) : TopicCase topic r r' effects := by
  have hnodes : Followed topic r r' := fun n hn ↦
    ⟨n, hperm.symm.subset (List.mem_append_right _ hn), rfl, id⟩
  have hopens (e : Effect) (he : e ∈ effects) : e.opensTopic topic = false :=
    (heffects e he).elim (fun h ↦ (of_mem_notifyRemoved topic h).1) (·.1)
  by_cases hex : ∃ info, ∃ g ∈ gone, g.getTopicInfo topic = some info
  · obtain ⟨info, g, hg, hinfo⟩ := hex
    obtain ⟨hmem, htopic⟩ := (hgone info).mp ⟨g, hg, hinfo⟩
    refine @withdrawn topic r r' effects { info with status := .unregistered } htopic rfl ?_ hopens
      ?_ ?_ hnodes
    · intro e he
      refine hsub (List.mem_append_left _ (List.mem_append_left _ ?_))
      exact List.mem_flatMap.mpr ⟨info, hmem, he⟩
    · intro e he i hi htopic'
      rcases heffects e he with h | h
      · obtain ⟨info', -, rfl⟩ := (of_mem_notifyRemoved topic h).2 i hi
        rfl
      · exact absurd htopic' (h.2 i hi)
    · exact Registry.not_stored_removed hperm hexclusive hg
        (Option.isSome_iff_exists.mpr ⟨info, hinfo⟩)
  · refine .quiet hopens ?_ (Registry.stored_removed hperm fun g hg ↦ ?_) hnodes
    · intro e he i hi htopic
      rcases heffects e he with h | h
      · obtain ⟨info, hinfo, rfl⟩ := (of_mem_notifyRemoved topic h).2 i hi
        exact absurd ⟨info, (hgone info).mpr ⟨hinfo, htopic⟩⟩ hex
      · exact absurd htopic (h.2 i hi)
    · refine Option.eq_none_iff_forall_ne_some.mpr fun info hinfo ↦ ?_
      exact hex ⟨info, g, hg, hinfo⟩

end TopicCase

/-- Assumes: infos stored under their own names. -/
theorem Node.Labelled.mem_allPublishingTopicInfos {n : Node} (h : n.Labelled) {topic : String}
    {info : TopicInfo} : info ∈ n.allPublishingTopicInfos ∧ info.topic = topic ↔
      n.getTopicInfo topic = some info := by
  constructor
  · rintro ⟨hmem, rfl⟩
    obtain ⟨key, hkey⟩ := n.topicInfoMap.mem_values_iff.mp hmem
    rw [h.1 key info hkey]
    exact hkey
  · intro hget
    exact ⟨n.topicInfoMap.mem_values_iff.mpr ⟨topic, hget⟩, h.1 topic info hget⟩

/-- A waiting update from the ROS master is about a ROS topic. -/
def Task.UpdatesRos : Task → Prop
  | .notifyAllSubscribers topicInfo => isUsingRosProtocol topicInfo.topic = true
  | _ => True

theorem PubUpdate.isUsingRosProtocol_topicInfo {topic : String} {update : PubUpdate}
    {topicInfo : TopicInfo} (h : update.topicInfo topic = some topicInfo) :
    isUsingRosProtocol topicInfo.topic = true := by
  cases update with
  | noPublisher | publisher =>
    cases h
    exact isUsingRosProtocol_attachRosProtocol topic
  | noAnswer => cases h

/-- A name that `ConsumeRosProtocol` does not accept is not passed to ROS. -/
theorem rosName_eq_none {hasRos : Bool} {name : String} (h : isUsingRosProtocol name = false) :
    rosName hasRos name = none := by
  have hnone : consumeRosProtocol name = none := by
    simpa [isUsingRosProtocol] using h
  unfold rosName
  split_ifs
  · exact hnone
  · rfl

section TopicOperations

variable {hasRos : Bool} {ros : RosMasterProxy} {r : Registry} {nodeInfo : NodeInfo} {n : Node}
  {topic : String} {callback : StatusOnceCallback} {effects : List Effect}

theorem topicCase_publish {info : TopicInfo} (hname : topic ≠ "")
    (hros : isUsingRosProtocol topic = false) (hfind : r.findNode nodeInfo = some n)
    (hn : n ∈ r.nodes) (hnil : r.findNodes { publishingTopic := info.topic } = []) :
    TopicCase topic r (doPublishTopic hasRos ros r nodeInfo info callback).1
      (doPublishTopic hasRos ros r nodeInfo info callback).2 := by
  have hf := Node.keepsInfo_registerPublishingTopic info
  have hlock : r.publishTopic nodeInfo info =
      (.none, r.updateNode nodeInfo (Node.registerPublishingTopic info)) := by
    simpa [Registry.publishTopic, hnil] using Registry.withNode_of_find hfind rfl _ _
  simp only [doPublishTopic, hlock]
  by_cases htopic : info.topic = topic
  · subst htopic
    rw [rosName_eq_none hros]
    refine .published rfl rfl (Registry.stored_insert hfind ?_
      (Registry.not_publishing_of_findNodes hname hnil))
      (TopicCase.followed_updateNode hfind hf id hn)
    simp [Node.getTopicInfo, Node.registerPublishingTopic, FlatMap.find_insertOrAssign]
  · refine .of_silent (List.forall_mem_cons.mpr ⟨TopicCase.silent_log rfl, ?_⟩)
      (Registry.stored_updateNode hfind ?_ hn)
      (TopicCase.followed_updateNode hfind hf id hn)
    · cases rosName hasRos info.topic with
      | none =>
        exact List.forall_mem_cons.mpr ⟨TopicCase.silent_reply _ _,
          TopicCase.silent_notifyAllSubscribers htopic⟩
      | some rosTopic =>
        dsimp only
        split_ifs
        · simp [TopicCase.silent_reply, TopicCase.silent_ros]
        · simp [TopicCase.silent_reply]
    · simp [Node.getTopicInfo, Node.registerPublishingTopic, FlatMap.find_insertOrAssign,
        Ne.symm htopic]

theorem topicCase_unpublish {other : String}
    (hexclusive : r.Exclusive (·.isPublishingTopic topic))
    (hros : isUsingRosProtocol topic = false) (hfind : r.findNode nodeInfo = some n)
    (hn : n ∈ r.nodes) (hlabelled : n.Labelled) (hpublishing : n.isPublishingTopic other = true) :
    TopicCase topic r (doUnpublishTopic hasRos ros r nodeInfo other callback).1
      (doUnpublishTopic hasRos ros r nodeInfo other callback).2 := by
  have hf := Node.keepsInfo_unregisterPublishingTopic other
  have hlock : r.unpublishTopic nodeInfo other =
      (.none, r.updateNode nodeInfo (Node.unregisterPublishingTopic other)) :=
    Registry.withNode_of_find hfind (by simp [hpublishing]) _ _
  obtain ⟨info, hinfo⟩ : ∃ info, n.getTopicInfo other = some info :=
    Option.isSome_iff_exists.mp hpublishing
  obtain rfl : info.topic = other := hlabelled.1 other info hinfo
  simp only [doUnpublishTopic, hlock, hfind, hinfo, Option.bind_some, Option.getD_some]
  by_cases htopic : info.topic = topic
  · subst htopic
    rw [rosName_eq_none hros]
    refine @TopicCase.withdrawn _ _ _ _ { info with status := .unregistered } rfl rfl ?_ ?_ ?_
      (Registry.not_stored_erase hexclusive hfind hpublishing ?_)
      (TopicCase.followed_updateNode hfind hf id hn)
    · exact fun e he ↦ List.mem_cons_of_mem _ (List.mem_cons_of_mem _ he)
    · refine List.forall_mem_cons.mpr ⟨rfl, List.forall_mem_cons.mpr ⟨rfl, fun e he ↦ ?_⟩⟩
      obtain ⟨_, _, rfl⟩ := Registry.of_mem_notifyAllSubscribers he
      rfl
    · refine List.forall_mem_cons.mpr ⟨by simp [Effect.topicInfo?],
        List.forall_mem_cons.mpr ⟨by simp [Effect.topicInfo?], fun e he i hi _ ↦ ?_⟩⟩
      obtain ⟨_, _, rfl⟩ := Registry.of_mem_notifyAllSubscribers he
      rw [← Option.some.inj hi]
    · simp [Node.getTopicInfo, Node.unregisterPublishingTopic, FlatMap.find_erase]
  · refine .of_silent (List.forall_mem_cons.mpr ⟨TopicCase.silent_log rfl, ?_⟩)
      (Registry.stored_updateNode hfind ?_ hn)
      (TopicCase.followed_updateNode hfind hf id hn)
    · cases rosName hasRos info.topic with
      | none =>
        exact List.forall_mem_cons.mpr ⟨TopicCase.silent_reply _ _,
          TopicCase.silent_notifyAllSubscribers htopic⟩
      | some rosTopic => simp [TopicCase.silent_reply, TopicCase.silent_ros]
    · simp [Node.getTopicInfo, Node.unregisterPublishingTopic, FlatMap.find_erase, Ne.symm htopic]

theorem topicCase_subscribe {other topicType : String}
    (hros : isUsingRosProtocol topic = false) (hfind : r.findNode nodeInfo = some n)
    (hn : n ∈ r.nodes) (hlabelled : ∀ m ∈ r.nodes, m.Labelled)
    (hsub : n.isSubscribingTopic other = false) :
    TopicCase topic r (doSubscribeTopic hasRos ros r nodeInfo other topicType callback).1
      (doSubscribeTopic hasRos ros r nodeInfo other topicType callback).2 := by
  have hf := Node.keepsInfo_registerSubscribingTopic other
  have hlock : r.subscribeTopic nodeInfo other =
      (.none, r.updateNode nodeInfo (Node.registerSubscribingTopic other)) :=
    Registry.withNode_of_find hfind hsub _ _
  simp only [doSubscribeTopic, hlock]
  by_cases htopic : other = topic
  · subst htopic
    rw [rosName_eq_none hros]
    exact .subscribed hfind rfl (Registry.stored_updateNode hfind rfl hn) rfl
  · refine .of_silent (List.forall_mem_cons.mpr
      ⟨TopicCase.silent_log (by simp [Effect.opensTopic, htopic]), ?_⟩)
      (Registry.stored_updateNode hfind rfl hn) (TopicCase.followed_updateNode hfind hf ?_ hn)
    · cases rosName hasRos other with
      | none =>
        refine List.forall_mem_cons.mpr ⟨TopicCase.silent_reply _ _, fun e he ↦ ?_⟩
        obtain ⟨info, source, hpublished, rfl⟩ := Registry.of_mem_notifySubscriber he
        refine ⟨rfl, fun i hi ↦ ?_⟩
        obtain ⟨m, hm, hinfo⟩ := (Registry.stored_updateNode hfind rfl hn info).mp hpublished
        rw [← Option.some.inj hi, (hlabelled m hm).1 other info hinfo]
        exact htopic
      | some rosTopic =>
        refine List.forall_mem_cons.mpr ⟨TopicCase.silent_ros _, List.forall_mem_append.mpr
          ⟨?_, by simp [TopicCase.silent_reply]⟩⟩
        split_ifs
        · cases hupdate : (ros.pubUpdate rosTopic).topicInfo rosTopic with
          | none => exact List.forall_mem_nil _
          | some info =>
            refine TopicCase.silent_notifyAllSubscribers fun heq ↦ ?_
            have hinfo := PubUpdate.isUsingRosProtocol_topicInfo hupdate
            rw [heq, hros] at hinfo
            cases hinfo
        · exact List.forall_mem_nil _
    · simp [Node.isSubscribingTopic, Node.registerSubscribingTopic, Ne.symm htopic]

theorem topicCase_unsubscribe {other : String} (hfind : r.findNode nodeInfo = some n)
    (hn : n ∈ r.nodes) (hsub : n.isSubscribingTopic other = true) :
    TopicCase topic r (doUnsubscribeTopic hasRos ros r nodeInfo other callback).1
      (doUnsubscribeTopic hasRos ros r nodeInfo other callback).2 := by
  have hf := Node.keepsInfo_unregisterSubscribingTopic other
  have hlock : r.unsubscribeTopic nodeInfo other =
      (.none, r.updateNode nodeInfo (Node.unregisterSubscribingTopic other)) :=
    Registry.withNode_of_find hfind (by simp [hsub]) _ _
  simp only [doUnsubscribeTopic, hlock]
  refine .of_silent (List.forall_mem_cons.mpr ⟨TopicCase.silent_log rfl, ?_⟩)
    (Registry.stored_updateNode hfind rfl hn) (TopicCase.followed_updateNode hfind hf ?_ hn)
  · cases rosName hasRos other <;> simp [TopicCase.silent_reply, TopicCase.silent_ros]
  · simp only [Node.isSubscribingTopic, Node.unregisterSubscribingTopic, List.contains_iff_mem]
    exact fun h ↦ List.mem_of_mem_filter h

/-- Assumes: a named topic that is not a ROS topic, with one publisher at most. -/
theorem topicCase_update (hkeyed : r.Keyed) (hlabelled : ∀ n ∈ r.nodes, n.Labelled)
    (hexclusive : r.Exclusive (·.isPublishingTopic topic)) (hname : topic ≠ "")
    (hros : isUsingRosProtocol topic = false) {r' : Registry} {task : Task} {f : Node → Node}
    (hfind : r.findNode nodeInfo = some n) (hop : NodeOp r n nodeInfo task f)
    (hr' : r' = r.updateNode nodeInfo f) (hrun : runTask hasRos ros r task = some (r', effects)) :
    TopicCase topic r r' effects := by
  have hn := (Registry.findNode_spec hkeyed hfind).1
  have hf := hop.keepsInfo
  cases hop with
  | publish info callback hnil =>
    cases hrun
    exact topicCase_publish hname hros hfind hn hnil
  | unpublish other callback hpublishing =>
    cases hrun
    exact topicCase_unpublish hexclusive hros hfind hn (hlabelled n hn) hpublishing
  | subscribe other topicType callback hsub =>
    cases hrun
    exact topicCase_subscribe hros hfind hn hlabelled hsub
  | unsubscribe other callback hsub =>
    cases hrun
    exact topicCase_unsubscribe hfind hn hsub
  | request service callback hreq =>
    cases hrun
    refine .of_silent (fun e he ↦ TopicCase.silent_handles rfl
      (handles_doRegisterServiceClient _ _ _ _ _ _ e he)) ?_ ?_ <;> rw [hr']
    · exact Registry.stored_updateNode hfind rfl hn
    · exact TopicCase.followed_updateNode hfind hf id hn
  | unrequest service callback hreq =>
    cases hrun
    refine .of_silent (fun e he ↦ TopicCase.silent_handles rfl
      (handles_doUnregisterServiceClient _ _ _ _ e he)) ?_ ?_ <;> rw [hr']
    · exact Registry.stored_updateNode hfind rfl hn
    · exact TopicCase.followed_updateNode hfind hf id hn
  | serve info callback hnil =>
    cases hrun
    refine .of_silent (fun e he ↦ TopicCase.silent_handles rfl
      (handles_doRegisterServiceServer _ _ _ _ _ _ e he)) ?_ ?_ <;> rw [hr']
    · exact Registry.stored_updateNode hfind rfl hn
    · exact TopicCase.followed_updateNode hfind hf id hn
  | unserve service callback hserving =>
    cases hrun
    refine .of_silent (fun e he ↦ TopicCase.silent_handles rfl
      (handles_doUnregisterServiceServer _ _ _ _ _ _ e he)) ?_ ?_ <;> rw [hr']
    · exact Registry.stored_updateNode hfind rfl hn
    · exact TopicCase.followed_updateNode hfind hf id hn

end TopicOperations

/-! ### Every step -/

section TopicStep

variable {build : Build} {s s' : System} {a : Action} {effects : List Effect} {topic : String}

/-- Assumes: the task of a node that was to be added, with the registry after it. -/
theorem topicCase_addNode (howned : s.Owned) {ros : RosMasterProxy} {node : Node}
    {callback : StatusOnceCallback} {rest : List Task} {r' : Registry}
    (hlabelled' : ∀ n ∈ r'.nodes, n.Labelled)
    (htasks : s.tasks = .doRegisterNode node callback :: rest)
    (hrun : runTask build.hasRos ros s.registry (.doRegisterNode node callback) =
      some (r', effects)) : TopicCase topic s.registry r' effects := by
  obtain ⟨r'', hadd, heq⟩ := Option.map_eq_some_iff.mp hrun
  cases heq
  have hfresh := howned.fresh_node htasks
  cases hclient : s.registry.clientMap.find node.nodeInfo.clientId with
  | none =>
    have hnodes : r'.nodes.Perm s.registry.nodes :=
      .of_eq (Registry.nodes_addNode_of_find_eq_none hclient hadd)
    have hlog : s.registry.checkIfClientExists node.nodeInfo.clientId = false := by
      simp [Registry.checkIfClientExists, FlatMap.contains, hclient]
    rw [hlog]
    have hwatcher (e : Effect) (he : e ∈ if node.nodeInfo.watcher then r'.notifyWatcher else []) :
        e.opensTopic topic = false ∧ ∀ info ∈ e.topicInfo?, info.topic = topic →
          r'.Published topic info := by
      split_ifs at he
      · obtain ⟨nodeInfo, info, source, hpublished, rfl⟩ :=
          Registry.of_mem_notifyWatcher hlabelled' he
        refine ⟨rfl, fun i hi htopic ↦ ?_⟩
        obtain rfl : info = i := by simpa [Effect.topicInfo?] using hi
        rwa [← htopic]
      · cases he
    refine .quiet (List.forall_mem_cons.mpr ⟨rfl, fun e he ↦ (hwatcher e he).1⟩)
      (List.forall_mem_cons.mpr ⟨by simp [Effect.topicInfo?], fun e he ↦ (hwatcher e he).2⟩)
      (Registry.stored_perm hnodes) (TopicCase.followed_perm hnodes)
  | some client =>
    have hperm := Registry.nodes_addNode_perm hclient hadd
    rw [hfresh] at hperm
    have hlog : s.registry.checkIfClientExists node.nodeInfo.clientId = true := by
      simp [Registry.checkIfClientExists, FlatMap.contains, hclient]
    rw [hlog]
    exact .joined rfl hperm

theorem topicCase_removeNode (howned : s.Owned) (hlabelled : ∀ n ∈ s.registry.nodes, n.Labelled)
    (hexclusive : s.registry.Exclusive (·.isPublishingTopic topic)) {hasRos : Bool}
    {nodeInfo : NodeInfo} {callback : StatusOnceCallback} {r' : Registry}
    (hrun : doUnregisterNode hasRos s.registry nodeInfo callback = some (r', effects)) :
    TopicCase topic s.registry r' effects := by
  rcases howned.doUnregisterNode_eq hrun with ⟨hperm, heffects⟩ | ⟨n, hfind, hperm, rfl⟩
  · refine .of_silent (fun e he ↦ ?_) (Registry.stored_perm hperm)
      (TopicCase.followed_perm hperm)
    rcases heffects e he with rfl | rfl
    · exact TopicCase.silent_log rfl
    · exact TopicCase.silent_reply _ _
  · have hn := (Registry.findNode_spec howned.owns.keyed hfind).1
    refine TopicCase.of_removed hasRos [n] n.allPublishingTopicInfos n.allSubscribingTopics
      n.allServingServiceInfos hperm hexclusive (fun info ↦ ?_) (fun e he ↦ ?_) (fun e he ↦ ?_)
    · rw [(hlabelled n hn).mem_allPublishingTopicInfos]
      simp
    · exact List.mem_append_left _ (List.mem_cons_of_mem _ he)
    · rcases List.mem_append.mp he with he | he
      · rcases List.mem_cons.mp he with rfl | he
        · exact Or.inr (TopicCase.silent_log rfl)
        · exact Or.inl he
      · rw [List.mem_singleton.mp he]
        exact Or.inr (TopicCase.silent_reply _ _)

theorem topicCase_removeClient (hlabelled : ∀ n ∈ s.registry.nodes, n.Labelled)
    (hexclusive : s.registry.Exclusive (·.isPublishingTopic topic)) {hasRos : Bool}
    {clientInfo : ClientInfo} {r' : Registry}
    (hremove : removeClient hasRos s.registry clientInfo = some (r', effects)) :
    TopicCase topic s.registry r' effects := by
  obtain ⟨client, -, hperm, rfl⟩ := System.removeClient_eq hremove
  have hmem (n : Node) (hn : n ∈ client.nodes) : n ∈ s.registry.nodes :=
    hperm.symm.subset (List.mem_append_left _ hn)
  refine TopicCase.of_removed hasRos client.nodes (client.findTopicInfos { all := true })
    client.findAllSubscribingTopics (client.findServiceInfos { all := true }) hperm hexclusive
    (fun info ↦ ?_) (fun e he ↦ List.mem_cons_of_mem _ he) (fun e he ↦ ?_)
  · simp only [Client.findTopicInfos, ↓reduceIte, List.mem_flatMap]
    constructor
    · rintro ⟨g, hg, hinfo⟩
      obtain ⟨hvalue, htopic⟩ := (hlabelled g (hmem g hg)).mem_allPublishingTopicInfos.mpr hinfo
      exact ⟨⟨g, hg, hvalue⟩, htopic⟩
    · rintro ⟨⟨g, hg, hvalue⟩, htopic⟩
      exact ⟨g, hg, (hlabelled g (hmem g hg)).mem_allPublishingTopicInfos.mp ⟨hvalue, htopic⟩⟩
  · rcases List.mem_cons.mp he with rfl | he
    · exact Or.inr (TopicCase.silent_log rfl)
    · exact Or.inl he

/-- Assumes: a named topic that is not a ROS topic, with one publisher at most; infos stored under
their own names, before and after the step; waiting updates only about ROS topics. -/
theorem topicCase_step (howned : s.Owned) (hlabelled : ∀ n ∈ s.registry.nodes, n.Labelled)
    (hlabelled' : ∀ n ∈ s'.registry.nodes, n.Labelled)
    (hupdates : ∀ task ∈ s.tasks, task.UpdatesRos)
    (hexclusive : s.registry.Exclusive (·.isPublishingTopic topic)) (hname : topic ≠ "")
    (hros : isUsingRosProtocol topic = false) (hcase : StepCase build s a s' effects) :
    TopicCase topic s.registry s'.registry effects := by
  cases hcase with
  | post new _ hanswer =>
    exact .of_silent (TopicCase.silent_of_isAnswer hanswer) (fun _ ↦ Iff.rfl)
      (TopicCase.followed_perm (List.Perm.refl _))
  | newClient | newNode =>
    refine .of_silent (TopicCase.silent_of_isAnswer ?_) (fun _ ↦ Iff.rfl)
      (TopicCase.followed_perm (List.Perm.refl _))
    simp [Effect.IsAnswer]
  | @task ros task rest r' effects htasks hrun =>
    cases runTask_change hrun with
    | answered _ hanswer =>
      exact .of_silent (TopicCase.silent_of_isAnswer hanswer) (fun _ ↦ Iff.rfl)
        (TopicCase.followed_perm (List.Perm.refl _))
    | notified info =>
      refine .of_silent (TopicCase.silent_notifyAllSubscribers fun heq ↦ ?_) (fun _ ↦ Iff.rfl)
        (TopicCase.followed_perm (List.Perm.refl _))
      have hinfo := hupdates _ (htasks ▸ List.mem_cons_self ..)
      rw [Task.UpdatesRos, heq, hros] at hinfo
      cases hinfo
    | addClient hadd =>
      obtain ⟨r'', hadd', heq⟩ := Option.map_eq_some_iff.mp hrun
      cases heq
      have hperm := howned.nodes_addClient htasks hadd
      exact .of_silent (List.forall_mem_cons.mpr ⟨TopicCase.silent_log rfl,
        by simp [TopicCase.silent_reply]⟩) (Registry.stored_perm hperm)
        (TopicCase.followed_perm hperm)
    | addNode => exact topicCase_addNode howned hlabelled' htasks hrun
    | eraseNode => exact topicCase_removeNode howned hlabelled hexclusive hrun
    | update hfind hop =>
      exact topicCase_update howned.owns.keyed hlabelled hexclusive hname hros hfind hop rfl hrun
  | removeClient _ hremove => exact topicCase_removeClient hlabelled hexclusive hremove

end TopicStep

end Felicia
