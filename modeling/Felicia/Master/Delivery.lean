import Felicia.Master.Completeness
import Felicia.Support.Delivery

/-!
# What subscribers have received

`DoNotifyClient` opens a connection of its own for each notification, so notifications arrive in any
order. `delivery` is the master with the notifications on their way. When none of them overtakes an
earlier one to the same node about the same topic, then once nothing is on its way the last one a
subscriber received, of those issued since it subscribed, agrees with the registry
(`lastDelivered_eq`, from what the master told it last).

Neither condition can be dropped. Nothing in a notification tells whether it is older than another,
so a publication that arrives after its withdrawal is taken for the current one. And a node that
subscribes again is told nothing if the topic was withdrawn in the meantime.
-/

set_option autoImplicit false
set_option relaxedAutoImplicit false

namespace Felicia

open Support TransitionSystem

/-! ### Notifications on their way -/

namespace Effect

def isNotify : Effect → Bool
  | .notify .. => true
  | _ => false

/-- Two notifications to one node about one topic. -/
def sameTopic : Effect → Effect → Bool
  | .notify nodeInfo _ notification, .notify nodeInfo' _ notification' =>
    nodeInfo.names nodeInfo' && notification.topicInfo.map (·.topic) =
      notification'.topicInfo.map (·.topic)
  | _, _ => false

theorem isNotify_of_tellsTopic {topic : String} {key : NodeInfo} {e : Effect}
    (h : (e.tellsTopic topic key).isSome = true) : e.isNotify = true := by
  cases e with
  | notify => rfl
  | reply | respond | ros | log => cases h

/-- Two notifications that tell a node about one topic are related. -/
theorem sameTopic_of_tellsTopic {topic : String} {key : NodeInfo} {e e' : Effect}
    (h : (e.tellsTopic topic key).isSome = true) (h' : (e'.tellsTopic topic key).isSome = true) :
    e.sameTopic e' = true := by
  obtain ⟨info, hinfo⟩ := Option.isSome_iff_exists.mp h
  obtain ⟨info', hinfo'⟩ := Option.isSome_iff_exists.mp h'
  obtain ⟨hmem, htopic⟩ := of_tellsTopic hinfo
  obtain ⟨hmem', htopic'⟩ := of_tellsTopic hinfo'
  cases e with
  | notify nodeInfo source notification =>
    cases e' with
    | notify nodeInfo' source' notification' =>
      simp only [tellsTopic] at hinfo hinfo'
      split_ifs at hinfo hinfo' with hkey hkey'
      obtain ⟨hid, hname⟩ := of_decide_eq_true hkey
      obtain ⟨hid', hname'⟩ := of_decide_eq_true hkey'
      simp only [topicInfo?, Option.mem_def] at hmem hmem'
      simp [sameTopic, NodeInfo.names, hid, hid', hname, hname', hmem, hmem', htopic, htopic']
    | reply | respond | ros | log => cases h'
  | reply | respond | ros | log => cases h

end Effect

/-- The master, with the notifications on their way to the clients. -/
def delivery (build : Build) :
    TransitionSystem (Network System Effect) (NetworkAction Action) (Effect × ℕ) :=
  (master build).delivering (·.isNotify)

theorem delivery_initial (build : Build) : (delivery build).Initial { state := {} } :=
  ⟨rfl, rfl, rfl⟩

/-- Requests submit registered infos. -/
def SubmitsRegistered : NetworkAction Action → Prop
  | .act a => a.Registered
  | .deliver _ => True

instance : (a : NetworkAction Action) → Decidable (SubmitsRegistered a)
  | .act a => inferInstanceAs (Decidable a.Registered)
  | .deliver _ => isTrue trivial

/-- What a node received last about a topic. -/
def lastReceived (delivered : List (Effect × ℕ)) (topic : String) (key : NodeInfo) :
    Option TopicInfo :=
  lastValue (·.tellsTopic topic key) 0 delivered

/-- What a node received last about a topic, of what was issued since it subscribed. -/
def lastDelivered (network : Network System Effect) (delivered : List (Effect × ℕ))
    (topic : String) (key : NodeInfo) : Option TopicInfo :=
  latestDelivered (·.subscribes topic key) (·.tellsTopic topic key) network delivered

section Delivered

variable {build : Build} {guard : Network System Effect → NetworkAction Action → Prop}
  {network : Network System Effect} {delivered : List (Effect × ℕ)}

/-- Assumes: notifications that do not overtake each other, none of them on its way. -/
theorem lastDelivered_eq
    (hguard : ∀ network a, guard network a → InOrder Effect.sameTopic network a)
    (run : Run (delivery build) guard network delivered) (hquiet : network.inFlight = [])
    (topic : String) (key : NodeInfo) :
    lastDelivered network delivered topic key = lastTopicInfo network.issued topic key :=
  run.latestDelivered_eq_latest (fun _ ↦ Effect.isNotify_of_tellsTopic)
    (fun _ _ ↦ Effect.sameTopic_of_tellsTopic) hguard hquiet

/-- When no notification overtakes an earlier one to the same node about the same topic, then once
none is on its way each subscriber of a named topic that is not a ROS topic received last, of what
was issued since it subscribed, the info of the publisher; or, if there is none, nothing or that the
topic was withdrawn. The info of the publisher is registered when it was submitted so. -/
theorem delivered_agrees (build : Build) (network : Network System Effect)
    (delivered : List (Effect × ℕ))
    (run : Run (delivery build) (InOrder Effect.sameTopic) network delivered)
    (hquiet : network.inFlight = []) (topic : String) (hname : topic ≠ "")
    (hros : isUsingRosProtocol topic = false) (n : Node) (hn : n ∈ network.state.registry.nodes)
    (hsub : n.isSubscribingTopic topic = true) :
    (∀ info, network.state.registry.Published topic info →
      lastDelivered network delivered topic n.nodeInfo = some info) ∧
    ((∀ info, ¬ network.state.registry.Published topic info) →
      ∀ info ∈ lastDelivered network delivered topic n.nodeInfo, info.status = .unregistered) ∧
    (Run (delivery build) (fun _ a ↦ SubmitsRegistered a) network delivered →
      ∀ info, network.state.registry.Published topic info → info.status = .registered) := by
  have hmaster : Run (master build) unguarded network.state network.issued :=
    run.of_delivering fun _ _ _ ↦ trivial
  have hagrees := subscriber_agrees hname hros hmaster n hn hsub
  have hunique := (publisher_exclusive hname ⟨_, hmaster⟩).stored_unique
  rw [lastDelivered_eq (fun _ _ h ↦ h) run hquiet]
  refine ⟨fun info hinfo ↦ hagrees.eq_some hunique hinfo,
    fun hnone info hinfo ↦ hagrees.withdrawn_of_mem hnone hinfo, fun hrun info hinfo ↦ ?_⟩
  have hregistered : Run (master build) (fun _ a ↦ a.Registered) network.state network.issued :=
    hrun.of_delivering fun _ _ h ↦ h
  exact System.status_of_published (fun _ _ h ↦ h) ⟨_, hregistered⟩ topic info hinfo

end Delivered

namespace Scenario

/-- A topic that node `p` publishes. -/
def topicInfo : TopicInfo := { topic := "t", topicSource := source }

/-- A client with a node that publishes a topic and a node that subscribes to it before. -/
def published (info : TopicInfo) : List (NetworkAction Action) :=
  [client 7, run, request (.registerNode (node "p")), run, request (.registerNode (node "s")), run,
    request (.subscribeTopic (node "s") info.topic ""), run,
    request (.publishTopic (node "p") info), run].map .act

/-- The topic is withdrawn while the subscriber is there, and the withdrawal arrives first. -/
def overtaken : List (NetworkAction Action) :=
  published topicInfo ++
    [.act (request (.unpublishTopic (node "p") "t")), .act run, .deliver 1, .deliver 0]

/-- The topic is withdrawn while the subscriber is away. -/
def resubscribed : List (NetworkAction Action) :=
  published topicInfo ++ [.deliver 0] ++
    [request (.unsubscribeTopic (node "s") "t"), run, request (.unpublishTopic (node "p") "t"),
      run, request (.subscribeTopic (node "s") "t" ""), run].map .act

end Scenario

/-- The notification of a publication arrives, and the subscriber knows the publisher. -/
theorem delivered_agrees_of_published :
    ∃ network delivered, Run (delivery {}) (InOrder Effect.sameTopic) network delivered ∧
      network.inFlight = [] ∧ ∃ n ∈ network.state.registry.nodes,
        n.isSubscribingTopic "t" = true ∧
        network.state.registry.Published "t" Scenario.topicInfo ∧
        lastDelivered network delivered "t" n.nodeInfo = some Scenario.topicInfo := by
  have hexec : ((delivery {}).exec (InOrder Effect.sameTopic) { state := {} } []
      (Scenario.published Scenario.topicInfo ++ [.deliver 0])).map (fun result ↦
        decide (result.1.inFlight = [] ∧
          (∃ n ∈ result.1.state.registry.nodes, n.isSubscribingTopic "t" = true) ∧
          ∃ p ∈ result.1.state.registry.nodes, p.getTopicInfo "t" = some Scenario.topicInfo)) =
      some true := by
    decide
  obtain ⟨⟨network, delivered⟩, hrun, heq⟩ := Option.map_eq_some_iff.mp hexec
  have run := (Run.start (delivery_initial {})).of_exec hrun
  obtain ⟨hquiet, ⟨n, hn, hsub⟩, hpublished⟩ := of_decide_eq_true heq
  have hagrees := delivered_agrees {} network delivered run hquiet "t" (by decide) (by decide) n
    hn hsub
  exact ⟨network, delivered, run, hquiet, n, hn, hsub, hpublished, hagrees.1 _ hpublished⟩

/-- Each subscriber of a topic is informed by what it received last. -/
def ReceivedAbout (network : Network System Effect) (delivered : List (Effect × ℕ))
    (topic : String) : Prop :=
  ∀ n ∈ network.state.registry.nodes, n.isSubscribingTopic topic = true →
    Informed (network.state.registry.Published topic) (·.status)
      (lastReceived delivered topic n.nodeInfo)

instance (network : Network System Effect) (delivered : List (Effect × ℕ)) (topic : String) :
    Decidable (ReceivedAbout network delivered topic) :=
  inferInstanceAs (Decidable (∀ n ∈ network.state.registry.nodes,
    n.isSubscribingTopic topic = true → Informed (network.state.registry.Published topic)
      (·.status) (lastReceived delivered topic n.nodeInfo)))

/-- Each subscriber of a named topic that is not a ROS topic is informed by what it received last.
-/
def Received (network : Network System Effect) (delivered : List (Effect × ℕ)) : Prop :=
  ∀ topic, topic ≠ "" → isUsingRosProtocol topic = false → ReceivedAbout network delivered topic

/-- Assumes: an execution after which nothing is on its way and a subscriber is not informed. -/
theorem exists_not_received (guard : Network System Effect → NetworkAction Action → Prop)
    [∀ network a, Decidable (guard network a)] (actions : List (NetworkAction Action))
    (topic : String)
    (h : ((delivery {}).exec guard { state := {} } [] actions).map (fun result ↦
        decide (result.1.inFlight = [] ∧ ¬ ReceivedAbout result.1 result.2 topic)) = some true) :
    ∃ network delivered, Run (delivery {}) guard network delivered ∧ network.inFlight = [] ∧
      ¬ ReceivedAbout network delivered topic := by
  obtain ⟨⟨network, delivered⟩, hrun, heq⟩ := Option.map_eq_some_iff.mp h
  obtain ⟨hquiet, hnot⟩ := of_decide_eq_true heq
  exact ⟨network, delivered, (Run.start (delivery_initial {})).of_exec hrun, hquiet, hnot⟩

/-- A subscriber may have received last what is no longer so: when a publication arrives after its
withdrawal, and, even if nothing overtakes anything, when it was away as the topic was withdrawn.
What it receives about a topic is the info that was submitted, registered or not, and it receives
nothing about the topic whose name is empty. -/
theorem received_not_informed :
    (¬ ∀ network delivered, Run (delivery {}) (fun _ a ↦ SubmitsRegistered a) network delivered →
      network.inFlight = [] → Received network delivered) ∧
    (¬ ∀ network delivered, Run (delivery {}) (fun network a ↦
        SubmitsRegistered a ∧ InOrder Effect.sameTopic network a) network delivered →
      network.inFlight = [] → Received network delivered) ∧
    (¬ ∀ network delivered, Run (delivery {}) (InOrder Effect.sameTopic) network delivered →
      network.inFlight = [] → ∀ n ∈ network.state.registry.nodes,
        n.isSubscribingTopic "t" = true → ∀ p ∈ network.state.registry.nodes,
          p.isPublishingTopic "t" = true →
            (lastDelivered network delivered "t" n.nodeInfo).map (·.status) = some .registered) ∧
    ¬ ∀ network delivered, Run (delivery {}) (fun network a ↦
        SubmitsRegistered a ∧ InOrder Effect.sameTopic network a) network delivered →
      network.inFlight = [] → ReceivedAbout network delivered "" := by
  refine ⟨fun h ↦ ?_, fun h ↦ ?_, fun h ↦ ?_, fun h ↦ ?_⟩
  · obtain ⟨network, delivered, run, hquiet, hnot⟩ :=
      exists_not_received (fun _ a ↦ SubmitsRegistered a) Scenario.overtaken "t" (by decide)
    exact hnot (h network delivered run hquiet "t" (by decide) (by decide))
  · obtain ⟨network, delivered, run, hquiet, hnot⟩ :=
      exists_not_received (fun network a ↦
        SubmitsRegistered a ∧ InOrder Effect.sameTopic network a) Scenario.resubscribed "t"
        (by decide)
    exact hnot (h network delivered run hquiet "t" (by decide) (by decide))
  · have hexec : ((delivery {}).exec (InOrder Effect.sameTopic) { state := {} } []
        (Scenario.published { Scenario.topicInfo with status := .unregistered } ++
          [.deliver 0])).map (fun result ↦ decide (result.1.inFlight = [] ∧
            ¬ ∀ n ∈ result.1.state.registry.nodes, n.isSubscribingTopic "t" = true →
              ∀ p ∈ result.1.state.registry.nodes, p.isPublishingTopic "t" = true →
                (lastDelivered result.1 result.2 "t" n.nodeInfo).map (·.status) =
                  some .registered)) = some true := by
      decide
    obtain ⟨⟨network, delivered⟩, hrun, heq⟩ := Option.map_eq_some_iff.mp hexec
    obtain ⟨hquiet, hnot⟩ := of_decide_eq_true heq
    exact hnot (h network delivered ((Run.start (delivery_initial {})).of_exec hrun) hquiet)
  · obtain ⟨network, delivered, run, hquiet, hnot⟩ :=
      exists_not_received (fun network a ↦
        SubmitsRegistered a ∧ InOrder Effect.sameTopic network a)
        (Scenario.published { Scenario.topicInfo with topic := "" }) "" (by decide)
    exact hnot (h network delivered run hquiet)

end Felicia
