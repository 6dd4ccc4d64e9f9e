import Felicia.Core.Messages
import Felicia.Util.Generator

/-!
# Nodes and clients

`felicia/core/master/node.cc` and `felicia/core/master/client.cc`. A node carries what it publishes,
serves, subscribes to and requests; a client is one process and owns its nodes. Weak pointers to
nodes are only read before the next change of the registry, so a lookup returns the node itself.

`Client.findNodes` is the lookup every uniqueness test of the master goes through. Its meaning
depends on which field of the filter is set, a field holding the empty string counts as unset, and
for a published topic and for the watcher it stops at the first match.

`NodeInfo` is the only part of a node that never changes: the operations of a node keep it
(`keepsInfo_registerPublishingTopic` and its companions), and so does every update of one node in a
client's list (`map_nodeInfo_updateFirst`).
-/

set_option autoImplicit false
set_option relaxedAutoImplicit false

namespace Felicia

open Support

/-! ### Node -/

/-- `Node`. -/
@[ext] structure Node where
  nodeInfo : NodeInfo
  topicInfoMap : FlatMap String TopicInfo := .empty
  serviceInfoMap : FlatMap String ServiceInfo := .empty
  subscribingTopics : List String := []
  requestingServices : List String := []
  deriving DecidableEq

namespace Node

/-- `Node::name`. -/
def name (n : Node) : String := n.nodeInfo.name

/-- `Node::RegisterPublishingTopic`. -/
def registerPublishingTopic (topicInfo : TopicInfo) (n : Node) : Node :=
  { n with topicInfoMap := n.topicInfoMap.insertOrAssign topicInfo.topic topicInfo }

/-- `Node::RegisterSubscribingTopic`. -/
def registerSubscribingTopic (topic : String) (n : Node) : Node :=
  { n with subscribingTopics := n.subscribingTopics ++ [topic] }

/-- `Node::UnregisterPublishingTopic`. Its callers test `isPublishingTopic` first. -/
def unregisterPublishingTopic (topic : String) (n : Node) : Node :=
  { n with topicInfoMap := n.topicInfoMap.erase topic }

/-- `Node::UnregisterSubscribingTopic`. -/
def unregisterSubscribingTopic (topic : String) (n : Node) : Node :=
  { n with subscribingTopics := n.subscribingTopics.filter (· ≠ topic) }

/-- `Node::IsPublishingTopic`. -/
def isPublishingTopic (n : Node) (topic : String) : Bool := n.topicInfoMap.contains topic

/-- `Node::IsSubsribingTopic`. -/
def isSubscribingTopic (n : Node) (topic : String) : Bool := n.subscribingTopics.contains topic

/-- `Node::GetTopicInfo`. Its callers test `isPublishingTopic` first. -/
def getTopicInfo (n : Node) (topic : String) : Option TopicInfo := n.topicInfoMap.find topic

/-- `Node::AllPublishingTopicInfos`. -/
def allPublishingTopicInfos (n : Node) : List TopicInfo := n.topicInfoMap.values

/-- `Node::AllSubscribingTopics`. -/
def allSubscribingTopics (n : Node) : List String := n.subscribingTopics

/-- `Node::RegisterRequestingService`. -/
def registerRequestingService (service : String) (n : Node) : Node :=
  { n with requestingServices := n.requestingServices ++ [service] }

/-- `Node::RegisterServingService`. -/
def registerServingService (serviceInfo : ServiceInfo) (n : Node) : Node :=
  { n with serviceInfoMap := n.serviceInfoMap.insertOrAssign serviceInfo.service serviceInfo }

/-- `Node::UnregisterRequestingService`. -/
def unregisterRequestingService (service : String) (n : Node) : Node :=
  { n with requestingServices := n.requestingServices.filter (· ≠ service) }

/-- `Node::UnregisterServingService`. Its callers test `isServingService` first. -/
def unregisterServingService (service : String) (n : Node) : Node :=
  { n with serviceInfoMap := n.serviceInfoMap.erase service }

/-- `Node::IsRequestingService`. -/
def isRequestingService (n : Node) (service : String) : Bool :=
  n.requestingServices.contains service

/-- `Node::IsServingService`. -/
def isServingService (n : Node) (service : String) : Bool := n.serviceInfoMap.contains service

/-- `Node::GetServiceInfo`. Its callers test `isServingService` first. -/
def getServiceInfo (n : Node) (service : String) : Option ServiceInfo :=
  n.serviceInfoMap.find service

/-- `Node::AllServingServiceInfos`. -/
def allServingServiceInfos (n : Node) : List ServiceInfo := n.serviceInfoMap.values

/-- An operation of a node that keeps its `NodeInfo`. -/
def KeepsInfo (f : Node → Node) : Prop := ∀ n, (f n).nodeInfo = n.nodeInfo

theorem keepsInfo_registerPublishingTopic (topicInfo : TopicInfo) :
    KeepsInfo (registerPublishingTopic topicInfo) := fun _ ↦ rfl

theorem keepsInfo_registerSubscribingTopic (topic : String) :
    KeepsInfo (registerSubscribingTopic topic) := fun _ ↦ rfl

theorem keepsInfo_unregisterPublishingTopic (topic : String) :
    KeepsInfo (unregisterPublishingTopic topic) := fun _ ↦ rfl

theorem keepsInfo_unregisterSubscribingTopic (topic : String) :
    KeepsInfo (unregisterSubscribingTopic topic) := fun _ ↦ rfl

theorem keepsInfo_registerRequestingService (service : String) :
    KeepsInfo (registerRequestingService service) := fun _ ↦ rfl

theorem keepsInfo_registerServingService (serviceInfo : ServiceInfo) :
    KeepsInfo (registerServingService serviceInfo) := fun _ ↦ rfl

theorem keepsInfo_unregisterRequestingService (service : String) :
    KeepsInfo (unregisterRequestingService service) := fun _ ↦ rfl

theorem keepsInfo_unregisterServingService (service : String) :
    KeepsInfo (unregisterServingService service) := fun _ ↦ rfl

/-- The infos of the topics and services are stored under their own names. -/
def Labelled (n : Node) : Prop :=
  (∀ topic info, n.getTopicInfo topic = some info → info.topic = topic) ∧
    ∀ service info, n.getServiceInfo service = some info → info.service = service

namespace Labelled

variable {n : Node}

theorem registerPublishingTopic (h : n.Labelled) (topicInfo : TopicInfo) :
    (n.registerPublishingTopic topicInfo).Labelled := by
  refine ⟨fun topic info hinfo ↦ ?_, h.2⟩
  simp only [getTopicInfo, Node.registerPublishingTopic, FlatMap.find_insertOrAssign] at hinfo
  split_ifs at hinfo with htopic
  · cases hinfo
    exact htopic.symm
  · exact h.1 topic info hinfo

theorem unregisterPublishingTopic (h : n.Labelled) (topic : String) :
    (n.unregisterPublishingTopic topic).Labelled := by
  refine ⟨fun other info hinfo ↦ ?_, h.2⟩
  simp only [getTopicInfo, Node.unregisterPublishingTopic, FlatMap.find_erase] at hinfo
  split_ifs at hinfo
  exact h.1 other info hinfo

theorem registerServingService (h : n.Labelled) (serviceInfo : ServiceInfo) :
    (n.registerServingService serviceInfo).Labelled := by
  refine ⟨h.1, fun service info hinfo ↦ ?_⟩
  simp only [getServiceInfo, Node.registerServingService, FlatMap.find_insertOrAssign] at hinfo
  split_ifs at hinfo with hservice
  · cases hinfo
    exact hservice.symm
  · exact h.2 service info hinfo

theorem unregisterServingService (h : n.Labelled) (service : String) :
    (n.unregisterServingService service).Labelled := by
  refine ⟨h.1, fun other info hinfo ↦ ?_⟩
  simp only [getServiceInfo, Node.unregisterServingService, FlatMap.find_erase] at hinfo
  split_ifs at hinfo
  exact h.2 other info hinfo

end Labelled

end Node

/-! ### Client -/

/-- `Client`. -/
structure Client where
  clientInfo : ClientInfo
  nodes : List Node := []
  deriving DecidableEq

/-- `NodeNameChecker`. -/
def nodeNameChecker (nodeInfo : NodeInfo) (n : Node) : Bool := n.name = nodeInfo.name

namespace Client

/-- `Client::AddNode`. -/
def addNode (c : Client) (node : Node) : Client := { c with nodes := c.nodes ++ [node] }

/-- `Client::RemoveNode`. -/
def removeNode (c : Client) (nodeInfo : NodeInfo) : Client :=
  { c with nodes := c.nodes.filter fun n ↦ !nodeNameChecker nodeInfo n }

/-- The nodes that `Client::RemoveNode` destroys. -/
def removedNodes (c : Client) (nodeInfo : NodeInfo) : List Node :=
  c.nodes.filter (nodeNameChecker nodeInfo)

/-- `Client::HasNode`. -/
def hasNode (c : Client) (nodeInfo : NodeInfo) : Bool := c.nodes.any (nodeNameChecker nodeInfo)

/-- `Client::FindNode`. -/
def findNode (c : Client) (nodeInfo : NodeInfo) : Option Node :=
  c.nodes.find? (nodeNameChecker nodeInfo)

/-- `Client::FindNodes`. -/
def findNodes (c : Client) (nodeFilter : NodeFilter) : List Node :=
  if nodeFilter.all then c.nodes
  else if nodeFilter.publishingTopic ≠ "" then
    (c.nodes.find? (·.isPublishingTopic nodeFilter.publishingTopic)).toList
  else if nodeFilter.subscribingTopic ≠ "" then
    c.nodes.filter (·.isSubscribingTopic nodeFilter.subscribingTopic)
  else if nodeFilter.requestingService ≠ "" then
    c.nodes.filter (·.isRequestingService nodeFilter.requestingService)
  else if nodeFilter.servingService ≠ "" then
    c.nodes.filter (·.isServingService nodeFilter.servingService)
  else if nodeFilter.name ≠ "" then c.nodes.filter (·.name = nodeFilter.name)
  else if nodeFilter.watcher then (c.nodes.find? (·.nodeInfo.watcher)).toList
  else []

/-- `Client::FindTopicInfos`. -/
def findTopicInfos (c : Client) (topicFilter : TopicFilter) : List TopicInfo :=
  if topicFilter.all then c.nodes.flatMap (·.allPublishingTopicInfos)
  else if topicFilter.topic ≠ "" then
    ((c.nodes.find? (·.isPublishingTopic topicFilter.topic)).bind
      (·.getTopicInfo topicFilter.topic)).toList
  else []

/-- `Client::FindServiceInfos`. -/
def findServiceInfos (c : Client) (serviceFilter : ServiceFilter) : List ServiceInfo :=
  if serviceFilter.all then c.nodes.flatMap (·.allServingServiceInfos)
  else if serviceFilter.service ≠ "" then
    ((c.nodes.find? (·.isServingService serviceFilter.service)).bind
      (·.getServiceInfo serviceFilter.service)).toList
  else []

/-- `Client::FindAllSubscribingTopics`. -/
def findAllSubscribingTopics (c : Client) : List String :=
  c.nodes.flatMap (·.allSubscribingTopics)

end Client

/-! ### Changing one node of a list -/

/-- Apply an operation to the first node of a given name: the one `Client::FindNode` points to. -/
def updateFirst (name : String) (f : Node → Node) : List Node → List Node
  | [] => []
  | n :: ns => if n.name = name then f n :: ns else n :: updateFirst name f ns

/-- An operation run through the weak pointer that `Client::FindNode` returned. -/
def Client.updateNode (c : Client) (name : String) (f : Node → Node) : Client :=
  { c with nodes := updateFirst name f c.nodes }

theorem map_nodeInfo_updateFirst (name : String) {f : Node → Node} (hf : Node.KeepsInfo f)
    (ns : List Node) : (updateFirst name f ns).map (·.nodeInfo) = ns.map (·.nodeInfo) := by
  induction ns with
  | nil => rfl
  | cons n ns ih =>
    unfold updateFirst
    split_ifs
    · rw [List.map_cons, List.map_cons, hf n]
    · rw [List.map_cons, List.map_cons, ih]

/-- Assumes: the first node of that name is `target`. The list then splits around it, and the
update replaces it alone. -/
theorem updateFirst_split {name : String} {target : Node} {ns : List Node}
    (h : ns.find? (fun n ↦ decide (n.name = name)) = some target) :
    ∃ before after, ns = before ++ target :: after ∧
      ∀ f : Node → Node, updateFirst name f ns = before ++ f target :: after := by
  induction ns with
  | nil => cases h
  | cons n ns ih =>
    by_cases hn : n.name = name
    · rw [List.find?_cons_of_pos (by simpa using hn)] at h
      cases h
      exact ⟨[], ns, rfl, fun f ↦ by rw [updateFirst, if_pos hn]; rfl⟩
    · rw [List.find?_cons_of_neg (by simpa using hn)] at h
      obtain ⟨before, after, hsplit, hupdate⟩ := ih h
      refine ⟨n :: before, after, by rw [hsplit]; rfl, fun f ↦ ?_⟩
      rw [updateFirst, if_neg hn, hupdate f]
      rfl

end Felicia
