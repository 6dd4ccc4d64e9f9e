import Felicia.Master.Client
import Mathlib.Data.List.Flatten

/-!
# The registry of the master

`client_map_` of `felicia/core/master/master.h` with the two process-wide generators of
`felicia/core/master/client.cc` and `felicia/core/master/node.cc`, and the functions of
`felicia/core/master/master.cc` that look into it or change it: `FindNode`, `FindNodes`,
`FindTopicInfos`, `FindServiceInfos`, `AddClient`, `RemoveClient`, `AddNode`, `RemoveNode`.

Destroying a node gives its name back, and destroying a client gives back its id and then the names
of its nodes. Giving back what is not in the pool is undefined, and so is `RemoveClient` for a
client that is not in the map, so these functions are partial.

`Registry.nodes` lists every node over all clients in iteration order. Each change of the registry
is stated once on that list: `nodes_updateNode_split` for an operation on one node,
`nodes_addNode_perm`, `nodes_removeNode_perm`, `nodes_erase_perm` and `nodes_insert_perm` for the
others. Each lookup is stated once on it too (`findNodes_publishing`,
`findNodes_subscribing` and so on), and invariants never look at the clients again.
-/

set_option autoImplicit false
set_option relaxedAutoImplicit false

namespace Felicia

open Support

/-! ### The random sources -/

/-- `RandUint32Traits::InvalidValue`. -/
def invalidId : Uint32 := Fin.last (2 ^ 32 - 1)

/-- `RandUint32Traits::Generate`, the `trial`-th time. `base::RandGenerator(range)` is below its
range, which here is the invalid value itself. -/
def randId (rand : ℕ → ℕ) (trial : ℕ) : Uint32 :=
  ⟨rand trial % (2 ^ 32 - 1), (Nat.mod_lt _ (by decide)).trans (by decide)⟩

theorem randId_ne_invalidId (rand : ℕ → ℕ) (trial : ℕ) : randId rand trial ≠ invalidId := by
  intro h
  have hval : rand trial % (2 ^ 32 - 1) = 2 ^ 32 - 1 := congrArg Fin.val h
  have hlt := Nat.mod_lt (rand trial) (by decide : 0 < 2 ^ 32 - 1)
  omega

/-- The characters of a generated name. -/
def alphadigit : List Char :=
  "abcdefghijklmnopqrstuvwxyzABCDEFGHIJKLMNOPQRSTUVWXYZ0123456789".toList

/-- `kNameLength`. -/
def kNameLength : ℕ := 12

/-- `RandNameTraits::Generate`, the `trial`-th time. -/
def randName (rand : ℕ → ℕ) (trial : ℕ) : String :=
  String.ofList ((List.range kNameLength).map fun i ↦
    alphadigit.getD (rand (trial * kNameLength + i) % alphadigit.length) 'a')

theorem randName_ne_empty (rand : ℕ → ℕ) (trial : ℕ) : randName rand trial ≠ "" := by
  intro h
  have hlist := congrArg (fun s ↦ s.toList.length) h
  simp [randName, kNameLength] at hlist

/-! ### The registry -/

/-- `client_map_` with the id and the name generator. -/
structure Registry where
  clientMap : FlatMap Uint32 Client := .empty
  idGenerator : Generator Uint32 := {}
  nameGenerator : Generator String := {}
  deriving DecidableEq

namespace Registry

/-- `Client::NewClient`. No client is returned when no id was found. -/
def newClient (r : Registry) (clientInfo : ClientInfo) (rand : ℕ → ℕ) :
    Registry × Option Client :=
  let generated := r.idGenerator.generate invalidId (randId rand)
  let r' := { r with idGenerator := generated.2 }
  if generated.1 = invalidId then (r', none)
  else (r', some { clientInfo := { clientInfo with id := generated.1 } })

/-- `Node::NewNode`. A chosen name has to be free; an empty one is replaced by a generated one. -/
def newNode (r : Registry) (nodeInfo : NodeInfo) (rand : ℕ → ℕ) : Registry × Option Node :=
  if nodeInfo.name ≠ "" then
    if r.nameGenerator.isIn nodeInfo.name then (r, none)
    else ({ r with nameGenerator := r.nameGenerator.add nodeInfo.name }, some { nodeInfo })
  else
    let generated := r.nameGenerator.generate "" (randName rand)
    let r' := { r with nameGenerator := generated.2 }
    if generated.1 = "" then (r', none)
    else (r', some { nodeInfo := { nodeInfo with name := generated.1 } })

/-- A new node carries nothing yet. -/
theorem newNode_fresh {r : Registry} {nodeInfo : NodeInfo} {rand : ℕ → ℕ} {node : Node}
    (h : (r.newNode nodeInfo rand).2 = some node) : node = { nodeInfo := node.nodeInfo } := by
  simp only [newNode] at h
  split_ifs at h <;> cases h <;> rfl

/-- `Client::~Client`: the id comes back first, then the names of the nodes. -/
def destroyClient (r : Registry) (client : Client) : Option Registry :=
  (r.idGenerator.giveBack client.clientInfo.id).bind fun idGenerator ↦
    (r.nameGenerator.returnAll (client.nodes.map (·.name))).map fun nameGenerator ↦
      { r with idGenerator, nameGenerator }

/-- `Node::~Node`, for the nodes of a list in order. -/
def destroyNodes (r : Registry) (nodes : List Node) : Option Registry :=
  (r.nameGenerator.returnAll (nodes.map (·.name))).map fun nameGenerator ↦ { r with nameGenerator }

/-- `Master::CheckIfClientExists`. -/
def checkIfClientExists (r : Registry) (id : Uint32) : Bool := r.clientMap.contains id

/-- `Master::FindNode`. -/
def findNode (r : Registry) (nodeInfo : NodeInfo) : Option Node :=
  (r.clientMap.find nodeInfo.clientId).bind (·.findNode nodeInfo)

/-- `Master::CheckIfNodeExists`. -/
def checkIfNodeExists (r : Registry) (nodeInfo : NodeInfo) : Bool :=
  match r.clientMap.find nodeInfo.clientId with
  | none => false
  | some client => client.hasNode nodeInfo

/-- The loop of a lookup that stops at the first client with a match. -/
def firstMatch {α : Type} (search : Client → List α) : List Client → List α
  | [] => []
  | c :: cs => if (search c).length > 0 then search c else firstMatch search cs

/-- `Master::FindNodes`. There can be only one publishing node or server node, so these two
lookups stop at the first client with a match. -/
def findNodes (r : Registry) (nodeFilter : NodeFilter) : List Node :=
  if nodeFilter.publishingTopic ≠ "" ∨ nodeFilter.servingService ≠ "" then
    firstMatch (·.findNodes nodeFilter) r.clientMap.values
  else r.clientMap.values.flatMap (·.findNodes nodeFilter)

/-- `Master::FindTopicInfos`. Each client's infos are put before those found so far. -/
def findTopicInfos (r : Registry) (topicFilter : TopicFilter) : List TopicInfo :=
  if topicFilter.topic ≠ "" then firstMatch (·.findTopicInfos topicFilter) r.clientMap.values
  else r.clientMap.values.foldl (fun infos c ↦ c.findTopicInfos topicFilter ++ infos) []

/-- `Master::FindServiceInfos`. -/
def findServiceInfos (r : Registry) (serviceFilter : ServiceFilter) : List ServiceInfo :=
  if serviceFilter.service ≠ "" then
    firstMatch (·.findServiceInfos serviceFilter) r.clientMap.values
  else r.clientMap.values.foldl (fun infos c ↦ c.findServiceInfos serviceFilter ++ infos) []

/-- `Master::AddClient`. A client that is replaced is destroyed. -/
def addClient (r : Registry) (id : Uint32) (client : Client) : Option Registry :=
  match r.clientMap.find id with
  | none => some { r with clientMap := r.clientMap.insertOrAssign id client }
  | some old => (r.destroyClient old).map fun r' ↦
      { r' with clientMap := r'.clientMap.insertOrAssign id client }

/-- The part of `Master::RemoveClient` under the lock. `client_map_.find(id)` is dereferenced
without a test. -/
def eraseClient (r : Registry) (id : Uint32) : Option (Registry × Client) :=
  (r.clientMap.find id).bind fun client ↦
    (r.destroyClient client).map fun r' ↦ ({ r' with clientMap := r'.clientMap.erase id }, client)

/-- `Master::AddNode`. The node of a client that is gone is destroyed. -/
def addNode (r : Registry) (node : Node) : Option Registry :=
  match r.clientMap.find node.nodeInfo.clientId with
  | some _ => some
      { r with clientMap := r.clientMap.modify node.nodeInfo.clientId (·.addNode node) }
  | none => r.destroyNodes [node]

/-- The part of `Master::RemoveNode` under the lock. -/
def eraseNode (r : Registry) (nodeInfo : NodeInfo) : Option Registry :=
  match r.clientMap.find nodeInfo.clientId with
  | some client =>
    { r with clientMap := r.clientMap.modify nodeInfo.clientId (·.removeNode nodeInfo)
      }.destroyNodes (client.removedNodes nodeInfo)
  | none => some r

/-- An operation run through the weak pointer that `Master::FindNode` returned. -/
def updateNode (r : Registry) (nodeInfo : NodeInfo) (f : Node → Node) : Registry :=
  { r with clientMap := r.clientMap.modify nodeInfo.clientId (·.updateNode nodeInfo.name f) }

/-- Every node over all clients. -/
def nodes (r : Registry) : List Node := r.clientMap.values.flatMap (·.nodes)

/-- Each client is stored under its id, and each node under the id of its client. -/
def Keyed (r : Registry) : Prop :=
  ∀ id client, r.clientMap.find id = some client →
    client.clientInfo.id = id ∧ ∀ n ∈ client.nodes, n.nodeInfo.clientId = id

/-! ### Lookups, stated on the list of all nodes -/

theorem mem_nodes_iff (r : Registry) {n : Node} :
    n ∈ r.nodes ↔ ∃ id client, r.clientMap.find id = some client ∧ n ∈ client.nodes := by
  rw [nodes, List.mem_flatMap]
  constructor
  · rintro ⟨client, hclient, hn⟩
    obtain ⟨id, hid⟩ := r.clientMap.mem_values_iff.mp hclient
    exact ⟨id, client, hid, hn⟩
  · rintro ⟨id, client, hid, hn⟩
    exact ⟨client, r.clientMap.mem_values_iff.mpr ⟨id, hid⟩, hn⟩

/-- Assumes: clients and nodes stored under their ids. A node that is found has the name and the
client of the request. -/
theorem findNode_spec {r : Registry} (hkeyed : r.Keyed) {nodeInfo : NodeInfo} {n : Node}
    (h : r.findNode nodeInfo = some n) :
    n ∈ r.nodes ∧ n.name = nodeInfo.name ∧ n.nodeInfo.clientId = nodeInfo.clientId := by
  obtain ⟨client, hclient, hn⟩ := Option.bind_eq_some_iff.mp h
  have hmem : n ∈ client.nodes := List.mem_of_find?_eq_some hn
  have hname : nodeNameChecker nodeInfo n = true := List.find?_some hn
  exact ⟨r.mem_nodes_iff.mpr ⟨_, client, hclient, hmem⟩, by simpa [nodeNameChecker] using hname,
    (hkeyed _ client hclient).2 n hmem⟩

/-- Assumes: clients and nodes stored under their ids. -/
theorem isSome_findNode_iff {r : Registry} (hkeyed : r.Keyed) (nodeInfo : NodeInfo) :
    (r.findNode nodeInfo).isSome = true ↔
      ∃ n ∈ r.nodes, n.name = nodeInfo.name ∧ n.nodeInfo.clientId = nodeInfo.clientId := by
  rw [Option.isSome_iff_exists]
  constructor
  · rintro ⟨n, hn⟩
    exact ⟨n, findNode_spec hkeyed hn⟩
  · rintro ⟨n, hn, hname, hid⟩
    obtain ⟨id, client, hclient, hmem⟩ := r.mem_nodes_iff.mp hn
    obtain rfl : id = nodeInfo.clientId := ((hkeyed id client hclient).2 n hmem).symm.trans hid
    have hsome : (client.nodes.find? (nodeNameChecker nodeInfo)).isSome = true :=
      List.find?_isSome.mpr ⟨n, hmem, by simpa [nodeNameChecker] using hname⟩
    rw [findNode, hclient]
    exact Option.isSome_iff_exists.mp hsome

theorem checkIfNodeExists_eq (r : Registry) (nodeInfo : NodeInfo) :
    r.checkIfNodeExists nodeInfo = (r.findNode nodeInfo).isSome := by
  rw [checkIfNodeExists, findNode]
  cases r.clientMap.find nodeInfo.clientId with
  | none => rfl
  | some client =>
    rw [Bool.eq_iff_iff]
    simp [Client.hasNode, Client.findNode, List.find?_isSome]

theorem head?_firstMatch {α : Type} (search : Client → List α) (cs : List Client) :
    (firstMatch search cs).head? = (cs.flatMap search).head? := by
  induction cs with
  | nil => rfl
  | cons c cs ih =>
    rw [List.flatMap_cons]
    unfold firstMatch
    split_ifs with hfound
    · obtain ⟨a, as, has⟩ := List.exists_cons_of_length_pos hfound
      rw [has]
      rfl
    · have hnil : search c = [] := List.eq_nil_of_length_eq_zero (by omega)
      rw [hnil, ih, List.nil_append]

/-- The publisher lookup finds the first publishing node over all clients. Assumes: a name that is
not empty. -/
theorem findNodes_publishing (r : Registry) {topic : String} (h : topic ≠ "") :
    r.findNodes { publishingTopic := topic } =
      (r.nodes.find? (·.isPublishingTopic topic)).toList := by
  have hclient (c : Client) : c.findNodes { publishingTopic := topic } =
      (c.nodes.find? (·.isPublishingTopic topic)).toList := by
    simp [Client.findNodes, h]
  rw [findNodes, if_pos (Or.inl h), nodes]
  generalize r.clientMap.values = cs
  induction cs with
  | nil => rfl
  | cons c cs ih =>
    rw [List.flatMap_cons, List.find?_append]
    unfold firstMatch
    rw [hclient c, ih]
    cases c.nodes.find? (·.isPublishingTopic topic) <;> rfl

/-- The server lookup finds the first serving node over all clients first. Assumes: a name that is
not empty. -/
theorem head?_findNodes_serving (r : Registry) {service : String} (h : service ≠ "") :
    (r.findNodes { servingService := service }).head? =
      r.nodes.find? (·.isServingService service) := by
  have hclient (c : Client) : c.findNodes { servingService := service } =
      c.nodes.filter (·.isServingService service) := by
    simp [Client.findNodes, h]
  rw [findNodes, if_pos (Or.inr h), head?_firstMatch, nodes, ← List.head?_filter,
    List.filter_flatMap]
  simp only [hclient]

theorem findNodes_serving_eq_nil_iff (r : Registry) {service : String} (h : service ≠ "") :
    r.findNodes { servingService := service } = [] ↔
      ∀ n ∈ r.nodes, n.isServingService service = false := by
  rw [← List.head?_eq_none_iff, r.head?_findNodes_serving h]
  simp

theorem findNodes_subscribing (r : Registry) {topic : String} (h : topic ≠ "") :
    r.findNodes { subscribingTopic := topic } = r.nodes.filter (·.isSubscribingTopic topic) := by
  have hclient (c : Client) : c.findNodes { subscribingTopic := topic } =
      c.nodes.filter (·.isSubscribingTopic topic) := by
    simp [Client.findNodes, h]
  simp only [findNodes, nodes, List.filter_flatMap, hclient]
  simp

theorem findNodes_requesting (r : Registry) {service : String} (h : service ≠ "") :
    r.findNodes { requestingService := service } =
      r.nodes.filter (·.isRequestingService service) := by
  have hclient (c : Client) : c.findNodes { requestingService := service } =
      c.nodes.filter (·.isRequestingService service) := by
    simp [Client.findNodes, h]
  simp only [findNodes, nodes, List.filter_flatMap, hclient]
  simp

/-- The filter of an unnamed topic or service selects nothing. -/
theorem findNodes_unset (r : Registry) : r.findNodes {} = [] := by
  simp [findNodes, Client.findNodes]

theorem findNodes_watcher (r : Registry) : r.findNodes { watcher := true } =
    r.clientMap.values.flatMap fun c ↦ (c.nodes.find? (·.nodeInfo.watcher)).toList := by
  simp [findNodes, Client.findNodes]

theorem mem_findNodes_watcher {r : Registry} {n : Node}
    (h : n ∈ r.findNodes { watcher := true }) : n ∈ r.nodes ∧ n.nodeInfo.watcher = true := by
  rw [findNodes_watcher, List.mem_flatMap] at h
  obtain ⟨c, hc, hn⟩ := h
  have hfind : c.nodes.find? (·.nodeInfo.watcher) = some n := Option.mem_toList.mp hn
  have hwatcher := List.find?_some (p := fun m : Node ↦ m.nodeInfo.watcher) hfind
  exact ⟨List.mem_flatMap.mpr ⟨c, hc, List.mem_of_find?_eq_some hfind⟩, hwatcher⟩

theorem findNodes_watcher_eq_nil_iff (r : Registry) :
    r.findNodes { watcher := true } = [] ↔ ∀ n ∈ r.nodes, n.nodeInfo.watcher = false := by
  rw [findNodes_watcher, nodes]
  simp only [List.flatMap_eq_nil_iff, Option.toList_eq_nil_iff, List.find?_eq_none,
    List.mem_flatMap, Bool.not_eq_true]
  constructor
  · rintro h n ⟨c, hc, hn⟩
    exact h c hc n hn
  · intro h c hc n hn
    exact h n ⟨c, hc, hn⟩

theorem mem_findTopicInfos_all (r : Registry) {topicInfo : TopicInfo} :
    topicInfo ∈ r.findTopicInfos { all := true } ↔
      ∃ n ∈ r.nodes, topicInfo ∈ n.allPublishingTopicInfos := by
  have hfold (cs : List Client) (acc : List TopicInfo) :
      topicInfo ∈ cs.foldl (fun infos c ↦ c.findTopicInfos { all := true } ++ infos) acc ↔
        topicInfo ∈ acc ∨ ∃ c ∈ cs, ∃ n ∈ c.nodes, topicInfo ∈ n.allPublishingTopicInfos := by
    induction cs generalizing acc with
    | nil => simp
    | cons c cs ih =>
      rw [List.foldl_cons, ih]
      simp only [Client.findTopicInfos, ↓reduceIte, List.mem_append, List.mem_flatMap,
        List.mem_cons, exists_eq_or_imp]
      rw [or_comm (b := topicInfo ∈ acc), or_assoc]
  simp only [findTopicInfos, nodes]
  rw [if_neg (by simp), hfold]
  simp only [List.not_mem_nil, false_or, List.mem_flatMap]
  constructor
  · rintro ⟨c, hc, n, hn, hinfo⟩
    exact ⟨n, ⟨c, hc, hn⟩, hinfo⟩
  · rintro ⟨n, ⟨c, hc, hn⟩, hinfo⟩
    exact ⟨c, hc, n, hn, hinfo⟩

/-! ### Changes, stated on the list of all nodes -/

/-- Assumes: the node of a request was found. The nodes split around it, and an operation on it
replaces it alone. -/
theorem nodes_updateNode_split {r : Registry} {nodeInfo : NodeInfo} {target : Node}
    (h : r.findNode nodeInfo = some target) :
    ∃ before after, r.nodes = before ++ target :: after ∧
      ∀ f : Node → Node, (r.updateNode nodeInfo f).nodes = before ++ f target :: after := by
  obtain ⟨client, hclient, hfind⟩ := Option.bind_eq_some_iff.mp h
  obtain ⟨first, last, hvalues, hmodify⟩ := FlatMap.modify_split hclient
  obtain ⟨before, after, hnodes, hupdate⟩ := @updateFirst_split nodeInfo.name _ _ hfind
  refine ⟨first.flatMap (·.nodes) ++ before, after ++ last.flatMap (·.nodes), ?_, fun f ↦ ?_⟩
  · simp [nodes, hvalues, hnodes]
  · simp [nodes, updateNode, hmodify, Client.updateNode, hupdate f]

/-- Assumes: the node of a request was found. An operation on it replaces it and leaves every other
node in place. -/
theorem mem_nodes_updateNode {r : Registry} {nodeInfo : NodeInfo} {n : Node}
    (h : r.findNode nodeInfo = some n) (f : Node → Node) :
    f n ∈ (r.updateNode nodeInfo f).nodes ∧
      (∀ m ∈ (r.updateNode nodeInfo f).nodes, m = f n ∨ m ∈ r.nodes) ∧
      ∀ m ∈ r.nodes, m = n ∨ m ∈ (r.updateNode nodeInfo f).nodes := by
  obtain ⟨before, after, hnodes, hupdate⟩ := nodes_updateNode_split h
  rw [hupdate f, hnodes]
  simp only [List.mem_append, List.mem_cons]
  refine ⟨by simp, fun m hm ↦ ?_, fun m hm ↦ ?_⟩
  · rcases hm with hm | rfl | hm <;> simp_all
  · rcases hm with hm | rfl | hm <;> simp_all

/-- Assumes: the client of a node is registered. -/
theorem nodes_addNode_perm {r r' : Registry} {node : Node} {client : Client}
    (hclient : r.clientMap.find node.nodeInfo.clientId = some client)
    (h : r.addNode node = some r') : r'.nodes.Perm (node :: r.nodes) := by
  rw [addNode, hclient] at h
  cases h
  obtain ⟨first, last, hvalues, hmodify⟩ := FlatMap.modify_split hclient
  simp only [nodes, hmodify, hvalues, Client.addNode, List.flatMap_append, List.flatMap_cons,
    List.append_assoc]
  refine (List.Perm.append_left _ ?_).trans List.perm_middle
  exact List.perm_middle

/-- Assumes: the client of a node is gone. The node is destroyed. -/
theorem nodes_addNode_of_find_eq_none {r r' : Registry} {node : Node}
    (hclient : r.clientMap.find node.nodeInfo.clientId = none)
    (h : r.addNode node = some r') : r'.nodes = r.nodes := by
  rw [addNode, hclient] at h
  obtain ⟨g, -, rfl⟩ := Option.map_eq_some_iff.mp h
  rfl

theorem nodes_removeNode_perm {r : Registry} {nodeInfo : NodeInfo} {client : Client}
    (hclient : r.clientMap.find nodeInfo.clientId = some client) :
    r.nodes.Perm (client.removedNodes nodeInfo ++
      (r.clientMap.modify nodeInfo.clientId (·.removeNode nodeInfo)).values.flatMap (·.nodes)) := by
  obtain ⟨first, last, hvalues, hmodify⟩ := FlatMap.modify_split hclient
  simp only [nodes, hmodify, hvalues, Client.removeNode, Client.removedNodes, List.flatMap_append,
    List.flatMap_cons]
  have hsplit := List.filter_append_perm (nodeNameChecker nodeInfo) client.nodes
  refine (List.Perm.append_left _ (hsplit.symm.append_right _)).trans ?_
  simp only [List.append_assoc]
  exact List.perm_append_comm_assoc _ _ _

/-- Assumes: a client that is registered. -/
theorem nodes_erase_perm {r : Registry} {id : Uint32} {client : Client}
    (hclient : r.clientMap.find id = some client) :
    r.nodes.Perm (client.nodes ++ (r.clientMap.erase id).values.flatMap (·.nodes)) :=
  (FlatMap.values_erase_perm hclient).flatMap_right _

/-- Assumes: an id under which no client is registered. -/
theorem nodes_insert_perm {r : Registry} {id : Uint32} (hid : r.clientMap.find id = none)
    (client : Client) : ((r.clientMap.insertOrAssign id client).values.flatMap (·.nodes)).Perm
      (client.nodes ++ r.nodes) :=
  (FlatMap.values_insert_perm (r.clientMap.find_eq_none_iff.mp hid) client).flatMap_right _

end Registry

end Felicia
