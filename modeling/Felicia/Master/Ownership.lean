import Felicia.Master.System

/-!
# Who holds a name and who holds an id

A node object owns its name and a client object owns its id: `NewNode` and `NewClient` take them
from the process-wide generators, and the destructors give them back. The objects live in
`client_map_` or in a task that waits on the master thread, so an object changes hands when its task
runs, and a client that is dropped drops its nodes too.

`Registry.Owns` is the invariant of the registry beside what is still pending: the pools hold
exactly the names and the ids of the live objects. It is framed by the pending lists, so every
operation of the registry has one rule (`Owns.addClient`, `Owns.addNode`, `Owns.eraseNode`,
`Owns.eraseClient`, `Owns.updateNode`), each of which also says that the operation is defined.
`Owned` is the invariant of the system, `owned_of_reachable` its run lemma, and `Owned.step_isSome`
says which step is undefined. `Owned.nodesChange` tells what a step can do to the list of all nodes
and is what the invariants of the later modules start from. The last theorem collects what follows
for every reachable state and every step from it.
-/

set_option autoImplicit false
set_option relaxedAutoImplicit false

namespace Felicia

open Support TransitionSystem

namespace Registry

/-! ### What the registry holds -/

/-- The infos of the nodes in `client_map_`. -/
def nodeInfos (r : Registry) : List NodeInfo := r.nodes.map (·.nodeInfo)

/-- The infos of the clients in `client_map_`. -/
def clientInfos (r : Registry) : List ClientInfo := r.clientMap.values.map (·.clientInfo)

theorem keyed_modify {r : Registry} (hkeyed : r.Keyed) (id : Uint32) {f : Client → Client}
    (hinfo : ∀ c, (f c).clientInfo = c.clientInfo)
    (hnodes : ∀ c, r.clientMap.find id = some c → ∀ n ∈ (f c).nodes, n.nodeInfo.clientId = id) :
    ({ r with clientMap := r.clientMap.modify id f } : Registry).Keyed := by
  intro j client hfind
  change (r.clientMap.modify id f).find j = some client at hfind
  rw [FlatMap.find_modify] at hfind
  split_ifs at hfind with hj
  · subst hj
    obtain ⟨c, hc, rfl⟩ := Option.map_eq_some_iff.mp hfind
    exact ⟨(congrArg _ (hinfo c)).trans (hkeyed j c hc).1, hnodes c hc⟩
  · exact hkeyed j client hfind

theorem clientInfos_modify (m : FlatMap Uint32 Client) (id : Uint32) {f : Client → Client}
    (hinfo : ∀ c, (f c).clientInfo = c.clientInfo) :
    (m.modify id f).values.map (·.clientInfo) = m.values.map (·.clientInfo) := by
  simp only [FlatMap.values, FlatMap.modify, List.map_map]
  refine List.map_congr_left fun e _ ↦ ?_
  by_cases he : e.1 = id <;> simp [he, hinfo]

theorem nodeInfos_updateNode (r : Registry) (nodeInfo : NodeInfo) {f : Node → Node}
    (hf : Node.KeepsInfo f) : (r.updateNode nodeInfo f).nodeInfos = r.nodeInfos := by
  simp only [nodeInfos, nodes, updateNode, List.map_flatMap, FlatMap.values, FlatMap.modify,
    List.map_map, List.flatMap_map]
  refine List.flatMap_congr fun e _ ↦ ?_
  by_cases he : e.1 = nodeInfo.clientId
  · simp [he, Client.updateNode, map_nodeInfo_updateFirst _ hf]
  · simp [he]

/-- Assumes: clients stored under their ids. The stored ids are the keys of the map. -/
theorem map_id_clientInfos {r : Registry} (hkeyed : r.Keyed) :
    r.clientInfos.map (·.id) = r.clientMap.keys := by
  simp only [clientInfos, FlatMap.values, FlatMap.keys, List.map_map]
  refine List.map_congr_left fun e he ↦ ?_
  exact (hkeyed e.1 e.2 (r.clientMap.mem_entries_iff.mp he)).1

/-! ### The invariant of the registry -/

/-- Clients and nodes are stored under their ids, and beside the given pending nodes and clients the
pools hold exactly the names and the ids that are in use. -/
structure Owns (r : Registry) (pendingNodes : List NodeInfo) (pendingClients : List ClientInfo) :
    Prop where
  keyed : r.Keyed
  names : ((r.nodeInfos ++ pendingNodes).map (·.name)).Perm r.nameGenerator.values
  ids : ((r.clientInfos ++ pendingClients).map (·.id)).Perm r.idGenerator.values
  valid : invalidId ∉ r.idGenerator.values

namespace Owns

variable {r : Registry} {pendingNodes : List NodeInfo} {pendingClients : List ClientInfo}

theorem empty : Owns {} [] [] where
  keyed _ _ h := by cases h
  names := List.Perm.refl _
  ids := List.Perm.refl _
  valid := by simp [Generator.values]

theorem names_nodup (h : r.Owns pendingNodes pendingClients) :
    ((r.nodeInfos ++ pendingNodes).map (·.name)).Nodup :=
  h.names.nodup_iff.mpr r.nameGenerator.values_nodup

theorem ids_nodup (h : r.Owns pendingNodes pendingClients) :
    ((r.clientInfos ++ pendingClients).map (·.id)).Nodup :=
  h.ids.nodup_iff.mpr r.idGenerator.values_nodup

/-- `NewClient` took an id for a client that is now pending. -/
theorem newClient (h : r.Owns pendingNodes pendingClients) {clientInfo : ClientInfo}
    (hvalid : clientInfo.id ≠ invalidId) (hfresh : r.idGenerator.isIn clientInfo.id = false) :
    Owns { r with idGenerator := r.idGenerator.add clientInfo.id } pendingNodes
      (pendingClients ++ [clientInfo]) where
  keyed := h.keyed
  names := h.names
  ids := by
    refine List.Perm.trans ?_ (Generator.values_add_perm hfresh).symm
    change ((r.clientInfos ++ (pendingClients ++ [clientInfo])).map (·.id)).Perm _
    rw [← List.append_assoc, List.map_append]
    exact List.perm_append_comm.trans (h.ids.cons clientInfo.id)
  valid hmem := by
    rcases List.mem_cons.mp ((Generator.values_add_perm hfresh).subset hmem) with hid | hold
    · exact hvalid hid.symm
    · exact h.valid hold

/-- `NewNode` took a name for a node that is now pending. -/
theorem newNode (h : r.Owns pendingNodes pendingClients) {nodeInfo : NodeInfo}
    (hfresh : r.nameGenerator.isIn nodeInfo.name = false) :
    Owns { r with nameGenerator := r.nameGenerator.add nodeInfo.name }
      (pendingNodes ++ [nodeInfo]) pendingClients where
  keyed := h.keyed
  names := by
    refine List.Perm.trans ?_ (Generator.values_add_perm hfresh).symm
    change ((r.nodeInfos ++ (pendingNodes ++ [nodeInfo])).map (·.name)).Perm _
    rw [← List.append_assoc, List.map_append]
    exact List.perm_append_comm.trans (h.names.cons nodeInfo.name)
  ids := h.ids
  valid := h.valid

/-- The id of a pending client is not in the map. -/
theorem find_pending {clientInfo : ClientInfo}
    (h : r.Owns pendingNodes (clientInfo :: pendingClients)) :
    r.clientMap.find clientInfo.id = none := by
  rw [FlatMap.find_eq_none_iff, ← map_id_clientInfos h.keyed]
  intro hmem
  have hnodup := h.ids_nodup
  rw [List.map_append, List.map_cons] at hnodup
  exact List.disjoint_of_nodup_append hnodup hmem (List.mem_cons_self ..)

/-- A pending client moves into the map, where no client has its id. -/
theorem addClient {clientInfo : ClientInfo}
    (h : r.Owns pendingNodes (clientInfo :: pendingClients)) :
    ∃ r', r.addClient clientInfo.id { clientInfo } = some r' ∧
      r'.Owns pendingNodes pendingClients ∧ r'.nodeInfos.Perm r.nodeInfos ∧
      r'.clientInfos.Perm (clientInfo :: r.clientInfos) := by
  have hnone := h.find_pending
  have hnodes : (r.clientMap.insertOrAssign clientInfo.id { clientInfo }).values.flatMap (·.nodes)
      |>.Perm r.nodes := nodes_insert_perm hnone { clientInfo }
  have hvalues := (FlatMap.values_insert_perm (r.clientMap.find_eq_none_iff.mp hnone)
    ({ clientInfo } : Client)).map (fun c : Client ↦ c.clientInfo)
  refine ⟨{ r with clientMap := r.clientMap.insertOrAssign clientInfo.id { clientInfo } },
    by rw [Registry.addClient, hnone], ⟨?_, ?_, ?_, h.valid⟩, hnodes.map _,
    hvalues⟩
  · intro j client hfind
    change (r.clientMap.insertOrAssign clientInfo.id { clientInfo }).find j = some client at hfind
    rw [FlatMap.find_insertOrAssign] at hfind
    split_ifs at hfind with hj
    · cases hfind
      exact ⟨hj.symm, by simp⟩
    · exact h.keyed j client hfind
  · exact (((hnodes.map _).append_right _).map _).trans h.names
  · refine List.Perm.trans ?_ h.ids
    exact ((hvalues.append_right _).trans List.perm_middle.symm).map _

/-- A pending node moves into its client, or is destroyed when the client is gone. -/
theorem addNode {node : Node}
    (h : r.Owns (node.nodeInfo :: pendingNodes) pendingClients) :
    ∃ r', r.addNode node = some r' ∧ r'.Owns pendingNodes pendingClients ∧
      r'.nodeInfos ⊆ node.nodeInfo :: r.nodeInfos ∧ r'.clientInfos = r.clientInfos := by
  cases hclient : r.clientMap.find node.nodeInfo.clientId with
  | none =>
    have hnames : ([node.name] ++ (r.nodeInfos ++ pendingNodes).map (·.name)).Perm
        r.nameGenerator.values := (List.perm_middle.symm.map _).trans h.names
    obtain ⟨g, hg, hkept⟩ := Generator.returnAll_of_perm hnames
    refine ⟨{ r with nameGenerator := g }, ?_, ⟨h.keyed, hkept, h.ids, h.valid⟩,
      List.subset_cons_of_subset _ (List.Subset.refl _), rfl⟩
    rw [Registry.addNode, hclient]
    change (r.nameGenerator.returnAll [node.name]).map _ = _
    rw [hg]
    rfl
  | some client =>
    have hadd : r.addNode node = some
        { r with clientMap := r.clientMap.modify node.nodeInfo.clientId (·.addNode node) } := by
      rw [Registry.addNode, hclient]
    have hperm := (nodes_addNode_perm hclient hadd).map (·.nodeInfo)
    have hinfos := clientInfos_modify r.clientMap node.nodeInfo.clientId
      (f := (·.addNode node)) fun _ ↦ rfl
    refine ⟨_, hadd, ⟨keyed_modify h.keyed _ (fun _ ↦ rfl) ?_, ?_, ?_, h.valid⟩, hperm.subset,
      hinfos⟩
    · intro c hc n hn
      rcases List.mem_append.mp hn with hold | hnew
      · exact (h.keyed _ c hc).2 n hold
      · rw [List.mem_singleton.mp hnew]
    · exact (((hperm.append_right _).trans List.perm_middle.symm).map _).trans h.names
    · change ((((r.clientMap.modify node.nodeInfo.clientId (·.addNode node)).values.map
        (·.clientInfo)) ++ pendingClients).map (·.id)).Perm _
      rw [hinfos]
      exact h.ids

/-- The nodes that are removed give their names back. -/
theorem eraseNode (h : r.Owns pendingNodes pendingClients) (nodeInfo : NodeInfo) :
    ∃ r', r.eraseNode nodeInfo = some r' ∧ r'.Owns pendingNodes pendingClients ∧
      r'.nodeInfos ⊆ r.nodeInfos ∧ r'.clientInfos = r.clientInfos := by
  cases hclient : r.clientMap.find nodeInfo.clientId with
  | none =>
    exact ⟨r, by rw [Registry.eraseNode, hclient], h, List.Subset.refl _, rfl⟩
  | some client =>
    have hperm := (nodes_removeNode_perm hclient).map (·.nodeInfo)
    have hinfos := clientInfos_modify r.clientMap nodeInfo.clientId
      (f := (·.removeNode nodeInfo)) fun _ ↦ rfl
    rw [List.map_append] at hperm
    have hnames := ((hperm.append_right pendingNodes).map (·.name)).symm.trans h.names
    rw [List.append_assoc, List.map_append] at hnames
    obtain ⟨g, hg, hkept⟩ := Generator.returnAll_of_perm hnames
    have herase : r.eraseNode nodeInfo = some
        { r with clientMap := r.clientMap.modify nodeInfo.clientId (·.removeNode nodeInfo)
                 nameGenerator := g } := by
      rw [List.map_map] at hg
      rw [Registry.eraseNode, hclient]
      change (r.nameGenerator.returnAll _).map _ = _
      exact Option.map_eq_some_iff.mpr ⟨g, hg, rfl⟩
    refine ⟨_, herase, ⟨keyed_modify h.keyed _ (fun _ ↦ rfl) ?_, hkept, ?_, h.valid⟩, ?_, hinfos⟩
    · intro c hc n hn
      exact (h.keyed _ c hc).2 n (List.mem_of_mem_filter hn)
    · change ((((r.clientMap.modify nodeInfo.clientId (·.removeNode nodeInfo)).values.map
        (·.clientInfo)) ++ pendingClients).map (·.id)).Perm _
      rw [hinfos]
      exact h.ids
    · exact List.Subset.trans (List.subset_append_right _ _) hperm.symm.subset

/-- A client that is dropped gives back its id and the names of its nodes. Assumes: a client that is
registered. -/
theorem eraseClient (h : r.Owns pendingNodes pendingClients) {id : Uint32} {client : Client}
    (hclient : r.clientMap.find id = some client) :
    ∃ r', r.eraseClient id = some (r', client) ∧ r'.Owns pendingNodes pendingClients ∧
      r'.nodeInfos ⊆ r.nodeInfos ∧ r'.clientInfos ⊆ r.clientInfos ∧
      r'.clientMap = r.clientMap.erase id := by
  have hnodes := (nodes_erase_perm hclient).map (·.nodeInfo)
  have hvalues := (FlatMap.values_erase_perm hclient).map (·.clientInfo)
  rw [List.map_append] at hnodes
  rw [List.map_cons] at hvalues
  have hnames := ((hnodes.append_right pendingNodes).map (·.name)).symm.trans h.names
  rw [List.append_assoc, List.map_append] at hnames
  have hids : ([client.clientInfo.id] ++ _).Perm r.idGenerator.values :=
    ((hvalues.append_right pendingClients).map (·.id)).symm.trans h.ids
  obtain ⟨names, hname, hkeptNames⟩ := Generator.returnAll_of_perm hnames
  obtain ⟨ids, hid, hkeptIds⟩ := Generator.returnAll_of_perm hids
  have hback : r.idGenerator.giveBack client.clientInfo.id = some ids := by
    simpa [Generator.returnAll] using hid
  rw [List.map_map] at hname
  have hdestroy : r.destroyClient client =
      some { r with idGenerator := ids, nameGenerator := names } := by
    rw [destroyClient, hback]
    exact Option.map_eq_some_iff.mpr ⟨names, hname, rfl⟩
  refine ⟨{ clientMap := r.clientMap.erase id, idGenerator := ids, nameGenerator := names },
    ?_, ⟨?_, hkeptNames, hkeptIds, ?_⟩,
    List.Subset.trans (List.subset_append_right _ _) hnodes.symm.subset,
    List.Subset.trans (List.subset_cons_self _ _) hvalues.symm.subset, rfl⟩
  · rw [Registry.eraseClient, hclient, Option.bind_some, hdestroy]
    rfl
  · intro j c hfind
    change (r.clientMap.erase id).find j = some c at hfind
    rw [FlatMap.find_erase] at hfind
    split_ifs at hfind
    exact h.keyed j c hfind
  · intro hmem
    exact h.valid ((Generator.perm_of_returnAll hid).symm.subset (List.mem_append_right _ hmem))

/-- Assumes: an operation that keeps the infos of nodes. -/
theorem updateNode (h : r.Owns pendingNodes pendingClients) (nodeInfo : NodeInfo)
    {f : Node → Node} (hf : Node.KeepsInfo f) :
    (r.updateNode nodeInfo f).Owns pendingNodes pendingClients := by
  have hinfos := clientInfos_modify r.clientMap nodeInfo.clientId
    (f := (·.updateNode nodeInfo.name f)) fun _ ↦ rfl
  refine ⟨keyed_modify h.keyed _ (fun _ ↦ rfl) ?_, ?_, ?_, h.valid⟩
  · intro c hc n hn
    have hmem := List.mem_map_of_mem (f := (·.nodeInfo)) hn
    rw [Client.updateNode, map_nodeInfo_updateFirst _ hf] at hmem
    obtain ⟨m, hm, hinfo⟩ := List.mem_map.mp hmem
    rw [← hinfo]
    exact (h.keyed _ c hc).2 m hm
  · rw [nodeInfos_updateNode r nodeInfo hf]
    exact h.names
  · change ((((r.clientMap.modify nodeInfo.clientId (·.updateNode nodeInfo.name f)).values.map
      (·.clientInfo)) ++ pendingClients).map (·.id)).Perm _
    rw [hinfos]
    exact h.ids

/-- What a task does when the registry owns what the task brings with it: afterwards it owns it
without the task, and it holds nothing that it or the task did not hold before. -/
theorem change {r' : Registry} {task : Task} {effects : List Effect}
    (hchange : Change r task r' effects)
    (h : r.Owns (task.node?.toList.map (·.nodeInfo) ++ pendingNodes)
      (task.client?.toList.map (·.clientInfo) ++ pendingClients))
    (hfresh : ∀ client ∈ task.client?, client = { clientInfo := client.clientInfo }) :
    r'.Owns pendingNodes pendingClients ∧
      r'.nodeInfos ⊆ task.node?.toList.map (·.nodeInfo) ++ r.nodeInfos ∧
      r'.clientInfos.Perm (task.client?.toList.map (·.clientInfo) ++ r.clientInfos) := by
  cases hchange with
  | answered hplain =>
    simp only [hplain.1, hplain.2, Option.toList_none, List.map_nil, List.nil_append] at h ⊢
    exact ⟨h, List.Subset.refl _, List.Perm.refl _⟩
  | notified => exact ⟨h, List.Subset.refl _, List.Perm.refl _⟩
  | @addClient client _ _ _ hadd =>
    obtain ⟨r'', hadd', howns, hnodes, hclients⟩ := Owns.addClient h
    rw [hfresh client rfl] at hadd
    obtain rfl := Option.some.inj (hadd.symm.trans hadd')
    exact ⟨howns, hnodes.subset, hclients⟩
  | addNode hadd =>
    obtain ⟨r'', hadd', howns, hnodes, hclients⟩ := Owns.addNode h
    obtain rfl := Option.some.inj (hadd.symm.trans hadd')
    exact ⟨howns, hnodes, .of_eq hclients⟩
  | eraseNode herase =>
    obtain ⟨r'', herase', howns, hnodes, hclients⟩ := Owns.eraseNode h _
    obtain rfl := Option.some.inj (herase.symm.trans herase')
    exact ⟨howns, hnodes, .of_eq hclients⟩
  | update _ hop =>
    simp only [hop.plain.1, hop.plain.2, Option.toList_none, List.map_nil, List.nil_append] at h ⊢
    refine ⟨h.updateNode _ hop.keepsInfo, ?_, ?_⟩
    · rw [nodeInfos_updateNode r _ hop.keepsInfo]
      exact List.Subset.refl _
    · exact .of_eq (clientInfos_modify r.clientMap _ fun _ ↦ rfl)

/-- A task is defined when the registry owns what the task brings with it. -/
theorem exists_runTask {hasRos : Bool} {ros : RosMasterProxy} {task : Task}
    (h : r.Owns (task.node?.toList.map (·.nodeInfo) ++ pendingNodes)
      (task.client?.toList.map (·.clientInfo) ++ pendingClients))
    (hfresh : ∀ client ∈ task.client?, client = { clientInfo := client.clientInfo }) :
    ∃ result, runTask hasRos ros r task = some result := by
  cases task with
  | doRegisterClient client callback =>
    obtain ⟨r', hadd, -⟩ := Owns.addClient h
    rw [← hfresh client rfl] at hadd
    exact ⟨_, Option.map_eq_some_iff.mpr ⟨r', hadd, rfl⟩⟩
  | doRegisterNode node callback =>
    obtain ⟨r', hadd, -⟩ := Owns.addNode h
    exact ⟨_, Option.map_eq_some_iff.mpr ⟨r', hadd, rfl⟩⟩
  | doUnregisterNode nodeInfo callback =>
    obtain ⟨r', herase, -⟩ := Owns.eraseNode h nodeInfo
    exact ⟨_, Option.map_eq_some_iff.mpr ⟨_, Option.map_eq_some_iff.mpr ⟨r', herase, rfl⟩, rfl⟩⟩
  | _ => exact ⟨_, rfl⟩

end Owns

end Registry

/-! ### The invariant of the system -/

namespace System

/-- The nodes that wait to be added. -/
def pendingNodes (s : System) : List Node := s.tasks.filterMap (·.node?)

/-- The clients that wait to be added. -/
def pendingClients (s : System) : List Client := s.tasks.filterMap (·.client?)

/-- The node objects that exist: those in `client_map_` and those a task holds. -/
def liveNodes (s : System) : List Node := s.registry.nodes ++ s.pendingNodes

/-- The client objects that exist: those in `client_map_` and those a task holds. -/
def liveClients (s : System) : List Client := s.registry.clientMap.values ++ s.pendingClients

/-- The registry owns every name and id in use, a task holds an object as it was created, and each
listener belongs to a client of its own in the map. -/
structure Owned (s : System) : Prop where
  owns : s.registry.Owns (s.pendingNodes.map (·.nodeInfo)) (s.pendingClients.map (·.clientInfo))
  freshNodes : ∀ node ∈ s.pendingNodes, node = { nodeInfo := node.nodeInfo }
  freshClients : ∀ client ∈ s.pendingClients, client = { clientInfo := client.clientInfo }
  listening : ∀ clientInfo ∈ s.listeners, clientInfo.id ∈ s.registry.clientMap.keys
  listeners_nodup : (s.listeners.map (·.id)).Nodup

theorem pendingNodes_cons {s : System} {task : Task} {rest : List Task}
    (h : s.tasks = task :: rest) :
    s.pendingNodes = task.node?.toList ++ rest.filterMap (·.node?) := by
  rw [pendingNodes, h, List.filterMap_cons]
  cases task.node? <;> rfl

theorem pendingClients_cons {s : System} {task : Task} {rest : List Task}
    (h : s.tasks = task :: rest) :
    s.pendingClients = task.client?.toList ++ rest.filterMap (·.client?) := by
  rw [pendingClients, h, List.filterMap_cons]
  cases task.client? <;> rfl

theorem filterMap_node?_of_plain {tasks : List Task} (h : ∀ t ∈ tasks, t.Plain) :
    tasks.filterMap (·.node?) = [] :=
  List.filterMap_eq_nil_iff.mpr fun t ht ↦ (h t ht).1

theorem filterMap_client?_of_plain {tasks : List Task} (h : ∀ t ∈ tasks, t.Plain) :
    tasks.filterMap (·.client?) = [] :=
  List.filterMap_eq_nil_iff.mpr fun t ht ↦ (h t ht).2

theorem Owned.initial : Owned {} where
  owns := .empty
  freshNodes := by simp [pendingNodes]
  freshClients := by simp [pendingClients]
  listening := by simp
  listeners_nodup := by simp

namespace Owned

variable {s : System}

/-- What the registry owns, with the part of the first task apart. -/
theorem owns_cons (h : s.Owned) {task : Task} {rest : List Task} (htasks : s.tasks = task :: rest) :
    s.registry.Owns
      (task.node?.toList.map (·.nodeInfo) ++ (rest.filterMap (·.node?)).map (·.nodeInfo))
      (task.client?.toList.map (·.clientInfo) ++
        (rest.filterMap (·.client?)).map (·.clientInfo)) := by
  have howns := h.owns
  rwa [pendingNodes_cons htasks, pendingClients_cons htasks, List.map_append,
    List.map_append] at howns

theorem fresh_client (h : s.Owned) {task : Task} {rest : List Task}
    (htasks : s.tasks = task :: rest) :
    ∀ client ∈ task.client?, client = { clientInfo := client.clientInfo } := by
  intro client hclient
  refine h.freshClients client ?_
  rw [pendingClients_cons htasks]
  exact List.mem_append_left _ (Option.mem_toList.mpr hclient)

/-- The listener that a task starts belongs to the client the task brought. -/
theorem startedListeners_sublist (build : Build) (task : Task) :
    (startedListeners build task).Sublist (task.client?.toList.map (·.clientInfo)) := by
  cases task with
  | doRegisterClient client callback =>
    simp only [startedListeners]
    split_ifs
    · exact List.Sublist.refl _
    · exact List.nil_sublist _
  | _ => exact List.nil_sublist _

/-- A task that runs keeps the invariant. -/
theorem task {build : Build} {ros : RosMasterProxy} (h : s.Owned) {task : Task}
    {rest : List Task} (htasks : s.tasks = task :: rest) {r' : Registry} {effects : List Effect}
    (hrun : runTask build.hasRos ros s.registry task = some (r', effects)) :
    Owned { registry := r', tasks := rest
            listeners := s.listeners ++ startedListeners build task } := by
  obtain ⟨howns, -, hclients⟩ :=
    Registry.Owns.change (runTask_change hrun) (h.owns_cons htasks) (h.fresh_client htasks)
  have hkeys : r'.clientMap.keys.Perm
      ((task.client?.toList.map (·.clientInfo)).map (·.id) ++ s.registry.clientMap.keys) := by
    rw [← Registry.map_id_clientInfos howns.keyed, ← Registry.map_id_clientInfos h.owns.keyed,
      ← List.map_append]
    exact hclients.map _
  have hstarted := (startedListeners_sublist build task).map (·.id)
  refine ⟨howns, fun node hnode ↦ h.freshNodes node ?_, fun client hclient ↦
    h.freshClients client ?_, fun clientInfo hmem ↦ ?_, ?_⟩
  · rw [pendingNodes_cons htasks]
    exact List.mem_append_right _ hnode
  · rw [pendingClients_cons htasks]
    exact List.mem_append_right _ hclient
  · refine hkeys.symm.subset (List.mem_append.mpr ?_)
    rcases List.mem_append.mp hmem with hold | hnew
    · exact Or.inr (h.listening clientInfo hold)
    · exact Or.inl (hstarted.subset (List.mem_map_of_mem hnew))
  · rw [List.map_append]
    have hnodup := hkeys.nodup_iff.mp r'.clientMap.keys_nodup
    obtain ⟨hnew, -, hdisjoint⟩ := List.nodup_append.mp hnodup
    refine List.nodup_append.mpr ⟨h.listeners_nodup, hnew.sublist hstarted, ?_⟩
    intro a ha b hb hab
    obtain ⟨clientInfo, hclient, rfl⟩ := List.mem_map.mp ha
    exact hdisjoint b (hstarted.subset hb) _ (h.listening clientInfo hclient) hab.symm

/-- Removing the client of a listener is defined. -/
theorem exists_eraseClient (h : s.Owned) {clientInfo : ClientInfo}
    (hlistener : clientInfo ∈ s.listeners) : ∃ r' client,
      s.registry.clientMap.find clientInfo.id = some client ∧
      s.registry.eraseClient clientInfo.id = some (r', client) ∧
      Owned { s with registry := r', listeners := s.listeners.erase clientInfo } ∧
      r'.nodeInfos ⊆ s.registry.nodeInfos ∧ r'.clientInfos ⊆ s.registry.clientInfos := by
  obtain ⟨client, hclient⟩ :=
    s.registry.clientMap.mem_keys_iff.mp (h.listening clientInfo hlistener)
  obtain ⟨r', herase, howns, hnodes, hclients, hmap⟩ := h.owns.eraseClient hclient
  have hperm := (List.perm_cons_erase hlistener).map (·.id)
  have hnodup := hperm.nodup_iff.mp h.listeners_nodup
  rw [List.map_cons, List.nodup_cons] at hnodup
  refine ⟨r', client, hclient, herase, ⟨howns, h.freshNodes, h.freshClients, ?_, hnodup.2⟩,
    hnodes, hclients⟩
  intro other hother
  have hne : other.id ≠ clientInfo.id := by
    intro heq
    exact hnodup.1 (heq ▸ List.mem_map_of_mem hother)
  obtain ⟨c, hc⟩ := s.registry.clientMap.mem_keys_iff.mp
    (h.listening other (List.mem_of_mem_erase hother))
  refine r'.clientMap.mem_keys_iff.mpr ⟨c, ?_⟩
  rw [hmap, FlatMap.find_erase, if_neg hne]
  exact hc

/-- A step keeps the invariant. -/
theorem step {build : Build} {a : Action} {s' : System} {effects : List Effect} (h : s.Owned)
    (hcase : StepCase build s a s' effects) : s'.Owned := by
  cases hcase with
  | post new hposts =>
    have hplain : ∀ t ∈ new, t.Plain := fun t ht ↦ (hposts t ht).plain
    refine ⟨?_, ?_, ?_, h.listening, h.listeners_nodup⟩
    · simpa [pendingNodes, pendingClients, filterMap_node?_of_plain hplain,
        filterMap_client?_of_plain hplain] using h.owns
    · simpa [pendingNodes, filterMap_node?_of_plain hplain] using h.freshNodes
    · simpa [pendingClients, filterMap_client?_of_plain hplain] using h.freshClients
  | newClient clientInfo hvalid hfresh =>
    refine ⟨?_, ?_, ?_, h.listening, h.listeners_nodup⟩
    · simpa [pendingNodes, pendingClients, Task.node?, Task.client?] using
        h.owns.newClient hvalid hfresh
    · simpa [pendingNodes, Task.node?] using h.freshNodes
    · intro client hclient
      rw [pendingClients, List.filterMap_append] at hclient
      rcases List.mem_append.mp hclient with hold | hnew
      · exact h.freshClients client hold
      · rw [List.mem_singleton.mp hnew]
  | newNode nodeInfo _ _ hfresh =>
    refine ⟨?_, ?_, ?_, h.listening, h.listeners_nodup⟩
    · simpa [pendingNodes, pendingClients, Task.node?, Task.client?] using
        h.owns.newNode hfresh
    · intro node hnode
      rw [pendingNodes, List.filterMap_append] at hnode
      rcases List.mem_append.mp hnode with hold | hnew
      · exact h.freshNodes node hold
      · rw [List.mem_singleton.mp hnew]
    · simpa [pendingClients, Task.client?] using h.freshClients
  | task htasks hrun => exact h.task htasks hrun
  | removeClient hlistener hremove =>
    obtain ⟨r', client, -, herase, howned, -⟩ := h.exists_eraseClient hlistener
    obtain ⟨erased, herased, heq⟩ := Option.map_eq_some_iff.mp hremove
    rw [herase] at herased
    cases herased
    cases heq
    exact howned

end Owned

/-- The run lemma. -/
theorem owned_of_reachable {build : Build} {guard : System → Action → Prop} {s : System}
    (h : Reachable (master build) guard s) : s.Owned := by
  refine h.invariant (I := Owned) ?_ ?_
  · rintro s rfl
    exact .initial
  · intro s a s' effects howned _ hstep
    exact howned.step (step_cases hstep)

/-! ### What a step does to the nodes -/

/-- A step that destroys the registered node of a given name and client: an `UnregisterNode` for it,
or a `RemoveClient` for its client. -/
def Removes (s : System) (a : Action) (nodeInfo : NodeInfo) : Prop :=
  (∃ ros requested callback rest, a = .runTask ros ∧
      s.tasks = .doUnregisterNode requested callback :: rest ∧
      requested.name = nodeInfo.name ∧ requested.clientId = nodeInfo.clientId) ∨
    ∃ clientInfo, a = .heartBeatLost clientInfo ∧ clientInfo.id = nodeInfo.clientId

/-- What a step of a system does to the list of all nodes, up to their order. A node that is added
carries nothing yet. -/
inductive NodesChange (s : System) (a : Action) (r' : Registry) : Prop
  | kept (h : r'.nodes.Perm s.registry.nodes)
  | added {ros : RosMasterProxy} {nodeInfo : NodeInfo} {callback : StatusOnceCallback}
      {rest : List Task} (haction : a = .runTask ros)
      (htasks : s.tasks = .doRegisterNode { nodeInfo } callback :: rest)
      (h : r'.nodes.Perm ({ nodeInfo } :: s.registry.nodes))
  | removed (gone : List Node) (hgone : ∀ n ∈ gone, s.Removes a n.nodeInfo)
      (h : s.registry.nodes.Perm (gone ++ r'.nodes))
  | updated {ros : RosMasterProxy} {task : Task} {rest : List Task} {nodeInfo : NodeInfo}
      {n : Node} {f : Node → Node} {before after : List Node} (haction : a = .runTask ros)
      (htasks : s.tasks = task :: rest) (hfind : s.registry.findNode nodeInfo = some n)
      (hop : NodeOp s.registry n nodeInfo task f)
      (h : s.registry.nodes = before ++ n :: after) (h' : r'.nodes = before ++ f n :: after)

/-- Adding a client adds no node. -/
theorem Owned.nodes_addClient {s : System} (howned : s.Owned) {client : Client}
    {callback : StatusOnceCallback} {rest : List Task} {r' : Registry}
    (htasks : s.tasks = .doRegisterClient client callback :: rest)
    (hadd : s.registry.addClient client.clientInfo.id client = some r') :
    r'.nodes.Perm s.registry.nodes := by
  have hnone := Registry.Owns.find_pending (howned.owns_cons htasks)
  rw [Registry.addClient, hnone] at hadd
  cases hadd
  have hnodes : client.nodes = [] :=
    congrArg Client.nodes (howned.fresh_client htasks client rfl)
  have hperm := Registry.nodes_insert_perm hnone client
  rwa [hnodes, List.nil_append] at hperm

/-- A node that waits to be added carries nothing yet. -/
theorem Owned.fresh_node {s : System} (howned : s.Owned) {node : Node}
    {callback : StatusOnceCallback} {rest : List Task}
    (htasks : s.tasks = .doRegisterNode node callback :: rest) :
    node = { nodeInfo := node.nodeInfo } := by
  refine howned.freshNodes node ?_
  rw [pendingNodes_cons htasks]
  exact List.mem_cons_self ..

/-- The registered nodes have distinct names. -/
theorem Owned.nodup_node_names {s : System} (howned : s.Owned) :
    (s.registry.nodes.map (·.name)).Nodup := by
  have hnodup := howned.owns.names_nodup
  rw [List.map_append, Registry.nodeInfos, List.map_map] at hnodup
  exact List.Nodup.of_append_left hnodup

/-- The nodes of one client have distinct names. -/
theorem Owned.nodup_names {s : System} (howned : s.Owned) {id : Uint32} {client : Client}
    (hclient : s.registry.clientMap.find id = some client) :
    (client.nodes.map (·.name)).Nodup := by
  have hall := ((Registry.nodes_erase_perm hclient).map (·.name)).nodup_iff.mp
    howned.nodup_node_names
  rw [List.map_append] at hall
  exact List.Nodup.of_append_left hall

/-- Removing a client removes its nodes and announces what they had. -/
theorem removeClient_eq {hasRos : Bool} {r r' : Registry} {clientInfo : ClientInfo}
    {effects : List Effect} (h : removeClient hasRos r clientInfo = some (r', effects)) :
    ∃ client, r.clientMap.find clientInfo.id = some client ∧
      r.nodes.Perm (client.nodes ++ r'.nodes) ∧
      effects = .log (.removeClient clientInfo.id) :: notifyRemoved hasRos r'
        (client.findTopicInfos { all := true }) client.findAllSubscribingTopics
        (client.findServiceInfos { all := true }) := by
  obtain ⟨erased, herase, heq⟩ := Option.map_eq_some_iff.mp h
  cases heq
  obtain ⟨client, hclient, hdestroyed⟩ := Option.bind_eq_some_iff.mp herase
  obtain ⟨r'', hdestroy, rfl⟩ := Option.map_eq_some_iff.mp hdestroyed
  obtain ⟨ids, -, hnames⟩ := Option.bind_eq_some_iff.mp hdestroy
  obtain ⟨names, -, rfl⟩ := Option.map_eq_some_iff.mp hnames
  exact ⟨client, hclient, Registry.nodes_erase_perm hclient, rfl⟩

/-- Assumes: the invariant of ownership. Removing a node that is there removes it alone and
announces what it had; otherwise the nodes stay as they are. -/
theorem Owned.doUnregisterNode_eq {s : System} (howned : s.Owned) {hasRos : Bool}
    {nodeInfo : NodeInfo} {callback : StatusOnceCallback} {r' : Registry} {effects : List Effect}
    (h : doUnregisterNode hasRos s.registry nodeInfo callback = some (r', effects)) :
    (r'.nodes.Perm s.registry.nodes ∧
        ∀ e ∈ effects, e = .log (.removeNode nodeInfo) ∨ e = .reply callback .OK) ∨
      ∃ n, s.registry.findNode nodeInfo = some n ∧ s.registry.nodes.Perm (n :: r'.nodes) ∧
        effects = .log (.removeNode nodeInfo) :: notifyRemoved hasRos r' n.allPublishingTopicInfos
          n.allSubscribingTopics n.allServingServiceInfos ++ [.reply callback .OK] := by
  obtain ⟨removed, hremove, heq⟩ := Option.map_eq_some_iff.mp h
  cases heq
  obtain ⟨r'', herase, rfl⟩ := Option.map_eq_some_iff.mp hremove
  cases hclient : s.registry.clientMap.find nodeInfo.clientId with
  | none =>
    rw [Registry.eraseNode, hclient] at herase
    cases herase
    left
    refine ⟨List.Perm.refl _, ?_⟩
    simp [Registry.checkIfClientExists, FlatMap.contains, hclient, Registry.findNode]
  | some client =>
    rw [Registry.eraseNode, hclient] at herase
    obtain ⟨g, -, hr''⟩ := Option.map_eq_some_iff.mp herase
    have hperm : s.registry.nodes.Perm (client.removedNodes nodeInfo ++ r''.nodes) := by
      rw [← hr'']
      exact Registry.nodes_removeNode_perm hclient
    have hexists : s.registry.checkIfClientExists nodeInfo.clientId = true := by
      simp [Registry.checkIfClientExists, FlatMap.contains, hclient]
    cases hfind : client.nodes.find? (nodeNameChecker nodeInfo) with
    | none =>
      have hgone : client.removedNodes nodeInfo = [] :=
        List.filter_eq_nil_iff.mpr (List.find?_eq_none.mp hfind)
      rw [hgone, List.nil_append] at hperm
      left
      refine ⟨hperm.symm, ?_⟩
      simp [hexists, Registry.findNode, hclient, Client.findNode, hfind]
    | some n =>
      -- No other node has the name.
      have hgone : client.removedNodes nodeInfo = [n] := by
        have hlive : (client.nodes.map (·.name)).Nodup := howned.nodup_names hclient
        have hn : n ∈ client.nodes := List.mem_of_find?_eq_some hfind
        have hchecked : nodeNameChecker nodeInfo n = true := List.find?_some hfind
        have hname : n.name = nodeInfo.name := of_decide_eq_true hchecked
        have hall : ∀ m ∈ client.removedNodes nodeInfo, m = n := by
          intro m hm
          obtain ⟨hm, hmname⟩ := List.mem_filter.mp hm
          exact List.inj_on_of_nodup_map hlive hm hn ((of_decide_eq_true hmname).trans hname.symm)
        have hmem : n ∈ client.removedNodes nodeInfo :=
          List.mem_filter.mpr ⟨hn, hchecked⟩
        have hnodup : (client.removedNodes nodeInfo).Nodup := (hlive.of_map _).filter _
        have hreplicate := List.eq_replicate_of_mem hall
        rw [hreplicate, List.nodup_replicate] at hnodup
        have hpos := List.length_pos_of_mem hmem
        rw [hreplicate, show (client.removedNodes nodeInfo).length = 1 by omega]
        rfl
      rw [hgone] at hperm
      have hfound : s.registry.findNode nodeInfo = some n := by
        rw [Registry.findNode, hclient]
        exact hfind
      right
      refine ⟨n, hfound, hperm, ?_⟩
      simp [hexists, hfound]

/-- Assumes: the invariant of ownership. -/
theorem Owned.nodesChange {build : Build} {s s' : System} {a : Action} {effects : List Effect}
    (howned : s.Owned) (hcase : StepCase build s a s' effects) :
    NodesChange s a s'.registry := by
  cases hcase with
  | post | newClient | newNode => exact .kept (List.Perm.refl _)
  | task htasks hrun =>
    cases runTask_change hrun with
    | answered | notified => exact .kept (List.Perm.refl _)
    | addClient hadd => exact .kept (howned.nodes_addClient htasks hadd)
    | @addNode node _ _ _ hadd =>
      have hfresh := howned.fresh_node htasks
      cases hclient : s.registry.clientMap.find node.nodeInfo.clientId with
      | none =>
        exact .kept (.of_eq (Registry.nodes_addNode_of_find_eq_none hclient hadd))
      | some client =>
        have hperm := Registry.nodes_addNode_perm hclient hadd
        rw [hfresh] at htasks hperm
        exact .added rfl htasks hperm
    | @eraseNode nodeInfo _ _ _ herase =>
      cases hclient : s.registry.clientMap.find nodeInfo.clientId with
      | none =>
        rw [Registry.eraseNode, hclient] at herase
        cases herase
        exact .kept (List.Perm.refl _)
      | some client =>
        rw [Registry.eraseNode, hclient] at herase
        obtain ⟨g, -, heq⟩ := Option.map_eq_some_iff.mp herase
        refine .removed (client.removedNodes nodeInfo) (fun n hn ↦ ?_) ?_
        · obtain ⟨hmem, hname⟩ := List.mem_filter.mp hn
          refine Or.inl ⟨_, nodeInfo, _, _, rfl, htasks, ?_,
            ((howned.owns.keyed _ client hclient).2 n hmem).symm⟩
          exact (of_decide_eq_true hname).symm
        · rw [← heq]
          exact Registry.nodes_removeNode_perm hclient
    | update hfind hop =>
      obtain ⟨before, after, hnodes, hupdate⟩ := Registry.nodes_updateNode_split hfind
      exact .updated rfl htasks hfind hop hnodes (hupdate _)
  | removeClient hlistener hremove =>
    obtain ⟨client, hclient, hperm, -⟩ := removeClient_eq hremove
    refine .removed client.nodes (fun n hn ↦ ?_) hperm
    exact Or.inr ⟨_, rfl, ((howned.owns.keyed _ client hclient).2 n hn).symm⟩

/-- Assumes: a property that a fresh node has and that every operation keeps. -/
theorem Owned.forall_nodes_step {build : Build} {s s' : System} {a : Action}
    {effects : List Effect} (howned : s.Owned) (hcase : StepCase build s a s' effects)
    {P : Node → Prop} (hfresh : ∀ nodeInfo : NodeInfo, P { nodeInfo })
    (hop : ∀ nodeInfo task rest f n, s.tasks = task :: rest →
      NodeOp s.registry n nodeInfo task f → P n → P (f n))
    (h : ∀ n ∈ s.registry.nodes, P n) : ∀ n ∈ s'.registry.nodes, P n := by
  cases howned.nodesChange hcase with
  | kept hperm => exact fun n hn ↦ h n (hperm.subset hn)
  | added _ _ hperm =>
    intro n hn
    rcases List.mem_cons.mp (hperm.subset hn) with rfl | hold
    · exact hfresh _
    · exact h n hold
  | removed gone _ hperm => exact fun n hn ↦ h n (hperm.symm.subset (List.mem_append_right _ hn))
  | updated _ htasks _ hnodeOp hnodes hnodes' =>
    rw [hnodes, List.forall_mem_append, List.forall_mem_cons] at h
    rw [hnodes', List.forall_mem_append, List.forall_mem_cons]
    exact ⟨h.1, hop _ _ _ _ _ htasks hnodeOp h.2.1, h.2.2⟩

/-- In every reachable state each node stores its infos under their own names. -/
theorem labelled_of_reachable {build : Build} {guard : System → Action → Prop} {s : System}
    (h : Reachable (master build) guard s) : ∀ n ∈ s.registry.nodes, n.Labelled := by
  have hinv : s.Owned ∧ ∀ n ∈ s.registry.nodes, n.Labelled := by
    refine h.invariant (I := fun s ↦ s.Owned ∧ ∀ n ∈ s.registry.nodes, n.Labelled) ?_ ?_
    · rintro s rfl
      exact ⟨.initial, by simp [Registry.nodes]⟩
    · rintro s a s' effects ⟨howned, hlabelled⟩ _ hstep
      have hcase := step_cases hstep
      refine ⟨howned.step hcase, howned.forall_nodes_step hcase (fun _ ↦ ?_) ?_ hlabelled⟩
      · simp [Node.Labelled, Node.getTopicInfo, Node.getServiceInfo]
      · intro nodeInfo task rest f n _ hop hn
        cases hop with
        | publish topicInfo => exact hn.registerPublishingTopic topicInfo
        | unpublish topic => exact hn.unregisterPublishingTopic topic
        | serve serviceInfo => exact hn.registerServingService serviceInfo
        | unserve service => exact hn.unregisterServingService service
        | subscribe | unsubscribe | request | unrequest => exact hn
  exact hinv.2

/-! ### Holders of names and ids -/

/-- The infos of the live nodes; the info of a node never changes. -/
def liveNodeInfos (s : System) : List NodeInfo := s.liveNodes.map (·.nodeInfo)

/-- The infos of the live clients; the info of a client never changes. -/
def liveClientInfos (s : System) : List ClientInfo := s.liveClients.map (·.clientInfo)

/-- A step that creates a node: a `RegisterNode` whose checks found a free name and, for a watcher,
no other watcher. -/
structure Creates (s : System) (a : Action) (nodeInfo : NodeInfo) : Prop where
  request : ∃ env rand requested callback, a = .entry env rand (.registerNode requested) callback ∧
    nodeInfo = { requested with name := nodeInfo.name }
  fresh : s.registry.nameGenerator.isIn nodeInfo.name = false
  noWatcher : nodeInfo.watcher = true → s.registry.findNodes { watcher := true } = []

namespace Owned

variable {s : System}

theorem names_perm (h : s.Owned) :
    (s.liveNodeInfos.map (·.name)).Perm s.registry.nameGenerator.values := by
  have hnames := h.owns.names
  rwa [Registry.nodeInfos, ← List.map_append] at hnames

theorem ids_perm (h : s.Owned) :
    (s.liveClientInfos.map (·.id)).Perm s.registry.idGenerator.values := by
  have hids := h.owns.ids
  rwa [Registry.clientInfos, ← List.map_append] at hids

theorem append_subset_append_left {α : Type} {as bs : List α} (h : as ⊆ bs) (cs : List α) :
    as ++ cs ⊆ bs ++ cs :=
  List.append_subset.mpr
    ⟨List.subset_append_of_subset_left cs h, List.subset_append_right bs cs⟩

/-- A step creates at most one node, and destroys none when it does. -/
theorem liveNodeInfos_step {build : Build} {a : Action} {s' : System} {effects : List Effect}
    (h : s.Owned) (hcase : StepCase build s a s' effects) :
    s'.liveNodeInfos ⊆ s.liveNodeInfos ∨
      ∃ nodeInfo, s.Creates a nodeInfo ∧ s'.liveNodeInfos = s.liveNodeInfos ++ [nodeInfo] := by
  cases hcase with
  | post new hposts =>
    have hplain : ∀ t ∈ new, t.Plain := fun t ht ↦ (hposts t ht).plain
    left
    simp [liveNodeInfos, liveNodes, pendingNodes, filterMap_node?_of_plain hplain]
  | newClient =>
    left
    simp [liveNodeInfos, liveNodes, pendingNodes, Task.node?, Registry.nodes]
  | newNode nodeInfo _ hsame hfresh hclient hwatcher =>
    refine Or.inr ⟨nodeInfo, ⟨⟨_, _, _, _, rfl, hsame⟩, hfresh, hwatcher⟩, ?_⟩
    simp [liveNodeInfos, liveNodes, pendingNodes, Task.node?, Registry.nodes]
  | task htasks hrun =>
    obtain ⟨-, hnodes, -⟩ :=
      Registry.Owns.change (runTask_change hrun) (h.owns_cons htasks) (h.fresh_client htasks)
    left
    rw [liveNodeInfos, liveNodeInfos, liveNodes, liveNodes, pendingNodes_cons htasks]
    simp only [List.map_append]
    rw [← List.append_assoc]
    exact append_subset_append_left (List.Subset.trans hnodes List.perm_append_comm.subset) _
  | removeClient hlistener hremove =>
    obtain ⟨r', client, -, herase, -, hnodes, -⟩ := h.exists_eraseClient hlistener
    obtain ⟨erased, herased, heq⟩ := Option.map_eq_some_iff.mp hremove
    rw [herase] at herased
    cases herased
    cases heq
    left
    simp only [liveNodeInfos, liveNodes, List.map_append]
    exact append_subset_append_left hnodes _

/-- A step creates at most one client, and destroys none when it does. -/
theorem liveClientInfos_step {build : Build} {a : Action} {s' : System} {effects : List Effect}
    (h : s.Owned) (hcase : StepCase build s a s' effects) :
    s'.liveClientInfos ⊆ s.liveClientInfos ∨
      ∃ clientInfo, s.registry.idGenerator.isIn clientInfo.id = false ∧
        (∃ env rand requested callback, a = .entry env rand (.registerClient requested) callback) ∧
        s'.liveClientInfos = s.liveClientInfos ++ [clientInfo] := by
  cases hcase with
  | post new hposts =>
    have hplain : ∀ t ∈ new, t.Plain := fun t ht ↦ (hposts t ht).plain
    left
    simp [liveClientInfos, liveClients, pendingClients, filterMap_client?_of_plain hplain]
  | newClient clientInfo _ hfresh =>
    refine Or.inr ⟨clientInfo, hfresh, ⟨_, _, _, _, rfl⟩, ?_⟩
    simp [liveClientInfos, liveClients, pendingClients, Task.client?]
  | newNode =>
    left
    simp [liveClientInfos, liveClients, pendingClients, Task.client?]
  | task htasks hrun =>
    obtain ⟨-, -, hclients⟩ :=
      Registry.Owns.change (runTask_change hrun) (h.owns_cons htasks) (h.fresh_client htasks)
    left
    rw [liveClientInfos, liveClientInfos, liveClients, liveClients, pendingClients_cons htasks]
    simp only [List.map_append]
    rw [← List.append_assoc]
    exact append_subset_append_left
      (List.Subset.trans hclients.subset List.perm_append_comm.subset) _
  | removeClient hlistener hremove =>
    obtain ⟨r', client, -, herase, -, -, hclients⟩ := h.exists_eraseClient hlistener
    obtain ⟨erased, herased, heq⟩ := Option.map_eq_some_iff.mp hremove
    rw [herase] at herased
    cases herased
    cases heq
    left
    simp only [liveClientInfos, liveClients, List.map_append]
    exact append_subset_append_left hclients _

/-- The next task runs to its end. -/
theorem exists_runTask (h : s.Owned) (build : Build) {task : Task} {rest : List Task}
    (htasks : s.tasks = task :: rest) (ros : RosMasterProxy) :
    ∃ r' effects, runTask build.hasRos ros s.registry task = some (r', effects) ∧
      System.step build s (.runTask ros) =
        some ({ registry := r', tasks := rest
                listeners := s.listeners ++ startedListeners build task }, effects) := by
  obtain ⟨⟨r', effects⟩, hrun⟩ :
      ∃ result, runTask build.hasRos ros s.registry task = some result :=
    (h.owns_cons htasks).exists_runTask (h.fresh_client htasks)
  refine ⟨r', effects, hrun, ?_⟩
  simp only [System.step, htasks, hrun, Option.map_some]

/-- The only undefined step is the registration of a client for which no id was found: every return
to a pool finds its value. -/
theorem step_isSome {build : Build} (h : s.Owned) {a : Action}
    (hnone : System.step build s a = none) :
    ∃ env rand clientInfo callback, a = .entry env rand (.registerClient clientInfo) callback ∧
      (s.registry.newClient clientInfo rand).2 = none := by
  cases a with
  | entry env rand request callback =>
    cases request with
    | registerClient clientInfo =>
      refine ⟨env, rand, clientInfo, callback, rfl, ?_⟩
      simp only [System.step, entry, registerClient] at hnone
      split_ifs at hnone
      cases hnew : s.registry.newClient clientInfo rand with
      | mk r' client =>
        cases client with
        | none => rfl
        | some client => simp [hnew] at hnone
    | _ => cases hnone
  | runTask ros =>
    exfalso
    cases htasks : s.tasks with
    | nil => simp [System.step, htasks] at hnone
    | cons task rest =>
      obtain ⟨r', effects, -, hstep⟩ := h.exists_runTask build htasks ros
      rw [hstep] at hnone
      cases hnone
  | heartBeatLost clientInfo =>
    exfalso
    simp only [System.step] at hnone
    split_ifs at hnone with hlistener
    obtain ⟨r', client, -, herase, -⟩ := h.exists_eraseClient hlistener
    simp [removeClient, herase] at hnone
  | pubUpdate topic update =>
    exfalso
    simp only [System.step] at hnone
    split at hnone <;> cases hnone

end Owned

/-- In every reachable state the names of the live nodes are distinct and are the pool of names, and
so are the ids of the live clients, none of them invalid. Every return to a pool finds its value:
the one undefined step is the registration of a client for which no id was found. A client that is
added meets no other under its id. A name or an id leaves its pool exactly when its holder is
destroyed. -/
theorem names_and_ids (build : Build) (s : System) (h : Reachable (master build) unguarded s) :
    ((s.liveNodes.map (·.name)).Nodup ∧
      ∀ name, s.registry.nameGenerator.isIn name = true ↔ ∃ n ∈ s.liveNodes, n.name = name) ∧
    ((s.liveClients.map (·.clientInfo.id)).Nodup ∧
      (∀ id, s.registry.idGenerator.isIn id = true ↔ ∃ c ∈ s.liveClients, c.clientInfo.id = id) ∧
      ∀ c ∈ s.liveClients, c.clientInfo.id ≠ invalidId) ∧
    (∀ a, (master build).step s a = none →
      ∃ env rand clientInfo callback, a = .entry env rand (.registerClient clientInfo) callback ∧
        (s.registry.newClient clientInfo rand).2 = none) ∧
    (∀ client callback rest, s.tasks = .doRegisterClient client callback :: rest →
      s.registry.clientMap.find client.clientInfo.id = none) ∧
    ∀ a s' effects, (master build).step s a = some (s', effects) →
      (∀ name, (s.registry.nameGenerator.isIn name = true ∧
          s'.registry.nameGenerator.isIn name = false) ↔
        ∃ info ∈ s.liveNodeInfos, info.name = name ∧ info ∉ s'.liveNodeInfos) ∧
      ∀ id, (s.registry.idGenerator.isIn id = true ∧
          s'.registry.idGenerator.isIn id = false) ↔
        ∃ info ∈ s.liveClientInfos, info.id = id ∧ info ∉ s'.liveClientInfos := by
  have howned := owned_of_reachable h
  have hnames := howned.names_perm
  have hids := howned.ids_perm
  refine ⟨⟨?_, fun name ↦ ?_⟩, ⟨?_, fun id ↦ ?_, fun c hc hinvalid ↦ ?_⟩,
    fun a hnone ↦ howned.step_isSome hnone, fun client callback rest htasks ↦ ?_,
    fun a s' effects hstep ↦ ?_⟩
  · have hnodup := hnames.nodup_iff.mpr (Generator.values_nodup _)
    rwa [liveNodeInfos, List.map_map] at hnodup
  · rw [Generator.isIn_iff, ← hnames.mem_iff, liveNodeInfos, List.map_map, List.mem_map]
    rfl
  · have hnodup := hids.nodup_iff.mpr (Generator.values_nodup _)
    rwa [liveClientInfos, List.map_map] at hnodup
  · rw [Generator.isIn_iff, ← hids.mem_iff, liveClientInfos, List.map_map, List.mem_map]
    rfl
  · refine howned.owns.valid (hids.subset ?_)
    rw [← hinvalid]
    exact List.mem_map_of_mem (List.mem_map_of_mem hc)
  · exact (howned.owns_cons htasks).find_pending
  · have hcase := step_cases hstep
    have howned' := howned.step hcase
    refine ⟨Generator.released_iff hnames howned'.names_perm fun info hinfo ↦ ?_,
      Generator.released_iff hids howned'.ids_perm fun info hinfo ↦ ?_⟩
    · rcases howned.liveNodeInfos_step hcase with hsub | ⟨nodeInfo, hcreates, heq⟩
      · exact Or.inl (hsub hinfo)
      · rw [heq, List.mem_append, List.mem_singleton] at hinfo
        rcases hinfo with hold | rfl
        · exact Or.inl hold
        · exact Or.inr hcreates.fresh
    · rcases howned.liveClientInfos_step hcase with hsub | ⟨clientInfo, hfresh, -, heq⟩
      · exact Or.inl (hsub hinfo)
      · rw [heq, List.mem_append, List.mem_singleton] at hinfo
        rcases hinfo with hold | rfl
        · exact Or.inl hold
        · exact Or.inr hfresh

/-- The run that registers a client and a node, and leaves a second node with its task. -/
theorem names_and_ids_of_pending_node :
    ∃ s, Reachable (master {}) unguarded s ∧ s.pendingNodes.map (·.name) = ["b"] ∧
      s.registry.nameGenerator.isIn "a" = true ∧
      (s.liveNodes.map (·.name)).Nodup ∧
      (s.registry.nameGenerator.isIn "b" = true ↔ ∃ n ∈ s.liveNodes, n.name = "b") := by
  have hexec : ((master {}).exec unguarded {} []
      [Scenario.client 7, Scenario.run, Scenario.request (.registerNode (Scenario.node "a")),
        Scenario.run, Scenario.request (.registerNode (Scenario.node "b"))]).map
      (fun result ↦ (result.1.pendingNodes.map (·.name),
        result.1.registry.nameGenerator.isIn "a")) = some (["b"], true) := by decide
  obtain ⟨⟨s, history⟩, hrun, heq⟩ := Option.map_eq_some_iff.mp hexec
  have hreach : Reachable (master {}) unguarded s := ⟨history, (Run.start rfl).of_exec hrun⟩
  obtain ⟨⟨hnodup, hpool⟩, -⟩ := names_and_ids {} s hreach
  exact ⟨s, hreach, congrArg Prod.fst heq, congrArg Prod.snd heq, hnodup, hpool "b"⟩

end System

end Felicia
