import Felicia.Master.Uniqueness
import Felicia.Support.Lists

/-!
# What the lookups of the master return

A filter has several fields, and `Client::FindNodes`, `Client::FindTopicInfos` and
`Client::FindServiceInfos` go by the first of them that is set. `Master::FindNodes` and its siblings
collect the results of all clients, but return at the first client with a result when the filter
names a publisher or a server, "because there can be only one publishing node or server node". They
look at the field alone, not at whether it is the one that the client goes by.

`NodeFilter.selects`, `TopicFilter.select` and `ServiceFilter.select` say what the field that counts
selects. `firstMatch_perm_iff` says when a lookup that stops at the first client is complete, and
`findNodes_perm_iff`, `findTopicInfos_perm_iff` and `findServiceInfos_perm_iff` apply it.
-/

set_option autoImplicit false
set_option relaxedAutoImplicit false

namespace Felicia

open Support TransitionSystem

/-! ### The field of a filter that counts -/

/-- What the first field of a node filter that is set asks of a node. -/
def NodeFilter.selects (nodeFilter : NodeFilter) (n : Node) : Bool :=
  if nodeFilter.all then true
  else if nodeFilter.publishingTopic ≠ "" then n.isPublishingTopic nodeFilter.publishingTopic
  else if nodeFilter.subscribingTopic ≠ "" then n.isSubscribingTopic nodeFilter.subscribingTopic
  else if nodeFilter.requestingService ≠ "" then
    n.isRequestingService nodeFilter.requestingService
  else if nodeFilter.servingService ≠ "" then n.isServingService nodeFilter.servingService
  else if nodeFilter.name ≠ "" then n.name = nodeFilter.name
  else nodeFilter.watcher && n.nodeInfo.watcher

/-- The infos of a node that the first field of a topic filter that is set asks for. -/
def TopicFilter.select (topicFilter : TopicFilter) (n : Node) : List TopicInfo :=
  if topicFilter.all then n.allPublishingTopicInfos
  else if topicFilter.topic ≠ "" then (n.getTopicInfo topicFilter.topic).toList
  else []

/-- The infos of a node that the first field of a service filter that is set asks for. -/
def ServiceFilter.select (serviceFilter : ServiceFilter) (n : Node) : List ServiceInfo :=
  if serviceFilter.all then n.allServingServiceInfos
  else if serviceFilter.service ≠ "" then (n.getServiceInfo serviceFilter.service).toList
  else []

namespace NodeFilter

/-- The test of `Master::FindNodes` for a lookup that stops at the first client with a match. -/
def stopsAtClient (nodeFilter : NodeFilter) : Bool :=
  nodeFilter.publishingTopic ≠ "" || nodeFilter.servingService ≠ ""

/-- The field that counts is the publisher's or the server's. -/
def seeksOne (nodeFilter : NodeFilter) : Bool :=
  !nodeFilter.all && (nodeFilter.publishingTopic ≠ "" ||
    nodeFilter.subscribingTopic = "" && nodeFilter.requestingService = "" &&
      nodeFilter.servingService ≠ "")

/-- The field that counts is the watcher's. -/
def seeksWatcher (nodeFilter : NodeFilter) : Bool :=
  nodeFilter = { watcher := true }

end NodeFilter

/-! ### Lookups over a list of clients -/

section Search

variable {α : Type}

/-- A lookup that stops at the first client with a match is complete exactly when at most one
client has a match. -/
theorem firstMatch_perm_iff (search : Client → List α) (cs : List Client) :
    (Registry.firstMatch search cs).Perm (cs.flatMap search) ↔
      cs.countP (fun c ↦ search c ≠ []) ≤ 1 := by
  induction cs with
  | nil => simp [Registry.firstMatch]
  | cons c cs ih =>
    unfold Registry.firstMatch
    split_ifs with hfound
    · have hne : search c ≠ [] := List.ne_nil_of_length_pos hfound
      rw [List.flatMap_cons, List.countP_cons_of_pos (by simpa using hne)]
      have hzero : (search c).Perm (search c ++ cs.flatMap search) ↔ cs.flatMap search = [] := by
        constructor
        · intro hperm
          have hlength := hperm.length_eq
          rw [List.length_append] at hlength
          exact List.eq_nil_of_length_eq_zero (by omega)
        · intro hnil
          rw [hnil, List.append_nil]
      rw [hzero, List.flatMap_eq_nil_iff]
      have hnone : cs.countP (fun c ↦ search c ≠ []) + 1 ≤ 1 ↔
          cs.countP (fun c ↦ search c ≠ []) = 0 := by omega
      rw [hnone, List.countP_eq_zero]
      simp
    · have hnil : search c = [] := List.eq_nil_of_length_eq_zero (by omega)
      rw [List.flatMap_cons, hnil, List.nil_append, List.countP_cons_of_neg (by simpa using hnil)]
      exact ih

/-- At most one client has a node with an exclusive property. -/
theorem countP_any_le (p : Node → Bool) (cs : List Client) :
    cs.countP (·.nodes.any p) ≤ (cs.flatMap (·.nodes)).countP p := by
  induction cs with
  | nil => simp
  | cons c cs ih =>
    rw [List.flatMap_cons, List.countP_append]
    by_cases hc : c.nodes.any p = true
    · have hpos : 0 < c.nodes.countP p := by
        obtain ⟨n, hn, hpn⟩ := List.any_eq_true.mp hc
        exact List.countP_pos_iff.mpr ⟨n, hn, hpn⟩
      rw [List.countP_cons_of_pos (p := fun c : Client ↦ c.nodes.any p) hc]
      omega
    · rw [List.countP_cons_of_neg (p := fun c : Client ↦ c.nodes.any p) hc]
      omega

end Search

namespace Registry

variable {r : Registry}

theorem Exclusive.client {p : Node → Bool} (h : r.Exclusive p) {c : Client}
    (hc : c ∈ r.clientMap.values) : c.nodes.countP p ≤ 1 := by
  have hsub := (List.singleton_sublist.mpr hc).flatMap (fun c : Client ↦ c.nodes)
  rw [List.flatMap_singleton] at hsub
  exact hsub.countP_le.trans h

theorem Exclusive.clients {p : Node → Bool} (h : r.Exclusive p) :
    r.clientMap.values.countP (·.nodes.any p) ≤ 1 :=
  (countP_any_le p r.clientMap.values).trans h

theorem exclusive_of_forall {p : Node → Bool} (h : ∀ n ∈ r.nodes, p n = false) :
    r.Exclusive p := by
  have hzero : r.nodes.countP p = 0 := List.countP_eq_zero.mpr fun n hn ↦ by simp [h n hn]
  exact hzero.le.trans (Nat.zero_le 1)

/-! ### Nodes -/

variable {nodeFilter : NodeFilter}

/-- Assumes: at most one publisher of a topic. A client returns all of its nodes that are selected,
unless the watcher is looked for. -/
theorem findNodes_client (hpublish : ∀ topic, topic ≠ "" → r.Exclusive (·.isPublishingTopic topic))
    (hwatcher : nodeFilter.seeksWatcher = false) {c : Client} (hc : c ∈ r.clientMap.values) :
    c.findNodes nodeFilter = c.nodes.filter nodeFilter.selects := by
  unfold Client.findNodes NodeFilter.selects
  split_ifs with hall hpublishing hsubscribing hrequesting hserving hname hwatching
  · simp
  · exact (find?_toList_eq_filter_iff _ _).mpr ((hpublish _ hpublishing).client hc)
  · rfl
  · rfl
  · rfl
  · rfl
  · exfalso
    simp only [NodeFilter.seeksWatcher, decide_eq_false_iff_not] at hwatcher
    apply hwatcher
    cases nodeFilter
    simp_all
  · simp [hwatching]

theorem selects_watcher :
    NodeFilter.selects { watcher := true } = fun n : Node ↦ n.nodeInfo.watcher := by
  funext n
  simp [NodeFilter.selects]

/-- Assumes: at most one publisher of a topic and one server of a service. At most one node is
selected when the field that counts is the publisher's or the server's. -/
theorem exclusive_selects
    (hpublish : ∀ topic, topic ≠ "" → r.Exclusive (·.isPublishingTopic topic))
    (hserve : ∀ service, service ≠ "" → r.Exclusive (·.isServingService service))
    (h : nodeFilter.seeksOne = true) : r.Exclusive nodeFilter.selects := by
  simp only [NodeFilter.seeksOne, Bool.and_eq_true, Bool.not_eq_true', Bool.or_eq_true,
    decide_eq_true_eq] at h
  obtain ⟨hall, hpublishing | ⟨⟨hsubscribing, hrequesting⟩, hserving⟩⟩ := h
  · have hselects : nodeFilter.selects = (·.isPublishingTopic nodeFilter.publishingTopic) := by
      funext n
      simp [NodeFilter.selects, hall, hpublishing]
    rw [hselects]
    exact hpublish _ hpublishing
  · by_cases hpublishing : nodeFilter.publishingTopic = ""
    · have hselects : nodeFilter.selects = (·.isServingService nodeFilter.servingService) := by
        funext n
        simp [NodeFilter.selects, hall, hpublishing, hsubscribing, hrequesting, hserving]
      rw [hselects]
      exact hserve _ hserving
    · have hselects : nodeFilter.selects = (·.isPublishingTopic nodeFilter.publishingTopic) := by
        funext n
        simp [NodeFilter.selects, hall, hpublishing]
      rw [hselects]
      exact hpublish _ hpublishing

theorem filter_nodes (p : Node → Bool) :
    r.nodes.filter p = r.clientMap.values.flatMap (·.nodes.filter p) :=
  List.filter_flatMap

/-- Assumes: at most one publisher of a topic and one server of a service. The lookup of nodes
returns the nodes that are selected exactly when it does not stop at the first client for a field
that several clients match, and no client has two watchers when the watcher is looked for. -/
theorem findNodes_perm_iff
    (hpublish : ∀ topic, topic ≠ "" → r.Exclusive (·.isPublishingTopic topic))
    (hserve : ∀ service, service ≠ "" → r.Exclusive (·.isServingService service))
    (nodeFilter : NodeFilter) :
    (r.findNodes nodeFilter).Perm (r.nodes.filter nodeFilter.selects) ↔
      (nodeFilter.stopsAtClient = true → nodeFilter.seeksOne = false →
        r.clientMap.values.countP (·.nodes.any nodeFilter.selects) ≤ 1) ∧
      (nodeFilter.seeksWatcher = true →
        ∀ c ∈ r.clientMap.values, c.nodes.countP (·.nodeInfo.watcher) ≤ 1) := by
  rw [filter_nodes]
  by_cases hwatcher : nodeFilter.seeksWatcher = true
  · obtain rfl : nodeFilter = { watcher := true } := of_decide_eq_true hwatcher
    rw [findNodes_watcher, selects_watcher,
      flatMap_perm_iff_of_sublist _ fun _ ↦ find?_toList_sublist_filter _ _]
    simp only [find?_toList_eq_filter_iff]
    constructor
    · intro h
      exact ⟨fun hstops ↦ absurd hstops (by decide), fun _ ↦ h⟩
    · intro h
      exact h.2 hwatcher
  · have hclient : ∀ c ∈ r.clientMap.values,
        c.findNodes nodeFilter = c.nodes.filter nodeFilter.selects :=
      fun c ↦ findNodes_client hpublish (by simpa using hwatcher)
    rw [← List.flatMap_congr hclient]
    simp only [hwatcher, Bool.false_eq_true, false_implies, and_true]
    by_cases hstops : nodeFilter.stopsAtClient = true
    · have hfind : r.findNodes nodeFilter =
          firstMatch (·.findNodes nodeFilter) r.clientMap.values :=
        if_pos (by simpa [NodeFilter.stopsAtClient] using hstops)
      have hmatch : r.clientMap.values.countP (fun c ↦ c.findNodes nodeFilter ≠ []) =
          r.clientMap.values.countP (·.nodes.any nodeFilter.selects) := by
        refine List.countP_congr fun c hc ↦ ?_
        simp [hclient c hc]
      rw [hfind, firstMatch_perm_iff, hmatch]
      simp only [hstops, true_implies]
      constructor
      · exact fun h _ ↦ h
      · intro h
        by_cases hone : nodeFilter.seeksOne = true
        · exact (exclusive_selects hpublish hserve hone).clients
        · exact h (by simpa using hone)
    · have hfind : r.findNodes nodeFilter =
          r.clientMap.values.flatMap (·.findNodes nodeFilter) :=
        if_neg (by simpa [NodeFilter.stopsAtClient] using hstops)
      rw [hfind]
      exact iff_of_true (List.Perm.refl _) fun h ↦ absurd h hstops

/-! ### Infos -/

variable {β : Type}

/-- Assumes: at most one node has an info under the name that is looked for. -/
theorem find?_bind_toList {get : Node → Option β} {ns : List Node}
    (h : ns.countP (fun n ↦ (get n).isSome) ≤ 1) :
    ((ns.find? fun n ↦ (get n).isSome).bind get).toList = ns.flatMap fun n ↦ (get n).toList := by
  induction ns with
  | nil => rfl
  | cons n ns ih =>
    cases hn : get n with
    | none =>
      rw [List.countP_cons_of_neg (by simp [hn])] at h
      rw [List.find?_cons_of_neg (by simp [hn]), List.flatMap_cons, hn, ih h]
      rfl
    | some info =>
      rw [List.countP_cons_of_pos (by simp [hn])] at h
      have hrest : ns.countP (fun n ↦ (get n).isSome) = 0 := by omega
      have hnil : ns.flatMap (fun n ↦ (get n).toList) = [] := by
        rw [List.flatMap_eq_nil_iff]
        intro m hm
        simpa using List.countP_eq_zero.mp hrest m hm
      rw [List.find?_cons_of_pos (by simp [hn]), List.flatMap_cons, hn, hnil]
      simp [hn]

theorem foldl_perm_flatMap (search : Client → List β) (cs : List Client) (acc : List β) :
    (cs.foldl (fun infos c ↦ search c ++ infos) acc).Perm (cs.flatMap search ++ acc) := by
  induction cs generalizing acc with
  | nil => exact List.Perm.refl _
  | cons c cs ih =>
    rw [List.foldl_cons, List.flatMap_cons, List.append_assoc]
    exact (ih _).trans (List.perm_append_comm_assoc _ _ _)

section Infos

variable {search : Client → List β} {select : Node → List β}

/-- Assumes: each client returns the infos of its nodes that are selected. -/
theorem flatMap_nodes (h : ∀ c ∈ r.clientMap.values, search c = c.nodes.flatMap select) :
    r.nodes.flatMap select = r.clientMap.values.flatMap search := by
  rw [nodes, List.flatMap_assoc, List.flatMap_congr h]

theorem foldl_perm_infos (h : ∀ c ∈ r.clientMap.values, search c = c.nodes.flatMap select) :
    (r.clientMap.values.foldl (fun infos c ↦ search c ++ infos) []).Perm
      (r.nodes.flatMap select) := by
  have hperm := foldl_perm_flatMap search r.clientMap.values []
  rwa [List.append_nil, ← flatMap_nodes h] at hperm

theorem firstMatch_perm_infos_iff
    (h : ∀ c ∈ r.clientMap.values, search c = c.nodes.flatMap select) :
    (firstMatch search r.clientMap.values).Perm (r.nodes.flatMap select) ↔
      r.clientMap.values.countP (·.nodes.any fun n ↦ select n ≠ []) ≤ 1 := by
  have hmatch : r.clientMap.values.countP (fun c ↦ search c ≠ []) =
      r.clientMap.values.countP (·.nodes.any fun n ↦ select n ≠ []) := by
    refine List.countP_congr fun c hc ↦ ?_
    simp [h c hc]
  rw [flatMap_nodes h, firstMatch_perm_iff, hmatch]

/-- Assumes: each client returns the infos of its nodes that are selected, and at most one node has
an info to select unless all are asked for. The lookup is complete exactly when it does not stop at
the first client while several have infos. -/
theorem infos_perm_iff {all : Bool} {name : String}
    (h : ∀ c ∈ r.clientMap.values, search c = c.nodes.flatMap select)
    (hone : all = false → name ≠ "" → r.Exclusive fun n ↦ select n ≠ []) :
    (if name ≠ "" then firstMatch search r.clientMap.values
      else r.clientMap.values.foldl (fun infos c ↦ search c ++ infos) []).Perm
        (r.nodes.flatMap select) ↔
      (all = true → name ≠ "" →
        r.clientMap.values.countP (·.nodes.any fun n ↦ select n ≠ []) ≤ 1) := by
  by_cases hname : name = ""
  · rw [if_neg (not_not.mpr hname)]
    exact iff_of_true (foldl_perm_infos h) fun _ hne ↦ absurd hname hne
  · rw [if_pos hname, firstMatch_perm_infos_iff h]
    constructor
    · exact fun hcount _ _ ↦ hcount
    · intro hcount
      cases all with
      | true => exact hcount rfl hname
      | false => exact (hone rfl hname).clients

end Infos

/-- Assumes: at most one publisher of a topic. The lookup of topic infos returns the infos that are
selected exactly when it is not asked for all of them and for a topic while several clients
publish. -/
theorem findTopicInfos_perm_iff
    (hpublish : ∀ topic, topic ≠ "" → r.Exclusive (·.isPublishingTopic topic))
    (topicFilter : TopicFilter) :
    (r.findTopicInfos topicFilter).Perm (r.nodes.flatMap topicFilter.select) ↔
      (topicFilter.all = true → topicFilter.topic ≠ "" →
        r.clientMap.values.countP (·.nodes.any fun n ↦ topicFilter.select n ≠ []) ≤ 1) := by
  refine infos_perm_iff (fun c hc ↦ ?_) fun hall htopic ↦ ?_
  · unfold Client.findTopicInfos TopicFilter.select
    split_ifs with hall htopic
    · rfl
    · exact find?_bind_toList ((hpublish _ htopic).client hc)
    · simp
  · have hselect (n : Node) : decide (topicFilter.select n ≠ []) =
        n.isPublishingTopic topicFilter.topic := by
      cases hinfo : n.topicInfoMap.find topicFilter.topic <;>
        simp [TopicFilter.select, hall, htopic, Node.isPublishingTopic, Node.getTopicInfo,
          FlatMap.contains, hinfo]
    simpa only [hselect] using hpublish _ htopic

/-- Assumes: at most one server of a service. The lookup of service infos returns the infos that are
selected exactly when it is not asked for all of them and for a service while several clients
serve. -/
theorem findServiceInfos_perm_iff
    (hserve : ∀ service, service ≠ "" → r.Exclusive (·.isServingService service))
    (serviceFilter : ServiceFilter) :
    (r.findServiceInfos serviceFilter).Perm (r.nodes.flatMap serviceFilter.select) ↔
      (serviceFilter.all = true → serviceFilter.service ≠ "" →
        r.clientMap.values.countP (·.nodes.any fun n ↦ serviceFilter.select n ≠ []) ≤ 1) := by
  refine infos_perm_iff (fun c hc ↦ ?_) fun hall hservice ↦ ?_
  · unfold Client.findServiceInfos ServiceFilter.select
    split_ifs with hall hservice
    · rfl
    · exact find?_bind_toList ((hserve _ hservice).client hc)
    · simp
  · have hselect (n : Node) : decide (serviceFilter.select n ≠ []) =
        n.isServingService serviceFilter.service := by
      cases hinfo : n.serviceInfoMap.find serviceFilter.service <;>
        simp [ServiceFilter.select, hall, hservice, Node.isServingService, Node.getServiceInfo,
          FlatMap.contains, hinfo]
    simpa only [hselect] using hserve _ hservice

end Registry

/-! ### The lookups together -/

/-- Two clients, each with a node that subscribes to the same topic. -/
def Scenario.twoSubscribers : List Action :=
  let node : NodeInfo := { name := "b", clientId := ⟨8, by decide⟩ }
  [client 7, run, client 8, run,
    request (.registerNode (Scenario.node "a")), run, request (.registerNode node), run,
    request (.subscribeTopic (Scenario.node "a") "t" ""), run,
    request (.subscribeTopic node "t" ""), run]

/-- Assumes: at most one publisher of a topic and one server of a service. Each lookup returns,
without loss or duplication, what the field of its filter that counts selects, exactly when it does
not stop at the first client for a field that several clients match and, for the watcher, no client
has two. -/
theorem lookup_exact_iff (r : Registry)
    (hpublish : ∀ topic, topic ≠ "" → r.Exclusive (·.isPublishingTopic topic))
    (hserve : ∀ service, service ≠ "" → r.Exclusive (·.isServingService service)) :
    (∀ nodeFilter : NodeFilter,
      (r.findNodes nodeFilter).Perm (r.nodes.filter nodeFilter.selects) ↔
        (nodeFilter.stopsAtClient = true → nodeFilter.seeksOne = false →
          r.clientMap.values.countP (·.nodes.any nodeFilter.selects) ≤ 1) ∧
        (nodeFilter.seeksWatcher = true →
          ∀ c ∈ r.clientMap.values, c.nodes.countP (·.nodeInfo.watcher) ≤ 1)) ∧
    (∀ topicFilter : TopicFilter,
      (r.findTopicInfos topicFilter).Perm (r.nodes.flatMap topicFilter.select) ↔
        (topicFilter.all = true → topicFilter.topic ≠ "" →
          r.clientMap.values.countP (·.nodes.any fun n ↦ topicFilter.select n ≠ []) ≤ 1)) ∧
    ∀ serviceFilter : ServiceFilter,
      (r.findServiceInfos serviceFilter).Perm (r.nodes.flatMap serviceFilter.select) ↔
        (serviceFilter.all = true → serviceFilter.service ≠ "" →
          r.clientMap.values.countP (·.nodes.any fun n ↦ serviceFilter.select n ≠ []) ≤ 1) :=
  ⟨Registry.findNodes_perm_iff hpublish hserve, Registry.findTopicInfos_perm_iff hpublish,
    Registry.findServiceInfos_perm_iff hserve⟩

/-- Two clients with a subscriber each. A lookup that names the topic alone finds both. -/
theorem lookup_exact_of_two_subscribers :
    ∃ s, Reachable (master {}) unguarded s ∧
      (s.registry.findNodes { subscribingTopic := "t" }).length = 2 ∧
      (s.registry.findNodes { subscribingTopic := "t" }).Perm
        (s.registry.nodes.filter (NodeFilter.selects { subscribingTopic := "t" })) := by
  have hexec : ((master {}).exec unguarded {} [] Scenario.twoSubscribers).map (fun result ↦
      (result.1.registry.findNodes { subscribingTopic := "t" }).length) = some 2 := by decide
  obtain ⟨⟨s, history⟩, hrun, hlength⟩ := Option.map_eq_some_iff.mp hexec
  have hreach : Reachable (master {}) unguarded s := ⟨history, (Run.start rfl).of_exec hrun⟩
  obtain ⟨hnodes, -⟩ := lookup_exact_iff s.registry (fun _ hname ↦ publisher_exclusive hname hreach)
    fun _ hname ↦ server_exclusive hname hreach
  refine ⟨s, hreach, hlength, (hnodes _).mpr ⟨fun hstops ↦ ?_, fun hwatcher ↦ ?_⟩⟩
  · exact absurd hstops (by decide)
  · exact absurd hwatcher (by decide)

/-- Two clients with a node each, and nobody publishes or serves anything. A filter for all nodes
that names a topic besides returns the node of the first client only. -/
theorem lookup_of_all_and_topic_not_exact :
    ¬ ∀ s, Reachable (master {}) unguarded s →
      (∀ topic, s.registry.Exclusive (·.isPublishingTopic topic)) →
      (∀ service, s.registry.Exclusive (·.isServingService service)) →
      ∀ nodeFilter : NodeFilter,
        (s.registry.findNodes nodeFilter).Perm (s.registry.nodes.filter nodeFilter.selects) := by
  intro h
  let nodeFilter : NodeFilter := { all := true, publishingTopic := "t" }
  have hexec : ((master {}).exec unguarded {} [] Scenario.twoSubscribers).map (fun result ↦
      (result.1.registry.nodes.map fun n ↦ (n.topicInfoMap, n.serviceInfoMap),
        (result.1.registry.findNodes nodeFilter).length)) =
      some ([(.empty, .empty), (.empty, .empty)], 1) := by decide
  obtain ⟨⟨s, history⟩, hrun, heq⟩ := Option.map_eq_some_iff.mp hexec
  have hmaps := congrArg Prod.fst heq
  have hempty : ∀ n ∈ s.registry.nodes, n.topicInfoMap = .empty ∧ n.serviceInfoMap = .empty := by
    intro n hn
    have hmem := List.mem_map_of_mem (f := fun n : Node ↦ (n.topicInfoMap, n.serviceInfoMap)) hn
    rw [show s.registry.nodes.map _ = _ from hmaps] at hmem
    simpa using hmem
  have hperm := h s ⟨history, (Run.start rfl).of_exec hrun⟩
    (fun topic ↦ Registry.exclusive_of_forall fun n hn ↦ by
      rw [Node.isPublishingTopic, (hempty n hn).1]
      rfl)
    (fun service ↦ Registry.exclusive_of_forall fun n hn ↦ by
      rw [Node.isServingService, (hempty n hn).2]
      rfl)
    nodeFilter
  have hfound : (s.registry.findNodes nodeFilter).length = 1 := congrArg Prod.snd heq
  have hall : s.registry.nodes.filter nodeFilter.selects = s.registry.nodes :=
    List.filter_eq_self.mpr fun _ _ ↦ rfl
  have hnodes : s.registry.nodes.length = 2 := by
    have hlength := congrArg List.length hmaps
    rwa [List.length_map] at hlength
  rw [hall] at hperm
  exact absurd (hfound.symm.trans (hperm.length_eq.trans hnodes)) (by decide)

end Felicia
