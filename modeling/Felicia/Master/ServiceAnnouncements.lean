import Felicia.Master.TopicAnnouncements

/-!
# What a step announces about one service

The services' side of the topics' announcements. There are no watchers of services, so a service is
only announced when it is registered, withdrawn or requested (`ServiceCase`), and a step says
nothing about it otherwise. `serviceCase_step` derives this from the handlers. The service has a
name and is not a ROS service.
-/

set_option autoImplicit false
set_option relaxedAutoImplicit false

namespace Felicia

open Support TransitionSystem

/-! ### What a step does about one service -/

/-- The service info of a notification. -/
def Effect.serviceInfo? : Effect → Option ServiceInfo
  | .notify _ _ notification => notification.serviceInfo
  | _ => none

/-- A node starts to request the service. -/
def Effect.opensService (service : String) : Effect → Bool
  | .log (.registerServiceClient _ requested) => requested = service
  | _ => false

/-- An effect of no concern to those who request a service. -/
def Effect.SilentService (service : String) (e : Effect) : Prop :=
  e.opensService service = false ∧ ∀ info ∈ e.serviceInfo?, info.service ≠ service

/-- Each node that requests the service after the step was there before and did. -/
def Requested (service : String) (r r' : Registry) : Prop :=
  ∀ n ∈ r'.nodes, n.isRequestingService service = true →
    ∃ m ∈ r.nodes, m.nodeInfo = n.nodeInfo ∧ m.isRequestingService service = true

/-- What a step does about a service. -/
inductive ServiceCase (service : String) (r r' : Registry) (effects : List Effect) : Prop
  | quiet (hsilent : ∀ e ∈ effects, e.SilentService service)
      (hserved : ∀ info, r'.Served service info ↔ r.Served service info)
      (hnodes : Requested service r r')
  /-- The service is registered. -/
  | served {nodeInfo : NodeInfo} {callback : StatusOnceCallback} {info : ServiceInfo}
      (hservice : info.service = service)
      (heffects : effects = .log (.registerServiceServer nodeInfo info.service) ::
        .reply callback .OK :: r'.notifyAllServiceClients info)
      (hserved : ∀ x, r'.Served service x ↔ x = info) (hnodes : Requested service r r')
  /-- The service is withdrawn, by its server or with it. -/
  | withdrawn {info : ServiceInfo} (hservice : info.service = service)
      (hstatus : info.status = .unregistered) (hall : r'.notifyAllServiceClients info ⊆ effects)
      (hopens : ∀ e ∈ effects, e.opensService service = false)
      (hinfo : ∀ e ∈ effects, ∀ i ∈ e.serviceInfo?, i.service = service →
        i.status = .unregistered)
      (hserved : ∀ x, ¬ r'.Served service x) (hnodes : Requested service r r')
  /-- A node starts to request the service and learns of the server. -/
  | requested {nodeInfo : NodeInfo} {callback : StatusOnceCallback} {n : Node}
      (hfind : r.findNode nodeInfo = some n)
      (heffects : effects = .log (.registerServiceClient nodeInfo service) ::
        .reply callback .OK :: r'.notifyServiceClient service nodeInfo)
      (hserved : ∀ info, r'.Served service info ↔ r.Served service info)
      (hr' : r' = r.updateNode nodeInfo (Node.registerRequestingService service))

namespace ServiceCase

variable {service : String} {r r' : Registry} {effects : List Effect}

theorem silent_reply (callback : StatusOnceCallback) (status : Status) :
    (Effect.reply callback status).SilentService service :=
  ⟨rfl, by simp [Effect.serviceInfo?]⟩

theorem silent_ros (call : RosCall) : (Effect.ros call).SilentService service :=
  ⟨rfl, by simp [Effect.serviceInfo?]⟩

theorem silent_log {entry : LogEntry} (h : (Effect.log entry).opensService service = false) :
    (Effect.log entry).SilentService service := ⟨h, by simp [Effect.serviceInfo?]⟩

theorem silent_of_isAnswer (h : ∀ e ∈ effects, e.IsAnswer) :
    ∀ e ∈ effects, e.SilentService service := by
  intro e he
  have hanswer := h e he
  cases e with
  | reply | respond => exact ⟨rfl, by simp [Effect.serviceInfo?]⟩
  | notify | ros | log => cases hanswer

theorem silent_notifyAllServiceClients {info : ServiceInfo} (h : info.service ≠ service) :
    ∀ e ∈ r.notifyAllServiceClients info, e.SilentService service := by
  intro e he
  obtain ⟨nodeInfo, source, rfl⟩ := Registry.of_mem_notifyAllServiceClients he
  refine ⟨rfl, fun i hi ↦ ?_⟩
  obtain rfl : info = i := by simpa [Effect.serviceInfo?] using hi
  exact h

theorem silent_notifies {e : Effect} (h : r.Notifies (·.serviceInfo = none) e) :
    e.SilentService service := by
  obtain ⟨_, notification, hnone, _, -, rfl⟩ := h
  exact ⟨rfl, by simp [Effect.serviceInfo?, hnone]⟩

/-- What a handler of topics says is of no concern to those who request a service. -/
theorem silent_handles {entry : LogEntry} (hlog : (Effect.log entry).opensService service = false)
    {e : Effect} (h : Handles entry r (·.serviceInfo = none) e) : e.SilentService service := by
  cases h with
  | log => exact silent_log hlog
  | reply callback status => exact silent_reply callback status
  | ros call => exact silent_ros call
  | notifies hnotifies => exact silent_notifies hnotifies

theorem requested_perm (h : r'.nodes.Perm r.nodes) : Requested service r r' :=
  fun n hn hreq ↦ ⟨n, h.subset hn, rfl, hreq⟩

/-- Assumes: an operation on a node that was found, which adds no request for the service. -/
theorem requested_updateNode {nodeInfo : NodeInfo} {n : Node} {f : Node → Node}
    (hfind : r.findNode nodeInfo = some n) (hf : Node.KeepsInfo f)
    (hreq : (f n).isRequestingService service = true → n.isRequestingService service = true)
    (hn : n ∈ r.nodes) : Requested service r (r.updateNode nodeInfo f) := by
  obtain ⟨-, hnew, -⟩ := Registry.mem_nodes_updateNode hfind f
  intro m hm hm'
  rcases hnew m hm with rfl | hm
  · exact ⟨n, hn, (hf n).symm, hreq hm'⟩
  · exact ⟨m, hm, rfl, hm'⟩

/-- Every effect of a removal that is about the service withdraws it. -/
theorem of_mem_notifyRemoved (service : String) {hasRos : Bool} {infos : List TopicInfo}
    {topics : List String} {services : List ServiceInfo} {e : Effect}
    (h : e ∈ notifyRemoved hasRos r infos topics services) :
    e.opensService service = false ∧ ∀ i ∈ e.serviceInfo?, ∃ info ∈ services,
      i = { info with status := .unregistered } := by
  rcases List.mem_append.mp h with h | h
  · rcases List.mem_append.mp h with h | h
    · obtain ⟨info, -, he⟩ := List.mem_flatMap.mp h
      obtain ⟨nodeInfo, source, rfl⟩ := Registry.of_mem_notifyAllSubscribers he
      exact ⟨rfl, by simp [Effect.serviceInfo?]⟩
    · obtain ⟨info, hinfo, he⟩ := List.mem_flatMap.mp h
      obtain ⟨nodeInfo, source, rfl⟩ := Registry.of_mem_notifyAllServiceClients he
      refine ⟨rfl, fun i hi ↦ ⟨info, hinfo, ?_⟩⟩
      exact (Option.some.inj hi).symm
  · obtain ⟨call, rfl⟩ := of_mem_unregisterRosTopicsAndServices h
    exact ⟨rfl, by simp [Effect.serviceInfo?]⟩

/-- Assumes: one server at most, and a removal whose announced infos are those of the nodes that are
gone. -/
theorem of_removed (hasRos : Bool) (gone : List Node) (infos : List TopicInfo)
    (topics : List String) (services : List ServiceInfo)
    (hperm : r.nodes.Perm (gone ++ r'.nodes))
    (hexclusive : r.Exclusive (·.isServingService service))
    (hgone : ∀ info, (∃ g ∈ gone, g.getServiceInfo service = some info) ↔
      info ∈ services ∧ info.service = service)
    (hsub : notifyRemoved hasRos r' infos topics services ⊆ effects)
    (heffects : ∀ e ∈ effects, e ∈ notifyRemoved hasRos r' infos topics services ∨
      e.SilentService service) : ServiceCase service r r' effects := by
  have hnodes : Requested service r r' := fun n hn hreq ↦
    ⟨n, hperm.symm.subset (List.mem_append_right _ hn), rfl, hreq⟩
  by_cases hex : ∃ info, ∃ g ∈ gone, g.getServiceInfo service = some info
  · obtain ⟨info, g, hg, hinfo⟩ := hex
    obtain ⟨hmem, hservice⟩ := (hgone info).mp ⟨g, hg, hinfo⟩
    refine @withdrawn service r r' effects { info with status := .unregistered } hservice rfl ?_ ?_
      ?_ ?_ hnodes
    · intro e he
      refine hsub (List.mem_append_left _ (List.mem_append_right _ ?_))
      exact List.mem_flatMap.mpr ⟨info, hmem, he⟩
    · intro e he
      exact (heffects e he).elim (fun h ↦ (of_mem_notifyRemoved service h).1) (·.1)
    · intro e he i hi hservice'
      rcases heffects e he with h | h
      · obtain ⟨info', -, rfl⟩ := (of_mem_notifyRemoved service h).2 i hi
        rfl
      · exact absurd hservice' (h.2 i hi)
    · exact Registry.not_stored_removed hperm hexclusive hg
        (Option.isSome_iff_exists.mpr ⟨info, hinfo⟩)
  · refine .quiet ?_ (Registry.stored_removed hperm fun g hg ↦ ?_) hnodes
    · intro e he
      refine (heffects e he).elim (fun h ↦ ?_) id
      refine ⟨(of_mem_notifyRemoved service h).1, fun i hi hservice ↦ ?_⟩
      obtain ⟨info, hinfo, rfl⟩ := (of_mem_notifyRemoved service h).2 i hi
      exact absurd ⟨info, (hgone info).mpr ⟨hinfo, hservice⟩⟩ hex
    · refine Option.eq_none_iff_forall_ne_some.mpr fun info hinfo ↦ ?_
      exact hex ⟨info, g, hg, hinfo⟩

end ServiceCase

/-- Assumes: infos stored under their own names. -/
theorem Node.Labelled.mem_allServingServiceInfos {n : Node} (h : n.Labelled) {service : String}
    {info : ServiceInfo} : info ∈ n.allServingServiceInfos ∧ info.service = service ↔
      n.getServiceInfo service = some info := by
  constructor
  · rintro ⟨hmem, rfl⟩
    obtain ⟨key, hkey⟩ := n.serviceInfoMap.mem_values_iff.mp hmem
    rw [h.2 key info hkey]
    exact hkey
  · intro hget
    exact ⟨n.serviceInfoMap.mem_values_iff.mpr ⟨service, hget⟩, h.2 service info hget⟩

section ServiceOperations

variable {hasRos : Bool} {ros : RosMasterProxy} {r : Registry} {nodeInfo : NodeInfo} {n : Node}
  {service : String} {callback : StatusOnceCallback} {effects : List Effect}

theorem serviceCase_serve {info : ServiceInfo} (hname : service ≠ "")
    (hros : isUsingRosProtocol service = false) (hfind : r.findNode nodeInfo = some n)
    (hn : n ∈ r.nodes) (hnil : r.findNodes { servingService := info.service } = []) :
    ServiceCase service r (doRegisterServiceServer hasRos ros r nodeInfo info callback).1
      (doRegisterServiceServer hasRos ros r nodeInfo info callback).2 := by
  have hf := Node.keepsInfo_registerServingService info
  have hlock : r.registerServiceServer nodeInfo info =
      (.none, r.updateNode nodeInfo (Node.registerServingService info)) := by
    simpa [Registry.registerServiceServer, hnil] using Registry.withNode_of_find hfind rfl _ _
  simp only [doRegisterServiceServer, hlock]
  by_cases hservice : info.service = service
  · subst hservice
    rw [rosName_eq_none hros]
    refine .served rfl rfl (Registry.stored_insert hfind ?_
      ((r.findNodes_serving_eq_nil_iff hname).mp hnil))
      (ServiceCase.requested_updateNode hfind hf id hn)
    simp [Node.getServiceInfo, Node.registerServingService, FlatMap.find_insertOrAssign]
  · refine .quiet (List.forall_mem_cons.mpr ⟨ServiceCase.silent_log rfl, ?_⟩)
      (Registry.stored_updateNode hfind ?_ hn) (ServiceCase.requested_updateNode hfind hf id hn)
    · cases rosName hasRos info.service with
      | none =>
        exact List.forall_mem_cons.mpr ⟨ServiceCase.silent_reply _ _,
          ServiceCase.silent_notifyAllServiceClients hservice⟩
      | some rosService => simp [ServiceCase.silent_reply, ServiceCase.silent_ros]
    · simp [Node.getServiceInfo, Node.registerServingService, FlatMap.find_insertOrAssign,
        Ne.symm hservice]

theorem serviceCase_unserve {other : String}
    (hexclusive : r.Exclusive (·.isServingService service))
    (hros : isUsingRosProtocol service = false) (hfind : r.findNode nodeInfo = some n)
    (hn : n ∈ r.nodes) (hlabelled : n.Labelled) (hserving : n.isServingService other = true) :
    ServiceCase service r (doUnregisterServiceServer hasRos ros r nodeInfo other callback).1
      (doUnregisterServiceServer hasRos ros r nodeInfo other callback).2 := by
  have hf := Node.keepsInfo_unregisterServingService other
  have hlock : r.unregisterServiceServer nodeInfo other =
      (.none, r.updateNode nodeInfo (Node.unregisterServingService other)) :=
    Registry.withNode_of_find hfind (by simp [hserving]) _ _
  obtain ⟨info, hinfo⟩ : ∃ info, n.getServiceInfo other = some info :=
    Option.isSome_iff_exists.mp hserving
  obtain rfl : info.service = other := hlabelled.2 other info hinfo
  simp only [doUnregisterServiceServer, hlock, hfind, hinfo, Option.bind_some, Option.getD_some]
  by_cases hservice : info.service = service
  · subst hservice
    rw [rosName_eq_none hros]
    refine @ServiceCase.withdrawn _ _ _ _ { info with status := .unregistered } rfl rfl ?_ ?_ ?_
      (Registry.not_stored_erase hexclusive hfind hserving ?_)
      (ServiceCase.requested_updateNode hfind hf id hn)
    · exact fun e he ↦ List.mem_cons_of_mem _ (List.mem_cons_of_mem _ he)
    · refine List.forall_mem_cons.mpr ⟨rfl, List.forall_mem_cons.mpr ⟨rfl, fun e he ↦ ?_⟩⟩
      obtain ⟨_, _, rfl⟩ := Registry.of_mem_notifyAllServiceClients he
      rfl
    · refine List.forall_mem_cons.mpr ⟨by simp [Effect.serviceInfo?],
        List.forall_mem_cons.mpr ⟨by simp [Effect.serviceInfo?], fun e he i hi _ ↦ ?_⟩⟩
      obtain ⟨_, _, rfl⟩ := Registry.of_mem_notifyAllServiceClients he
      rw [← Option.some.inj hi]
    · simp [Node.getServiceInfo, Node.unregisterServingService, FlatMap.find_erase]
  · refine .quiet (List.forall_mem_cons.mpr ⟨ServiceCase.silent_log rfl, ?_⟩)
      (Registry.stored_updateNode hfind ?_ hn) (ServiceCase.requested_updateNode hfind hf id hn)
    · cases rosName hasRos info.service with
      | none =>
        exact List.forall_mem_cons.mpr ⟨ServiceCase.silent_reply _ _,
          ServiceCase.silent_notifyAllServiceClients hservice⟩
      | some rosService => simp [ServiceCase.silent_reply, ServiceCase.silent_ros]
    · simp [Node.getServiceInfo, Node.unregisterServingService, FlatMap.find_erase,
        Ne.symm hservice]

theorem serviceCase_request {other : String} (hros : isUsingRosProtocol service = false)
    (hfind : r.findNode nodeInfo = some n) (hn : n ∈ r.nodes)
    (hlabelled : ∀ m ∈ r.nodes, m.Labelled) (hreq : n.isRequestingService other = false) :
    ServiceCase service r (doRegisterServiceClient hasRos ros r nodeInfo other callback).1
      (doRegisterServiceClient hasRos ros r nodeInfo other callback).2 := by
  have hf := Node.keepsInfo_registerRequestingService other
  have hlock : r.registerServiceClient nodeInfo other =
      (.none, r.updateNode nodeInfo (Node.registerRequestingService other)) :=
    Registry.withNode_of_find hfind hreq _ _
  simp only [doRegisterServiceClient, hlock]
  by_cases hservice : other = service
  · subst hservice
    rw [rosName_eq_none hros]
    exact .requested hfind rfl (Registry.stored_updateNode hfind rfl hn) rfl
  · refine .quiet (List.forall_mem_cons.mpr
      ⟨ServiceCase.silent_log (by simp [Effect.opensService, hservice]), ?_⟩)
      (Registry.stored_updateNode hfind rfl hn) (ServiceCase.requested_updateNode hfind hf ?_ hn)
    · cases rosName hasRos other with
      | none =>
        refine List.forall_mem_cons.mpr ⟨ServiceCase.silent_reply _ _, fun e he ↦ ?_⟩
        obtain ⟨info, source, hserved, rfl⟩ := Registry.of_mem_notifyServiceClient he
        refine ⟨rfl, fun i hi ↦ ?_⟩
        obtain ⟨m, hm, hinfo⟩ := (Registry.stored_updateNode hfind rfl hn info).mp hserved
        rw [← Option.some.inj hi, (hlabelled m hm).2 other info hinfo]
        exact hservice
      | some rosService =>
        refine List.forall_mem_append.mpr
          ⟨by simp [ServiceCase.silent_reply, ServiceCase.silent_ros], ?_⟩
        split_ifs
        · intro e he
          obtain ⟨source, rfl⟩ := Registry.of_mem_doNotifyClient he
          refine ⟨rfl, fun i hi ↦ ?_⟩
          rw [← Option.some.inj hi]
          exact hservice
        · exact List.forall_mem_nil _
    · simp [Node.isRequestingService, Node.registerRequestingService, Ne.symm hservice]

theorem serviceCase_unrequest {other : String} (hfind : r.findNode nodeInfo = some n)
    (hn : n ∈ r.nodes) (hreq : n.isRequestingService other = true) :
    ServiceCase service r (doUnregisterServiceClient r nodeInfo other callback).1
      (doUnregisterServiceClient r nodeInfo other callback).2 := by
  have hf := Node.keepsInfo_unregisterRequestingService other
  have hlock : r.unregisterServiceClient nodeInfo other =
      (.none, r.updateNode nodeInfo (Node.unregisterRequestingService other)) :=
    Registry.withNode_of_find hfind (by simp [hreq]) _ _
  simp only [doUnregisterServiceClient, hlock]
  refine .quiet (List.forall_mem_cons.mpr
    ⟨ServiceCase.silent_log rfl, by simp [ServiceCase.silent_reply]⟩)
    (Registry.stored_updateNode hfind rfl hn) (ServiceCase.requested_updateNode hfind hf ?_ hn)
  simp only [Node.isRequestingService, Node.unregisterRequestingService, List.contains_iff_mem]
  exact fun h ↦ List.mem_of_mem_filter h

/-- Assumes: a named service that is not a ROS service, with one server at most. -/
theorem serviceCase_update (hkeyed : r.Keyed) (hlabelled : ∀ n ∈ r.nodes, n.Labelled)
    (hexclusive : r.Exclusive (·.isServingService service)) (hname : service ≠ "")
    (hros : isUsingRosProtocol service = false) {r' : Registry} {task : Task} {f : Node → Node}
    (hfind : r.findNode nodeInfo = some n) (hop : NodeOp r n nodeInfo task f)
    (hr' : r' = r.updateNode nodeInfo f) (hrun : runTask hasRos ros r task = some (r', effects)) :
    ServiceCase service r r' effects := by
  have hn := (Registry.findNode_spec hkeyed hfind).1
  have hf := hop.keepsInfo
  cases hop with
  | serve info callback hnil =>
    cases hrun
    exact serviceCase_serve hname hros hfind hn hnil
  | unserve other callback hserving =>
    cases hrun
    exact serviceCase_unserve hexclusive hros hfind hn (hlabelled n hn) hserving
  | request other callback hreq =>
    cases hrun
    exact serviceCase_request hros hfind hn hlabelled hreq
  | unrequest other callback hreq =>
    cases hrun
    exact serviceCase_unrequest hfind hn hreq
  | publish info callback hnil =>
    cases hrun
    refine .quiet (fun e he ↦ ServiceCase.silent_handles rfl
      (handles_doPublishTopic _ _ _ _ _ _ e he)) ?_ ?_ <;> rw [hr']
    · exact Registry.stored_updateNode hfind rfl hn
    · exact ServiceCase.requested_updateNode hfind hf id hn
  | unpublish topic callback hpublishing =>
    cases hrun
    refine .quiet (fun e he ↦ ServiceCase.silent_handles rfl
      (handles_doUnpublishTopic _ _ _ _ _ _ e he)) ?_ ?_ <;> rw [hr']
    · exact Registry.stored_updateNode hfind rfl hn
    · exact ServiceCase.requested_updateNode hfind hf id hn
  | subscribe topic topicType callback hsub =>
    cases hrun
    refine .quiet (fun e he ↦ ServiceCase.silent_handles rfl
      (handles_doSubscribeTopic _ _ _ _ _ _ _ e he)) ?_ ?_ <;> rw [hr']
    · exact Registry.stored_updateNode hfind rfl hn
    · exact ServiceCase.requested_updateNode hfind hf id hn
  | unsubscribe topic callback hsub =>
    cases hrun
    refine .quiet (fun e he ↦ ServiceCase.silent_handles rfl
      (handles_doUnsubscribeTopic _ _ _ _ _ _ e he)) ?_ ?_ <;> rw [hr']
    · exact Registry.stored_updateNode hfind rfl hn
    · exact ServiceCase.requested_updateNode hfind hf id hn

end ServiceOperations

/-! ### Every step -/

section ServiceStep

variable {build : Build} {s s' : System} {a : Action} {effects : List Effect} {service : String}

theorem serviceCase_addNode (howned : s.Owned) {ros : RosMasterProxy} {node : Node}
    {callback : StatusOnceCallback} {rest : List Task} {r' : Registry}
    (htasks : s.tasks = .doRegisterNode node callback :: rest)
    (hrun : runTask build.hasRos ros s.registry (.doRegisterNode node callback) =
      some (r', effects)) : ServiceCase service s.registry r' effects := by
  obtain ⟨r'', hadd, heq⟩ := Option.map_eq_some_iff.mp hrun
  cases heq
  have hfresh := howned.fresh_node htasks
  have hsilent : ∀ e ∈ (if s.registry.checkIfClientExists node.nodeInfo.clientId then
      [Effect.log (.addNode node.nodeInfo)] else []) ++
      .reply callback .OK :: (if node.nodeInfo.watcher then r'.notifyWatcher else []),
      e.SilentService service := by
    refine List.forall_mem_append.mpr ⟨?_, List.forall_mem_cons.mpr
      ⟨ServiceCase.silent_reply _ _, ?_⟩⟩
    · split_ifs
      · exact List.forall_mem_singleton.mpr (ServiceCase.silent_log rfl)
      · exact List.forall_mem_nil _
    · split_ifs
      · exact fun e he ↦ ServiceCase.silent_notifies (Registry.notifies_notifyWatcher _ e he)
      · exact List.forall_mem_nil _
  cases hclient : s.registry.clientMap.find node.nodeInfo.clientId with
  | none =>
    have hnodes : r'.nodes.Perm s.registry.nodes :=
      .of_eq (Registry.nodes_addNode_of_find_eq_none hclient hadd)
    exact .quiet hsilent (Registry.stored_perm hnodes) (ServiceCase.requested_perm hnodes)
  | some client =>
    have hperm := Registry.nodes_addNode_perm hclient hadd
    rw [hfresh] at hperm
    -- A fresh node neither serves nor requests.
    refine .quiet hsilent (fun info ↦ ?_) (fun n hn hreq ↦ ?_)
    · simp only [Registry.Served, Registry.Stored, hperm.mem_iff, List.mem_cons, exists_eq_or_imp]
      simp [Node.getServiceInfo]
    · rcases List.mem_cons.mp (hperm.subset hn) with rfl | hn
      · cases hreq
      · exact ⟨n, hn, rfl, hreq⟩

theorem serviceCase_removeNode (howned : s.Owned)
    (hlabelled : ∀ n ∈ s.registry.nodes, n.Labelled)
    (hexclusive : s.registry.Exclusive (·.isServingService service)) {hasRos : Bool}
    {nodeInfo : NodeInfo} {callback : StatusOnceCallback} {r' : Registry}
    (hrun : doUnregisterNode hasRos s.registry nodeInfo callback = some (r', effects)) :
    ServiceCase service s.registry r' effects := by
  rcases howned.doUnregisterNode_eq hrun with ⟨hperm, heffects⟩ | ⟨n, hfind, hperm, rfl⟩
  · refine .quiet (fun e he ↦ ?_) (Registry.stored_perm hperm) (ServiceCase.requested_perm hperm)
    rcases heffects e he with rfl | rfl
    · exact ServiceCase.silent_log rfl
    · exact ServiceCase.silent_reply _ _
  · have hn := (Registry.findNode_spec howned.owns.keyed hfind).1
    refine ServiceCase.of_removed hasRos [n] n.allPublishingTopicInfos n.allSubscribingTopics
      n.allServingServiceInfos hperm hexclusive (fun info ↦ ?_) (fun e he ↦ ?_) (fun e he ↦ ?_)
    · rw [(hlabelled n hn).mem_allServingServiceInfos]
      simp
    · exact List.mem_append_left _ (List.mem_cons_of_mem _ he)
    · rcases List.mem_append.mp he with he | he
      · rcases List.mem_cons.mp he with rfl | he
        · exact Or.inr (ServiceCase.silent_log rfl)
        · exact Or.inl he
      · rw [List.mem_singleton.mp he]
        exact Or.inr (ServiceCase.silent_reply _ _)

theorem serviceCase_removeClient (hlabelled : ∀ n ∈ s.registry.nodes, n.Labelled)
    (hexclusive : s.registry.Exclusive (·.isServingService service)) {hasRos : Bool}
    {clientInfo : ClientInfo} {r' : Registry}
    (hremove : removeClient hasRos s.registry clientInfo = some (r', effects)) :
    ServiceCase service s.registry r' effects := by
  obtain ⟨client, -, hperm, rfl⟩ := System.removeClient_eq hremove
  have hmem (n : Node) (hn : n ∈ client.nodes) : n ∈ s.registry.nodes :=
    hperm.symm.subset (List.mem_append_left _ hn)
  refine ServiceCase.of_removed hasRos client.nodes (client.findTopicInfos { all := true })
    client.findAllSubscribingTopics (client.findServiceInfos { all := true }) hperm hexclusive
    (fun info ↦ ?_) (fun e he ↦ List.mem_cons_of_mem _ he) (fun e he ↦ ?_)
  · simp only [Client.findServiceInfos, ↓reduceIte, List.mem_flatMap]
    constructor
    · rintro ⟨g, hg, hinfo⟩
      obtain ⟨hvalue, hservice⟩ := (hlabelled g (hmem g hg)).mem_allServingServiceInfos.mpr hinfo
      exact ⟨⟨g, hg, hvalue⟩, hservice⟩
    · rintro ⟨⟨g, hg, hvalue⟩, hservice⟩
      exact ⟨g, hg, (hlabelled g (hmem g hg)).mem_allServingServiceInfos.mp ⟨hvalue, hservice⟩⟩
  · rcases List.mem_cons.mp he with rfl | he
    · exact Or.inr (ServiceCase.silent_log rfl)
    · exact Or.inl he

/-- Assumes: a named service that is not a ROS service, with one server at most; infos stored under
their own names. -/
theorem serviceCase_step (howned : s.Owned) (hlabelled : ∀ n ∈ s.registry.nodes, n.Labelled)
    (hexclusive : s.registry.Exclusive (·.isServingService service)) (hname : service ≠ "")
    (hros : isUsingRosProtocol service = false) (hcase : StepCase build s a s' effects) :
    ServiceCase service s.registry s'.registry effects := by
  cases hcase with
  | post new _ hanswer =>
    exact .quiet (ServiceCase.silent_of_isAnswer hanswer) (fun _ ↦ Iff.rfl)
      (ServiceCase.requested_perm (List.Perm.refl _))
  | newClient | newNode =>
    refine .quiet (ServiceCase.silent_of_isAnswer ?_) (fun _ ↦ Iff.rfl)
      (ServiceCase.requested_perm (List.Perm.refl _))
    simp [Effect.IsAnswer]
  | @task ros task rest r' effects htasks hrun =>
    cases runTask_change hrun with
    | answered _ hanswer =>
      exact .quiet (ServiceCase.silent_of_isAnswer hanswer) (fun _ ↦ Iff.rfl)
        (ServiceCase.requested_perm (List.Perm.refl _))
    | notified info =>
      refine .quiet (fun e he ↦ ?_) (fun _ ↦ Iff.rfl)
        (ServiceCase.requested_perm (List.Perm.refl _))
      exact ServiceCase.silent_notifies (Registry.notifies_notifyAllSubscribers _ info e he)
    | addClient hadd =>
      obtain ⟨r'', hadd', heq⟩ := Option.map_eq_some_iff.mp hrun
      cases heq
      have hperm := howned.nodes_addClient htasks hadd
      exact .quiet (List.forall_mem_cons.mpr ⟨ServiceCase.silent_log rfl,
        by simp [ServiceCase.silent_reply]⟩) (Registry.stored_perm hperm)
        (ServiceCase.requested_perm hperm)
    | addNode => exact serviceCase_addNode howned htasks hrun
    | eraseNode => exact serviceCase_removeNode howned hlabelled hexclusive hrun
    | update hfind hop =>
      exact serviceCase_update howned.owns.keyed hlabelled hexclusive hname hros hfind hop rfl hrun
  | removeClient _ hremove => exact serviceCase_removeClient hlabelled hexclusive hremove

end ServiceStep

end Felicia
