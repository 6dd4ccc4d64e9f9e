import Felicia.Master.Uniqueness

/-!
# What `RegisterNode` promises

`RegisterNode` checks a request when it arrives: the client has to exist, and a watcher is refused
when there is one already. The node is added by a task that runs later. In between another watcher
may have passed the same check, and the heart beat listener may have removed the client; then two
watchers are added, and `AddNode` drops the node while the request is answered with OK.

`Watched` is the invariant of the watchers, over the live nodes and not only the registered ones: it
is kept by every step that does not ask for a watcher while another one waits. For a single node,
`findNode_doRegisterNode` says exactly when the task adds it, and `present_step` that it stays
until it is removed.
-/

set_option autoImplicit false
set_option relaxedAutoImplicit false

namespace Felicia

open Support TransitionSystem

/-! ### Watchers -/

/-- The action asks for a watcher node. -/
def Action.asksWatcher : Action → Bool
  | .entry _ _ (.registerNode nodeInfo) _ => nodeInfo.watcher
  | _ => false

namespace System

/-- No watcher waits to be added when another one is asked for. -/
def WatchersApart (s : System) (a : Action) : Prop :=
  a.asksWatcher = true → ∀ n ∈ s.pendingNodes, n.nodeInfo.watcher = false

instance (s : System) (a : Action) : Decidable (s.WatchersApart a) :=
  inferInstanceAs (Decidable (_ → _))

/-- There is at most one watcher among the live nodes. -/
def Watched (s : System) : Prop :=
  ∀ i ∈ s.liveNodeInfos, ∀ j ∈ s.liveNodeInfos, i.watcher = true → j.watcher = true → i = j

/-- Assumes: a watcher that is created finds no watcher registered and none waiting. -/
theorem Creates.not_watcher {s : System} {a : Action} {nodeInfo info : NodeInfo}
    (h : s.Creates a nodeInfo) (hguard : s.WatchersApart a) (hnew : nodeInfo.watcher = true)
    (hinfo : info ∈ s.liveNodeInfos) : info.watcher = false := by
  obtain ⟨env, rand, requested, callback, rfl, hsame⟩ := h.request
  obtain ⟨n, hn, rfl⟩ := List.mem_map.mp hinfo
  rcases List.mem_append.mp hn with hregistered | hpending
  · exact (s.registry.findNodes_watcher_eq_nil_iff.mp (h.noWatcher hnew)) n hregistered
  · refine hguard ?_ n hpending
    rw [hsame] at hnew
    exact hnew

/-- Assumes: a step that does not ask for a watcher while another one waits. -/
theorem Watched.step {build : Build} {s s' : System} {a : Action} {effects : List Effect}
    (h : s.Watched) (howned : s.Owned) (hcase : StepCase build s a s' effects)
    (hguard : s.WatchersApart a) : s'.Watched := by
  intro i hi j hj hwi hwj
  rcases howned.liveNodeInfos_step hcase with hsub | ⟨nodeInfo, hcreates, heq⟩
  · exact h i (hsub hi) j (hsub hj) hwi hwj
  · rw [heq, List.mem_append, List.mem_singleton] at hi hj
    rcases hi with hi | rfl <;> rcases hj with hj | rfl
    · exact h i hi j hj hwi hwj
    · rw [hcreates.not_watcher hguard hwj hi] at hwi
      cases hwi
    · rw [hcreates.not_watcher hguard hwi hj] at hwj
      cases hwj
    · rfl

/-- The run lemma. -/
theorem watched_of_reachable {build : Build} {s : System}
    (h : Reachable (master build) WatchersApart s) : s.Watched := by
  have hinv : s.Owned ∧ s.Watched := by
    refine h.invariant (I := fun s ↦ s.Owned ∧ s.Watched) ?_ ?_
    · rintro s rfl
      exact ⟨.initial, by simp [Watched, liveNodeInfos, liveNodes, pendingNodes, Registry.nodes]⟩
    · rintro s a s' effects ⟨howned, hwatched⟩ hguard hstep
      have hcase := step_cases hstep
      exact ⟨howned.step hcase, hwatched.step howned hcase hguard⟩
  exact hinv.2

/-- In every run that never asks for a watcher while another one waits to be added, at most one
watcher is registered. -/
theorem watcher_exclusive (build : Build) (s : System)
    (h : Reachable (master build) WatchersApart s) :
    s.registry.Exclusive (·.nodeInfo.watcher) := by
  have hwatched := watched_of_reachable h
  have hlive : (s.liveNodeInfos.map (·.name)).Nodup :=
    (owned_of_reachable h).names_perm.nodup_iff.mpr (Generator.values_nodup _)
  have hinfos : (s.registry.nodes.map (·.nodeInfo)).Nodup := by
    refine (hlive.of_map _).sublist ?_
    rw [liveNodeInfos, liveNodes, List.map_append]
    exact List.sublist_append_left _ _
  have hmem (n : Node) (hn : n ∈ s.registry.nodes.filter (·.nodeInfo.watcher)) :
      n.nodeInfo ∈ s.liveNodeInfos ∧ n.nodeInfo.watcher = true := by
    obtain ⟨hn, hwatcher⟩ := List.mem_filter.mp hn
    exact ⟨List.mem_map_of_mem (List.mem_append_left _ hn), hwatcher⟩
  have hnodup := hinfos.sublist
    ((List.filter_sublist (p := fun n : Node ↦ n.nodeInfo.watcher)).map _)
  rw [Registry.Exclusive, List.countP_eq_length_filter]
  -- Two registered watchers would have one info.
  rcases hfilter : s.registry.nodes.filter (·.nodeInfo.watcher) with _ | ⟨n, _ | ⟨m, rest⟩⟩
  · simp [hfilter]
  · simp [hfilter]
  · rw [hfilter] at hnodup hmem
    have hn := hmem n (List.mem_cons_self ..)
    have hm := hmem m (List.mem_cons_of_mem _ (List.mem_cons_self ..))
    have heq := hwatched _ hn.1 _ hm.1 hn.2 hm.2
    simp [heq] at hnodup

/-- A watcher is registered after a plain node. -/
theorem watcher_exclusive_of_one_watcher :
    ∃ s, Reachable (master {}) WatchersApart s ∧
      s.registry.nodes.map (·.nodeInfo.watcher) = [false, true] ∧
      s.registry.Exclusive (·.nodeInfo.watcher) := by
  have hexec : ((master {}).exec WatchersApart {} []
      [Scenario.client 7, Scenario.run, Scenario.request (.registerNode (Scenario.node "a")),
        Scenario.request (.registerNode { Scenario.node "w" with watcher := true }),
        Scenario.run, Scenario.run]).map
      (fun result ↦ result.1.registry.nodes.map (·.nodeInfo.watcher)) = some [false, true] := by
    decide
  obtain ⟨⟨s, history⟩, hrun, heq⟩ := Option.map_eq_some_iff.mp hexec
  have hreach : Reachable (master {}) WatchersApart s := ⟨history, (Run.start rfl).of_exec hrun⟩
  exact ⟨s, hreach, heq, watcher_exclusive {} s hreach⟩

/-- Two watchers pass the check of `RegisterNode` before either is added. -/
theorem two_watchers_not_exclusive :
    ¬ ∀ s, Reachable (master {}) unguarded s → s.registry.Exclusive (·.nodeInfo.watcher) := by
  intro h
  have hexec : ((master {}).exec unguarded {} []
      [Scenario.client 7, Scenario.run,
        Scenario.request (.registerNode { Scenario.node "v" with watcher := true }),
        Scenario.request (.registerNode { Scenario.node "w" with watcher := true }),
        Scenario.run, Scenario.run]).map
      (fun result ↦ decide (result.1.registry.Exclusive (·.nodeInfo.watcher))) = some false := by
    decide
  obtain ⟨⟨s, history⟩, hrun, heq⟩ := Option.map_eq_some_iff.mp hexec
  exact of_decide_eq_false heq (h s ⟨history, (Run.start rfl).of_exec hrun⟩)

/-! ### The node of a request that was answered with OK -/

/-- Assumes: a task that adds a node. The node is found under its client afterwards exactly when the
client is still registered. -/
theorem Owned.findNode_doRegisterNode {s : System} (howned : s.Owned) {node : Node}
    {callback : StatusOnceCallback} {rest : List Task} {r' : Registry}
    (htasks : s.tasks = .doRegisterNode node callback :: rest)
    (hadd : s.registry.addNode node = some r') :
    r'.findNode node.nodeInfo = some node ↔
      s.registry.checkIfClientExists node.nodeInfo.clientId = true := by
  rw [Registry.checkIfClientExists, FlatMap.contains]
  cases hclient : s.registry.clientMap.find node.nodeInfo.clientId with
  | none =>
    rw [Registry.addNode, hclient] at hadd
    obtain ⟨g, -, rfl⟩ := Option.map_eq_some_iff.mp hadd
    simp [Registry.findNode, hclient]
  | some client =>
    rw [Registry.addNode, hclient] at hadd
    cases hadd
    have hother : client.nodes.find? (nodeNameChecker node.nodeInfo) = none := by
      rw [List.find?_eq_none]
      intro n hn hname
      have hnodup := (howned.owns_cons htasks).names_nodup
      rw [List.map_append] at hnodup
      refine List.disjoint_of_nodup_append hnodup (a := node.name) ?_ (List.mem_cons_self ..)
      rw [show node.name = n.name from (of_decide_eq_true hname).symm]
      exact List.mem_map_of_mem (List.mem_map_of_mem
        (s.registry.mem_nodes_iff.mpr ⟨_, client, hclient, hn⟩))
    have hself : nodeNameChecker node.nodeInfo node = true := decide_eq_true rfl
    simp [Registry.findNode, FlatMap.find_modify, hclient, Client.addNode, Client.findNode, hother,
      hself]

/-- Assumes: a step that does not remove the node. -/
theorem Owned.present_step {build : Build} {s s' : System} {a : Action} {effects : List Effect}
    (howned : s.Owned) (hcase : StepCase build s a s' effects) {nodeInfo : NodeInfo}
    (hkeep : ¬ s.Removes a nodeInfo) (h : (s.registry.findNode nodeInfo).isSome = true) :
    (s'.registry.findNode nodeInfo).isSome = true := by
  rw [Registry.isSome_findNode_iff howned.owns.keyed] at h
  rw [Registry.isSome_findNode_iff (howned.step hcase).owns.keyed]
  obtain ⟨n, hn, hname, hid⟩ := h
  cases howned.nodesChange hcase with
  | kept hperm => exact ⟨n, hperm.symm.subset hn, hname, hid⟩
  | added _ _ hperm => exact ⟨n, hperm.symm.subset (List.mem_cons_of_mem _ hn), hname, hid⟩
  | removed gone hgone hperm =>
    rcases List.mem_append.mp (hperm.subset hn) with hremoved | hleft
    · refine absurd ?_ hkeep
      have hremoves := hgone n hremoved
      rwa [Removes, show n.nodeInfo.name = nodeInfo.name from hname, hid] at hremoves
    · exact ⟨n, hleft, hname, hid⟩
  | @updated _ _ _ _ target f before after _ _ _ hop hnodes hnodes' =>
    rw [hnodes] at hn
    rw [hnodes']
    rcases List.mem_append.mp hn with hbefore | hn
    · exact ⟨n, List.mem_append_left _ hbefore, hname, hid⟩
    rcases List.mem_cons.mp hn with rfl | hafter
    · refine ⟨f n, List.mem_append_right _ (List.mem_cons_self ..), ?_, ?_⟩
      · rw [Node.name, hop.keepsInfo n]
        exact hname
      · rw [hop.keepsInfo n]
        exact hid
    · exact ⟨n, List.mem_append_right _ (List.mem_cons_of_mem _ hafter), hname, hid⟩

/-- Assumes: a node that is registered. `PublishTopic` for it is not answered that it is not. -/
theorem publishTopic_of_present {env : ChannelEnv} {s : System} {nodeInfo : NodeInfo}
    (topicInfo : TopicInfo) (callback : StatusOnceCallback)
    (h : (s.registry.findNode nodeInfo).isSome = true) :
    .reply callback (Errors.nodeNotRegistered nodeInfo) ∉
      (publishTopic env s nodeInfo topicInfo callback).2 := by
  have hclient : s.registry.checkIfClientExists nodeInfo.clientId = true := by
    rw [Registry.findNode] at h
    cases hfind : s.registry.clientMap.find nodeInfo.clientId with
    | none => simp [hfind] at h
    | some client => simp [Registry.checkIfClientExists, FlatMap.contains, hfind]
  have hcheck : s.checkNodeExists nodeInfo = none := by
    simp [checkNodeExists, hclient, Registry.checkIfNodeExists_eq, h]
  unfold publishTopic
  rw [hcheck]
  dsimp only
  split_ifs
  · simp [answer, Errors.nodeNotRegistered, Errors.channelSourceNotValid]
  · simp [post]

/-- The step that runs `DoRegisterNode`. -/
theorem step_doRegisterNode (build : Build) (ros : RosMasterProxy) {s : System} {node : Node}
    {callback : StatusOnceCallback} {rest : List Task} {r' : Registry}
    (htasks : s.tasks = .doRegisterNode node callback :: rest)
    (hadd : s.registry.addNode node = some r') :
    ∃ effects, System.step build s (.runTask ros) =
        some ({ registry := r', tasks := rest, listeners := s.listeners }, effects) ∧
      .reply callback .OK ∈ effects := by
  simp [System.step, htasks, runTask, doRegisterNode, hadd, startedListeners]

/-- A `RegisterNode` is never answered with OK when it arrives, and the node of its response is the
one its task adds. The task answers with OK, and the node is then registered exactly when its client
still is; if so, `PublishTopic` for it is not answered that it is not registered, until it or its
client is removed. -/
theorem registerNode_ok_iff (build : Build) (s : System)
    (h : Reachable (master build) unguarded s) :
    (∀ env rand requested callback s' effects, (master build).step s
        (.entry env rand (.registerNode requested) callback) = some (s', effects) →
      (∀ cb status, .reply cb status ∈ effects → status.isOk = false) ∧
      ∀ nodeInfo, .respond callback (.registerNode nodeInfo) ∈ effects →
        s'.tasks = s.tasks ++ [.doRegisterNode { nodeInfo } callback]) ∧
    ∀ ros node callback rest, s.tasks = .doRegisterNode node callback :: rest →
      ∃ s' effects, (master build).step s (.runTask ros) = some (s', effects) ∧
        .reply callback .OK ∈ effects ∧
        (s'.registry.findNode node.nodeInfo = some node ↔
          s.registry.checkIfClientExists node.nodeInfo.clientId = true) ∧
        (s.registry.checkIfClientExists node.nodeInfo.clientId = true →
          ∀ t, Reachable ((master build).startingAt s')
              (fun t a ↦ ¬ t.Removes a node.nodeInfo) t →
            ∀ env rand topicInfo cb t' effects', (master build).step t
              (.entry env rand (.publishTopic node.nodeInfo topicInfo) cb) = some (t', effects') →
            .reply cb (Errors.nodeNotRegistered node.nodeInfo) ∉ effects') := by
  have howned := owned_of_reachable h
  constructor
  · intro env rand requested callback s' effects hstep
    have hentry : registerNode rand s requested callback = (s', effects) := Option.some.inj hstep
    unfold registerNode at hentry
    split_ifs at hentry
    · cases hentry
      simp [Errors.clientNotRegistered, Status.isOk]
    · cases hentry
      simp [Errors.watcherNodeAlreadyRegistered, Status.isOk]
    · rcases hnew : s.registry.newNode requested rand with ⟨r', _ | node⟩
      · rw [hnew] at hentry
        cases hentry
        simp [Errors.nodeAlreadyRegistered, Status.isOk]
      · rw [hnew] at hentry
        cases hentry
        have hfresh := Registry.newNode_fresh (congrArg Prod.snd hnew)
        refine ⟨by simp, fun nodeInfo hmem ↦ ?_⟩
        obtain rfl : nodeInfo = node.nodeInfo := by simpa using hmem
        rw [← hfresh]
  · intro ros node callback rest htasks
    obtain ⟨r', hadd, -⟩ := Registry.Owns.addNode (howned.owns_cons htasks)
    obtain ⟨effects, hstep, hreply⟩ := step_doRegisterNode build ros htasks hadd
    have hfind := howned.findNode_doRegisterNode htasks hadd
    refine ⟨_, effects, hstep, hreply, hfind, fun hclient t ht ↦ ?_⟩
    have hinv : t.Owned ∧ (t.registry.findNode node.nodeInfo).isSome = true := by
      refine ht.invariant
        (I := fun t ↦ t.Owned ∧ (t.registry.findNode node.nodeInfo).isSome = true) ?_ ?_
      · rintro t rfl
        exact ⟨howned.step (step_cases hstep), by rw [hfind.mpr hclient]; rfl⟩
      · rintro t a t' effects ⟨hownedt, hpresent⟩ hkeep hstept
        have hcase := step_cases hstept
        exact ⟨hownedt.step hcase, hownedt.present_step hcase hkeep hpresent⟩
    intro env rand topicInfo cb t' effects' hentry
    have heffects : (publishTopic env t node.nodeInfo topicInfo cb).2 = effects' :=
      congrArg Prod.snd (Option.some.inj hentry)
    rw [← heffects]
    exact publishTopic_of_present topicInfo cb hinv.2

/-- The client of the node "a" is there when its task runs, and the node is registered. -/
theorem registerNode_ok_of_client :
    ∃ s rest, Reachable (master {}) unguarded s ∧
      s.tasks = .doRegisterNode { nodeInfo := Scenario.node "a" } 1 :: rest ∧
      ∃ s' effects, (master {}).step s Scenario.run = some (s', effects) ∧
        .reply 1 .OK ∈ effects ∧
        s'.registry.findNode (Scenario.node "a") = some { nodeInfo := Scenario.node "a" } := by
  have hexec : ((master {}).exec unguarded {} [] [Scenario.client 7, Scenario.run,
      Scenario.request (.registerNode (Scenario.node "a"))]).map (fun result ↦
        (result.1.tasks, result.1.registry.checkIfClientExists 7)) =
      some ([.doRegisterNode { nodeInfo := Scenario.node "a" } 1], true) := by decide
  obtain ⟨⟨s, history⟩, hrun, heq⟩ := Option.map_eq_some_iff.mp hexec
  have hreach : Reachable (master {}) unguarded s := ⟨history, (Run.start rfl).of_exec hrun⟩
  have htasks := congrArg Prod.fst heq
  obtain ⟨s', effects, hstep, hreply, hfind, -⟩ :=
    (registerNode_ok_iff {} s hreach).2 Scenario.ros _ _ _ htasks
  exact ⟨s, _, hreach, htasks, s', effects, hstep, hreply, hfind.mpr (congrArg Prod.snd heq)⟩

/-- The client of a node is removed between the request and its task: the request is answered with
OK and the node is not registered. -/
theorem registerNode_ok_without_node :
    ¬ ∀ s, Reachable (master {}) unguarded s → ∀ ros node callback rest,
      s.tasks = .doRegisterNode node callback :: rest →
      ∀ s' effects, (master {}).step s (.runTask ros) = some (s', effects) →
        .reply callback .OK ∈ effects → s'.registry.checkIfNodeExists node.nodeInfo = true := by
  intro h
  have hexec : ((master {}).exec unguarded {} [] [Scenario.client 7, Scenario.run,
      Scenario.request (.registerNode (Scenario.node "a")),
      .heartBeatLost { id := 7, heartBeatSignallerSource := Scenario.source
                       masterNotificationWatcherSource := Scenario.source }]).map (fun result ↦
        (result.1.tasks, ((master {}).step result.1 Scenario.run).map fun next ↦
          (next.1.registry.checkIfNodeExists (Scenario.node "a"), next.2))) =
      some ([.doRegisterNode { nodeInfo := Scenario.node "a" } 1],
        some (false, [.reply 1 .OK])) := by decide
  obtain ⟨⟨s, history⟩, hrun, heq⟩ := Option.map_eq_some_iff.mp hexec
  have hreach : Reachable (master {}) unguarded s := ⟨history, (Run.start rfl).of_exec hrun⟩
  obtain ⟨⟨s', effects⟩, hstep, hnext⟩ := Option.map_eq_some_iff.mp (congrArg Prod.snd heq)
  have hpresent := h s hreach _ _ _ _ (congrArg Prod.fst heq) s' effects hstep
    (by rw [show effects = _ from congrArg Prod.snd hnext]; exact List.mem_singleton_self _)
  rw [show s'.registry.checkIfNodeExists (Scenario.node "a") = false from
    congrArg Prod.fst hnext] at hpresent
  cases hpresent

end System

end Felicia
