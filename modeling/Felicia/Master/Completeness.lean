import Felicia.Master.Notifications

/-!
# Notifications are complete

At every point of a run, a node that subscribes to a topic was told last, since it subscribed, what
the registry stores about the topic, or that it was withdrawn when nothing is stored; and so was a
node that requests a service. `subscriber_agrees` and `serviceClient_agrees` are the run lemmas over
the step lemmas of the listeners. Infos that are submitted as registered stay so
(`listed_of_reachable`), hence what a listener was told last is registered exactly when something is
stored.

For the watcher, `watcher_agrees` needs that no watcher is added while another one is registered.
`RegisterNode` lets that happen, and the watcher that came second is then told of no topic.
-/

set_option autoImplicit false
set_option relaxedAutoImplicit false

namespace Felicia

open Support TransitionSystem

/-! ### Infos that are submitted as registered -/

/-- A task that stores no info but a registered one. -/
def Task.Registered : Task → Prop
  | .doPublishTopic _ topicInfo _ => topicInfo.status = .registered
  | .doRegisterServiceServer _ serviceInfo _ => serviceInfo.status = .registered
  | _ => True

/-- The status of the info that a request submits. -/
def Action.status? : Action → Option InfoStatus
  | .entry _ _ (.publishTopic _ topicInfo) _ => some topicInfo.status
  | .entry _ _ (.registerServiceServer _ serviceInfo) _ => some serviceInfo.status
  | _ => none

/-- A request that submits no info but a registered one. -/
def Action.Registered (a : Action) : Prop := ∀ status ∈ a.status?, status = .registered

instance (a : Action) : Decidable a.Registered :=
  inferInstanceAs (Decidable (∀ status ∈ a.status?, status = .registered))

theorem Action.Registered.posts {a : Action} (h : a.Registered) {task : Task}
    (hposts : a.Posts task) : task.Registered := by
  cases a with
  | entry env rand request callback =>
    cases request <;> cases hposts <;> first | exact trivial | exact h _ rfl
  | pubUpdate topic update =>
    obtain ⟨topicInfo, -, rfl⟩ := hposts
    exact trivial
  | runTask ros => cases hposts
  | heartBeatLost clientInfo => cases hposts

/-- All infos of a node are registered. -/
def Node.Listed (n : Node) : Prop :=
  (∀ topic info, n.getTopicInfo topic = some info → info.status = .registered) ∧
    ∀ service info, n.getServiceInfo service = some info → info.status = .registered

/-- Assumes: an operation of a task that stores registered infos only. -/
theorem Node.Listed.op {r : Registry} {n : Node} {nodeInfo : NodeInfo} {task : Task}
    {f : Node → Node} (h : n.Listed) (hop : NodeOp r n nodeInfo task f)
    (htask : task.Registered) : (f n).Listed := by
  cases hop with
  | publish topicInfo =>
    refine ⟨fun topic info hget ↦ ?_, h.2⟩
    simp only [Node.getTopicInfo, registerPublishingTopic, FlatMap.find_insertOrAssign] at hget
    split_ifs at hget
    · cases hget
      exact htask
    · exact h.1 topic info hget
  | unpublish other =>
    refine ⟨fun topic info hget ↦ ?_, h.2⟩
    simp only [Node.getTopicInfo, unregisterPublishingTopic, FlatMap.find_erase] at hget
    split_ifs at hget
    exact h.1 topic info hget
  | serve serviceInfo =>
    refine ⟨h.1, fun service info hget ↦ ?_⟩
    simp only [Node.getServiceInfo, registerServingService, FlatMap.find_insertOrAssign] at hget
    split_ifs at hget
    · cases hget
      exact htask
    · exact h.2 service info hget
  | unserve other =>
    refine ⟨h.1, fun service info hget ↦ ?_⟩
    simp only [Node.getServiceInfo, unregisterServingService, FlatMap.find_erase] at hget
    split_ifs at hget
    exact h.2 service info hget
  | subscribe | unsubscribe | request | unrequest => exact h

/-- Assumes: a run whose requests submit registered infos. All infos in the registry are
registered. -/
theorem listed_of_reachable {build : Build} {guard : System → Action → Prop} {s : System}
    (hguard : ∀ s a, guard s a → a.Registered) (h : Reachable (master build) guard s) :
    ∀ n ∈ s.registry.nodes, n.Listed := by
  have hinv : s.Owned ∧ (∀ task ∈ s.tasks, task.Registered) ∧
      ∀ n ∈ s.registry.nodes, n.Listed := by
    refine h.invariant (I := fun s ↦ s.Owned ∧ (∀ task ∈ s.tasks, task.Registered) ∧
      ∀ n ∈ s.registry.nodes, n.Listed) ?_ ?_
    · rintro s rfl
      exact ⟨.initial, by simp, by simp [Registry.nodes]⟩
    · rintro s a s' effects ⟨howned, htasks, hlisted⟩ ha hstep
      have hcase := step_cases hstep
      refine ⟨howned.step hcase, ?_, ?_⟩
      · exact hcase.forall_tasks (fun _ hposts ↦ (hguard s a ha).posts hposts)
          (fun _ _ ↦ trivial) (fun _ _ ↦ trivial) htasks
      · refine howned.forall_nodes_step hcase (fun _ ↦ ?_) ?_ hlisted
        · simp [Node.Listed, Node.getTopicInfo, Node.getServiceInfo]
        · exact fun nodeInfo task rest f n heq hop hn ↦
            hn.op hop (htasks task (heq ▸ List.mem_cons_self ..))
  exact hinv.2.2

/-- Updates that wait come from the ROS master, and are about ROS topics. -/
theorem updatesRos_of_reachable {build : Build} {guard : System → Action → Prop} {s : System}
    (h : Reachable (master build) guard s) : ∀ task ∈ s.tasks, task.UpdatesRos := by
  refine h.invariant (I := fun s ↦ ∀ task ∈ s.tasks, task.UpdatesRos) ?_ ?_
  · rintro s rfl
    simp
  · intro s a s' effects htasks _ hstep
    refine (step_cases hstep).forall_tasks (fun task hposts ↦ ?_) (fun _ _ ↦ trivial)
      (fun _ _ ↦ trivial) htasks
    cases a with
    | entry env rand request callback => cases request <;> cases hposts <;> exact trivial
    | pubUpdate topic update =>
      obtain ⟨topicInfo, hinfo, rfl⟩ := hposts
      exact PubUpdate.isUsingRosProtocol_topicInfo hinfo
    | runTask ros => cases hposts
    | heartBeatLost clientInfo => cases hposts

/-! ### What is stored, and what was told -/

/-- A listener is informed: what is stored is registered and is what it was told last, and if
nothing is stored then the last it was told, if anything, is that it was withdrawn. -/
def Informed {α : Type} (stored : α → Prop) (status : α → InfoStatus) (last : Option α) : Prop :=
  (∀ x, stored x → status x = .registered ∧ last = some x) ∧
    ((∀ x, ¬ stored x) → ∀ x ∈ last, status x = .unregistered)

/-- Assumes: what is stored is unique and registered, and a listener that agrees with it. -/
theorem Informed.of_agrees {α : Type} {stored : α → Prop} {status : α → InfoStatus}
    {last : Option α} (hunique : ∀ x y, stored x → stored y → x = y)
    (hregistered : ∀ x, stored x → status x = .registered)
    (h : Agrees stored (status · = .unregistered) last) : Informed stored status last :=
  ⟨fun x hx ↦ ⟨hregistered x hx, h.eq_some hunique hx⟩,
    fun hnone _ hx ↦ h.withdrawn_of_mem hnone hx⟩

/-- Whether a listener is informed can be read off the nodes. -/
theorem informed_stored_iff {α : Type} {r : Registry} {get : Node → Option α}
    {status : α → InfoStatus} {last : Option α} :
    Informed (r.Stored get) status last ↔
      (∀ n ∈ r.nodes, ∀ x ∈ get n, status x = .registered ∧ last = some x) ∧
        ((∀ n ∈ r.nodes, get n = none) → ∀ x ∈ last, status x = .unregistered) := by
  have hnone : (∀ x, ¬ r.Stored get x) ↔ ∀ n ∈ r.nodes, get n = none := by
    simp only [Registry.Stored, not_exists, not_and, Option.eq_none_iff_forall_ne_some]
    exact ⟨fun h n hn x ↦ h x n hn, fun h x n hn ↦ h n hn x⟩
  rw [Informed, hnone]
  refine and_congr_left fun _ ↦ ⟨fun h n hn x hx ↦ h x ⟨n, hn, hx⟩, ?_⟩
  rintro h x ⟨n, hn, hx⟩
  exact h n hn x hx

instance {α : Type} [DecidableEq α] (r : Registry) (get : Node → Option α)
    (status : α → InfoStatus) (last : Option α) :
    Decidable (Informed (r.Stored get) status last) :=
  decidable_of_iff _ informed_stored_iff.symm

instance (r : Registry) (topic : String) (status : TopicInfo → InfoStatus)
    (last : Option TopicInfo) : Decidable (Informed (r.Published topic) status last) :=
  inferInstanceAs (Decidable (Informed (r.Stored (·.getTopicInfo topic)) status last))

section Runs

variable {build : Build} {guard : System → Action → Prop} {s : System} {history : List Effect}
  {topic service : String}

/-- Assumes: one node at most stores an info. -/
theorem Registry.Exclusive.stored_unique {α : Type} {r : Registry} {get : Node → Option α}
    (h : r.Exclusive fun n ↦ (get n).isSome) (x y : α) (hx : r.Stored get x)
    (hy : r.Stored get y) : x = y := by
  obtain ⟨m, hm, hmx⟩ := hx
  obtain ⟨n, hn, hny⟩ := hy
  obtain rfl := h.eq hm hn (by simp [hmx]) (by simp [hny])
  exact Option.some.inj (hmx.symm.trans hny)

/-- Assumes: a named topic that is not a ROS topic. What each step does about it. -/
theorem topicCase_of_run (hname : topic ≠ "") (hros : isUsingRosProtocol topic = false)
    {a : Action} {s' : System} {effects : List Effect} (run : Run (master build) guard s history)
    (hguard : guard s a) (hstep : (master build).step s a = some (s', effects)) :
    TopicCase topic s.registry s'.registry effects := by
  have hreach : Reachable (master build) guard s := ⟨history, run⟩
  have hreach' : Reachable (master build) guard s' := ⟨_, run.next hguard hstep⟩
  exact topicCase_step (System.owned_of_reachable hreach) (System.labelled_of_reachable hreach)
    (System.labelled_of_reachable hreach') (updatesRos_of_reachable hreach)
    (publisher_exclusive hname hreach) hname hros (step_cases hstep)

/-- Assumes: a named topic that is not a ROS topic. The run lemma of the subscribers. -/
theorem subscriber_agrees (hname : topic ≠ "") (hros : isUsingRosProtocol topic = false)
    (run : Run (master build) guard s history) :
    ∀ n ∈ s.registry.nodes, n.isSubscribingTopic topic = true →
      Agrees (s.registry.Published topic) (·.status = .unregistered)
        (lastTopicInfo history topic n.nodeInfo) := by
  refine run.invariant (I := fun s history ↦ ∀ n ∈ s.registry.nodes,
    n.isSubscribingTopic topic = true → Agrees (s.registry.Published topic)
      (·.status = .unregistered) (lastTopicInfo history topic n.nodeInfo)) ?_ ?_
  · rintro s rfl
    simp [Registry.nodes]
  · intro s a s' history effects run hagrees hguard hstep n hn hsub
    have hreach : Reachable (master build) guard s := ⟨history, run⟩
    have hreach' : Reachable (master build) guard s' := ⟨_, run.next hguard hstep⟩
    have hheard := heard_subscriber hname (System.owned_of_reachable hreach).owns.keyed
      (System.owned_of_reachable hreach').owns.keyed (System.labelled_of_reachable hreach')
      (topicCase_of_run hname hros run hguard hstep)
    exact hheard.agrees hagrees hn hsub

/-- Assumes: a named service that is not a ROS service. The run lemma of the service clients. -/
theorem serviceClient_agrees (hname : service ≠ "") (hros : isUsingRosProtocol service = false)
    (run : Run (master build) guard s history) :
    ∀ n ∈ s.registry.nodes, n.isRequestingService service = true →
      Agrees (s.registry.Served service) (·.status = .unregistered)
        (lastServiceInfo history service n.nodeInfo) := by
  refine run.invariant (I := fun s history ↦ ∀ n ∈ s.registry.nodes,
    n.isRequestingService service = true → Agrees (s.registry.Served service)
      (·.status = .unregistered) (lastServiceInfo history service n.nodeInfo)) ?_ ?_
  · rintro s rfl
    simp [Registry.nodes]
  · intro s a s' history effects run hagrees hguard hstep n hn hreq
    have hreach : Reachable (master build) guard s := ⟨history, run⟩
    have hreach' : Reachable (master build) guard s' := ⟨_, run.next hguard hstep⟩
    have hheard := heard_serviceClient hname (System.owned_of_reachable hreach).owns.keyed
      (System.owned_of_reachable hreach').owns.keyed (System.labelled_of_reachable hreach')
      (serviceCase_step (System.owned_of_reachable hreach) (System.labelled_of_reachable hreach)
        (server_exclusive hname hreach) hname hros (step_cases hstep))
    exact hheard.agrees hagrees hn hreq

/-! ### A watcher alone -/

/-- The node that a task adds when it runs. -/
def System.joining (s : System) : Action → Option Node
  | .runTask _ => s.tasks.head?.bind (·.node?)
  | _ => none

/-- A watcher is added only while no other watcher is registered. -/
def System.WatcherAlone (s : System) (a : Action) : Prop :=
  ∀ node ∈ s.joining a, node.nodeInfo.watcher = true →
    ∀ n ∈ s.registry.nodes, n.nodeInfo.watcher = false

instance (s : System) (a : Action) : Decidable (s.WatcherAlone a) :=
  inferInstanceAs (Decidable (∀ node ∈ s.joining a, node.nodeInfo.watcher = true →
    ∀ n ∈ s.registry.nodes, n.nodeInfo.watcher = false))

/-- Assumes: a run in which a watcher is added only while no other is registered. -/
theorem watcherAlone_exclusive (hguard : ∀ s a, guard s a → s.WatcherAlone a)
    (h : Reachable (master build) guard s) : s.registry.Exclusive (·.nodeInfo.watcher) := by
  have hinv : s.Owned ∧ s.registry.Exclusive (·.nodeInfo.watcher) := by
    refine h.invariant (I := fun s ↦ s.Owned ∧ s.registry.Exclusive (·.nodeInfo.watcher)) ?_ ?_
    · rintro s rfl
      exact ⟨.initial, Nat.zero_le 1⟩
    · rintro s a s' effects ⟨howned, hexclusive⟩ ha hstep
      have hcase := step_cases hstep
      refine ⟨howned.step hcase, ?_⟩
      unfold Registry.Exclusive at *
      cases howned.nodesChange hcase with
      | kept hperm => rwa [hperm.countP_eq]
      | @added ros nodeInfo callback rest haction htasks hperm =>
        rw [hperm.countP_eq, List.countP_cons]
        split_ifs with hwatcher
        · have hjoining : s.joining a = some { nodeInfo } := by
            rw [haction, System.joining, htasks]
            rfl
          have hnone := hguard s a ha { nodeInfo } hjoining hwatcher
          rw [List.countP_eq_zero.mpr fun n hn ↦ by simp [hnone n hn]]
        · exact hexclusive
      | removed gone _ hperm =>
        rw [hperm.countP_eq, List.countP_append] at hexclusive
        omega
      | updated _ _ _ hop hnodes hnodes' =>
        rw [hnodes, List.countP_append, List.countP_cons] at hexclusive
        rw [hnodes', List.countP_append, List.countP_cons, hop.keepsInfo]
        exact hexclusive
  exact hinv.2

/-- Assumes: a run in which a watcher is added only while no other is registered. The run lemma of
the watcher. -/
theorem watcher_agrees (hname : topic ≠ "") (hros : isUsingRosProtocol topic = false)
    (halone : ∀ s a, guard s a → s.WatcherAlone a) (run : Run (master build) guard s history) :
    ∀ n ∈ s.registry.nodes, n.nodeInfo.watcher = true →
      Agrees (s.registry.Published topic) (·.status = .unregistered)
        (lastWatchedInfo history topic n.nodeInfo) := by
  refine run.invariant (I := fun s history ↦ ∀ n ∈ s.registry.nodes,
    n.nodeInfo.watcher = true → Agrees (s.registry.Published topic)
      (·.status = .unregistered) (lastWatchedInfo history topic n.nodeInfo)) ?_ ?_
  · rintro s rfl
    simp [Registry.nodes]
  · intro s a s' history effects run hagrees hguard hstep n hn hwatcher
    have hreach' : Reachable (master build) guard s' := ⟨_, run.next hguard hstep⟩
    have howned' := System.owned_of_reachable hreach'
    have hheard := heard_watcher howned'.owns.keyed (System.labelled_of_reachable hreach')
      (watcherAlone_exclusive halone hreach') howned'.nodup_node_names
      (topicCase_of_run hname hros run hguard hstep)
    exact hheard.agrees hagrees hn hwatcher

end Runs

/-! ### Every listener is informed -/

namespace System

/-- The subscribers of every named topic and the clients of every named service are informed, but
for those of ROS. -/
def ListenersInformed (s : System) (history : List Effect) : Prop :=
  (∀ topic, topic ≠ "" → isUsingRosProtocol topic = false →
    ∀ n ∈ s.registry.nodes, n.isSubscribingTopic topic = true →
      Informed (s.registry.Published topic) (·.status)
        (lastTopicInfo history topic n.nodeInfo)) ∧
  ∀ service, service ≠ "" → isUsingRosProtocol service = false →
    ∀ n ∈ s.registry.nodes, n.isRequestingService service = true →
      Informed (s.registry.Served service) (·.status)
        (lastServiceInfo history service n.nodeInfo)

/-- The watcher is informed about every named topic that is not a ROS topic. -/
def WatcherInformed (s : System) (history : List Effect) : Prop :=
  ∀ topic, topic ≠ "" → isUsingRosProtocol topic = false →
    ∀ n ∈ s.registry.nodes, n.nodeInfo.watcher = true →
      Informed (s.registry.Published topic) (·.status)
        (lastWatchedInfo history topic n.nodeInfo)

/-- Assumes: a run whose requests submit registered infos. What is published is registered. -/
theorem status_of_published {build : Build} {guard : System → Action → Prop} {s : System}
    (hguard : ∀ s a, guard s a → a.Registered) (h : Reachable (master build) guard s)
    (topic : String) (info : TopicInfo) (hinfo : s.registry.Published topic info) :
    info.status = .registered := by
  obtain ⟨n, hn, hget⟩ := hinfo
  exact (listed_of_reachable hguard h n hn).1 topic info hget

theorem status_of_served {build : Build} {guard : System → Action → Prop} {s : System}
    (hguard : ∀ s a, guard s a → a.Registered) (h : Reachable (master build) guard s)
    (service : String) (info : ServiceInfo) (hinfo : s.registry.Served service info) :
    info.status = .registered := by
  obtain ⟨n, hn, hget⟩ := hinfo
  exact (listed_of_reachable hguard h n hn).2 service info hget

theorem listenersInformed_of_run {build : Build} {guard : System → Action → Prop} {s : System}
    {history : List Effect} (hguard : ∀ s a, guard s a → a.Registered)
    (run : Run (master build) guard s history) : s.ListenersInformed history := by
  have hreach : Reachable (master build) guard s := ⟨history, run⟩
  refine ⟨fun topic hname hros n hn hsub ↦ ?_, fun service hname hros n hn hreq ↦ ?_⟩
  · exact .of_agrees (publisher_exclusive hname hreach).stored_unique
      (status_of_published hguard hreach topic) (subscriber_agrees hname hros run n hn hsub)
  · exact .of_agrees (server_exclusive hname hreach).stored_unique
      (status_of_served hguard hreach service) (serviceClient_agrees hname hros run n hn hreq)

/-- At every point of every run whose requests submit registered infos, every subscriber and every
service client is informed; and so is the watcher, if in the run no watcher was added while another
one was registered. -/
theorem notifications_complete (build : Build) (s : System) (history : List Effect) :
    (Run (master build) (fun _ a ↦ a.Registered) s history → s.ListenersInformed history) ∧
    (Run (master build) (fun s a ↦ a.Registered ∧ s.WatcherAlone a) s history →
      s.ListenersInformed history ∧ s.WatcherInformed history) := by
  refine ⟨listenersInformed_of_run fun _ _ h ↦ h, fun run ↦
    ⟨listenersInformed_of_run (fun _ _ h ↦ h.1) run, fun topic hname hros n hn hwatcher ↦ ?_⟩⟩
  have hreach : Reachable (master build) _ s := ⟨history, run⟩
  exact .of_agrees (publisher_exclusive hname hreach).stored_unique
    (status_of_published (fun _ _ h ↦ h.1) hreach topic)
    (watcher_agrees hname hros (fun _ _ h ↦ h.2) run n hn hwatcher)

/-- A watcher that subscribes to a topic which another node publishes afterwards. -/
theorem notifications_complete_of_one_watcher :
    ∃ s history, Run (master {}) (fun s a ↦ a.Registered ∧ s.WatcherAlone a) s history ∧
      s.registry.nodes.map (fun n ↦ (n.name, n.nodeInfo.watcher, n.isPublishingTopic "t",
        n.isSubscribingTopic "t")) = [("p", false, true, false), ("w", true, false, true)] ∧
      s.ListenersInformed history ∧ s.WatcherInformed history := by
  have hexec : ((master {}).exec (fun s a ↦ a.Registered ∧ s.WatcherAlone a) {} []
      [Scenario.client 7, Scenario.run, Scenario.request (.registerNode (Scenario.node "p")),
        Scenario.request (.registerNode { Scenario.node "w" with watcher := true }),
        Scenario.run, Scenario.run,
        Scenario.request (.subscribeTopic (Scenario.node "w") "t" ""),
        Scenario.request (.publishTopic (Scenario.node "p")
          { topic := "t", topicSource := Scenario.source }),
        Scenario.run, Scenario.run]).map
      (fun result ↦ result.1.registry.nodes.map (fun n ↦ (n.name, n.nodeInfo.watcher,
        n.isPublishingTopic "t", n.isSubscribingTopic "t"))) =
      some [("p", false, true, false), ("w", true, false, true)] := by
    decide
  obtain ⟨⟨s, history⟩, hrun, heq⟩ := Option.map_eq_some_iff.mp hexec
  have run := (Run.start (T := master {}) rfl).of_exec hrun
  exact ⟨s, history, run, heq, (notifications_complete {} s history).2 run⟩

/-- Two watchers are added, the topics are told to the first alone, and it leaves. -/
theorem second_watcher_not_informed :
    ¬ ∀ s history, Run (master {}) (fun _ a ↦ a.Registered) s history →
      s.registry.Exclusive (·.nodeInfo.watcher) → s.WatcherInformed history := by
  intro h
  have hexec : ((master {}).exec (fun _ a ↦ a.Registered) {} []
      [Scenario.client 7, Scenario.run, Scenario.request (.registerNode (Scenario.node "p")),
        Scenario.run,
        Scenario.request (.publishTopic (Scenario.node "p")
          { topic := "t", topicSource := Scenario.source }), Scenario.run,
        Scenario.request (.registerNode { Scenario.node "v" with watcher := true }),
        Scenario.request (.registerNode { Scenario.node "w" with watcher := true }),
        Scenario.run, Scenario.run,
        Scenario.request (.unregisterNode (Scenario.node "v")), Scenario.run]).map
      (fun result ↦ decide (result.1.registry.Exclusive (·.nodeInfo.watcher) ∧
        ¬ ∀ n ∈ result.1.registry.nodes, n.nodeInfo.watcher = true →
          Informed (result.1.registry.Published "t") (·.status)
            (lastWatchedInfo result.2 "t" n.nodeInfo))) = some true := by
    decide
  obtain ⟨⟨s, history⟩, hrun, heq⟩ := Option.map_eq_some_iff.mp hexec
  have run := (Run.start (T := master {}) rfl).of_exec hrun
  obtain ⟨hexclusive, hnot⟩ := of_decide_eq_true heq
  exact hnot (h s history run hexclusive "t" (by decide) (by decide))

end System

end Felicia
