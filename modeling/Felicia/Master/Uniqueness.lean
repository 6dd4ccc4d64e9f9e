import Felicia.Master.Ownership

/-!
# One publisher for a topic, one server for a service

`DoPublishTopic` and `DoRegisterServiceServer` look for a node that already has the name before they
register it, through `FindNodes` with the name as the only field of the filter. A field that is the
empty string counts as unset there, so the lookup for the empty name selects no node, and the empty
name can be taken by any number of nodes.

`exclusive_step` is the step lemma, over an arbitrary property of nodes that a fresh node does not
have and that an operation gives to a node only when no node has it. `isPublishingTopic_op` and
`isServingService_op` say which operation gives a name to a node. For a name that is not empty the
lookup is exact, and `publisher_exclusive` and `server_exclusive` follow by the run lemma
`exclusive_of_reachable`.
-/

set_option autoImplicit false
set_option relaxedAutoImplicit false

namespace Felicia

open Support TransitionSystem

/-! ### Properties that only one node may have -/

/-- At most one node over all clients has a property. -/
def Registry.Exclusive (r : Registry) (p : Node → Bool) : Prop := r.nodes.countP p ≤ 1

instance (r : Registry) (p : Node → Bool) : Decidable (r.Exclusive p) :=
  inferInstanceAs (Decidable (_ ≤ _))

section Exclusive

variable {build : Build} {s s' : System} {a : Action} {effects : List Effect} {p : Node → Bool}

/-- Assumes: a property that a fresh node does not have, and that an operation gives to a node only
when no node has it. -/
theorem exclusive_step (howned : s.Owned) (hcase : StepCase build s a s' effects)
    (hfresh : ∀ nodeInfo : NodeInfo, p { nodeInfo } = false)
    (hop : ∀ nodeInfo task rest f n, s.tasks = task :: rest →
      NodeOp s.registry n nodeInfo task f → p (f n) = true →
        p n = true ∨ ∀ m ∈ s.registry.nodes, p m = false)
    (h : s.registry.Exclusive p) : s'.registry.Exclusive p := by
  unfold Registry.Exclusive at *
  cases howned.nodesChange hcase with
  | kept hperm =>
    rw [hperm.countP_eq]
    exact h
  | added _ _ hperm =>
    rw [hperm.countP_eq, List.countP_cons_of_neg (by simp [hfresh])]
    exact h
  | removed gone _ hperm =>
    rw [hperm.countP_eq, List.countP_append] at h
    omega
  | @updated _ task rest nodeInfo n f before after _ htasks _ hnodeOp hnodes hnodes' =>
    rw [hnodes, List.countP_append, List.countP_cons] at h
    rw [hnodes', List.countP_append, List.countP_cons]
    by_cases hfn : p (f n) = true
    · rcases hop nodeInfo task rest f n htasks hnodeOp hfn with hn | hnone
      · simp only [hfn, hn, ↓reduceIte] at h ⊢
        exact h
      · have hbefore : before.countP p = 0 := List.countP_eq_zero.mpr fun m hm ↦ by
          simp [hnone m (by rw [hnodes]; exact List.mem_append_left _ hm)]
        have hafter : after.countP p = 0 := List.countP_eq_zero.mpr fun m hm ↦ by
          simp [hnone m (by rw [hnodes]; exact List.mem_append_right _ (List.mem_cons_of_mem _ hm))]
        simp [hfn, hbefore, hafter]
    · simp only [hfn] at h ⊢
      simp only [Bool.false_eq_true, ↓reduceIte]
      omega

/-- Assumes: a property that a fresh node does not have, and that an operation gives to a node only
when no node has it. The run lemma. -/
theorem exclusive_of_reachable {guard : System → Action → Prop}
    (h : Reachable (master build) guard s)
    (hfresh : ∀ nodeInfo : NodeInfo, p { nodeInfo } = false)
    (hop : ∀ r n nodeInfo task f, NodeOp r n nodeInfo task f → p (f n) = true →
      p n = true ∨ ∀ m ∈ r.nodes, p m = false) : s.registry.Exclusive p := by
  have hinv : s.Owned ∧ s.registry.Exclusive p := by
    refine h.invariant (I := fun s ↦ s.Owned ∧ s.registry.Exclusive p) ?_ ?_
    · rintro s rfl
      exact ⟨.initial, Nat.zero_le 1⟩
    · rintro s a s' effects ⟨howned, hexclusive⟩ _ hstep
      have hcase := step_cases hstep
      refine ⟨howned.step hcase, exclusive_step howned hcase hfresh ?_ hexclusive⟩
      intro nodeInfo task rest f n _ hnodeOp hfn
      exact hop s.registry n nodeInfo task f hnodeOp hfn
  exact hinv.2

end Exclusive

/-! ### Which operation gives a name to a node -/

section Names

variable {r : Registry} {n : Node} {nodeInfo : NodeInfo} {task : Task} {f : Node → Node}
  {name : String}

/-- A node gets a topic from `DoPublishTopic`, whose lookup found nothing. -/
theorem isPublishingTopic_op (hop : NodeOp r n nodeInfo task f)
    (h : (f n).isPublishingTopic name = true) : n.isPublishingTopic name = true ∨
      ∃ topicInfo callback, task = .doPublishTopic nodeInfo topicInfo callback ∧
        topicInfo.topic = name ∧ r.findNodes { publishingTopic := name } = [] := by
  cases hop with
  | publish topicInfo callback hnil =>
    by_cases hname : topicInfo.topic = name
    · exact Or.inr ⟨topicInfo, callback, rfl, hname, hname ▸ hnil⟩
    · left
      simpa [Node.isPublishingTopic, Node.registerPublishingTopic, FlatMap.contains,
        FlatMap.find_insertOrAssign, Ne.symm hname] using h
  | unpublish topic =>
    left
    simp only [Node.isPublishingTopic, Node.unregisterPublishingTopic, FlatMap.contains,
      FlatMap.find_erase] at h ⊢
    split_ifs at h with hname
    · cases h
    · exact h
  | _ => exact Or.inl h

/-- A node gets a service from `DoRegisterServiceServer`, whose lookup found nothing. -/
theorem isServingService_op (hop : NodeOp r n nodeInfo task f)
    (h : (f n).isServingService name = true) : n.isServingService name = true ∨
      ∃ serviceInfo callback, task = .doRegisterServiceServer nodeInfo serviceInfo callback ∧
        serviceInfo.service = name ∧ r.findNodes { servingService := name } = [] := by
  cases hop with
  | serve serviceInfo callback hnil =>
    by_cases hname : serviceInfo.service = name
    · exact Or.inr ⟨serviceInfo, callback, rfl, hname, hname ▸ hnil⟩
    · left
      simpa [Node.isServingService, Node.registerServingService, FlatMap.contains,
        FlatMap.find_insertOrAssign, Ne.symm hname] using h
  | unserve service =>
    left
    simp only [Node.isServingService, Node.unregisterServingService, FlatMap.contains,
      FlatMap.find_erase] at h ⊢
    split_ifs at h with hname
    · cases h
    · exact h
  | _ => exact Or.inl h

/-- Assumes: a name that is not empty. A lookup that finds no publisher is exact. -/
theorem Registry.not_publishing_of_findNodes (hname : name ≠ "")
    (h : r.findNodes { publishingTopic := name } = []) :
    ∀ m ∈ r.nodes, m.isPublishingTopic name = false := by
  rw [r.findNodes_publishing hname, Option.toList_eq_nil_iff, List.find?_eq_none] at h
  intro m hm
  simpa using h m hm

end Names

/-! ### Names that are not empty -/

section Named

variable {build : Build} {guard : System → Action → Prop} {s : System} {name : String}

/-- Assumes: a name that is not empty. -/
theorem publisher_exclusive (hname : name ≠ "") (h : Reachable (master build) guard s) :
    s.registry.Exclusive (·.isPublishingTopic name) := by
  refine exclusive_of_reachable h (fun _ ↦ rfl) ?_
  intro r n nodeInfo task f hop hfn
  refine (isPublishingTopic_op hop hfn).imp_right ?_
  rintro ⟨-, -, -, -, hnil⟩
  exact Registry.not_publishing_of_findNodes hname hnil

/-- Assumes: a name that is not empty. -/
theorem server_exclusive (hname : name ≠ "") (h : Reachable (master build) guard s) :
    s.registry.Exclusive (·.isServingService name) := by
  refine exclusive_of_reachable h (fun _ ↦ rfl) ?_
  intro r n nodeInfo task f hop hfn
  refine (isServingService_op hop hfn).imp_right ?_
  rintro ⟨-, -, -, -, hnil⟩
  exact (r.findNodes_serving_eq_nil_iff hname).mp hnil

end Named

/-! ### The empty name -/

/-- A task that does not take the empty name for a topic or a service. -/
def Task.TakesNamed : Task → Prop
  | .doPublishTopic _ topicInfo _ => topicInfo.topic ≠ ""
  | .doRegisterServiceServer _ serviceInfo _ => serviceInfo.service ≠ ""
  | _ => True

/-- A request that does not take the empty name for a topic or a service. -/
def Action.TakesNamed : Action → Prop
  | .entry _ _ (.publishTopic _ topicInfo) _ => topicInfo.topic ≠ ""
  | .entry _ _ (.registerServiceServer _ serviceInfo) _ => serviceInfo.service ≠ ""
  | _ => True

theorem Action.TakesNamed.posts {a : Action} (h : a.TakesNamed) {task : Task}
    (hposts : a.Posts task) : task.TakesNamed := by
  cases a with
  | entry env rand request callback =>
    cases request <;> cases hposts <;> exact h
  | pubUpdate topic update =>
    obtain ⟨topicInfo, -, rfl⟩ := hposts
    exact trivial
  | runTask ros => cases hposts
  | heartBeatLost clientInfo => cases hposts

/-- No waiting task takes the empty name, and no node has it. -/
structure System.Named (s : System) : Prop where
  tasks : ∀ task ∈ s.tasks, task.TakesNamed
  publishing : ∀ n ∈ s.registry.nodes, n.isPublishingTopic "" = false
  serving : ∀ n ∈ s.registry.nodes, n.isServingService "" = false

/-- Assumes: a step that does not take the empty name. -/
theorem System.Named.step {build : Build} {s s' : System} {a : Action} {effects : List Effect}
    (h : s.Named) (howned : s.Owned) (hcase : StepCase build s a s' effects)
    (haction : a.TakesNamed) : s'.Named := by
  refine ⟨?_, ?_, ?_⟩
  · exact hcase.forall_tasks (fun _ hposts ↦ haction.posts hposts) (fun _ _ ↦ trivial)
      (fun _ _ ↦ trivial) h.tasks
  · refine howned.forall_nodes_step hcase (fun _ ↦ rfl) ?_ h.publishing
    intro nodeInfo task rest f n htasks hop hn
    refine Bool.eq_false_iff.mpr fun hfn ↦ ?_
    rcases isPublishingTopic_op hop hfn with hpublishing | ⟨topicInfo, callback, rfl, hname, -⟩
    · rw [hn] at hpublishing
      cases hpublishing
    · have htask := h.tasks _ (htasks ▸ List.mem_cons_self ..)
      exact htask hname
  · refine howned.forall_nodes_step hcase (fun _ ↦ rfl) ?_ h.serving
    intro nodeInfo task rest f n htasks hop hn
    refine Bool.eq_false_iff.mpr fun hfn ↦ ?_
    rcases isServingService_op hop hfn with hserving | ⟨serviceInfo, callback, rfl, hname, -⟩
    · rw [hn] at hserving
      cases hserving
    · have htask := h.tasks _ (htasks ▸ List.mem_cons_self ..)
      exact htask hname

/-- The run lemma. -/
theorem named_of_reachable {build : Build} {s : System}
    (h : Reachable (master build) (fun _ a ↦ a.TakesNamed) s) : s.Named := by
  have hinv : s.Owned ∧ s.Named := by
    refine h.invariant (I := fun s ↦ s.Owned ∧ s.Named) ?_ ?_
    · rintro s rfl
      exact ⟨.initial, by simp, by simp [Registry.nodes], by simp [Registry.nodes]⟩
    · rintro s a s' effects ⟨howned, hnamed⟩ haction hstep
      have hcase := step_cases hstep
      exact ⟨howned.step hcase, hnamed.step howned hcase haction⟩
  exact hinv.2

/-- Two nodes of one client take the empty name, as a topic and as a service. -/
def Scenario.emptyNames : List Action :=
  [client 7, run, request (.registerNode (node "a")), run, request (.registerNode (node "b")), run,
    request (.publishTopic (node "a") { topicSource := source }), run,
    request (.publishTopic (node "b") { topicSource := source }), run,
    request (.registerServiceServer (node "a") { serviceSource := source }), run,
    request (.registerServiceServer (node "b") { serviceSource := source }), run]

theorem exists_reachable_emptyNames (build : Build) :
    ∃ s, Reachable (master build) unguarded s ∧
      ¬ s.registry.Exclusive (·.isPublishingTopic "") ∧
      ¬ s.registry.Exclusive (·.isServingService "") := by
  have hexec : ((master build).exec unguarded {} [] Scenario.emptyNames).map (fun result ↦
      decide (¬ result.1.registry.Exclusive (·.isPublishingTopic "") ∧
        ¬ result.1.registry.Exclusive (·.isServingService ""))) = some true := by
    obtain ⟨hasRos, checkHeartBeat⟩ := build
    cases hasRos <;> cases checkHeartBeat <;> decide
  obtain ⟨⟨s, history⟩, hrun, heq⟩ := Option.map_eq_some_iff.mp hexec
  exact ⟨s, ⟨history, (Run.start rfl).of_exec hrun⟩, of_decide_eq_true heq⟩

/-- In every reachable state at most one node publishes a topic and at most one serves a service,
for exactly the names that are not empty; and for every name, the empty one included, in the runs
whose requests never take the empty name. -/
theorem exclusive_iff_name_ne_empty (build : Build) :
    (∀ topic, (∀ s, Reachable (master build) unguarded s →
        s.registry.Exclusive (·.isPublishingTopic topic)) ↔ topic ≠ "") ∧
    (∀ service, (∀ s, Reachable (master build) unguarded s →
        s.registry.Exclusive (·.isServingService service)) ↔ service ≠ "") ∧
    ∀ s, Reachable (master build) (fun _ a ↦ a.TakesNamed) s → ∀ name,
      s.registry.Exclusive (·.isPublishingTopic name) ∧
        s.registry.Exclusive (·.isServingService name) := by
  obtain ⟨s₀, hreach, hpublish, hserve⟩ := exists_reachable_emptyNames build
  refine ⟨fun topic ↦ ⟨fun h hempty ↦ ?_, fun hname s ↦ publisher_exclusive hname⟩,
    fun service ↦ ⟨fun h hempty ↦ ?_, fun hname s ↦ server_exclusive hname⟩, fun s h name ↦ ?_⟩
  · exact hpublish (hempty ▸ h s₀ hreach)
  · exact hserve (hempty ▸ h s₀ hreach)
  · by_cases hname : name = ""
    · have hnamed := named_of_reachable h
      subst hname
      refine ⟨Nat.le_trans (Nat.le_of_eq ?_) (Nat.zero_le 1),
        Nat.le_trans (Nat.le_of_eq ?_) (Nat.zero_le 1)⟩
      · exact List.countP_eq_zero.mpr fun n hn ↦ by simp [hnamed.publishing n hn]
      · exact List.countP_eq_zero.mpr fun n hn ↦ by simp [hnamed.serving n hn]
    · exact ⟨publisher_exclusive hname h, server_exclusive hname h⟩

/-- Two nodes publish the topic whose name is empty. -/
theorem emptyNames_not_exclusive :
    ¬ ∀ s, Reachable (master {}) unguarded s → ∀ name,
      s.registry.Exclusive (·.isPublishingTopic name) ∧
        s.registry.Exclusive (·.isServingService name) := by
  intro h
  obtain ⟨s, hreach, hpublish, -⟩ := exists_reachable_emptyNames {}
  exact hpublish (h s hreach "").1

end Felicia
