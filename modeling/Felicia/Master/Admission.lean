import Felicia.Master.Ownership

/-!
# The sources of admitted clients

`Master::RegisterClient` admits any source that `IsValidChannelSource` accepts: one or more channel
definitions, of any type. `Master::DoNotifyClient` and `HeartBeatListener::StartCheckHeartBeat` then
assert that there is exactly one, of type TCP.

`Effect.Addressed` says where a notification goes; `addressed_runTask` and `addressed_removeClient`
say that the master takes every address from a client that is registered after the step.
`liveClientInfos_admitted` says that a client object comes from a request that was admitted, and
`Admitted` is the invariant that puts the two together.
-/

set_option autoImplicit false
set_option relaxedAutoImplicit false

namespace Felicia

open Support TransitionSystem

/-- What the master asserts before it connects to a source. -/
def ChannelSource.isSingleTcp (source : ChannelSource) : Bool :=
  source.channelDefs.map (·.type) = [.tcp]

namespace ClientInfo

/-- The checks of `Master::RegisterClient`. -/
def isAdmitted (build : Build) (env : ChannelEnv) (clientInfo : ClientInfo) : Bool :=
  (!build.checkHeartBeat || isValidChannelSource env clientInfo.heartBeatSignallerSource) &&
    isValidChannelSource env clientInfo.masterNotificationWatcherSource

/-- The sources that the master will use are each a single TCP channel. -/
def usesTcp (build : Build) (clientInfo : ClientInfo) : Bool :=
  (!build.checkHeartBeat || clientInfo.heartBeatSignallerSource.isSingleTcp) &&
    clientInfo.masterNotificationWatcherSource.isSingleTcp

end ClientInfo

/-! ### Where notifications go -/

/-- A notification is sent to a source with the given property. -/
def Effect.Addressed (P : ChannelSource → Prop) : Effect → Prop
  | .notify _ source _ => P source
  | _ => True

section Addressed

variable {P : ChannelSource → Prop} {r : Registry}

namespace Registry

/-- Every registered client listens for notifications at a source with the given property. -/
def WatchedAt (P : ChannelSource → Prop) (r : Registry) : Prop :=
  ∀ client ∈ r.clientMap.values, P client.clientInfo.masterNotificationWatcherSource

theorem WatchedAt.addressed (h : r.WatchedAt P) {Q : MasterNotification → Prop} {e : Effect}
    (he : r.Notifies Q e) : e.Addressed P := by
  obtain ⟨_, _, _, client, hclient, rfl⟩ := he
  exact h client hclient

theorem WatchedAt.addressed_handles (h : r.WatchedAt P) {entry : LogEntry}
    {Q : MasterNotification → Prop} {e : Effect} (he : Handles entry r Q e) : e.Addressed P := by
  cases he with
  | log | reply | ros => trivial
  | notifies hnotifies => exact h.addressed hnotifies

theorem WatchedAt.addressed_notifyRemoved (h : r.WatchedAt P) {hasRos : Bool}
    {topicInfos : List TopicInfo} {topics : List String} {serviceInfos : List ServiceInfo} :
    ∀ e ∈ notifyRemoved hasRos r topicInfos topics serviceInfos, e.Addressed P := by
  intro e he
  rcases List.mem_append.mp he with he | he
  · rcases List.mem_append.mp he with he | he
    · obtain ⟨info, -, he⟩ := List.mem_flatMap.mp he
      exact h.addressed (r.notifies_notifyAllSubscribers _ e he)
    · obtain ⟨info, -, he⟩ := List.mem_flatMap.mp he
      exact h.addressed (r.notifies_notifyAllServiceClients _ e he)
  · obtain ⟨call, rfl⟩ := of_mem_unregisterRosTopicsAndServices he
    trivial

end Registry

variable {hasRos : Bool} {ros : RosMasterProxy} {r' : Registry} {effects : List Effect}

/-- Every effect of a task that is a notification goes to a client that is registered when the task
has ended. -/
theorem addressed_runTask {task : Task} (h : runTask hasRos ros r task = some (r', effects))
    (hwatched : r'.WatchedAt P) : ∀ e ∈ effects, e.Addressed P := by
  cases task with
  | doRegisterClient client callback =>
    obtain ⟨added, -, heq⟩ := Option.map_eq_some_iff.mp h
    cases heq
    simp [Effect.Addressed]
  | doRegisterNode node callback =>
    obtain ⟨added, -, heq⟩ := Option.map_eq_some_iff.mp h
    cases heq
    simp only [List.forall_mem_append, List.forall_mem_cons]
    refine ⟨?_, trivial, ?_⟩
    · split_ifs <;> simp [Effect.Addressed]
    · split_ifs
      · exact fun e he ↦ hwatched.addressed (Registry.notifies_notifyWatcher _ e he)
      · exact List.forall_mem_nil _
  | doUnregisterNode nodeInfo callback =>
    obtain ⟨⟨removed, before⟩, hremove, heq⟩ := Option.map_eq_some_iff.mp h
    cases heq
    obtain ⟨erased, -, heq⟩ := Option.map_eq_some_iff.mp hremove
    cases heq
    simp only [List.forall_mem_append, List.forall_mem_singleton]
    refine ⟨⟨?_, ?_⟩, trivial⟩
    · split_ifs <;> simp [Effect.Addressed]
    · cases r.findNode nodeInfo with
      | none => exact List.forall_mem_nil _
      | some n => exact hwatched.addressed_notifyRemoved
  | doListNodes nodeFilter callback =>
    cases h
    simp [doListNodes, Effect.Addressed]
  | doPublishTopic nodeInfo topicInfo callback =>
    cases h
    exact fun e he ↦ hwatched.addressed_handles (handles_doPublishTopic _ _ _ _ _ _ e he)
  | doUnpublishTopic nodeInfo topic callback =>
    cases h
    exact fun e he ↦ hwatched.addressed_handles (handles_doUnpublishTopic _ _ _ _ _ _ e he)
  | doSubscribeTopic nodeInfo topic topicType callback =>
    cases h
    exact fun e he ↦ hwatched.addressed_handles (handles_doSubscribeTopic _ _ _ _ _ _ _ e he)
  | doUnsubscribeTopic nodeInfo topic callback =>
    cases h
    exact fun e he ↦ hwatched.addressed_handles (handles_doUnsubscribeTopic _ _ _ _ _ _ e he)
  | doRegisterServiceClient nodeInfo service callback =>
    cases h
    exact fun e he ↦ hwatched.addressed_handles (handles_doRegisterServiceClient _ _ _ _ _ _ e he)
  | doUnregisterServiceClient nodeInfo service callback =>
    cases h
    exact fun e he ↦ hwatched.addressed_handles (handles_doUnregisterServiceClient _ _ _ _ e he)
  | doRegisterServiceServer nodeInfo serviceInfo callback =>
    cases h
    exact fun e he ↦ hwatched.addressed_handles (handles_doRegisterServiceServer _ _ _ _ _ _ e he)
  | doUnregisterServiceServer nodeInfo service callback =>
    cases h
    exact fun e he ↦ hwatched.addressed_handles
      (handles_doUnregisterServiceServer _ _ _ _ _ _ e he)
  | notifyAllSubscribers topicInfo =>
    cases h
    exact fun e he ↦ hwatched.addressed (Registry.notifies_notifyAllSubscribers _ topicInfo e he)

theorem addressed_removeClient {clientInfo : ClientInfo}
    (h : removeClient hasRos r clientInfo = some (r', effects)) (hwatched : r'.WatchedAt P) :
    ∀ e ∈ effects, e.Addressed P := by
  obtain ⟨erased, -, heq⟩ := Option.map_eq_some_iff.mp h
  cases heq
  exact List.forall_mem_cons.mpr ⟨trivial, hwatched.addressed_notifyRemoved⟩

end Addressed

/-! ### Where clients come from -/

/-- A client that is registered was admitted and keeps all of its request but the id. -/
theorem registerClient_eq_some {build : Build} {env : ChannelEnv} {rand : ℕ → ℕ} {s s' : System}
    {requested : ClientInfo} {callback : StatusOnceCallback} {effects : List Effect}
    (h : System.registerClient build env rand s requested callback = some (s', effects)) :
    s'.tasks = s.tasks ∧ s'.registry = s.registry ∨
      requested.isAdmitted build env = true ∧ s'.registry.clientMap = s.registry.clientMap ∧
        ∃ id, s'.tasks =
          s.tasks ++ [.doRegisterClient { clientInfo := { requested with id } } callback] := by
  unfold System.registerClient at h
  split_ifs at h with hbeat hwatch
  · cases h
    exact Or.inl ⟨rfl, rfl⟩
  · cases h
    exact Or.inl ⟨rfl, rfl⟩
  · right
    have hadmitted : requested.isAdmitted build env = true := by
      simpa [ClientInfo.isAdmitted, imp_iff_not_or] using And.intro hbeat hwatch
    refine ⟨hadmitted, ?_⟩
    rcases s.registry.idGenerator.generate_cases invalidId (randId rand) with hgen | ⟨k, -, hgen⟩
    · simp [Registry.newClient, hgen] at h
    · simp only [Registry.newClient, hgen, randId_ne_invalidId, ↓reduceIte] at h
      cases h
      exact ⟨rfl, randId rand k, rfl⟩

/-- The info of a live client was there before, or it comes from a request that was admitted. -/
theorem System.Owned.liveClientInfos_admitted {build : Build} {s s' : System} {a : Action}
    {effects : List Effect} (h : s.Owned) (hstep : System.step build s a = some (s', effects)) :
    ∀ info ∈ s'.liveClientInfos, info ∈ s.liveClientInfos ∨
      ∃ env rand requested callback, a = .entry env rand (.registerClient requested) callback ∧
        requested.isAdmitted build env = true ∧ info = { requested with id := info.id } := by
  intro info hinfo
  rcases h.liveClientInfos_step (step_cases hstep) with
    hsub | ⟨_, -, ⟨env, rand, requested, callback, rfl⟩, -⟩
  · exact Or.inl (hsub hinfo)
  · rcases registerClient_eq_some hstep with ⟨htasks, hregistry⟩ | ⟨hadmitted, hmap, id, htasks⟩
    · left
      rwa [liveClientInfos, liveClients, pendingClients, htasks, hregistry] at hinfo
    · simp only [liveClientInfos, liveClients, pendingClients, htasks, hmap,
        List.filterMap_append, ← List.append_assoc, List.map_append] at hinfo
      rcases List.mem_append.mp hinfo with hold | hnew
      · left
        rwa [← List.map_append] at hold
      · refine Or.inr ⟨env, rand, requested, callback, rfl, hadmitted, ?_⟩
        rw [List.mem_singleton.mp hnew]

/-! ### The invariant -/

/-- The action does not admit a client whose sources are not single TCP channels. -/
def Action.usesTcp (build : Build) : Action → Bool
  | .entry env _ (.registerClient clientInfo) _ =>
    !clientInfo.isAdmitted build env || clientInfo.usesTcp build
  | _ => true

/-- No client is admitted whose sources are not single TCP channels. -/
def admitsTcp (build : Build) (_ : System) (a : Action) : Prop := a.usesTcp build = true

instance (build : Build) (s : System) (a : Action) : Decidable (admitsTcp build s a) :=
  inferInstanceAs (Decidable (_ = true))

namespace System

/-- Every client object and every heart beat listener has the sources that the master asserts. -/
structure Admitted (build : Build) (s : System) : Prop where
  owned : s.Owned
  clients : ∀ info ∈ s.liveClientInfos, info.usesTcp build = true
  listeners : ∀ info ∈ s.listeners, info.heartBeatSignallerSource.isSingleTcp = true

namespace Admitted

variable {build : Build} {s s' : System} {a : Action} {effects : List Effect}

theorem initial : Admitted build {} where
  owned := .initial
  clients := List.forall_mem_nil _
  listeners := by simp

theorem watchedAt (h : Admitted build s) :
    s.registry.WatchedAt (·.isSingleTcp = true) := by
  intro client hclient
  have htcp := h.clients client.clientInfo
    (List.mem_map_of_mem (List.mem_append_left _ hclient))
  exact (Bool.and_eq_true_iff.mp htcp).2

/-- The clients after a step use TCP, when an admitted client does. -/
theorem clients_step (h : Admitted build s) (hguard : admitsTcp build s a)
    (hstep : System.step build s a = some (s', effects)) :
    ∀ info ∈ s'.liveClientInfos, info.usesTcp build = true := by
  intro info hinfo
  rcases h.owned.liveClientInfos_admitted hstep info hinfo with
    hold | ⟨env, rand, requested, callback, rfl, hadmitted, heq⟩
  · exact h.clients info hold
  · rw [heq]
    rw [admitsTcp, Action.usesTcp, hadmitted] at hguard
    exact hguard

/-- The listeners after a step use TCP: a new one belongs to a client that was waiting. -/
theorem listeners_step (h : Admitted build s)
    (hcase : StepCase build s a s' effects) :
    ∀ info ∈ s'.listeners, info.heartBeatSignallerSource.isSingleTcp = true := by
  cases hcase with
  | post | newClient | newNode => exact h.listeners
  | @task ros task rest r' effects htasks hrun =>
    refine List.forall_mem_append.mpr ⟨h.listeners, fun info hinfo ↦ ?_⟩
    have hpending : info ∈ s.liveClientInfos := by
      have hmem := (Owned.startedListeners_sublist build task).subset hinfo
      rw [liveClientInfos, liveClients, pendingClients_cons htasks]
      simp only [List.map_append]
      exact List.mem_append_right _ (List.mem_append_left _ hmem)
    have htcp := h.clients info hpending
    cases task with
    | doRegisterClient client callback =>
      by_cases hbeat : build.checkHeartBeat = true
      · simpa [ClientInfo.usesTcp, hbeat] using (Bool.and_eq_true_iff.mp htcp).1
      · simp [startedListeners, hbeat] at hinfo
    | _ => cases hinfo
  | removeClient =>
    exact fun info hinfo ↦ h.listeners info (List.mem_of_mem_erase hinfo)

theorem step (h : Admitted build s) (hguard : admitsTcp build s a)
    (hstep : System.step build s a = some (s', effects)) :
    Admitted build s' ∧ ∀ e ∈ effects, e.Addressed (·.isSingleTcp = true) := by
  have hcase := step_cases hstep
  have hnext : Admitted build s' :=
    ⟨h.owned.step hcase, h.clients_step hguard hstep, h.listeners_step hcase⟩
  refine ⟨hnext, ?_⟩
  cases hcase with
  | post new hposts hanswer =>
    intro e he
    have hanswer := hanswer e he
    cases e with
    | notify => cases hanswer
    | _ => trivial
  | newClient => exact List.forall_mem_singleton.mpr trivial
  | newNode => exact List.forall_mem_singleton.mpr trivial
  | task htasks hrun => exact addressed_runTask hrun hnext.watchedAt
  | removeClient _ hremove => exact addressed_removeClient hremove hnext.watchedAt

end Admitted

/-- In every run in which each admitted client has a single TCP channel in each source the master
will use, every notification goes to such a source and every heart beat listener is started on
one. -/
theorem asserted_sources_tcp (build : Build) (s : System) (history : List Effect)
    (run : Run (master build) (admitsTcp build) s history) :
    (∀ nodeInfo source notification, .notify nodeInfo source notification ∈ history →
      source.isSingleTcp = true) ∧
    ∀ clientInfo ∈ s.listeners, clientInfo.heartBeatSignallerSource.isSingleTcp = true := by
  obtain ⟨hadmitted, haddressed⟩ := run.safe (I := Admitted build)
    (by rintro _ rfl; exact .initial) fun _ _ _ _ _ hinv ↦ hinv.step
  exact ⟨fun _ _ _ hmem ↦ haddressed _ hmem, hadmitted.listeners⟩

/-- A client with TCP channels in a run in which it is notified of a publisher. -/
theorem asserted_sources_tcp_of_subscriber :
    ∃ s history, Run (master {}) (admitsTcp {}) s history ∧
      (∃ nodeInfo source notification, .notify nodeInfo source notification ∈ history ∧
        source.isSingleTcp = true) ∧
      ∃ clientInfo ∈ s.listeners, clientInfo.heartBeatSignallerSource.isSingleTcp = true := by
  let topicInfo : TopicInfo := { topic := "t", topicSource := Scenario.tcpSource }
  have hexec : ((master {}).exec (admitsTcp {}) {} [] [Scenario.tcpClient, Scenario.run,
      Scenario.request (.registerNode (Scenario.node "a")), Scenario.run,
      Scenario.request (.subscribeTopic (Scenario.node "a") "t" ""), Scenario.run,
      Scenario.request (.publishTopic (Scenario.node "a") topicInfo), Scenario.run]).map
      (fun result ↦ decide (Scenario.tcpClientInfo ∈ result.1.listeners ∧
        .notify (Scenario.node "a") Scenario.tcpSource { topicInfo := some topicInfo } ∈
          result.2)) = some true := by decide
  obtain ⟨⟨s, history⟩, hexecuted, heq⟩ := Option.map_eq_some_iff.mp hexec
  obtain ⟨hlistener, hnotified⟩ := of_decide_eq_true heq
  have hrun : Run (master {}) (admitsTcp {}) s history := (Run.start rfl).of_exec hexecuted
  obtain ⟨hsources, hlisteners⟩ := asserted_sources_tcp {} s history hrun
  exact ⟨s, history, hrun, ⟨_, _, _, hnotified, hsources _ _ _ hnotified⟩,
    _, hlistener, hlisteners _ hlistener⟩

/-- A client with a shared memory channel is admitted. Its listener is started on that channel, and
so is the connection for its notifications. -/
theorem admitted_sources_not_tcp :
    ¬ (∀ s history, Run (master {}) unguarded s history → ∀ clientInfo ∈ s.listeners,
        clientInfo.heartBeatSignallerSource.isSingleTcp = true) ∧
    ¬ ∀ s history, Run (master {}) unguarded s history → ∀ nodeInfo source notification,
        .notify nodeInfo source notification ∈ history → source.isSingleTcp = true := by
  let clientInfo : ClientInfo := { id := 7, heartBeatSignallerSource := Scenario.source
                                   masterNotificationWatcherSource := Scenario.source }
  let topicInfo : TopicInfo := { topic := "t", topicSource := Scenario.source }
  have hexec : ((master {}).exec unguarded {} [] [Scenario.client 7, Scenario.run,
      Scenario.request (.registerNode (Scenario.node "a")), Scenario.run,
      Scenario.request (.subscribeTopic (Scenario.node "a") "t" ""), Scenario.run,
      Scenario.request (.publishTopic (Scenario.node "a") topicInfo), Scenario.run]).map
      (fun result ↦ decide (clientInfo ∈ result.1.listeners ∧
        .notify (Scenario.node "a") Scenario.source { topicInfo := some topicInfo } ∈ result.2)) =
      some true := by decide
  obtain ⟨⟨s, history⟩, hexecuted, heq⟩ := Option.map_eq_some_iff.mp hexec
  obtain ⟨hlistener, hnotified⟩ := of_decide_eq_true heq
  have hrun : Run (master {}) unguarded s history := (Run.start rfl).of_exec hexecuted
  have hshm : Scenario.source.isSingleTcp = false := by decide
  constructor
  · intro h
    exact Bool.false_ne_true (hshm.symm.trans (h s history hrun clientInfo hlistener))
  · intro h
    exact Bool.false_ne_true (hshm.symm.trans (h s history hrun _ _ _ hnotified))

end System

end Felicia
