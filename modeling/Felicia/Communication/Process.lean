import Felicia.Communication.Routing
import Mathlib.Data.List.Count

/-!
# The notifications that reach a client process

A process has one notification watcher, and any number of subscribers and service clients. The
watcher runs `Subscriber::OnFindPublisher` and `ServiceClient::OnFindServiceServer`, which post
themselves again as long as the register state is under way. Posted tasks run in any order.

`Process.Sound` is the invariant of the runs in which notifications reach exactly the subscribers of
their topic, and `Sound.step` is its step lemma. A topic that two subscribers ask for, a request or
an unsubscription that the master refuses, and a task posted for another topic each break it.
-/

set_option autoImplicit false
set_option relaxedAutoImplicit false

namespace Felicia

open Support TransitionSystem

/-! ### State and steps -/

/-- A handler that the watcher runs, and that posts itself again. -/
inductive FindTask
  | onFindPublisher (i : ℕ) (topicInfo : TopicInfo)
  | onFindServiceServer (i : ℕ) (serviceInfo : ServiceInfo)
  deriving DecidableEq

/-- What a handler comes to. -/
inductive FindOutcome
  | postsItself | returns | goesOn
  deriving DecidableEq

/-- The checks of `Subscriber::OnFindPublisher` and `ServiceClient::OnFindServiceServer`. A service
client is never stopping. -/
def Registrant.onFind (registrant : Registrant) (isStopping : Bool) : FindOutcome :=
  if registrant.registerState = .registering ∨ registrant.registerState = .unregistering ∨
      isStopping = true then .postsItself
  else if registrant.registerState = .unregistered then .returns
  else .goesOn

/-- The watcher of a process, its subscribers and service clients, and the handlers that were posted
again. -/
structure Process where
  watcher : MasterNotificationWatcher
  subscribers : List Registrant
  serviceClients : List Registrant
  posted : List FindTask := []

/-- What can happen next. Whether a subscriber is stopping is up to its message loop. -/
inductive ProcessAction
  | subscriber (i : ℕ) (a : RoutingAction)
  | serviceClient (i : ℕ) (a : RoutingAction)
  | event (event : WatcherEvent) (isStopping : Bool)
  | runPosted (n : ℕ) (isStopping : Bool)

/-- What a step does to the outside. -/
inductive ProcessEffect
  | watcher (effect : WatcherEffect)
  /-- `LogOrCallback` of a subscriber's request. -/
  | subscriber (i : ℕ) (status : Status)
  /-- `LogOrCallback` of a service client's request. -/
  | serviceClient (i : ℕ) (status : Status)
  /-- A handler goes on, past its checks. -/
  | found (task : FindTask)
  deriving DecidableEq

/-- The handler that is the callback. -/
def WatcherEffect.task? : WatcherEffect → Option FindTask
  | .topicInfoCallback i topicInfo => some (.onFindPublisher i topicInfo)
  | .serviceInfoCallback i serviceInfo => some (.onFindServiceServer i serviceInfo)
  | _ => none

namespace Process

variable (p : Process)

def topics : Routing where
  callbackMap := p.watcher.topicInfoCallbackMap
  registrants := p.subscribers

def services : Routing where
  callbackMap := p.watcher.serviceInfoCallbackMap
  registrants := p.serviceClients

def withTopics (r : Routing) : Process :=
  { p with
    watcher := { p.watcher with topicInfoCallbackMap := r.callbackMap }
    subscribers := r.registrants }

def withServices (r : Routing) : Process :=
  { p with
    watcher := { p.watcher with serviceInfoCallbackMap := r.callbackMap }
    serviceClients := r.registrants }

/-- What a handler comes to. -/
def outcome (isStopping : Bool) : FindTask → FindOutcome
  | .onFindPublisher i _ => p.subscribers[i]?.elim .returns (·.onFind isStopping)
  | .onFindServiceServer i _ => p.serviceClients[i]?.elim .returns (·.onFind false)

/-- Handlers are run. They leave the register states alone, so each comes to what it would by
itself. -/
def runTasks (isStopping : Bool) (tasks : List FindTask) : Process × List ProcessEffect :=
  ({ p with posted := p.posted ++ tasks.filter (p.outcome isStopping · = .postsItself) },
    (tasks.filter (p.outcome isStopping · = .goesOn)).map .found)

def step (deserialize : List UInt8 → Option MasterNotification) :
    ProcessAction → Option (Process × List ProcessEffect)
  | .subscriber i a => (p.topics.step i a).map fun result ↦
      (p.withTopics result.1, result.2.map (.subscriber i))
  | .serviceClient i a => (p.services.step i a).map fun result ↦
      (p.withServices result.1, result.2.map (.serviceClient i))
  | .event event isStopping =>
    let result := p.watcher.step deserialize event
    let run := runTasks { p with watcher := result.1 } isStopping
      (result.2.filterMap WatcherEffect.task?)
    some (run.1, result.2.map .watcher ++ run.2)
  | .runPosted n isStopping =>
    match p.posted[n]? with
    | none => some (p, [])
    | some task => some ({ p with posted := p.posted.eraseIdx n }.runTasks isStopping [task])

end Process

/-- A process whose watcher was started and in which nobody asked for anything yet. -/
def process (deserialize : List UInt8 → Option MasterNotification) :
    TransitionSystem Process ProcessAction ProcessEffect where
  Initial p := p.watcher = MasterNotificationWatcher.start {} ∧
    (∀ subscriber ∈ p.subscribers, subscriber.registerState = .unregistered) ∧
    (∀ serviceClient ∈ p.serviceClients, serviceClient.registerState = .unregistered) ∧
    p.posted = []
  step p a := p.step deserialize a

/-! ### Where notifications go -/

namespace Process

/-- A notification that is received runs the callback of each registered subscriber of its topic
once, and no other subscriber's; a handler that goes on is one of a registered subscriber of the
topic. -/
structure Routes (p : Process) (effects : List ProcessEffect) : Prop where
  delivered : ∀ notification topicInfo,
    .watcher (.newMasterNotification notification) ∈ effects →
    notification.topicInfo = some topicInfo →
    ∀ i, p.subscribers[i]? = some ⟨.registered, topicInfo.topic⟩ →
      effects.count (.watcher (.topicInfoCallback i topicInfo)) = 1
  addressed : ∀ i topicInfo, .watcher (.topicInfoCallback i topicInfo) ∈ effects →
    ∃ subscriber, p.subscribers[i]? = some subscriber ∧ subscriber.awaits = true ∧
      subscriber.name = topicInfo.topic
  found : ∀ i topicInfo, .found (.onFindPublisher i topicInfo) ∈ effects →
    p.subscribers[i]? = some ⟨.registered, topicInfo.topic⟩

/-- No handler of a subscriber is posted for a topic other than the one that it asks for. -/
def unposted (p : Process) (i : ℕ) : RoutingAction → Bool
  | .request topic => p.posted.all fun
    | .onFindPublisher j topicInfo => j ≠ i || topicInfo.topic = topic
    | .onFindServiceServer _ _ => true
  | _ => true

/-- A subscriber asks for a topic that no other one waits for and while no handler of it is posted
for another topic, gives up its own topic, and is not refused by the master. -/
def Orderly (p : Process) : ProcessAction → Prop
  | .subscriber i a =>
    p.topics.unshared i a = true ∧ p.topics.ownName i a = true ∧ p.topics.accepted i a = true ∧
      p.topics.released i a = true ∧ p.unposted i a = true
  | _ => True

instance (p : Process) : (a : ProcessAction) → Decidable (p.Orderly a)
  | .subscriber _ _ => inferInstanceAs (Decidable (_ ∧ _ ∧ _ ∧ _ ∧ _))
  | .serviceClient _ _ => isTrue trivial
  | .event _ _ => isTrue trivial
  | .runPosted _ _ => isTrue trivial

/-- Topics and their callbacks belong together, and so do posted handlers and topics. -/
structure Sound (p : Process) : Prop where
  installed : p.topics.Installed
  owned : p.topics.Owned
  posted : ∀ i topicInfo, .onFindPublisher i topicInfo ∈ p.posted →
    ∀ subscriber, p.subscribers[i]? = some subscriber →
      subscriber.registerState = .unregistered ∨ subscriber.name = topicInfo.topic

variable {deserialize : List UInt8 → Option MasterNotification} {p p' : Process}
  {a : ProcessAction} {effects : List ProcessEffect}

theorem Sound.of_initial (h : (process deserialize).Initial p) : p.Sound := by
  obtain ⟨hwatcher, hsubscribers, -, hposted⟩ := h
  refine ⟨Routing.installed_of_unregistered hsubscribers, ?_, ?_⟩
  · intro name i hfind
    rw [topics, hwatcher] at hfind
    cases hfind
  · intro i topicInfo hmem
    rw [hposted] at hmem
    cases hmem

theorem registerState_of_onFind {registrant : Registrant} {isStopping : Bool}
    (h : registrant.onFind isStopping = .goesOn) : registrant.registerState = .registered := by
  unfold Registrant.onFind at h
  split_ifs at h with hunderway hunregistered
  cases hstate : registrant.registerState with
  | registered => rfl
  | registering => exact absurd (.inl hstate) hunderway
  | unregistering => exact absurd (.inr (.inl hstate)) hunderway
  | unregistered => exact absurd hstate hunregistered

/-- Assumes: a handler that goes on. Its subscriber is registered. -/
theorem registered_of_goesOn {isStopping : Bool} {i : ℕ} {topicInfo : TopicInfo}
    (h : p.outcome isStopping (.onFindPublisher i topicInfo) = .goesOn) :
    ∃ name, p.subscribers[i]? = some ⟨.registered, name⟩ := by
  change p.subscribers[i]?.elim .returns (·.onFind isStopping) = .goesOn at h
  cases hi : p.subscribers[i]? with
  | none => simp [hi] at h
  | some subscriber =>
    rw [hi, Option.elim_some] at h
    exact ⟨subscriber.name, by rw [← registerState_of_onFind h]⟩

/-- Assumes: a sound process, and handlers for the topics of their subscribers. -/
theorem Sound.runTasks (h : p.Sound) (isStopping : Bool) {tasks : List FindTask}
    (htasks : ∀ i topicInfo, .onFindPublisher i topicInfo ∈ tasks →
      ∀ subscriber, p.subscribers[i]? = some subscriber →
        subscriber.registerState = .unregistered ∨ subscriber.name = topicInfo.topic) :
    (p.runTasks isStopping tasks).1.Sound ∧
      ∀ i topicInfo, .found (.onFindPublisher i topicInfo) ∈ (p.runTasks isStopping tasks).2 →
        p.subscribers[i]? = some ⟨.registered, topicInfo.topic⟩ := by
  refine ⟨⟨h.installed, h.owned, ?_⟩, ?_⟩
  · intro i topicInfo hmem
    rcases List.mem_append.mp hmem with hold | hnew
    · exact h.posted i topicInfo hold
    · exact htasks i topicInfo (List.mem_filter.mp hnew).1
  · intro i topicInfo hmem
    obtain ⟨task, htask, heq⟩ := List.mem_map.mp hmem
    cases heq
    obtain ⟨hin, hgoes⟩ := List.mem_filter.mp htask
    obtain ⟨name, hi⟩ := registered_of_goesOn (of_decide_eq_true hgoes)
    have hname : name = topicInfo.topic := (htasks i topicInfo hin _ hi).resolve_left (by simp)
    rw [hi, hname]

/-- Assumes: a sound process. Handlers of the callbacks that an event runs are for the topics of
their subscribers. -/
theorem Sound.addressed (h : p.Sound) {effects : List WatcherEffect}
    (hannounced : p.watcher.Announced effects) {i : ℕ} {topicInfo : TopicInfo}
    (hmem : .topicInfoCallback i topicInfo ∈ effects) :
    ∃ subscriber, p.subscribers[i]? = some subscriber ∧ subscriber.awaits = true ∧
      subscriber.name = topicInfo.topic :=
  h.owned _ _ (hannounced.find_topic hmem)

/-- Assumes: an action of a subscriber. What was posted is still for the topic that it asked for. -/
theorem Sound.posted_step (h : p.Sound) {i : ℕ} {a : RoutingAction} {r : Routing}
    {answers : List Status} (hunposted : p.unposted i a = true)
    (hstep : p.topics.step i a = some (r, answers)) {j : ℕ} {topicInfo : TopicInfo}
    (hmem : .onFindPublisher j topicInfo ∈ p.posted) {subscriber : Registrant}
    (hj : r.registrants[j]? = some subscriber) :
    subscriber.registerState = .unregistered ∨ subscriber.name = topicInfo.topic := by
  have hold := h.posted j topicInfo hmem
  cases Routing.step_cases hstep with
  | idle => exact hold subscriber hj
  | request topic hi =>
    rw [getElem?_set_of_some hi] at hj
    split_ifs at hj with hij
    · cases hj
      have hposted := List.all_eq_true.mp hunposted _ hmem
      refine .inr (Eq.symm ?_)
      simpa [hij] using hposted
    · exact hold subscriber hj
  | @replied registrant _ hi hstate | @undo registrant _ hi hstate
  | @undone registrant _ hi hstate =>
    rw [Routing.getElem?_setState hi] at hj
    by_cases hij : j = i
    · rw [if_pos hij] at hj
      cases hj
      have hname : registrant.name = topicInfo.topic :=
        (hold registrant (hij ▸ hi)).resolve_left (by simp [hstate])
      exact .inr hname
    · rw [if_neg hij] at hj
      exact hold subscriber hj

/-- Assumes: a sound process, and another watcher with the same callbacks. -/
theorem Sound.withWatcher (h : p.Sound) {w : MasterNotificationWatcher}
    (hsame : p.watcher.SameCallbacks w) : Sound { p with watcher := w } := by
  have htopics : topics { p with watcher := w } = p.topics := by
    simp [topics, hsame.topics]
  exact ⟨htopics ▸ h.installed, htopics ▸ h.owned, h.posted⟩

/-- Assumes: a sound process. The handlers of the callbacks that an event runs are for the topics of
their subscribers. -/
theorem Sound.tasks (h : p.Sound) {effects : List WatcherEffect}
    (hannounced : p.watcher.Announced effects) {i : ℕ} {topicInfo : TopicInfo}
    (hmem : .onFindPublisher i topicInfo ∈ effects.filterMap WatcherEffect.task?)
    {subscriber : Registrant} (hi : p.subscribers[i]? = some subscriber) :
    subscriber.registerState = .unregistered ∨ subscriber.name = topicInfo.topic := by
  obtain ⟨effect, heffect, htask⟩ := List.mem_filterMap.mp hmem
  cases effect with
  | topicInfoCallback j announced =>
    cases htask
    obtain ⟨owner, howner, -, hname⟩ := h.addressed hannounced heffect
    rw [hi] at howner
    cases howner
    exact .inr hname
  | failedToAccept | newMasterNotification | allTopicInfoCallback | serviceInfoCallback =>
    simp [WatcherEffect.task?] at htask

/-- Assumes: a sound process in which a posted handler is run. -/
theorem Sound.runPosted (h : p.Sound) {n : ℕ} {task : FindTask} (hn : p.posted[n]? = some task)
    (isStopping : Bool) :
    let result := Process.runTasks { p with posted := p.posted.eraseIdx n } isStopping [task]
    result.1.Sound ∧ ∀ i topicInfo, .found (.onFindPublisher i topicInfo) ∈ result.2 →
      p.subscribers[i]? = some ⟨.registered, topicInfo.topic⟩ := by
  have herased : Sound { p with posted := p.posted.eraseIdx n } := by
    refine ⟨h.installed, h.owned, fun i topicInfo hmem ↦ ?_⟩
    exact h.posted i topicInfo (List.mem_of_mem_eraseIdx hmem)
  refine herased.runTasks isStopping fun i topicInfo hmem ↦ h.posted i topicInfo ?_
  rw [List.mem_singleton] at hmem
  rw [hmem]
  exact List.mem_of_getElem? hn

theorem Sound.step (h : p.Sound) (hguard : p.Orderly a)
    (hstep : p.step deserialize a = some (p', effects)) : p'.Sound := by
  cases a with
  | subscriber i a =>
    obtain ⟨hunshared, hown, haccepted, hreleased, hunposted⟩ := hguard
    obtain ⟨⟨r, answers⟩, hrouting, heq⟩ := Option.map_eq_some_iff.mp hstep
    cases heq
    exact ⟨h.installed.step hunshared hown hreleased hrouting, h.owned.step hown haccepted hrouting,
      fun j topicInfo hmem subscriber ↦ h.posted_step hunposted hrouting hmem⟩
  | serviceClient i a =>
    obtain ⟨⟨r, answers⟩, -, heq⟩ := Option.map_eq_some_iff.mp hstep
    cases heq
    exact ⟨h.installed, h.owned, h.posted⟩
  | event event isStopping =>
    cases hstep
    obtain ⟨hsame, hannounced⟩ := p.watcher.step_announced deserialize event
    exact ((h.withWatcher hsame).runTasks isStopping
      fun i topicInfo hmem subscriber hi ↦ h.tasks hannounced hmem hi).1
  | runPosted n isStopping =>
    simp only [Process.step] at hstep
    cases hn : p.posted[n]? with
    | none =>
      rw [hn] at hstep
      cases hstep
      exact h
    | some task =>
      rw [hn] at hstep
      cases hstep
      exact (h.runPosted hn isStopping).1

/-- Assumes: a sound process. What an event does goes where it should. -/
theorem Sound.routes_event (h : p.Sound) {effects : List WatcherEffect} {found : List ProcessEffect}
    (hannounced : p.watcher.Announced effects)
    (hfound : ∀ i topicInfo, .found (.onFindPublisher i topicInfo) ∈ found →
      p.subscribers[i]? = some ⟨.registered, topicInfo.topic⟩)
    (hwatcher : ∀ effect, .watcher effect ∉ found) :
    p.Routes (effects.map .watcher ++ found) := by
  have hmem (effect : WatcherEffect) :
      .watcher effect ∈ effects.map ProcessEffect.watcher ++ found ↔ effect ∈ effects := by
    simp [hwatcher]
  refine ⟨?_, ?_, ?_⟩
  · intro notification topicInfo hnotification htopic i hi
    have hcount : (effects.map ProcessEffect.watcher).count
        (.watcher (.topicInfoCallback i topicInfo)) =
        effects.count (.topicInfoCallback i topicInfo) :=
      List.count_map_of_injective effects _ (fun _ _ ↦ ProcessEffect.watcher.inj) _
    rw [List.count_append, List.count_eq_zero_of_not_mem (hwatcher _), Nat.add_zero, hcount]
    exact hannounced.count_topic ((hmem _).mp hnotification) htopic
      (h.installed i _ hi rfl)
  · intro i topicInfo hcallback
    exact h.addressed hannounced ((hmem _).mp hcallback)
  · intro i topicInfo hin
    exact hfound i topicInfo (by simpa using hin)

/-- Assumes: a step without a callback in it. -/
theorem Routes.of_quiet (hwatcher : ∀ effect, .watcher effect ∉ effects)
    (hfound : ∀ i topicInfo, .found (.onFindPublisher i topicInfo) ∈ effects →
      p.subscribers[i]? = some ⟨.registered, topicInfo.topic⟩) : p.Routes effects where
  delivered _ _ hmem := absurd hmem (hwatcher _)
  addressed _ _ hmem := absurd hmem (hwatcher _)
  found := hfound

theorem watcher_not_mem_runTasks (p : Process) (isStopping : Bool) (tasks : List FindTask)
    (effect : WatcherEffect) : .watcher effect ∉ (p.runTasks isStopping tasks).2 := by
  simp [Process.runTasks]

theorem Sound.routes (h : p.Sound) (hstep : p.step deserialize a = some (p', effects)) :
    p.Routes effects := by
  cases a with
  | subscriber i a | serviceClient i a =>
    obtain ⟨⟨r, answers⟩, -, heq⟩ := Option.map_eq_some_iff.mp hstep
    cases heq
    exact .of_quiet (by simp) (by simp)
  | event event isStopping =>
    cases hstep
    obtain ⟨hsame, hannounced⟩ := p.watcher.step_announced deserialize event
    have hfound := ((h.withWatcher hsame).runTasks isStopping
      fun i topicInfo hmem subscriber hi ↦ h.tasks hannounced hmem hi).2
    exact h.routes_event hannounced hfound (watcher_not_mem_runTasks _ _ _)
  | runPosted n isStopping =>
    simp only [Process.step] at hstep
    cases hn : p.posted[n]? with
    | none =>
      rw [hn] at hstep
      cases hstep
      exact .of_quiet (by simp) (by simp)
    | some task =>
      rw [hn] at hstep
      cases hstep
      exact .of_quiet (watcher_not_mem_runTasks _ _ _) (h.runPosted hn isStopping).2

/-- In every run in which a subscriber asks for a topic only when no other one waits for it and no
handler of it is posted for another topic, gives up its own topic, and is not refused by the master,
every step routes: a notification runs the callback of each registered subscriber of its topic once
and no other, and a handler that goes on is one of a registered subscriber of the topic. -/
theorem notifications_routed (deserialize : List UInt8 → Option MasterNotification) (p : Process)
    (hreach : Reachable (process deserialize) Orderly p) (a : ProcessAction) (p' : Process)
    (effects : List ProcessEffect) (hstep : p.step deserialize a = some (p', effects)) :
    p.Routes effects := by
  have hsound : p.Sound := by
    refine hreach.invariant (fun p hinitial ↦ Sound.of_initial hinitial) ?_
    exact fun p a p' effects hp hguard hstep ↦ hp.step hguard hstep
  exact hsound.routes hstep

end Process

namespace Scenario

/-- A process with two subscribers and a service client. -/
def subscribingProcess : Process where
  watcher := MasterNotificationWatcher.start {}
  subscribers := [{}, {}]
  serviceClients := [{}]

/-- A subscriber asks for a topic, and the master accepts. -/
def subscribed (i : ℕ) (topic : String) : List ProcessAction :=
  [.subscriber i (.request topic), .subscriber i (.onReply .OK)]

/-- A connection is accepted, and the size of a message is received on it. -/
def connected : List ProcessAction :=
  [.event (.accepted .OK) false, .event (.received .header .OK [1, 0, 0, 0]) false]

/-- The message is received. -/
def notified : ProcessAction := .event (.received (.message 1) .OK [7]) false

/-- That the topic is published. -/
def notification : MasterNotification := { topicInfo := some { topic := "topic" } }

end Scenario

namespace Process

theorem initial_subscribingProcess :
    (process Scenario.parsesTopic).Initial Scenario.subscribingProcess :=
  ⟨rfl, by simp [Scenario.subscribingProcess], by simp [Scenario.subscribingProcess], rfl⟩

/-- Two subscribers of different topics, and a notification for the first. -/
theorem notifications_routed_of_two_topics :
    ∃ p p' effects, Reachable (process Scenario.parsesTopic) Orderly p ∧
      p.step Scenario.parsesTopic Scenario.notified = some (p', effects) ∧
      .watcher (.newMasterNotification Scenario.notification) ∈ effects ∧
      p.subscribers = [⟨.registered, "topic"⟩, ⟨.registered, "other"⟩] ∧ p.Routes effects := by
  have hexec : ((process Scenario.parsesTopic).exec Orderly Scenario.subscribingProcess []
      (Scenario.subscribed 0 "topic" ++ Scenario.subscribed 1 "other" ++ Scenario.connected)).map
      (fun result ↦ (result.1.subscribers,
        (result.1.step Scenario.parsesTopic Scenario.notified).map
          fun next ↦ decide (.watcher (.newMasterNotification Scenario.notification) ∈ next.2))) =
      some ([⟨.registered, "topic"⟩, ⟨.registered, "other"⟩], some true) := by
    decide +kernel
  obtain ⟨⟨p, history⟩, hrun, heq⟩ := Option.map_eq_some_iff.mp hexec
  obtain ⟨hsubscribers, hnext⟩ := Prod.mk.inj heq
  obtain ⟨⟨p', effects⟩, hstep, hmem⟩ := Option.map_eq_some_iff.mp hnext
  have hreach : Reachable (process Scenario.parsesTopic) Orderly p :=
    ⟨history, (Run.start initial_subscribingProcess).of_exec hrun⟩
  exact ⟨p, p', effects, hreach, hstep, of_decide_eq_true hmem, hsubscribers,
    notifications_routed Scenario.parsesTopic p hreach Scenario.notified p' effects hstep⟩

/-- Two subscribers of one topic: the callback of the second replaces that of the first, and the
first is registered but not run. -/
theorem shared_topic_not_routed :
    ¬ ∀ deserialize p, Reachable (process deserialize) unguarded p →
      ∀ a p' effects, p.step deserialize a = some (p', effects) → p.Routes effects := by
  intro h
  have hexec : ((process Scenario.parsesTopic).exec unguarded Scenario.subscribingProcess []
      (Scenario.subscribed 0 "topic" ++ Scenario.subscribed 1 "topic" ++ Scenario.connected)).map
      (fun result ↦ (result.1.subscribers[0]?,
        (result.1.step Scenario.parsesTopic Scenario.notified).map (·.2))) =
      some (some ⟨.registered, "topic"⟩, some
        [.watcher (.newMasterNotification Scenario.notification),
          .watcher (.topicInfoCallback 1 { topic := "topic" }),
          .found (.onFindPublisher 1 { topic := "topic" })]) := by
    decide +kernel
  obtain ⟨⟨p, history⟩, hrun, heq⟩ := Option.map_eq_some_iff.mp hexec
  obtain ⟨hfirst, hnext⟩ := Prod.mk.inj heq
  obtain ⟨⟨p', effects⟩, hstep, heffects⟩ := Option.map_eq_some_iff.mp hnext
  have run := (Run.start initial_subscribingProcess).of_exec hrun
  have hroutes := h Scenario.parsesTopic p ⟨history, run⟩ Scenario.notified p' effects hstep
  dsimp only at heffects hfirst
  rw [heffects] at hroutes
  have hcount := hroutes.delivered Scenario.notification { topic := "topic" } (by decide) rfl 0
    hfirst
  exact absurd hcount (by decide)

end Process

end Felicia
