import Felicia.Master.Registration
import Felicia.Master.ServiceAnnouncements

/-!
# What a node was told last

A node that subscribes to a topic, a node that requests a service and the watcher follow what the
master knows through the notifications `DoNotifyClient` sends them. `latest` over the history of a
run gives what each was told last since it started to listen; a node is named by its client and its
name.

`Heard` is what one step has to do for the listeners of one kind: everything it says agrees with the
registry after it, and every listener either was one before and is told of any change, or starts to
listen and is told what is stored. `Heard.agrees` is the step lemma, over an arbitrary kind of
listener; `heard_subscriber`, `heard_serviceClient` and `heard_watcher` instantiate it. The watcher
needs a run in which no watcher is added beside another: `NotifyWatcher` tells only the first
watcher that `FindNodes` yields.
-/

set_option autoImplicit false
set_option relaxedAutoImplicit false

namespace Felicia

open Support TransitionSystem

/-! ### The notifications for one node -/

/-- Two infos that name the same node. -/
def NodeInfo.names (a b : NodeInfo) : Bool := a.clientId = b.clientId ∧ a.name = b.name

namespace Effect

/-- What an effect tells a node about a topic. -/
def tellsTopic (topic : String) (key : NodeInfo) : Effect → Option TopicInfo
  | .notify nodeInfo _ notification =>
    if nodeInfo.names key then notification.topicInfo.filter (·.topic = topic) else none
  | _ => none

/-- What an effect tells a node about a service. -/
def tellsService (service : String) (key : NodeInfo) : Effect → Option ServiceInfo
  | .notify nodeInfo _ notification =>
    if nodeInfo.names key then notification.serviceInfo.filter (·.service = service) else none
  | _ => none

/-- The node subscribes to a topic. -/
def subscribes (topic : String) (key : NodeInfo) : Effect → Bool
  | .log (.subscribeTopic nodeInfo subscribed) => nodeInfo.names key && subscribed = topic
  | _ => false

/-- The node starts to request a service. -/
def requests (service : String) (key : NodeInfo) : Effect → Bool
  | .log (.registerServiceClient nodeInfo requested) => nodeInfo.names key && requested = service
  | _ => false

/-- The node is registered. -/
def joins (key : NodeInfo) : Effect → Bool
  | .log (.addNode nodeInfo) => nodeInfo.names key
  | _ => false

theorem of_tellsTopic {topic : String} {key : NodeInfo} {e : Effect} {info : TopicInfo}
    (h : info ∈ e.tellsTopic topic key) : info ∈ e.topicInfo? ∧ info.topic = topic := by
  cases e with
  | notify nodeInfo source notification =>
    simp only [tellsTopic, Option.mem_def] at h
    split_ifs at h
    obtain ⟨hinfo, htopic⟩ := Option.filter_eq_some_iff.mp h
    exact ⟨hinfo, of_decide_eq_true htopic⟩
  | reply | respond | ros | log => cases h

theorem of_tellsService {service : String} {key : NodeInfo} {e : Effect} {info : ServiceInfo}
    (h : info ∈ e.tellsService service key) :
    info ∈ e.serviceInfo? ∧ info.service = service := by
  cases e with
  | notify nodeInfo source notification =>
    simp only [tellsService, Option.mem_def] at h
    split_ifs at h
    obtain ⟨hinfo, hservice⟩ := Option.filter_eq_some_iff.mp h
    exact ⟨hinfo, of_decide_eq_true hservice⟩
  | reply | respond | ros | log => cases h

theorem subscribes_eq_false {topic : String} {e : Effect} (h : e.opensTopic topic = false)
    (key : NodeInfo) : e.subscribes topic key = false := by
  unfold subscribes
  split
  · simp only [opensTopic, decide_eq_false_iff_not] at h
    simp [h]
  · rfl

theorem joins_eq_false {topic : String} {e : Effect} (h : e.opensTopic topic = false)
    (key : NodeInfo) : e.joins key = false := by
  unfold joins
  split
  · cases h
  · rfl

theorem requests_eq_false {service : String} {e : Effect} (h : e.opensService service = false)
    (key : NodeInfo) : e.requests service key = false := by
  unfold requests
  split
  · simp only [opensService, decide_eq_false_iff_not] at h
    simp [h]
  · rfl

end Effect

@[simp] theorem NodeInfo.names_self (a : NodeInfo) : a.names a = true := by simp [names]

/-- What a node was told last about a topic since it subscribed to it. -/
def lastTopicInfo (history : List Effect) (topic : String) (key : NodeInfo) : Option TopicInfo :=
  latest (·.subscribes topic key) (·.tellsTopic topic key) history

/-- What a node was told last about a service since it requested it. -/
def lastServiceInfo (history : List Effect) (service : String) (key : NodeInfo) :
    Option ServiceInfo :=
  latest (·.requests service key) (·.tellsService service key) history

/-- What a watcher was told last about a topic since it was registered. -/
def lastWatchedInfo (history : List Effect) (topic : String) (key : NodeInfo) :
    Option TopicInfo :=
  latest (·.joins key) (·.tellsTopic topic key) history

/-! ### One step, for the listeners of one kind -/

section Heard

variable {α : Type} {get : Node → Option α} {withdrawn : α → Prop} {listens : Node → Bool}
  {starts : NodeInfo → Effect → Bool} {tells : NodeInfo → Effect → Option α}

/-- What a step does for those who listen. -/
structure Heard (get : Node → Option α) (withdrawn : α → Prop) (listens : Node → Bool)
    (starts : NodeInfo → Effect → Bool) (tells : NodeInfo → Effect → Option α) (r r' : Registry)
    (effects : List Effect) : Prop where
  consistent : ∀ key, ∀ e ∈ effects, ∀ x ∈ tells key e, Agrees (r'.Stored get) withdrawn (some x)
  covered : ∀ n ∈ r'.nodes, listens n = true →
    ((∃ m ∈ r.nodes, m.nodeInfo = n.nodeInfo ∧ listens m = true) ∧
        (∀ e ∈ effects, starts n.nodeInfo e = false) ∧
        ((∀ x, r'.Stored get x ↔ r.Stored get x) ∨
          ∃ e ∈ effects, (tells n.nodeInfo e).isSome = true)) ∨
      ∃ start rest, effects = start :: rest ∧ starts n.nodeInfo start = true ∧
        (∀ e ∈ rest, starts n.nodeInfo e = false) ∧
        ((∀ x, ¬ r'.Stored get x) ∨ ∃ e ∈ rest, (tells n.nodeInfo e).isSome = true)

/-- Assumes: a step that does right by the listeners, who agreed with the registry before. -/
theorem Heard.agrees {r r' : Registry} {history effects : List Effect}
    (h : Heard get withdrawn listens starts tells r r' effects)
    (hbefore : ∀ n ∈ r.nodes, listens n = true → Agrees (r.Stored get) withdrawn
      (latest (starts n.nodeInfo) (tells n.nodeInfo) history))
    {n : Node} (hn : n ∈ r'.nodes) (hlistens : listens n = true) :
    Agrees (r'.Stored get) withdrawn
      (latest (starts n.nodeInfo) (tells n.nodeInfo) (history ++ effects)) := by
  rw [latest_append]
  rcases h.covered n hn hlistens with
    ⟨⟨m, hm, hinfo, hlistensm⟩, hstarts, htold⟩ | ⟨start, rest, rfl, hstart, hrest, htold⟩
  · refine Agrees.latestFrom hstarts (h.consistent n.nodeInfo) (htold.imp_left fun hsame ↦ ?_)
    have hagrees := hbefore m hm hlistensm
    rw [hinfo] at hagrees
    exact hagrees.congr hsame
  · rw [latestFrom_cons_start hstart]
    exact Agrees.latestFrom hrest
      (fun e he ↦ h.consistent n.nodeInfo e (List.mem_cons_of_mem _ he)) htold

end Heard

/-! ### Subscribers -/

section Listeners

variable {topic service : String} {r r' : Registry} {effects : List Effect}

theorem Effect.isSome_tellsTopic {nodeInfo key : NodeInfo} (hkey : nodeInfo.names key = true)
    (source : ChannelSource) {info : TopicInfo} (htopic : info.topic = topic) :
    ((Effect.notify nodeInfo source { topicInfo := some info }).tellsTopic topic key).isSome =
      true := by
  simp [tellsTopic, hkey, htopic]

theorem Effect.isSome_tellsService {nodeInfo key : NodeInfo} (hkey : nodeInfo.names key = true)
    (source : ChannelSource) {info : ServiceInfo} (hservice : info.service = service) :
    ((Effect.notify nodeInfo source { serviceInfo := some info }).tellsService service key).isSome =
      true := by
  simp [tellsService, hkey, hservice]

/-- Assumes: something that neither the log line nor the reply of a handler has. -/
theorem Effect.mem_of_log_reply {α : Type} {f : Effect → Option α} {info : α} {e : Effect}
    {entry : LogEntry} {callback : StatusOnceCallback} {status : Status} (hinfo : info ∈ f e)
    (he : e ∈ .log entry :: .reply callback status :: effects) (hlog : f (.log entry) = none)
    (hreply : f (.reply callback status) = none) : e ∈ effects := by
  rcases List.mem_cons.mp he with rfl | he
  · rw [hlog] at hinfo
    cases hinfo
  rcases List.mem_cons.mp he with rfl | he
  · rw [hreply] at hinfo
    cases hinfo
  exact he

/-- Assumes: a node that joins. It publishes nothing. -/
theorem Registry.published_joined {nodeInfo : NodeInfo}
    (hnodes : r'.nodes.Perm ({ nodeInfo } :: r.nodes)) (info : TopicInfo) :
    r'.Published topic info ↔ r.Published topic info := by
  simp [Registry.Published, Registry.Stored, hnodes.mem_iff, Node.getTopicInfo]

/-- Assumes: an operation on a node that was found. Every node after it is the one named or was
there before. -/
theorem Registry.names_or_mem (hkeyed : r.Keyed) {nodeInfo : NodeInfo} {m n : Node}
    {f : Node → Node} (hfind : r.findNode nodeInfo = some m) (hf : Node.KeepsInfo f)
    (hn : n ∈ (r.updateNode nodeInfo f).nodes) :
    nodeInfo.names n.nodeInfo = true ∨ n ∈ r.nodes := by
  obtain ⟨-, hname, hid⟩ := findNode_spec hkeyed hfind
  obtain ⟨-, hnew, -⟩ := mem_nodes_updateNode hfind f
  refine (hnew n hn).imp_left ?_
  rintro rfl
  rw [hf m]
  exact decide_eq_true ⟨hid.symm, hname.symm⟩

/-- Assumes: clients stored under their ids. The client of a registered node is there. -/
theorem Registry.find_client_of_names (hkeyed : r.Keyed) {nodeInfo : NodeInfo} {n : Node}
    (hn : n ∈ r.nodes) (hkey : nodeInfo.names n.nodeInfo = true) :
    ∃ client, r.clientMap.find nodeInfo.clientId = some client := by
  obtain ⟨id, client, hclient, hmem⟩ := r.mem_nodes_iff.mp hn
  have hid : n.nodeInfo.clientId = id := (hkeyed id client hclient).2 n hmem
  have hkeyid : nodeInfo.clientId = n.nodeInfo.clientId := (of_decide_eq_true hkey).1
  exact ⟨client, by rwa [hkeyid, hid]⟩

namespace TopicCase

/-- Assumes: infos stored under their own names. What a step says about a topic agrees with the
registry after it. -/
theorem consistent (h : TopicCase topic r r' effects) (hlabelled' : ∀ n ∈ r'.nodes, n.Labelled)
    {e : Effect} (he : e ∈ effects) {info : TopicInfo} (hinfo : info ∈ e.topicInfo?)
    (htopic : info.topic = topic) :
    Agrees (r'.Published topic) (·.status = .unregistered) (some info) := by
  cases h with
  | quiet _ hsaid => exact Or.inl (hsaid e he info hinfo htopic)
  | joined heffects =>
    rw [heffects] at he
    replace he := Effect.mem_of_log_reply hinfo he rfl rfl
    split_ifs at he
    · obtain ⟨nodeInfo, i, source, hpublished, rfl⟩ := Registry.of_mem_notifyWatcher hlabelled' he
      obtain rfl : i = info := Option.some.inj hinfo
      exact Or.inl (htopic ▸ hpublished)
    · cases he
  | published _ heffects hpublished =>
    rw [heffects] at he
    replace he := Effect.mem_of_log_reply hinfo he rfl rfl
    obtain ⟨nodeInfo, source, rfl⟩ := Registry.of_mem_notifyAllSubscribers he
    exact Or.inl ((hpublished info).mpr (Option.some.inj hinfo).symm)
  | withdrawn _ _ _ _ hsaid hpublished =>
    exact Or.inr ⟨hpublished, hsaid e he info hinfo htopic⟩
  | subscribed _ heffects =>
    rw [heffects] at he
    replace he := Effect.mem_of_log_reply hinfo he rfl rfl
    obtain ⟨i, source, hpublished, rfl⟩ := Registry.of_mem_notifySubscriber he
    obtain rfl : i = info := Option.some.inj hinfo
    exact Or.inl hpublished

/-- Assumes: a step that announces the topic to everyone who listens. -/
theorem announced (topic : String) {nodeInfo : NodeInfo} {callback : StatusOnceCallback}
    {info : TopicInfo}
    (heffects : effects = .log (.publishTopic nodeInfo info.topic) :: .reply callback .OK ::
      r'.notifyAllSubscribers info) :
    (∀ e ∈ effects, e.opensTopic topic = false) ∧ r'.notifyAllSubscribers info ⊆ effects := by
  subst heffects
  refine ⟨List.forall_mem_cons.mpr ⟨rfl, List.forall_mem_cons.mpr ⟨rfl, fun e he ↦ ?_⟩⟩,
    fun e he ↦ List.mem_cons_of_mem _ (List.mem_cons_of_mem _ he)⟩
  obtain ⟨nodeInfo, source, rfl⟩ := Registry.of_mem_notifyAllSubscribers he
  rfl

end TopicCase

/-- Assumes: clients stored under their ids and infos under their own names, after the step. -/
theorem heard_subscriber (hname : topic ≠ "") (hkeyed : r.Keyed) (hkeyed' : r'.Keyed)
    (hlabelled' : ∀ n ∈ r'.nodes, n.Labelled) (h : TopicCase topic r r' effects) :
    Heard (·.getTopicInfo topic) (·.status = .unregistered) (·.isSubscribingTopic topic)
      (fun key e ↦ e.subscribes topic key) (fun key e ↦ e.tellsTopic topic key) r r' effects := by
  refine ⟨fun key e he x hx ↦ ?_, fun n hn hsub ↦ ?_⟩
  · obtain ⟨hinfo, htopic⟩ := Effect.of_tellsTopic hx
    exact h.consistent hlabelled' he hinfo htopic
  -- Everyone who listens is told when the topic is announced.
  have htold {info : TopicInfo} (htopic : info.topic = topic)
      (hall : r'.notifyAllSubscribers info ⊆ effects) :
      ∃ e ∈ effects, (e.tellsTopic topic n.nodeInfo).isSome = true := by
    subst htopic
    obtain ⟨source, hsource⟩ := Registry.exists_notify_subscriber hkeyed' hname hn hsub
    exact ⟨_, hall hsource, Effect.isSome_tellsTopic n.nodeInfo.names_self source rfl⟩
  have hfollowed (hnodes : Followed topic r r') :
      ∃ m ∈ r.nodes, m.nodeInfo = n.nodeInfo ∧ m.isSubscribingTopic topic = true := by
    obtain ⟨m, hm, hinfo, hsame⟩ := hnodes n hn
    exact ⟨m, hm, hinfo, hsame hsub⟩
  cases h with
  | quiet hopens _ hpublished hnodes =>
    exact Or.inl ⟨hfollowed hnodes, fun e he ↦ Effect.subscribes_eq_false (hopens e he) _,
      Or.inl hpublished⟩
  | joined heffects hnodes =>
    refine Or.inl ⟨?_, ?_, Or.inl (Registry.published_joined hnodes)⟩
    · rcases List.mem_cons.mp (hnodes.subset hn) with rfl | hold
      · cases hsub
      · exact ⟨n, hold, rfl, hsub⟩
    · subst heffects
      refine List.forall_mem_cons.mpr ⟨rfl, List.forall_mem_cons.mpr ⟨rfl, fun e he ↦ ?_⟩⟩
      split_ifs at he
      · obtain ⟨nodeInfo, info, source, -, rfl⟩ := Registry.of_mem_notifyWatcher hlabelled' he
        rfl
      · cases he
  | published htopic heffects _ hnodes =>
    obtain ⟨hopens, hall⟩ := TopicCase.announced topic heffects
    exact Or.inl ⟨hfollowed hnodes, fun e he ↦ Effect.subscribes_eq_false (hopens e he) _,
      Or.inr (htold htopic hall)⟩
  | withdrawn htopic _ hall hopens _ _ hnodes =>
    exact Or.inl ⟨hfollowed hnodes, fun e he ↦ Effect.subscribes_eq_false (hopens e he) _,
      Or.inr (htold htopic hall)⟩
  | @subscribed nodeInfo callback m hfind heffects hpublished hr' =>
    have hrest (e : Effect) (he : e ∈ r'.notifySubscriber topic nodeInfo) :
        e.subscribes topic n.nodeInfo = false := by
      obtain ⟨info, source, -, rfl⟩ := Registry.of_mem_notifySubscriber he
      rfl
    by_cases hkey : nodeInfo.names n.nodeInfo = true
    · refine Or.inr ⟨_, _, heffects, by simp [Effect.subscribes, hkey],
        List.forall_mem_cons.mpr ⟨rfl, hrest⟩, ?_⟩
      by_cases hnone : ∀ x, ¬ r'.Published topic x
      · exact Or.inl hnone
      · obtain ⟨x, hx⟩ := not_forall_not.mp hnone
        obtain ⟨client, hclient⟩ := Registry.find_client_of_names hkeyed' hn hkey
        obtain ⟨e, he, info, source, rfl, l, hl, hinfo⟩ :=
          Registry.exists_mem_notifySubscriber hname hx hclient
        exact Or.inr ⟨_, List.mem_cons_of_mem _ he,
          Effect.isSome_tellsTopic hkey source ((hlabelled' l hl).1 topic info hinfo)⟩
    · refine Or.inl ⟨⟨n, ?_, rfl, hsub⟩, ?_, Or.inl hpublished⟩
      · rw [hr'] at hn
        exact (Registry.names_or_mem hkeyed hfind
          (Node.keepsInfo_registerSubscribingTopic topic) hn).resolve_left hkey
      · rw [heffects]
        exact List.forall_mem_cons.mpr ⟨by simp [Effect.subscribes, hkey],
          List.forall_mem_cons.mpr ⟨rfl, hrest⟩⟩

/-! ### Service clients -/

/-- What a step says about a service agrees with the registry after it. -/
theorem ServiceCase.consistent (h : ServiceCase service r r' effects) {e : Effect}
    (he : e ∈ effects) {info : ServiceInfo} (hinfo : info ∈ e.serviceInfo?)
    (hservice : info.service = service) :
    Agrees (r'.Served service) (·.status = .unregistered) (some info) := by
  cases h with
  | quiet hsilent => exact absurd hservice ((hsilent e he).2 info hinfo)
  | served _ heffects hserved =>
    rw [heffects] at he
    replace he := Effect.mem_of_log_reply hinfo he rfl rfl
    obtain ⟨nodeInfo, source, rfl⟩ := Registry.of_mem_notifyAllServiceClients he
    exact Or.inl ((hserved info).mpr (Option.some.inj hinfo).symm)
  | withdrawn _ _ _ _ hsaid hserved => exact Or.inr ⟨hserved, hsaid e he info hinfo hservice⟩
  | requested _ heffects =>
    rw [heffects] at he
    replace he := Effect.mem_of_log_reply hinfo he rfl rfl
    obtain ⟨i, source, hserved, rfl⟩ := Registry.of_mem_notifyServiceClient he
    obtain rfl : i = info := Option.some.inj hinfo
    exact Or.inl hserved

/-- Assumes: clients stored under their ids and infos under their own names. -/
theorem heard_serviceClient (hname : service ≠ "") (hkeyed : r.Keyed) (hkeyed' : r'.Keyed)
    (hlabelled' : ∀ n ∈ r'.nodes, n.Labelled) (h : ServiceCase service r r' effects) :
    Heard (·.getServiceInfo service) (·.status = .unregistered) (·.isRequestingService service)
      (fun key e ↦ e.requests service key) (fun key e ↦ e.tellsService service key) r r'
      effects := by
  refine ⟨fun key e he x hx ↦ ?_, fun n hn hreq ↦ ?_⟩
  · obtain ⟨hinfo, hservice⟩ := Effect.of_tellsService hx
    exact h.consistent he hinfo hservice
  have htold {info : ServiceInfo} (hservice : info.service = service)
      (hall : r'.notifyAllServiceClients info ⊆ effects) :
      ∃ e ∈ effects, (e.tellsService service n.nodeInfo).isSome = true := by
    subst hservice
    obtain ⟨source, hsource⟩ := Registry.exists_notify_serviceClient hkeyed' hname hn hreq
    exact ⟨_, hall hsource, Effect.isSome_tellsService n.nodeInfo.names_self source rfl⟩
  cases h with
  | quiet hsilent hserved hnodes =>
    exact Or.inl ⟨hnodes n hn hreq, fun e he ↦ Effect.requests_eq_false (hsilent e he).1 _,
      Or.inl hserved⟩
  | served hservice heffects _ hnodes =>
    refine Or.inl ⟨hnodes n hn hreq, ?_, Or.inr (htold hservice ?_)⟩ <;> subst heffects
    · refine List.forall_mem_cons.mpr ⟨rfl, List.forall_mem_cons.mpr ⟨rfl, fun e he ↦ ?_⟩⟩
      obtain ⟨nodeInfo, source, rfl⟩ := Registry.of_mem_notifyAllServiceClients he
      rfl
    · exact fun e he ↦ List.mem_cons_of_mem _ (List.mem_cons_of_mem _ he)
  | withdrawn hservice _ hall hopens _ _ hnodes =>
    exact Or.inl ⟨hnodes n hn hreq, fun e he ↦ Effect.requests_eq_false (hopens e he) _,
      Or.inr (htold hservice hall)⟩
  | @requested nodeInfo callback m hfind heffects hserved hr' =>
    have hrest (e : Effect) (he : e ∈ r'.notifyServiceClient service nodeInfo) :
        e.requests service n.nodeInfo = false := by
      obtain ⟨info, source, -, rfl⟩ := Registry.of_mem_notifyServiceClient he
      rfl
    by_cases hkey : nodeInfo.names n.nodeInfo = true
    · refine Or.inr ⟨_, _, heffects, by simp [Effect.requests, hkey],
        List.forall_mem_cons.mpr ⟨rfl, hrest⟩, ?_⟩
      by_cases hnone : ∀ x, ¬ r'.Served service x
      · exact Or.inl hnone
      · obtain ⟨x, hx⟩ := not_forall_not.mp hnone
        obtain ⟨client, hclient⟩ := Registry.find_client_of_names hkeyed' hn hkey
        obtain ⟨e, he, info, source, rfl, l, hl, hinfo⟩ :=
          Registry.exists_mem_notifyServiceClient hname hx hclient
        exact Or.inr ⟨_, List.mem_cons_of_mem _ he,
          Effect.isSome_tellsService hkey source ((hlabelled' l hl).2 service info hinfo)⟩
    · refine Or.inl ⟨⟨n, ?_, rfl, hreq⟩, ?_, Or.inl hserved⟩
      · rw [hr'] at hn
        exact (Registry.names_or_mem hkeyed hfind
          (Node.keepsInfo_registerRequestingService service) hn).resolve_left hkey
      · rw [heffects]
        exact List.forall_mem_cons.mpr ⟨by simp [Effect.requests, hkey],
          List.forall_mem_cons.mpr ⟨rfl, hrest⟩⟩

/-! ### The watcher -/

/-- Assumes: a property that only one node may have. -/
theorem Registry.Exclusive.eq {p : Node → Bool} (h : r.Exclusive p) {m n : Node}
    (hm : m ∈ r.nodes) (hn : n ∈ r.nodes) (hpm : p m = true) (hpn : p n = true) : m = n := by
  have hmem : m ∈ r.nodes.filter p := List.mem_filter.mpr ⟨hm, hpm⟩
  have hmem' : n ∈ r.nodes.filter p := List.mem_filter.mpr ⟨hn, hpn⟩
  rw [Exclusive, List.countP_eq_length_filter] at h
  obtain ⟨a, ha⟩ := List.length_eq_one_iff.mp
    (Nat.le_antisymm h (List.length_pos_of_mem hmem))
  rw [ha, List.mem_singleton] at hmem hmem'
  exact hmem.trans hmem'.symm

/-- Assumes: one watcher at most. The lookup finds it. -/
theorem Registry.head?_findNodes_watcher (hexclusive : r.Exclusive (·.nodeInfo.watcher)) {n : Node}
    (hn : n ∈ r.nodes) (hwatcher : n.nodeInfo.watcher = true) :
    (r.findNodes { watcher := true }).head? = some n := by
  cases hfind : r.findNodes { watcher := true } with
  | nil =>
    rw [r.findNodes_watcher_eq_nil_iff.mp hfind n hn] at hwatcher
    cases hwatcher
  | cons w rest =>
    obtain ⟨hw, hwatcherw⟩ := mem_findNodes_watcher (hfind ▸ List.mem_cons_self ..)
    rw [hexclusive.eq hw hn hwatcherw hwatcher]
    rfl

/-- Assumes: one watcher at most and nodes of different names, after the step. -/
theorem heard_watcher (hkeyed' : r'.Keyed) (hlabelled' : ∀ n ∈ r'.nodes, n.Labelled)
    (hexclusive' : r'.Exclusive (·.nodeInfo.watcher)) (hnames : (r'.nodes.map (·.name)).Nodup)
    (h : TopicCase topic r r' effects) :
    Heard (·.getTopicInfo topic) (·.status = .unregistered) (·.nodeInfo.watcher)
      (fun key e ↦ e.joins key) (fun key e ↦ e.tellsTopic topic key) r r' effects := by
  refine ⟨fun key e he x hx ↦ ?_, fun n hn hwatcher ↦ ?_⟩
  · obtain ⟨hinfo, htopic⟩ := Effect.of_tellsTopic hx
    exact h.consistent hlabelled' he hinfo htopic
  have hhead := Registry.head?_findNodes_watcher hexclusive' hn hwatcher
  have htold {info : TopicInfo} (htopic : info.topic = topic)
      (hall : r'.notifyAllSubscribers info ⊆ effects) :
      ∃ e ∈ effects, (e.tellsTopic topic n.nodeInfo).isSome = true := by
    obtain ⟨source, hsource⟩ :=
      Registry.exists_notify_watcher hkeyed' info (List.mem_of_mem_head? hhead)
    exact ⟨_, hall hsource, Effect.isSome_tellsTopic n.nodeInfo.names_self source htopic⟩
  have hfollowed (hnodes : Followed topic r r') :
      ∃ m ∈ r.nodes, m.nodeInfo = n.nodeInfo ∧ m.nodeInfo.watcher = true := by
    obtain ⟨m, hm, hinfo, -⟩ := hnodes n hn
    exact ⟨m, hm, hinfo, hinfo ▸ hwatcher⟩
  cases h with
  | quiet hopens _ hpublished hnodes =>
    exact Or.inl ⟨hfollowed hnodes, fun e he ↦ Effect.joins_eq_false (hopens e he) _,
      Or.inl hpublished⟩
  | @joined nodeInfo callback heffects hnodes =>
    rcases List.mem_cons.mp (hnodes.subset hn) with rfl | hold
    · rw [if_pos hwatcher] at heffects
      refine Or.inr ⟨_, _, heffects, nodeInfo.names_self, ?_, ?_⟩
      · refine List.forall_mem_cons.mpr ⟨rfl, fun e he ↦ ?_⟩
        obtain ⟨nodeInfo, info, source, -, rfl⟩ := Registry.of_mem_notifyWatcher hlabelled' he
        rfl
      · by_cases hnone : ∀ x, ¬ r'.Published topic x
        · exact Or.inl hnone
        · obtain ⟨x, hx⟩ := not_forall_not.mp hnone
          obtain ⟨source, hsource⟩ := Registry.exists_mem_notifyWatcher hkeyed' hhead hx
          obtain ⟨l, hl, hinfo⟩ := hx
          exact Or.inr ⟨_, List.mem_cons_of_mem _ hsource, Effect.isSome_tellsTopic
            nodeInfo.names_self source ((hlabelled' l hl).1 topic x hinfo)⟩
    · -- The one who joins is another node, so it has another name.
      have hnodup := (hnodes.map (·.name)).nodup_iff.mp hnames
      rw [List.map_cons, List.nodup_cons] at hnodup
      have hother : nodeInfo.names n.nodeInfo = false := by
        refine decide_eq_false fun hsame ↦ hnodup.1 (List.mem_map.mpr ⟨n, hold, hsame.2.symm⟩)
      refine Or.inl ⟨⟨n, hold, rfl, hwatcher⟩, ?_, Or.inl (Registry.published_joined hnodes)⟩
      subst heffects
      refine List.forall_mem_cons.mpr ⟨hother, List.forall_mem_cons.mpr ⟨rfl, fun e he ↦ ?_⟩⟩
      split_ifs at he
      · obtain ⟨nodeInfo, info, source, -, rfl⟩ := Registry.of_mem_notifyWatcher hlabelled' he
        rfl
      · cases he
  | published htopic heffects _ hnodes =>
    obtain ⟨hopens, hall⟩ := TopicCase.announced topic heffects
    exact Or.inl ⟨hfollowed hnodes, fun e he ↦ Effect.joins_eq_false (hopens e he) _,
      Or.inr (htold htopic hall)⟩
  | withdrawn htopic _ hall hopens _ _ hnodes =>
    exact Or.inl ⟨hfollowed hnodes, fun e he ↦ Effect.joins_eq_false (hopens e he) _,
      Or.inr (htold htopic hall)⟩
  | @subscribed nodeInfo callback m hfind heffects hpublished hr' =>
    refine Or.inl ⟨?_, ?_, Or.inl hpublished⟩
    · subst hr'
      obtain ⟨before, after, hnodes, hupdate⟩ := Registry.nodes_updateNode_split hfind
      rw [hupdate] at hn
      rw [hnodes]
      rcases List.mem_append.mp hn with hbefore | hn
      · exact ⟨n, List.mem_append_left _ hbefore, rfl, hwatcher⟩
      rcases List.mem_cons.mp hn with rfl | hafter
      · exact ⟨m, List.mem_append_right _ (List.mem_cons_self ..), rfl, hwatcher⟩
      · exact ⟨n, List.mem_append_right _ (List.mem_cons_of_mem _ hafter), rfl, hwatcher⟩
    · subst heffects
      refine List.forall_mem_cons.mpr ⟨rfl, List.forall_mem_cons.mpr ⟨rfl, fun e he ↦ ?_⟩⟩
      obtain ⟨info, source, -, rfl⟩ := Registry.of_mem_notifySubscriber he
      rfl

end Listeners

end Felicia
