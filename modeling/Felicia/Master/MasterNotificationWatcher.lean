import Felicia.Channel.MessageReceiver
import Felicia.Channel.Socket
import Felicia.Support.FlatMap
import Felicia.Support.Transition

/-!
# The notification watcher of a client

`felicia/core/master/master_notification_watcher.cc`. A client listens for the notifications of the
master: it accepts a connection, receives one notification on it, runs the callbacks registered for
it and accepts the next. What the watcher waits for is a list, so that nothing says beforehand that
it waits for one thing only. Callbacks are numbers.

`OnNewMasterNotification` accepts again whatever it was run with. `OnAccept` with an error only logs
it, and then the watcher waits for nothing any more. `listening_until_accept_fails` says so for
every run.
-/

set_option autoImplicit false
set_option relaxedAutoImplicit false

namespace Felicia

open Support TransitionSystem

/-- `kMasterNotificationBytes`. -/
def masterNotificationBytes : ℕ := 256

/-- What a watcher waits for. -/
inductive WatcherOperation
  /-- An accept on `server_channel_`. -/
  | accept
  /-- A receive on `channel_`. -/
  | receive (receiving : Receiving)
  deriving DecidableEq

/-- `MasterNotificationWatcher`, with the buffer of `channel_` and what it waits for. -/
structure MasterNotificationWatcher where
  topicInfoCallbackMap : FlatMap String ℕ := .empty
  serviceInfoCallbackMap : FlatMap String ℕ := .empty
  allTopicInfoCallback : Option ℕ := none
  receiveBuffer : ChannelBuffer := {}
  outstanding : List WatcherOperation := []

/-- What happens to a watcher. -/
inductive WatcherEvent
  /-- `AcceptOnceIntercept` of the channel ends. -/
  | accepted (status : Status)
  /-- The channel stored bytes and ends its receive. -/
  | received (receiving : Receiving) (status : Status) (bytes : List UInt8)

/-- What a watcher does to the outside. -/
inductive WatcherEffect
  /-- `LOG(ERROR) << "Failed to accept: "`. -/
  | failedToAccept (status : Status)
  /-- A notification was received; its callbacks follow. -/
  | newMasterNotification (notification : MasterNotification)
  | topicInfoCallback (callback : ℕ) (topicInfo : TopicInfo)
  | allTopicInfoCallback (callback : ℕ) (topicInfo : TopicInfo)
  | serviceInfoCallback (callback : ℕ) (serviceInfo : ServiceInfo)
  deriving DecidableEq

/-! ### Callbacks -/

/-- A callback is put into one of the maps. -/
def registerCallback (callbackMap : FlatMap String ℕ) (name : String) (callback : ℕ) :
    FlatMap String ℕ :=
  callbackMap.insertOrAssign name callback

/-- `map.erase(map.find(name))`, which is undefined when there is no such entry. -/
def unregisterCallback (callbackMap : FlatMap String ℕ) (name : String) :
    Option (FlatMap String ℕ) :=
  if callbackMap.contains name then some (callbackMap.erase name) else none

namespace MasterNotificationWatcher

variable (w : MasterNotificationWatcher)

/-- `MasterNotificationWatcher::RegisterTopicInfoCallback`. -/
def registerTopicInfoCallback (topic : String) (callback : ℕ) : MasterNotificationWatcher :=
  { w with topicInfoCallbackMap := registerCallback w.topicInfoCallbackMap topic callback }

/-- `MasterNotificationWatcher::UnregisterTopicInfoCallback`. -/
def unregisterTopicInfoCallback (topic : String) : Option MasterNotificationWatcher :=
  (unregisterCallback w.topicInfoCallbackMap topic).map ({ w with topicInfoCallbackMap := · })

/-- `MasterNotificationWatcher::RegisterServiceInfoCallback`. -/
def registerServiceInfoCallback (service : String) (callback : ℕ) : MasterNotificationWatcher :=
  { w with serviceInfoCallbackMap := registerCallback w.serviceInfoCallbackMap service callback }

/-- `MasterNotificationWatcher::UnregisterServiceInfoCallback`. -/
def unregisterServiceInfoCallback (service : String) : Option MasterNotificationWatcher :=
  (unregisterCallback w.serviceInfoCallbackMap service).map ({ w with serviceInfoCallbackMap := · })

/-- `MasterNotificationWatcher::RegisterAllTopicInfoCallback`. -/
def registerAllTopicInfoCallback (callback : ℕ) : MasterNotificationWatcher :=
  { w with allTopicInfoCallback := some callback }

/-- `MasterNotificationWatcher::UnregisterAllTopicInfoCallback`. -/
def unregisterAllTopicInfoCallback : MasterNotificationWatcher :=
  { w with allTopicInfoCallback := none }

/-- The callbacks that are run for a topic: its own, then the one for all topics. -/
def topicCallbacks (topicInfo : TopicInfo) : List WatcherEffect :=
  ((w.topicInfoCallbackMap.find topicInfo.topic).map (.topicInfoCallback · topicInfo)).toList ++
    (w.allTopicInfoCallback.map (.allTopicInfoCallback · topicInfo)).toList

def serviceCallbacks (serviceInfo : ServiceInfo) : List WatcherEffect :=
  ((w.serviceInfoCallbackMap.find serviceInfo.service).map
    (.serviceInfoCallback · serviceInfo)).toList

/-- The callbacks that `OnNewMasterNotification` runs, in its order. -/
def callbacks (notification : MasterNotification) : List WatcherEffect :=
  notification.topicInfo.elim [] w.topicCallbacks ++
    notification.serviceInfo.elim [] w.serviceCallbacks

/-! ### The accept loop -/

/-- `MasterNotificationWatcher::DoAccept`. -/
def doAccept : MasterNotificationWatcher :=
  { w with outstanding := .accept :: w.outstanding }

/-- `MasterNotificationWatcher::Start`, where the channel listens. -/
def start : MasterNotificationWatcher := w.doAccept

/-- `MasterNotificationWatcher::OnNewMasterNotification`. -/
def onNewMasterNotification (result : Except Status MasterNotification) :
    MasterNotificationWatcher × List WatcherEffect :=
  match result with
  | .error _ => (w.doAccept, [])
  | .ok notification =>
    (w.doAccept, .newMasterNotification notification :: w.callbacks notification)

/-- How a handler of `receiver_` ends. -/
def afterReceipt (receipt : Receipt MasterNotification) :
    MasterNotificationWatcher × List WatcherEffect :=
  match receipt with
  | .waits receiving buffer =>
    ({ w with receiveBuffer := buffer, outstanding := .receive receiving :: w.outstanding }, [])
  | .runs result => w.onNewMasterNotification result

/-- `MasterNotificationWatcher::WatchNewMasterNotification`, on a channel that was just accepted. -/
def watchNewMasterNotification : MasterNotificationWatcher × List WatcherEffect :=
  w.afterReceipt (MessageReceiver.receiveMessage
    (({} : ChannelBuffer).setCapacity masterNotificationBytes))

/-- `MasterNotificationWatcher::OnAccept`. -/
def onAccept (status : Status) : MasterNotificationWatcher × List WatcherEffect :=
  if status.isOk then w.watchNewMasterNotification
  else (w, [.failedToAccept status])

/-- The watcher waits for an operation no more. -/
def ended (operation : WatcherOperation) : MasterNotificationWatcher :=
  { w with outstanding := w.outstanding.erase operation }

/-- One event. What the watcher does not wait for does not end. -/
def step (deserialize : List UInt8 → Option MasterNotification) :
    WatcherEvent → MasterNotificationWatcher × List WatcherEffect
  | .accepted status =>
    if .accept ∈ w.outstanding then (w.ended .accept).onAccept status else (w, [])
  | .received receiving status bytes =>
    if .receive receiving ∈ w.outstanding then
      (w.ended (.receive receiving)).afterReceipt
        (MessageReceiver.onReceive deserialize w.receiveBuffer receiving status bytes)
    else (w, [])

end MasterNotificationWatcher

/-- What can happen next: a call of the client, or an event. -/
inductive WatcherAction
  | registerTopicInfoCallback (topic : String) (callback : ℕ)
  | unregisterTopicInfoCallback (topic : String)
  | registerServiceInfoCallback (service : String) (callback : ℕ)
  | unregisterServiceInfoCallback (service : String)
  | registerAllTopicInfoCallback (callback : ℕ)
  | unregisterAllTopicInfoCallback
  | event (event : WatcherEvent)

namespace MasterNotificationWatcher

def act (deserialize : List UInt8 → Option MasterNotification) (w : MasterNotificationWatcher) :
    WatcherAction → Option (MasterNotificationWatcher × List WatcherEffect)
  | .registerTopicInfoCallback topic callback =>
    some (w.registerTopicInfoCallback topic callback, [])
  | .unregisterTopicInfoCallback topic => (w.unregisterTopicInfoCallback topic).map (·, [])
  | .registerServiceInfoCallback service callback =>
    some (w.registerServiceInfoCallback service callback, [])
  | .unregisterServiceInfoCallback service => (w.unregisterServiceInfoCallback service).map (·, [])
  | .registerAllTopicInfoCallback callback => some (w.registerAllTopicInfoCallback callback, [])
  | .unregisterAllTopicInfoCallback => some (w.unregisterAllTopicInfoCallback, [])
  | .event event => some (w.step deserialize event)

/-- The accept that the watcher waits for ends with an error. -/
def acceptFails (w : MasterNotificationWatcher) : WatcherAction → Bool
  | .event (.accepted status) => decide (.accept ∈ w.outstanding) && !status.isOk
  | _ => false

/-- No accept ends with an error. -/
def AcceptSucceeds (w : MasterNotificationWatcher) (a : WatcherAction) : Prop :=
  w.acceptFails a = false

instance (w : MasterNotificationWatcher) (a : WatcherAction) : Decidable (w.AcceptSucceeds a) :=
  inferInstanceAs (Decidable (_ = false))

end MasterNotificationWatcher

/-- A watcher from its start on, with whatever callbacks were registered before. -/
def watching (deserialize : List UInt8 → Option MasterNotification) :
    TransitionSystem MasterNotificationWatcher WatcherAction WatcherEffect where
  Initial w := ∃ unstarted : MasterNotificationWatcher,
    unstarted.outstanding = [] ∧ w = unstarted.start
  step w a := w.act deserialize a

namespace MasterNotificationWatcher

variable {deserialize : List UInt8 → Option MasterNotification} {w w' : MasterNotificationWatcher}
  {a : WatcherAction} {effects : List WatcherEffect}

/-! ### What an event does -/

/-- What an event can do to the outside: at most one notification is received, and its callbacks are
those of the maps. -/
inductive Announced (w : MasterNotificationWatcher) : List WatcherEffect → Prop
  | nothing : Announced w []
  | failed (status : Status) : Announced w [.failedToAccept status]
  | notified (notification : MasterNotification) :
      Announced w (.newMasterNotification notification :: w.callbacks notification)

/-- The maps of callbacks are those of another watcher. -/
structure SameCallbacks (w w' : MasterNotificationWatcher) : Prop where
  topics : w'.topicInfoCallbackMap = w.topicInfoCallbackMap
  services : w'.serviceInfoCallbackMap = w.serviceInfoCallbackMap
  allTopics : w'.allTopicInfoCallback = w.allTopicInfoCallback

theorem afterReceipt_announced (w : MasterNotificationWatcher)
    (receipt : Receipt MasterNotification) :
    w.SameCallbacks (w.afterReceipt receipt).1 ∧ w.Announced (w.afterReceipt receipt).2 := by
  cases receipt with
  | waits receiving buffer => exact ⟨⟨rfl, rfl, rfl⟩, .nothing⟩
  | runs result =>
    cases result with
    | error status => exact ⟨⟨rfl, rfl, rfl⟩, .nothing⟩
    | ok notification => exact ⟨⟨rfl, rfl, rfl⟩, .notified notification⟩

theorem Announced.of_ended {operation : WatcherOperation}
    (h : (w.ended operation).Announced effects) :
    w.Announced effects := by
  cases h with
  | nothing => exact .nothing
  | failed status => exact .failed status
  | notified notification => exact .notified notification

theorem step_announced (deserialize : List UInt8 → Option MasterNotification)
    (w : MasterNotificationWatcher) (event : WatcherEvent) :
    w.SameCallbacks (w.step deserialize event).1 ∧ w.Announced (w.step deserialize event).2 := by
  have hended (operation : WatcherOperation) (receipt : Receipt MasterNotification) :
      w.SameCallbacks ((w.ended operation).afterReceipt receipt).1 ∧
        w.Announced ((w.ended operation).afterReceipt receipt).2 := by
    obtain ⟨⟨htopics, hservices, hall⟩, hannounced⟩ := (w.ended operation).afterReceipt_announced
      receipt
    exact ⟨⟨htopics, hservices, hall⟩, hannounced.of_ended⟩
  cases event with
  | accepted status =>
    simp only [step, onAccept, watchNewMasterNotification]
    split_ifs
    · exact hended .accept _
    · exact ⟨⟨rfl, rfl, rfl⟩, .failed status⟩
    · exact ⟨⟨rfl, rfl, rfl⟩, .nothing⟩
  | received receiving status bytes =>
    simp only [step]
    split_ifs
    · exact hended (.receive receiving) _
    · exact ⟨⟨rfl, rfl, rfl⟩, .nothing⟩

theorem count_topicCallbacks (w : MasterNotificationWatcher) (i : ℕ)
    (topicInfo announced : TopicInfo) :
    (w.topicCallbacks announced).count (.topicInfoCallback i topicInfo) =
      if announced = topicInfo ∧ w.topicInfoCallbackMap.find topicInfo.topic = some i then 1
      else 0 := by
  have hall : (w.allTopicInfoCallback.map
      (WatcherEffect.allTopicInfoCallback · announced)).toList.count
        (.topicInfoCallback i topicInfo) = 0 := by
    cases w.allTopicInfoCallback <;> simp
  rw [topicCallbacks, List.count_append, hall, Nat.add_zero]
  by_cases heq : announced = topicInfo
  · subst heq
    cases hfind : w.topicInfoCallbackMap.find announced.topic with
    | none => simp
    | some j => simp [List.count_singleton]
  · rw [if_neg (fun h ↦ heq h.1)]
    cases w.topicInfoCallbackMap.find announced.topic with
    | none => simp
    | some j => simp [heq]

/-- The callback of a topic is run at most once for a notification, and only if it is about the
topic and the callback is in the map. -/
theorem count_callbacks (w : MasterNotificationWatcher) (i : ℕ) (topicInfo : TopicInfo)
    (notification : MasterNotification) :
    (w.callbacks notification).count (.topicInfoCallback i topicInfo) =
      if notification.topicInfo = some topicInfo ∧
        w.topicInfoCallbackMap.find topicInfo.topic = some i then 1 else 0 := by
  have hservice : (notification.serviceInfo.elim [] w.serviceCallbacks).count
      (.topicInfoCallback i topicInfo) = 0 := by
    cases notification.serviceInfo with
    | none => rfl
    | some serviceInfo =>
      rw [Option.elim_some, serviceCallbacks]
      cases w.serviceInfoCallbackMap.find serviceInfo.service <;> simp
  rw [callbacks, List.count_append, hservice, Nat.add_zero]
  cases notification.topicInfo with
  | none => simp
  | some announced => simp [count_topicCallbacks]

theorem newMasterNotification_not_mem_callbacks (w : MasterNotificationWatcher)
    (notification received : MasterNotification) :
    .newMasterNotification notification ∉ w.callbacks received := by
  unfold callbacks
  cases received.topicInfo <;> cases received.serviceInfo <;>
    simp [topicCallbacks, serviceCallbacks]

/-- Assumes: effects of an event. A callback that is run for a topic is the one in the map. -/
theorem Announced.find_topic (h : w.Announced effects) {i : ℕ} {topicInfo : TopicInfo}
    (hmem : .topicInfoCallback i topicInfo ∈ effects) :
    w.topicInfoCallbackMap.find topicInfo.topic = some i := by
  cases h with
  | nothing => cases hmem
  | failed status => simp at hmem
  | notified notification =>
    rw [List.mem_cons, or_iff_right (by simp), ← List.count_pos_iff, count_callbacks] at hmem
    split_ifs at hmem with h
    · exact h.2
    · exact absurd hmem (Nat.lt_irrefl 0)

/-- Assumes: a notification about a topic whose callback is in the map. It is run once. -/
theorem Announced.count_topic (h : w.Announced effects) {notification : MasterNotification}
    {topicInfo : TopicInfo} {i : ℕ} (hmem : .newMasterNotification notification ∈ effects)
    (htopic : notification.topicInfo = some topicInfo)
    (hfind : w.topicInfoCallbackMap.find topicInfo.topic = some i) :
    effects.count (.topicInfoCallback i topicInfo) = 1 := by
  cases h with
  | nothing => cases hmem
  | failed status => simp at hmem
  | notified received =>
    -- No callback announces a further notification.
    have heq : notification = received := by
      rcases List.mem_cons.mp hmem with heq | hcallback
      · exact WatcherEffect.newMasterNotification.inj heq
      · exact absurd hcallback (newMasterNotification_not_mem_callbacks w _ _)
    rw [List.count_cons_of_ne (by simp), count_callbacks, if_pos ⟨heq ▸ htopic, hfind⟩]

/-! ### What the watcher waits for -/

/-- A handler of `receiver_` starts one operation, of the channel or, through the callback, an
accept. -/
theorem outstanding_afterReceipt (w : MasterNotificationWatcher)
    (receipt : Receipt MasterNotification) :
    ∃ operation, (w.afterReceipt receipt).1.outstanding = operation :: w.outstanding := by
  cases receipt with
  | waits receiving buffer => exact ⟨.receive receiving, rfl⟩
  | runs result =>
    cases result with
    | error status => exact ⟨.accept, rfl⟩
    | ok notification => exact ⟨.accept, rfl⟩

theorem accept_mem_of_acceptFails (h : w.acceptFails a = true) : .accept ∈ w.outstanding := by
  cases a with
  | event event =>
    cases event with
    | accepted status => exact of_decide_eq_true (Bool.and_eq_true_iff.mp h).1
    | received => cases h
  | _ => cases h

/-- Assumes: an accept that fails. It is waited for no more, and nothing is in its place. -/
theorem outstanding_act_of_acceptFails (hfails : w.acceptFails a = true)
    (hstep : w.act deserialize a = some (w', effects)) :
    w'.outstanding = w.outstanding.erase .accept := by
  cases a with
  | event event =>
    cases event with
    | accepted status =>
      have hmem := accept_mem_of_acceptFails hfails
      have hstatus : ¬ status.isOk = true := by simpa [acceptFails, hmem] using hfails
      have heq : w.step deserialize (.accepted status) = (w', effects) := Option.some.inj hstep
      simp only [step, if_pos hmem, onAccept, if_neg hstatus] at heq
      cases heq
      rfl
    | received => cases hfails
  | _ => cases hfails

/-- Assumes: an action in which no accept fails. It leaves the operations alone, or replaces one by
another. -/
theorem outstanding_act (hguard : w.AcceptSucceeds a)
    (hstep : w.act deserialize a = some (w', effects)) :
    w'.outstanding = w.outstanding ∨
      ∃ ended ∈ w.outstanding, ∃ started,
        w'.outstanding = started :: w.outstanding.erase ended := by
  cases a with
  | registerTopicInfoCallback | registerServiceInfoCallback | registerAllTopicInfoCallback
  | unregisterAllTopicInfoCallback =>
    cases hstep
    exact .inl rfl
  | unregisterTopicInfoCallback topic =>
    obtain ⟨unregistered, hmap, heq⟩ := Option.map_eq_some_iff.mp hstep
    cases heq
    obtain ⟨callbackMap, -, rfl⟩ := Option.map_eq_some_iff.mp hmap
    exact .inl rfl
  | unregisterServiceInfoCallback service =>
    obtain ⟨unregistered, hmap, heq⟩ := Option.map_eq_some_iff.mp hstep
    cases heq
    obtain ⟨callbackMap, -, rfl⟩ := Option.map_eq_some_iff.mp hmap
    exact .inl rfl
  | event event =>
    have heq : w.step deserialize event = (w', effects) := Option.some.inj hstep
    cases event with
    | accepted status =>
      simp only [step] at heq
      split_ifs at heq with hmem
      · refine .inr ⟨.accept, hmem, ?_⟩
        have hok : status.isOk = true := by simpa [AcceptSucceeds, acceptFails, hmem] using hguard
        rw [onAccept, if_pos hok] at heq
        obtain ⟨started, hstarted⟩ := outstanding_afterReceipt (w.ended .accept)
          (MessageReceiver.receiveMessage
            (({} : ChannelBuffer).setCapacity masterNotificationBytes))
        rw [← watchNewMasterNotification, heq] at hstarted
        exact ⟨started, hstarted⟩
      · cases heq
        exact .inl rfl
    | received receiving status bytes =>
      simp only [step] at heq
      split_ifs at heq with hmem
      · refine .inr ⟨.receive receiving, hmem, ?_⟩
        obtain ⟨started, hstarted⟩ := outstanding_afterReceipt (w.ended (.receive receiving))
          (MessageReceiver.onReceive deserialize w.receiveBuffer receiving status bytes)
        rw [heq] at hstarted
        exact ⟨started, hstarted⟩
      · cases heq
        exact .inl rfl

/-- Assumes: a watcher that waits for one thing. After an action in which no accept fails it waits
for one thing again. -/
theorem outstanding_singleton_act (h : ∃ operation, w.outstanding = [operation])
    (hguard : w.AcceptSucceeds a) (hstep : w.act deserialize a = some (w', effects)) :
    ∃ operation, w'.outstanding = [operation] := by
  obtain ⟨operation, hw⟩ := h
  rcases outstanding_act hguard hstep with hsame | ⟨ended, hmem, started, hstarted⟩
  · exact ⟨operation, hsame.trans hw⟩
  · rw [hw, List.mem_singleton] at hmem
    exact ⟨started, by simpa [hw, hmem] using hstarted⟩

/-- Assumes: a watcher that waits for nothing. It does not start to wait again. -/
theorem outstanding_nil_act (h : w.outstanding = [])
    (hstep : w.act deserialize a = some (w', effects)) : w'.outstanding = [] := by
  by_cases hfails : w.acceptFails a = true
  · rw [outstanding_act_of_acceptFails hfails hstep, h, List.erase_nil]
  · rcases outstanding_act (Bool.eq_false_of_not_eq_true hfails) hstep with hsame | ⟨ended, hmem, -⟩
    · exact hsame.trans h
    · rw [h] at hmem
      cases hmem

/-- As long as no accept ends with an error, a watcher that was started waits for exactly one thing
in every state: an accept on its listening channel or a receive on the accepted one. As soon as one
does, it waits for nothing, and nothing that happens later changes that. -/
theorem listening_until_accept_fails (deserialize : List UInt8 → Option MasterNotification) :
    (∀ w, Reachable (watching deserialize) AcceptSucceeds w →
      ∃ operation, w.outstanding = [operation]) ∧
    ∀ w a w' effects, Reachable (watching deserialize) AcceptSucceeds w →
      w.acceptFails a = true → w.act deserialize a = some (w', effects) →
        ∀ later, Reachable ((watching deserialize).startingAt w') unguarded later →
          later.outstanding = [] := by
  have hlistening : ∀ w, Reachable (watching deserialize) AcceptSucceeds w →
      ∃ operation, w.outstanding = [operation] := by
    intro w hreach
    refine hreach.invariant (I := fun w ↦ ∃ operation, w.outstanding = [operation]) ?_ ?_
    · rintro w ⟨unstarted, hnone, rfl⟩
      exact ⟨.accept, by simp [start, doAccept, hnone]⟩
    · exact fun w a w' effects hw hguard hstep ↦ outstanding_singleton_act hw hguard hstep
  refine ⟨hlistening, ?_⟩
  intro w a w' effects hreach hfails hstep later hlater
  have hdeaf : w'.outstanding = [] := by
    obtain ⟨operation, hw⟩ := hlistening w hreach
    rw [outstanding_act_of_acceptFails hfails hstep, hw]
    have hmem : WatcherOperation.accept ∈ w.outstanding := accept_mem_of_acceptFails hfails
    rw [hw, List.mem_singleton] at hmem
    simp [hmem]
  refine hlater.invariant (I := fun w ↦ w.outstanding = []) ?_ ?_
  · rintro w rfl
    exact hdeaf
  · exact fun w a w' effects hw _ hstep ↦ outstanding_nil_act hw hstep

end MasterNotificationWatcher

namespace Scenario

/-- Every message that is received says that a topic is published. -/
def parsesTopic (_ : List UInt8) : Option MasterNotification :=
  some { topicInfo := some { topic := "topic" } }

/-- A connection is accepted, and a message of one byte is received on it. -/
def oneNotification : List WatcherAction :=
  [.event (.accepted .OK), .event (.received .header .OK [1, 0, 0, 0]),
    .event (.received (.message 1) .OK [7])]

/-- The accept ends with an error. -/
def failingAccept : WatcherAction :=
  .event (.accepted (networkError "net::ERR_INSUFFICIENT_RESOURCES"))

end Scenario

namespace MasterNotificationWatcher

theorem initial_start : (watching Scenario.parsesTopic).Initial (start {}) := ⟨{}, rfl, rfl⟩

/-- A notification is received and its callback run; then an accept fails. -/
theorem listening_until_accept_fails_of_notification :
    ∃ w w' effects, Reachable (watching Scenario.parsesTopic) AcceptSucceeds w ∧
      (∃ operation, w.outstanding = [operation]) ∧
      w.act Scenario.parsesTopic Scenario.failingAccept = some (w', effects) ∧
      w'.outstanding = [] := by
  have hexec : ((watching Scenario.parsesTopic).exec AcceptSucceeds (start {}) []
      (.registerTopicInfoCallback "topic" 3 :: Scenario.oneNotification)).map
      (fun result ↦ (decide (result.1.acceptFails Scenario.failingAccept = true), result.2)) =
      some (true, [.newMasterNotification { topicInfo := some { topic := "topic" } },
        .topicInfoCallback 3 { topic := "topic" }]) := by
    decide +kernel
  obtain ⟨⟨w, history⟩, hrun, heq⟩ := Option.map_eq_some_iff.mp hexec
  have hreach : Reachable (watching Scenario.parsesTopic) AcceptSucceeds w :=
    ⟨history, (Run.start initial_start).of_exec hrun⟩
  have hfails := of_decide_eq_true (Prod.mk.inj heq).1
  obtain ⟨hlistening, hdeaf⟩ := listening_until_accept_fails Scenario.parsesTopic
  exact ⟨w, _, _, hreach, hlistening w hreach, rfl,
    hdeaf w _ _ _ hreach hfails rfl _ ⟨[], .start rfl⟩⟩

/-- The first accept fails: the watcher waits for nothing. -/
theorem deaf_after_failing_accept :
    ¬ ∀ deserialize w, Reachable (watching deserialize) unguarded w →
      w.outstanding.length = 1 := by
  intro h
  have hexec : ((watching Scenario.parsesTopic).exec unguarded (start {}) []
      [Scenario.failingAccept]).map (fun result ↦ decide (result.1.outstanding.length = 1)) =
      some false := by
    decide
  obtain ⟨⟨w, history⟩, hrun, heq⟩ := Option.map_eq_some_iff.mp hexec
  exact of_decide_eq_false heq (h _ w ⟨history, (Run.start initial_start).of_exec hrun⟩)

end MasterNotificationWatcher

end Felicia
