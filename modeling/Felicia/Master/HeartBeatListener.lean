import Felicia.Master.Ownership
import Felicia.Support.Lists

/-!
# Heart beat listeners

`felicia/core/master/heart_beat_listener.cc`. A listener lives on the master thread. It connects to
its client, then receives heart beats one after the other, `heart_beat_duration_` apart; a timer
that no heart beat cancels stops it. It frees itself in `KillSelf`, and its destructor runs
`Master::RemoveClient`. Connections that end, receives that end, the timer and the tasks that the
listener posted come in any order, except that the posted tasks all wait for the same duration and
so run in the order they were posted. The timer is a `CancelableOnceClosure`, which runs nothing
once it was cancelled or its owner is gone; the posted tasks hold the listener `Unretained`, so
`step` is undefined when one of them runs after the listener was freed.

`StopCheckHeartBeat` does not cancel the receive that is under way. When that ends before the
posted `KillSelf` runs, `OnAlive` posts a further task or frees the listener at once, and the one or
the other runs on freed memory. `Phase` lists the states of a listener without such a receive, and
`Phase.step` is its step lemma.

`Monitor` is the master together with its listeners. `toSystem` forgets all of a listener but that
it is there, and `Reflects` says that every run of the monitored master is a run of `master`, in
which a listener that frees itself is a `heartBeatLost`. That `RemoveClient` finds its client then
follows from what `Owned` says of listeners.
-/

set_option autoImplicit false
set_option relaxedAutoImplicit false

namespace Felicia

open Support TransitionSystem

/-! ### One listener -/

/-- The operation under way on `channel_`. -/
inductive ChannelOperation
  | connect | receive
  deriving DecidableEq

/-- A task that a listener posted with the delay `heart_beat_duration_`. -/
inductive HeartBeatTask
  | tryReceiveHeartBeat | killSelf
  deriving DecidableEq

/-- `HeartBeatListener`, with what it waits for. -/
structure HeartBeatListener where
  clientInfo : ClientInfo
  operation : Option ChannelOperation := none
  /-- `timeout_` holds a callback, and its timer runs. -/
  timeout : Bool := false
  stopped : Bool := false
  posted : List HeartBeatTask := []
  deleted : Bool := false
  deriving DecidableEq

/-- What happens to a listener. -/
inductive HeartBeatEvent
  /-- The connection is made or fails. -/
  | connected (status : Status)
  /-- A receive ends, and the channel then is connected or not. -/
  | received (status : Status) (isConnected : Bool)
  /-- The timer of `timeout_` runs out. -/
  | timedOut
  /-- The next posted task is due. -/
  | runPosted

/-- What a listener does to the outside. -/
inductive HeartBeatEffect
  /-- `KillSelf` is posted, or called by another handler. -/
  | scheduleDeletion
  /-- `callback_` is run, which is `Master::RemoveClient`. -/
  | onDisconnect (clientInfo : ClientInfo)
  deriving DecidableEq

namespace HeartBeatListener

/-- `Channel::IsTCPChannel` of `channel_`, whose type is that of the first definition. -/
def isTcpChannel (l : HeartBeatListener) : Bool :=
  (l.clientInfo.heartBeatSignallerSource.channelDefs.head?.map (·.type)) = some .tcp

/-- `HeartBeatListener::StartCheckHeartBeat` of a new listener. -/
def startCheckHeartBeat (clientInfo : ClientInfo) : HeartBeatListener :=
  { clientInfo, operation := some .connect }

/-- `HeartBeatListener::KillSelf`. The channel goes with its operation. -/
def killSelf (l : HeartBeatListener) : HeartBeatListener × List HeartBeatEffect :=
  ({ l with timeout := false, operation := none, deleted := true }, [.onDisconnect l.clientInfo])

/-- `HeartBeatListener::TryReceiveHeartBeat`. -/
def tryReceiveHeartBeat (l : HeartBeatListener) : HeartBeatListener :=
  if l.stopped then l else { l with timeout := true, operation := some .receive }

/-- `HeartBeatListener::DoCheckHeartBeat`. -/
def doCheckHeartBeat (l : HeartBeatListener) (status : Status) :
    HeartBeatListener × List HeartBeatEffect :=
  if !status.isOk then (l.killSelf.1, .scheduleDeletion :: l.killSelf.2)
  else (l.tryReceiveHeartBeat, [])

/-- `HeartBeatListener::OnAlive`. -/
def onAlive (l : HeartBeatListener) (status : Status) (isConnected : Bool) :
    HeartBeatListener × List HeartBeatEffect :=
  if status.isOk then
    ({ l with timeout := false, posted := l.posted ++ [.tryReceiveHeartBeat] }, [])
  else if l.isTcpChannel && !isConnected then
    (l.killSelf.1, .scheduleDeletion :: l.killSelf.2)
  else ({ l with posted := l.posted ++ [.tryReceiveHeartBeat] }, [])

/-- `HeartBeatListener::StopCheckHeartBeat`. -/
def stopCheckHeartBeat (l : HeartBeatListener) : HeartBeatListener × List HeartBeatEffect :=
  ({ l with stopped := true, posted := l.posted ++ [.killSelf] }, [.scheduleDeletion])

/-- One event. An operation that is not under way does not end, and a timer that was cancelled runs
nothing. -/
def step (l : HeartBeatListener) :
    HeartBeatEvent → Option (HeartBeatListener × List HeartBeatEffect)
  | .connected status =>
    if l.operation = some .connect then some ({ l with operation := none }.doCheckHeartBeat status)
    else some (l, [])
  | .received status isConnected =>
    if l.operation = some .receive then
      some ({ l with operation := none }.onAlive status isConnected)
    else some (l, [])
  | .timedOut =>
    if l.timeout then some { l with timeout := false }.stopCheckHeartBeat else some (l, [])
  | .runPosted =>
    match l.posted with
    | [] => some (l, [])
    | task :: posted =>
      if l.deleted then none
      else match task with
        | .tryReceiveHeartBeat => some ({ l with posted }.tryReceiveHeartBeat, [])
        | .killSelf => some { l with posted }.killSelf

/-- No receive ends between `StopCheckHeartBeat` and `KillSelf`. -/
def receivesInTime (l : HeartBeatListener) : HeartBeatEvent → Bool
  | .received _ _ => !(l.stopped && l.operation = some .receive)
  | _ => true

/-- The states of a listener that no receive reaches too late. -/
inductive Phase : HeartBeatListener → Prop
  | connecting (clientInfo : ClientInfo) : Phase { clientInfo, operation := some .connect }
  | receiving (clientInfo : ClientInfo) (timeout : Bool) :
      Phase { clientInfo, operation := some .receive, timeout }
  | waiting (clientInfo : ClientInfo) (timeout : Bool) :
      Phase { clientInfo, timeout, posted := [.tryReceiveHeartBeat] }
  | stopping (clientInfo : ClientInfo) (operation : Option ChannelOperation)
      (h : operation ≠ some .connect) :
      Phase { clientInfo, operation, stopped := true, posted := [.killSelf] }
  | stoppingWaiting (clientInfo : ClientInfo) :
      Phase { clientInfo, stopped := true, posted := [.tryReceiveHeartBeat, .killSelf] }
  | dead (clientInfo : ClientInfo) (stopped : Bool) :
      Phase { clientInfo, stopped, deleted := true }

/-- What an event can come to: nothing is decided, the listener is stopped, or it frees itself. -/
inductive Outcome (l l' : HeartBeatListener) : List HeartBeatEffect → Prop
  | quiet (hstopped : l'.stopped = l.stopped) (hdeleted : l'.deleted = l.deleted) :
      Outcome l l' []
  | stops (hrunning : l.stopped = false) (hstopped : l'.stopped = true)
      (hdeleted : l.deleted = false) (hdeleted' : l'.deleted = false) :
      Outcome l l' [.scheduleDeletion]
  | dies (hdeleted : l.deleted = false) (hdeleted' : l'.deleted = true) :
      Outcome l l' ((if l.stopped then [] else [.scheduleDeletion]) ++ [.onDisconnect l.clientInfo])

/-- Assumes: a listener that no receive reached too late, and an event that is no such receive. The
event is defined and keeps the listener so. -/
theorem Phase.step {l : HeartBeatListener} (h : Phase l) {event : HeartBeatEvent}
    (hguard : l.receivesInTime event = true) :
    ∃ l' effects, l.step event = some (l', effects) ∧ Phase l' ∧
      l'.clientInfo = l.clientInfo ∧ Outcome l l' effects := by
  cases h with
  | connecting clientInfo =>
    cases event with
    | connected status =>
      by_cases hok : status.isOk = true
      · refine ⟨_, _, ?_, .receiving clientInfo true, rfl, .quiet rfl rfl⟩
        simp [HeartBeatListener.step, doCheckHeartBeat, hok, tryReceiveHeartBeat]
      · refine ⟨_, _, ?_, .dead clientInfo false, rfl, .dies rfl rfl⟩
        simp [HeartBeatListener.step, doCheckHeartBeat, hok, killSelf]
    | received | timedOut | runPosted =>
      exact ⟨_, _, rfl, .connecting clientInfo, rfl, .quiet rfl rfl⟩
  | receiving clientInfo timeout =>
    cases event with
    | connected => exact ⟨_, _, rfl, .receiving clientInfo timeout, rfl, .quiet rfl rfl⟩
    | received status isConnected =>
      by_cases hok : status.isOk = true
      · refine ⟨_, _, ?_, .waiting clientInfo false, rfl, .quiet rfl rfl⟩
        simp [HeartBeatListener.step, onAlive, hok]
      · by_cases hgone : (isTcpChannel { clientInfo, timeout } && !isConnected) = true
        · refine ⟨_, _, ?_, .dead clientInfo false, rfl, .dies rfl rfl⟩
          simp [HeartBeatListener.step, onAlive, hok, hgone, killSelf]
        · refine ⟨_, _, ?_, .waiting clientInfo timeout, rfl, .quiet rfl rfl⟩
          simp [HeartBeatListener.step, onAlive, hok, hgone]
    | timedOut =>
      cases timeout with
      | false => exact ⟨_, _, rfl, .receiving clientInfo false, rfl, .quiet rfl rfl⟩
      | true =>
        exact ⟨_, _, rfl, .stopping clientInfo (some .receive) (by simp), rfl,
          .stops rfl rfl rfl rfl⟩
    | runPosted => exact ⟨_, _, rfl, .receiving clientInfo timeout, rfl, .quiet rfl rfl⟩
  | waiting clientInfo timeout =>
    cases event with
    | connected | received => exact ⟨_, _, rfl, .waiting clientInfo timeout, rfl, .quiet rfl rfl⟩
    | timedOut =>
      cases timeout with
      | false => exact ⟨_, _, rfl, .waiting clientInfo false, rfl, .quiet rfl rfl⟩
      | true => exact ⟨_, _, rfl, .stoppingWaiting clientInfo, rfl, .stops rfl rfl rfl rfl⟩
    | runPosted => exact ⟨_, _, rfl, .receiving clientInfo true, rfl, .quiet rfl rfl⟩
  | stopping clientInfo operation hoperation =>
    cases event with
    | connected status =>
      refine ⟨_, _, if_neg hoperation, .stopping clientInfo operation hoperation, rfl,
        .quiet rfl rfl⟩
    | received status isConnected =>
      -- The guard leaves only a listener on which nothing is received any more.
      have hnone : operation ≠ some .receive := by simpa [receivesInTime] using hguard
      refine ⟨_, _, if_neg hnone, .stopping clientInfo operation hoperation, rfl, .quiet rfl rfl⟩
    | timedOut =>
      exact ⟨_, _, rfl, .stopping clientInfo operation hoperation, rfl, .quiet rfl rfl⟩
    | runPosted => exact ⟨_, _, rfl, .dead clientInfo true, rfl, .dies rfl rfl⟩
  | stoppingWaiting clientInfo =>
    cases event with
    | connected | received | timedOut =>
      exact ⟨_, _, rfl, .stoppingWaiting clientInfo, rfl, .quiet rfl rfl⟩
    | runPosted => exact ⟨_, _, rfl, .stopping clientInfo none (by simp), rfl, .quiet rfl rfl⟩
  | dead clientInfo stopped =>
    cases event with
    | connected | received | timedOut | runPosted =>
      exact ⟨_, _, rfl, .dead clientInfo stopped, rfl, .quiet rfl rfl⟩

end HeartBeatListener

/-! ### The master with its listeners -/

/-- The master, its thread's queue and the listeners it started, freed ones included: their posted
tasks are still there. -/
structure Monitor where
  registry : Registry := {}
  tasks : List Task := []
  listeners : List HeartBeatListener := []

/-- What can happen next. -/
inductive MonitorAction
  | master (a : Action)
  | listener (i : ℕ) (event : HeartBeatEvent)

/-- What a step does to the outside. -/
inductive MonitorEffect
  | master (effect : Effect)
  | listener (i : ℕ) (effect : HeartBeatEffect)
  deriving DecidableEq

namespace MonitorEffect

/-- A listener schedules its deletion. -/
def schedules (i : ℕ) : MonitorEffect → Bool
  | .listener j .scheduleDeletion => i = j
  | _ => false

/-- A listener runs its callback. -/
def disconnects (i : ℕ) : MonitorEffect → Bool
  | .listener j (.onDisconnect _) => i = j
  | _ => false

end MonitorEffect

namespace Monitor

/-- The clients whose listeners were not freed. -/
def liveListeners (listeners : List HeartBeatListener) : List ClientInfo :=
  (listeners.filter (!·.deleted)).map (·.clientInfo)

/-- The system of which the monitor is a refinement: of a listener only its client is left. -/
def toSystem (m : Monitor) : System where
  registry := m.registry
  tasks := m.tasks
  listeners := liveListeners m.listeners

/-- `Master::DoCheckHeartBeat` of the task that an action runs. -/
def started (build : Build) (m : Monitor) : Action → List ClientInfo
  | .runTask _ => m.tasks.head?.elim [] (System.startedListeners build)
  | _ => []

/-- The callbacks that a listener runs: each is `Master::RemoveClient`. -/
def runCallbacks (hasRos : Bool) (r : Registry) :
    List HeartBeatEffect → Option (Registry × List Effect)
  | [] => some (r, [])
  | .scheduleDeletion :: effects => runCallbacks hasRos r effects
  | .onDisconnect clientInfo :: effects =>
    (removeClient hasRos r clientInfo).bind fun removed ↦
      (runCallbacks hasRos removed.1 effects).map fun result ↦ (result.1, removed.2 ++ result.2)

/-- One step. A listener ends by its own events, never by itself. -/
def step (build : Build) (m : Monitor) : MonitorAction → Option (Monitor × List MonitorEffect)
  | .master (.heartBeatLost _) => some (m, [])
  | .master a => (System.step build m.toSystem a).map fun result ↦
      ({ registry := result.1.registry, tasks := result.1.tasks
         listeners := m.listeners ++
           (m.started build a).map HeartBeatListener.startCheckHeartBeat },
        result.2.map .master)
  | .listener i event =>
    match m.listeners[i]? with
    | none => some (m, [])
    | some l => (l.step event).bind fun result ↦
        (runCallbacks build.hasRos m.registry result.2).map fun removed ↦
          ({ m with registry := removed.1, listeners := m.listeners.set i result.1 },
            result.2.map (.listener i) ++ removed.2.map .master)

/-- No receive of a listener ends between its `StopCheckHeartBeat` and its `KillSelf`. -/
def ReceivesInTime (m : Monitor) : MonitorAction → Prop
  | .listener i event => (m.listeners[i]?.all (·.receivesInTime event)) = true
  | .master _ => True

instance (m : Monitor) : (a : MonitorAction) → Decidable (m.ReceivesInTime a)
  | .listener _ _ => inferInstanceAs (Decidable (_ = true))
  | .master _ => isTrue trivial

end Monitor

/-- The monitored master as a transition system. -/
def monitor (build : Build) : TransitionSystem Monitor MonitorAction MonitorEffect where
  Initial m := m = {}
  step := Monitor.step build

namespace Monitor

/-! ### The monitor refines the system -/

theorem liveListeners_append_started (listeners : List HeartBeatListener)
    (clientInfos : List ClientInfo) :
    liveListeners (listeners ++ clientInfos.map HeartBeatListener.startCheckHeartBeat) =
      liveListeners listeners ++ clientInfos := by
  have hnew : (clientInfos.map HeartBeatListener.startCheckHeartBeat).filter (!·.deleted) =
      clientInfos.map HeartBeatListener.startCheckHeartBeat :=
    List.filter_eq_self.mpr (by simp [HeartBeatListener.startCheckHeartBeat])
  rw [liveListeners, List.filter_append, hnew, List.map_append, List.map_map]
  exact congrArg _ (List.map_id' _)

/-- A step of the master that is no heart beat lost starts the listeners of the task it runs. -/
theorem listeners_step {build : Build} {m : Monitor} {a : Action} {s' : System}
    {effects : List Effect} (hstep : System.step build m.toSystem a = some (s', effects))
    (ha : ∀ clientInfo, a ≠ .heartBeatLost clientInfo) :
    s'.listeners = m.toSystem.listeners ++ m.started build a := by
  cases a with
  | entry env rand request callback =>
    cases step_cases hstep with
    | post | newClient | newNode => simp [started]
  | runTask ros =>
    simp only [System.step, toSystem] at hstep
    cases htasks : m.tasks with
    | nil =>
      rw [htasks] at hstep
      cases hstep
      simp [started, htasks, toSystem]
    | cons task rest =>
      rw [htasks] at hstep
      obtain ⟨result, -, heq⟩ := Option.map_eq_some_iff.mp hstep
      cases heq
      simp [started, htasks, toSystem]
  | heartBeatLost clientInfo => exact absurd rfl (ha clientInfo)
  | pubUpdate topic update =>
    cases step_cases hstep with
    | post => simp [started]

theorem step_master {build : Build} {m m' : Monitor} {a : Action} {effects : List MonitorEffect}
    (ha : ∀ clientInfo, a ≠ .heartBeatLost clientInfo)
    (hstep : m.step build (.master a) = some (m', effects)) :
    ∃ s' said, System.step build m.toSystem a = some (s', said) ∧
      m' = { registry := s'.registry, tasks := s'.tasks
             listeners := m.listeners ++
               (m.started build a).map HeartBeatListener.startCheckHeartBeat } ∧
      effects = said.map .master := by
  cases a with
  | heartBeatLost clientInfo => exact absurd rfl (ha clientInfo)
  | _ =>
    obtain ⟨⟨s', said⟩, hsystem, heq⟩ := Option.map_eq_some_iff.mp hstep
    cases heq
    exact ⟨s', said, hsystem, rfl, rfl⟩

variable {listeners : List HeartBeatListener} {i : ℕ} {l l' : HeartBeatListener}

/-- Assumes: a listener that is replaced by one that is freed exactly when it was. -/
theorem liveListeners_set_of_kept (hl : listeners[i]? = some l)
    (hdeleted : l'.deleted = l.deleted) (hclient : l'.clientInfo = l.clientInfo) :
    liveListeners (listeners.set i l') = liveListeners listeners := by
  obtain ⟨before, after, hsplit, hset⟩ := exists_split_set hl l'
  rw [hset, hsplit]
  cases hl : l.deleted with
  | false => simp [liveListeners, hdeleted, hl, hclient]
  | true => simp [liveListeners, hdeleted, hl]

/-- Assumes: a listener that is freed, and listeners of different clients. -/
theorem liveListeners_set_of_freed (hl : listeners[i]? = some l) (hlive : l.deleted = false)
    (hfreed : l'.deleted = true) (hnodup : (liveListeners listeners).Nodup) :
    l.clientInfo ∈ liveListeners listeners ∧
      liveListeners (listeners.set i l') = (liveListeners listeners).erase l.clientInfo := by
  obtain ⟨before, after, hsplit, hset⟩ := exists_split_set hl l'
  have hlisteners : liveListeners listeners =
      liveListeners before ++ l.clientInfo :: liveListeners after := by
    simp [hsplit, liveListeners, hlive]
  have hset' : liveListeners (listeners.set i l') =
      liveListeners before ++ liveListeners after := by
    simp [hset, liveListeners, hfreed]
  rw [hlisteners] at hnodup ⊢
  have hbefore : l.clientInfo ∉ liveListeners before := by
    intro hmem
    exact List.disjoint_of_nodup_append hnodup hmem (List.mem_cons_self ..)
  rw [hset', List.erase_append_right _ hbefore, List.erase_cons_head]
  exact ⟨List.mem_append_right _ (List.mem_cons_self ..), rfl⟩

/-! ### The invariant -/

/-- How often a listener has scheduled its deletion. -/
def scheduledBy (l : HeartBeatListener) : ℕ := if l.stopped || l.deleted then 1 else 0

/-- How often a listener has run its callback. -/
def disconnectedBy (l : HeartBeatListener) : ℕ := if l.deleted then 1 else 0

/-- The monitored master is a reachable system, its listeners are as no late receive finds them, and
each has scheduled its deletion and run its callback as often as its state tells. -/
structure Sound (build : Build) (m : Monitor) (history : List MonitorEffect) : Prop where
  reachable : Reachable (Felicia.master build) unguarded m.toSystem
  phases : ∀ l ∈ m.listeners, l.Phase
  scheduled : ∀ i, history.countP (·.schedules i) = m.listeners[i]?.elim 0 scheduledBy
  disconnected : ∀ i, history.countP (·.disconnects i) = m.listeners[i]?.elim 0 disconnectedBy

namespace Sound

variable {build : Build} {m : Monitor} {history : List MonitorEffect}

theorem initial : Sound build {} [] where
  reachable := ⟨[], .start rfl⟩
  phases := List.forall_mem_nil _
  scheduled := by simp
  disconnected := by simp

theorem owned (h : Sound build m history) : m.toSystem.Owned :=
  System.owned_of_reachable h.reachable

/-- What an event does is what the counts of its listener then are beyond what they were. -/
theorem counts {effects : List HeartBeatEffect} (h : l.Outcome l' effects) :
    scheduledBy l' = scheduledBy l + effects.countP (· = .scheduleDeletion) ∧
      disconnectedBy l' = disconnectedBy l + effects.countP (· ≠ .scheduleDeletion) := by
  cases h with
  | quiet hstopped hdeleted => simp [scheduledBy, disconnectedBy, hstopped, hdeleted]
  | stops hrunning hstopped hdeleted hdeleted' =>
    simp [scheduledBy, disconnectedBy, hrunning, hstopped, hdeleted, hdeleted']
  | dies hdeleted hdeleted' =>
    cases hstopped : l.stopped <;>
      simp [scheduledBy, disconnectedBy, hstopped, hdeleted, hdeleted']

theorem countP_schedules (i j : ℕ) (effects : List HeartBeatEffect) (removed : List Effect) :
    (effects.map (MonitorEffect.listener i) ++
        removed.map MonitorEffect.master).countP (·.schedules j) =
      if i = j then effects.countP (· = .scheduleDeletion) else 0 := by
  have hremoved : (removed.map MonitorEffect.master).countP (·.schedules j) = 0 := by
    simp [List.countP_eq_zero, MonitorEffect.schedules]
  rw [List.countP_append, hremoved, List.countP_map, Nat.add_zero]
  by_cases hij : i = j
  · rw [if_pos hij]
    refine List.countP_congr fun e _ ↦ ?_
    cases e <;> simp [MonitorEffect.schedules, hij]
  · rw [if_neg hij, List.countP_eq_zero]
    intro e _
    cases e <;> simp [MonitorEffect.schedules, Ne.symm hij]

theorem countP_disconnects (i j : ℕ) (effects : List HeartBeatEffect) (removed : List Effect) :
    (effects.map (MonitorEffect.listener i) ++
        removed.map MonitorEffect.master).countP (·.disconnects j) =
      if i = j then effects.countP (· ≠ .scheduleDeletion) else 0 := by
  have hremoved : (removed.map MonitorEffect.master).countP (·.disconnects j) = 0 := by
    simp [List.countP_eq_zero, MonitorEffect.disconnects]
  rw [List.countP_append, hremoved, List.countP_map, Nat.add_zero]
  by_cases hij : i = j
  · rw [if_pos hij]
    refine List.countP_congr fun e _ ↦ ?_
    cases e <;> simp [MonitorEffect.disconnects, hij]
  · rw [if_neg hij, List.countP_eq_zero]
    intro e _
    cases e <;> simp [MonitorEffect.disconnects, Ne.symm hij]

theorem elim_set (hl : m.listeners[i]? = some l) (count : HeartBeatListener → ℕ)
    (l' : HeartBeatListener) (j : ℕ) :
    (m.listeners.set i l')[j]?.elim 0 count =
      if i = j then count l' else m.listeners[j]?.elim 0 count := by
  obtain ⟨hi, -⟩ := List.getElem?_eq_some_iff.mp hl
  by_cases hij : i = j
  · subst hij
    simp [hi]
  · simp [List.getElem?_set_ne hij, hij]

/-- Assumes: a listener whose event was handled, and a system that is reachable afterwards. -/
theorem set (h : Sound build m history) (hl : m.listeners[i]? = some l) (hphase : l'.Phase)
    {effects : List HeartBeatEffect} (houtcome : l.Outcome l' effects) {r' : Registry}
    (hreach : Reachable (Felicia.master build) unguarded
      (toSystem { m with registry := r', listeners := m.listeners.set i l' }))
    (removed : List Effect) :
    Sound build { m with registry := r', listeners := m.listeners.set i l' }
      (history ++ (effects.map (.listener i) ++ removed.map .master)) := by
  obtain ⟨hscheduled, hdisconnected⟩ := counts houtcome
  refine ⟨hreach, fun k hk ↦ ?_, fun j ↦ ?_, fun j ↦ ?_⟩
  · rcases List.mem_or_eq_of_mem_set hk with hold | rfl
    · exact h.phases k hold
    · exact hphase
  · rw [List.countP_append, countP_schedules, h.scheduled j, elim_set hl]
    by_cases hij : i = j
    · subst hij
      simp [hl, hscheduled]
    · simp [hij]
  · rw [List.countP_append, countP_disconnects, h.disconnected j, elim_set hl]
    by_cases hij : i = j
    · subst hij
      simp [hl, hdisconnected]
    · simp [hij]

/-- Assumes: an event that is no late receive. It is defined: no handler runs on a freed listener,
and `RemoveClient` finds the client. -/
theorem listener (h : Sound build m history) (hl : m.listeners[i]? = some l)
    {event : HeartBeatEvent} (hguard : l.receivesInTime event = true) :
    ∃ m' effects, m.step build (.listener i event) = some (m', effects) ∧
      Sound build m' (history ++ effects) ∧
      ∀ clientInfo, .listener i (.onDisconnect clientInfo) ∈ effects →
        clientInfo.id ∈ m.registry.clientMap.keys := by
  have hmem : l ∈ m.listeners := List.mem_of_getElem? hl
  obtain ⟨l', effects, hstep, hphase, hclient, houtcome⟩ := (h.phases l hmem).step hguard
  -- The registry and the effects of `RemoveClient` are all that is left to find.
  suffices hcallbacks : ∃ r' removed,
      runCallbacks build.hasRos m.registry effects = some (r', removed) ∧
      Reachable (Felicia.master build) unguarded
        (toSystem { m with registry := r', listeners := m.listeners.set i l' }) ∧
      ∀ clientInfo, .onDisconnect clientInfo ∈ effects →
        clientInfo.id ∈ m.registry.clientMap.keys by
    obtain ⟨r', removed, hrun, hreach, hkeys⟩ := hcallbacks
    refine ⟨{ m with registry := r', listeners := m.listeners.set i l' },
      effects.map (.listener i) ++ removed.map .master, by simp [step, hl, hstep, hrun],
      h.set hl hphase houtcome hreach removed, fun clientInfo hin ↦ hkeys clientInfo ?_⟩
    simpa using hin
  cases houtcome with
  | quiet hstopped hdeleted =>
    refine ⟨m.registry, [], rfl, ?_, by simp⟩
    rw [toSystem, liveListeners_set_of_kept hl hdeleted hclient]
    exact h.reachable
  | stops _ _ hdeleted hdeleted' =>
    refine ⟨m.registry, [], rfl, ?_, by simp⟩
    rw [toSystem, liveListeners_set_of_kept hl (hdeleted'.trans hdeleted.symm) hclient]
    exact h.reachable
  | dies hdeleted hdeleted' =>
    have hnodup : (liveListeners m.listeners).Nodup := h.owned.listeners_nodup.of_map _
    obtain ⟨hin, hset⟩ := liveListeners_set_of_freed hl hdeleted hdeleted' hnodup
    obtain ⟨r', client, -, herase, -⟩ := h.owned.exists_eraseClient hin
    have hremove : ∃ removed, removeClient build.hasRos m.registry l.clientInfo =
        some (r', removed) := ⟨_, Option.map_eq_some_iff.mpr ⟨_, herase, rfl⟩⟩
    obtain ⟨removed, hremove⟩ := hremove
    refine ⟨r', removed, ?_, ?_, ?_⟩
    · cases l.stopped <;> simp [runCallbacks, hremove]
    · have hlost : (Felicia.master build).step m.toSystem (.heartBeatLost l.clientInfo) =
          some (toSystem { m with registry := r', listeners := m.listeners.set i l' },
            removed) := by
        simp only [Felicia.master, System.step]
        rw [if_pos (show l.clientInfo ∈ m.toSystem.listeners from hin)]
        refine Option.map_eq_some_iff.mpr ⟨(r', removed), hremove, ?_⟩
        simp [toSystem, hset]
      exact h.reachable.next trivial hlost
    · intro clientInfo hdisconnect
      have heq : clientInfo = l.clientInfo := by
        cases hstopped : l.stopped <;> simpa [hstopped] using hdisconnect
      rw [heq]
      exact h.owned.listening _ hin

/-- New listeners have done nothing yet. -/
theorem elim_append_started (clientInfos : List ClientInfo) {count : HeartBeatListener → ℕ}
    (hcount : ∀ info, count (.startCheckHeartBeat info) = 0) (j : ℕ) :
    (m.listeners ++ clientInfos.map HeartBeatListener.startCheckHeartBeat)[j]?.elim 0 count =
      m.listeners[j]?.elim 0 count := by
  by_cases hj : j < m.listeners.length
  · rw [List.getElem?_append_left hj]
  · rw [List.getElem?_append_right (by omega), List.getElem?_map,
      List.getElem?_eq_none (l := m.listeners) (by omega)]
    cases clientInfos[j - m.listeners.length]? <;> simp [hcount]

/-- A step of the master itself keeps the invariant. -/
theorem master (h : Sound build m history) {a : Action} {m' : Monitor}
    {effects : List MonitorEffect} (hstep : m.step build (.master a) = some (m', effects)) :
    Sound build m' (history ++ effects) := by
  by_cases hlost : ∃ clientInfo, a = .heartBeatLost clientInfo
  · obtain ⟨clientInfo, rfl⟩ := hlost
    cases hstep
    simpa using h
  · obtain ⟨s', said, hsystem, rfl, rfl⟩ := step_master (fun info heq ↦ hlost ⟨info, heq⟩) hstep
    have hsaid (p : MonitorEffect → Bool) (hp : ∀ e, p (.master e) = false) :
        (said.map MonitorEffect.master).countP p = 0 := by
      simp [List.countP_eq_zero, hp]
    refine ⟨?_, ?_, fun j ↦ ?_, fun j ↦ ?_⟩
    · have hnext : Reachable (Felicia.master build) unguarded s' :=
        h.reachable.next trivial hsystem
      have hlisteners := listeners_step hsystem fun info heq ↦ hlost ⟨info, heq⟩
      rw [toSystem, liveListeners_append_started]
      rwa [show liveListeners m.listeners ++ m.started build a = s'.listeners from
        hlisteners.symm]
    · refine List.forall_mem_append.mpr ⟨h.phases, fun l hl ↦ ?_⟩
      obtain ⟨info, -, rfl⟩ := List.mem_map.mp hl
      exact .connecting info
    · rw [List.countP_append, hsaid _ fun _ ↦ rfl, Nat.add_zero, h.scheduled j,
        elim_append_started _ fun _ ↦ rfl]
    · rw [List.countP_append, hsaid _ fun _ ↦ rfl, Nat.add_zero, h.disconnected j,
        elim_append_started _ fun _ ↦ rfl]

theorem step (h : Sound build m history) {a : MonitorAction} (hguard : m.ReceivesInTime a)
    {m' : Monitor} {effects : List MonitorEffect} (hstep : m.step build a = some (m', effects)) :
    Sound build m' (history ++ effects) := by
  cases a with
  | master a => exact h.master hstep
  | listener i event =>
    cases hl : m.listeners[i]? with
    | none =>
      simp only [Monitor.step, hl] at hstep
      cases hstep
      simpa using h
    | some l =>
      obtain ⟨m'', effects', hstep', hsound, -⟩ :=
        h.listener hl (by simpa [ReceivesInTime, hl] using hguard)
      cases hstep'.symm.trans hstep
      exact hsound

end Sound

/-- In every run in which no receive of a listener ends between its `StopCheckHeartBeat` and its
`KillSelf`, each listener schedules its deletion and runs its callback at most once, every event of
a listener is defined, so that no handler runs on a freed listener, and a listener that runs its
callback names a client that is registered. -/
theorem heart_beat_lifecycle (build : Build) (m : Monitor) (history : List MonitorEffect)
    (run : Run (monitor build) ReceivesInTime m history) :
    (∀ i, history.countP (·.schedules i) ≤ 1 ∧ history.countP (·.disconnects i) ≤ 1) ∧
    ∀ i event, m.ReceivesInTime (.listener i event) →
      ∃ m' effects, (monitor build).step m (.listener i event) = some (m', effects) ∧
        ∀ clientInfo, .listener i (.onDisconnect clientInfo) ∈ effects →
          clientInfo.id ∈ m.registry.clientMap.keys := by
  have hsound : Sound build m history := by
    refine run.invariant (I := Sound build) ?_ ?_
    · rintro _ rfl
      exact .initial
    · intro m a m' history effects _ hinv hguard hstep
      exact hinv.step hguard hstep
  refine ⟨fun i ↦ ⟨?_, ?_⟩, fun i event hguard ↦ ?_⟩
  · rw [hsound.scheduled i]
    cases m.listeners[i]? with
    | none => exact Nat.zero_le 1
    | some l =>
      simp only [Option.elim, scheduledBy]
      split_ifs <;> omega
  · rw [hsound.disconnected i]
    cases m.listeners[i]? with
    | none => exact Nat.zero_le 1
    | some l =>
      simp only [Option.elim, disconnectedBy]
      split_ifs <;> omega
  · cases hl : m.listeners[i]? with
    | none => exact ⟨m, [], by simp [monitor, step, hl], by simp⟩
    | some l =>
      obtain ⟨m', effects, hstep, -, hkeys⟩ :=
        hsound.listener hl (by simpa [ReceivesInTime, hl] using hguard)
      exact ⟨m', effects, hstep, hkeys⟩

/-- The master registers a client and connects to it, and no heart beat comes in time. -/
def missedHeartBeat : List MonitorAction :=
  [.master Scenario.tcpClient, .master Scenario.run, .listener 0 (.connected .OK),
    .listener 0 .timedOut]

/-- The listener of a client that went silent frees itself, and its client is there. -/
theorem heart_beat_lifecycle_of_missed :
    ∃ m history, Run (monitor {}) ReceivesInTime m history ∧
      history.countP (·.schedules 0) = 1 ∧
      ∃ m' effects, (monitor {}).step m (.listener 0 .runPosted) = some (m', effects) ∧
        .listener 0 (.onDisconnect Scenario.tcpClientInfo) ∈ effects ∧
        Scenario.tcpClientInfo.id ∈ m.registry.clientMap.keys := by
  have hexec : ((monitor {}).exec ReceivesInTime {} [] missedHeartBeat).map (fun result ↦
      (result.2.countP (·.schedules 0), ((monitor {}).step result.1 (.listener 0 .runPosted)).map
        fun next ↦ decide (.listener 0 (.onDisconnect Scenario.tcpClientInfo) ∈ next.2))) =
      some (1, some true) := by decide
  obtain ⟨⟨m, history⟩, hexecuted, heq⟩ := Option.map_eq_some_iff.mp hexec
  have hrun : Run (monitor {}) ReceivesInTime m history := (Run.start rfl).of_exec hexecuted
  obtain ⟨⟨m', effects⟩, hstep, hin⟩ := Option.map_eq_some_iff.mp (congrArg Prod.snd heq)
  obtain ⟨-, hdefined⟩ := heart_beat_lifecycle {} m history hrun
  have hguard : m.ReceivesInTime (.listener 0 .runPosted) := by
    simp only [ReceivesInTime]
    cases m.listeners[0]? <;> rfl
  obtain ⟨m'', effects', hstep', hkeys⟩ := hdefined 0 .runPosted hguard
  cases hstep'.symm.trans hstep
  exact ⟨m, history, hrun, congrArg Prod.fst heq, m', effects, hstep, of_decide_eq_true hin,
    hkeys _ (of_decide_eq_true hin)⟩

/-- The client of a listener that was stopped closes its connection before the listener is freed:
the listener frees itself at once, and once more with the task that it had posted. -/
theorem late_receive_frees_twice :
    ¬ ∀ m history, Run (monitor {}) unguarded m history →
      (∀ i, history.countP (·.schedules i) ≤ 1 ∧ history.countP (·.disconnects i) ≤ 1) ∧
      ∀ i event, ∃ m' effects,
        (monitor {}).step m (.listener i event) = some (m', effects) := by
  intro h
  have hexec : ((monitor {}).exec unguarded {} [] (missedHeartBeat ++
      [.listener 0 (.received ⟨.networkError, ""⟩ false)])).map (fun result ↦
        ((monitor {}).step result.1 (.listener 0 .runPosted)).isNone) = some true := by decide
  obtain ⟨⟨m, history⟩, hexecuted, hnone⟩ := Option.map_eq_some_iff.mp hexec
  obtain ⟨-, hdefined⟩ := h m history ((Run.start rfl).of_exec hexecuted)
  obtain ⟨m', effects, hstep⟩ := hdefined 0 .runPosted
  rw [hstep] at hnone
  cases hnone

end Monitor

end Felicia
