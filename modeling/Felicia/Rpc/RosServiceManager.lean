import Felicia.Core.Messages
import Felicia.Support.Lists
import Felicia.Support.Transition

/-!
# Handlers of a ROS service

`RosServiceHandler` and `RosServiceManager` of `felicia/core/rpc/`, and the ROS `rpc::Server` of
`felicia/core/rpc/ros_server_impl.h` that makes the handlers. A handler receives a request, has the
service handle it, sends the response and, if it is persistent, starts over; when a receive or a
send fails, or the one response was sent, it asks the manager to remove it.

`RemoveHandler` erases from the handler it looks for to the end of the list, so it takes every later
handler with it. And the constructor of a handler starts the first receive before the handler is in
the list: a handler that asks to be removed from within its constructor is not found, and is added
afterwards.

`handlers_eq_live_iff` says that the manager holds exactly the handlers that were constructed and
not yet removed, in order, in every run in which only the last handler of the list asks to be
removed and none does so while it is constructed; and that the first step that is not of this kind
breaks it.

A completion for a handler that was deleted has no step. What requests and responses hold is left
out.
-/

set_option autoImplicit false
set_option relaxedAutoImplicit false

namespace Felicia

open Support TransitionSystem

/-! ### Handlers -/

/-- What a handler waits for. -/
inductive HandlerPhase
  | receiving | handling | sending
  /-- It asked to be removed; nothing is under way. -/
  | removed
  deriving DecidableEq

/-- `RosServiceHandler`. -/
structure RosServiceHandler where
  /-- The number of its construction, for its address. -/
  id : ℕ
  useRosProtocol : Bool
  persistent : Bool := true
  phase : HandlerPhase := .receiving
  deriving DecidableEq

/-- What is seen of a server. -/
inductive RosServerEvent
  | constructed (id : ℕ)
  /-- `SendResponse`, with the `RosRpcHeader` if there is one. -/
  | responded (id : ℕ) (header : Option Bool)
  /-- A handler calls `RemoveHandler`. -/
  | removed (id : ℕ)
  | cleared
  deriving DecidableEq

namespace RosServiceHandler

variable (h : RosServiceHandler)

/-- `RosServiceHandler::OnReceiveRequest`. -/
def onReceiveRequest (s : Status) : RosServiceHandler × List RosServerEvent :=
  if s.isOk then ({ h with phase := .handling }, [])
  else ({ h with phase := .removed }, [.removed h.id])

/-- `RosServiceHandler::OnHandleRequest` and `SendResponse`. -/
def onHandleRequest (s : Status) : RosServiceHandler × List RosServerEvent :=
  ({ h with phase := .sending },
    [.responded h.id (if h.useRosProtocol then some s.isOk else none)])

/-- `RosServiceHandler::OnSendResponse`. -/
def onSendResponse (s : Status) : RosServiceHandler × List RosServerEvent :=
  if s.isOk && h.persistent then ({ h with phase := .receiving }, [])
  else ({ h with phase := .removed }, [.removed h.id])

/-- What the handler waits for ends. -/
def complete (s : Status) : Option (RosServiceHandler × List RosServerEvent) :=
  match h.phase with
  | .receiving => some (h.onReceiveRequest s)
  | .handling => some (h.onHandleRequest s)
  | .sending => some (h.onSendResponse s)
  | .removed => none

/-- One thing after the other ends, each as soon as it was started. -/
def completeAll (h : RosServiceHandler) :
    List Status → Option (RosServiceHandler × List RosServerEvent)
  | [] => some (h, [])
  | s :: rest => (h.complete s).bind fun result ↦
    (result.1.completeAll rest).map fun last ↦ (last.1, result.2 ++ last.2)

/-- The completions end with the handler asking to be removed: a receive or a send fails, or the
response of a handler that is not persistent was sent. -/
def ends (completions : List Status) : Bool :=
  (h.completeAll completions).any fun result ↦ result.1.phase = .removed

end RosServiceHandler

/-! ### The manager and the server -/

/-- `RosServiceManager`. -/
structure RosServiceManager where
  handlers : List RosServiceHandler := []
  deriving DecidableEq

namespace RosServiceManager

variable (manager : RosServiceManager)

/-- `RosServiceManager::AddHandler`. -/
def addHandler (handler : RosServiceHandler) : RosServiceManager :=
  ⟨manager.handlers ++ [handler]⟩

/-- `RosServiceManager::RemoveHandler`: everything from the handler on is erased. -/
def removeHandler (id : ℕ) : RosServiceManager :=
  ⟨manager.handlers.takeWhile fun handler ↦ handler.id != id⟩

/-- `RosServiceManager::ClearHandlers`. -/
def clearHandlers (_ : RosServiceManager) : RosServiceManager := ⟨[]⟩

/-- A handler that the manager holds changed. -/
def setHandler (handler : RosServiceHandler) : RosServiceManager :=
  ⟨manager.handlers.map fun other ↦ if other.id = handler.id then handler else other⟩

/-- The call of `RemoveHandler` by a handler that asks for it. -/
def removeIfAsked (handler : RosServiceHandler) : RosServiceManager :=
  if handler.phase = .removed then manager.removeHandler handler.id else manager

/-- The addresses of the handlers. -/
def ids : List ℕ := manager.handlers.map (·.id)

end RosServiceManager

/-- The ROS `rpc::Server`. -/
structure RosServer where
  serviceManager : RosServiceManager := {}
  /-- Whether `channel_` accepts connections. -/
  accepting : Bool := false
  /-- The number of handshakes under way. -/
  handshakes : ℕ := 0
  /-- How many handlers were constructed. -/
  constructed : ℕ := 0
  deriving DecidableEq

/-- What can happen next. The completions of an action happen one after the other within it. -/
inductive RosServerAction
  | run
  | onAccept (s : Status) (completions : List Status)
  | onRosServiceHandshake (persistent : Bool) (completions : List Status)
  /-- A `RosServiceResponse` goes away, or stays, without calling back. -/
  | rosServiceHandshakeFailed
  /-- What a handler waits for ends. -/
  | complete (id : ℕ) (s : Status) (completions : List Status)
  | shutdown

namespace RosServer

variable (usesRos : Bool) (server : RosServer)

/-- The handler that is constructed next. -/
def newHandler (useRosProtocol persistent : Bool) : RosServiceHandler :=
  { id := server.constructed, useRosProtocol, persistent }

/-- A handler is constructed, which starts its first receive, and then added. -/
def addNewHandler (useRosProtocol persistent : Bool) (completions : List Status) :
    Option (RosServer × List RosServerEvent) :=
  ((server.newHandler useRosProtocol persistent).completeAll completions).map fun result ↦
    ({ server with
       serviceManager := (server.serviceManager.removeIfAsked result.1).addHandler result.1
       constructed := server.constructed + 1 },
      .constructed server.constructed :: result.2)

/-- `Server::OnAccept`. -/
def onAccept (s : Status) (completions : List Status) :
    Option (RosServer × List RosServerEvent) :=
  if server.accepting then
    if s.isOk then
      if usesRos then some ({ server with handshakes := server.handshakes + 1 }, [])
      else server.addNewHandler false true completions
    else some (server, [])
  else none

/-- `Server::OnRosServiceHandshake`. -/
def onRosServiceHandshake (persistent : Bool) (completions : List Status) :
    Option (RosServer × List RosServerEvent) :=
  if 0 < server.handshakes then
    ({ server with handshakes := server.handshakes - 1 }).addNewHandler true persistent completions
  else none

/-- The handler of an address. -/
def handler? (id : ℕ) : Option RosServiceHandler :=
  server.serviceManager.handlers.find? (·.id = id)

def complete (id : ℕ) (completions : List Status) : Option (RosServer × List RosServerEvent) :=
  (server.handler? id).bind fun handler ↦ (handler.completeAll completions).map fun result ↦
    ({ server with
       serviceManager := (server.serviceManager.setHandler result.1).removeIfAsked result.1 },
      result.2)

def step : RosServerAction → Option (RosServer × List RosServerEvent)
  | .run => some ({ server with accepting := true }, [])
  | .onAccept s completions => server.onAccept usesRos s completions
  | .onRosServiceHandshake persistent completions =>
    server.onRosServiceHandshake persistent completions
  | .rosServiceHandshakeFailed =>
    if 0 < server.handshakes then
      some ({ server with handshakes := server.handshakes - 1 }, [])
    else none
  | .complete id s completions => server.complete id (s :: completions)
  | .shutdown =>
    some ({ server with
      serviceManager := server.serviceManager.clearHandlers
      accepting := false }, [.cleared])

end RosServer

/-- A server from its construction on. -/
def rosServing (usesRos : Bool) : TransitionSystem RosServer RosServerAction RosServerEvent where
  Initial server := server = {}
  step server a := server.step usesRos a

/-! ### Which handlers there are -/

/-- The handlers that were constructed and not removed, after one more event. -/
def RosServerEvent.live (ids : List ℕ) : RosServerEvent → List ℕ
  | .constructed id => ids ++ [id]
  | .responded _ _ => ids
  | .removed id => ids.filter (· != id)
  | .cleared => []

/-- The handlers that were constructed and not removed, in the order of their construction. -/
def liveHandlers (history : List RosServerEvent) : List ℕ :=
  history.foldl RosServerEvent.live []

namespace RosServer

/-- No handler asks to be removed while it is constructed, and afterwards only the last one does. -/
def RemovesLast (usesRos : Bool) (server : RosServer) : RosServerAction → Prop
  | .onAccept s completions => s.isOk = true → usesRos = false →
    (server.newHandler false true).ends completions = false
  | .onRosServiceHandshake persistent completions =>
    (server.newHandler true persistent).ends completions = false
  | .complete id s completions => ∀ handler ∈ server.handler? id,
    handler.ends (s :: completions) = true → server.serviceManager.ids.getLast? = some id
  | _ => True

instance (usesRos : Bool) (server : RosServer) : DecidablePred (server.RemovesLast usesRos)
  | .onAccept s completions => inferInstanceAs (Decidable (s.isOk = true → usesRos = false →
    (server.newHandler false true).ends completions = false))
  | .onRosServiceHandshake persistent completions =>
    inferInstanceAs (Decidable ((server.newHandler true persistent).ends completions = false))
  | .complete id s completions => inferInstanceAs (Decidable (∀ handler ∈ server.handler? id,
    handler.ends (s :: completions) = true → server.serviceManager.ids.getLast? = some id))
  | .run | .rosServiceHandshakeFailed | .shutdown => isTrue trivial

end RosServer

/-! ### Completions -/

namespace RosServiceHandler

variable {h : RosServiceHandler} {result : RosServiceHandler × List RosServerEvent}

/-- What a handler and its events have to do with each other: it keeps its address, and asks to be
removed by its last event, if at all. -/
structure Advanced (id : ℕ) (result : RosServiceHandler × List RosServerEvent) : Prop where
  id_eq : result.1.id = id
  live_eq : ∀ ids, result.2.foldl RosServerEvent.live ids =
    if result.1.phase = .removed then ids.filter (· != id) else ids

theorem advanced_complete {s : Status} (hstep : h.complete s = some result) :
    Advanced h.id result := by
  unfold complete at hstep
  split at hstep
  · cases hstep
    unfold onReceiveRequest
    split_ifs
    · exact ⟨rfl, fun ids ↦ rfl⟩
    · exact ⟨rfl, fun ids ↦ rfl⟩
  · cases hstep
    exact ⟨rfl, fun ids ↦ rfl⟩
  · cases hstep
    unfold onSendResponse
    split_ifs
    · exact ⟨rfl, fun ids ↦ rfl⟩
    · exact ⟨rfl, fun ids ↦ rfl⟩
  · cases hstep

/-- Assumes: something was under way when the completions began. -/
theorem advanced_completeAll {completions : List Status} (hphase : h.phase ≠ .removed)
    (hstep : h.completeAll completions = some result) : Advanced h.id result := by
  induction completions generalizing h result with
  | nil =>
    cases hstep
    exact ⟨rfl, fun ids ↦ by rw [if_neg hphase]; rfl⟩
  | cons s rest ih =>
    obtain ⟨first, hfirst, hrest⟩ := Option.bind_eq_some_iff.mp hstep
    obtain ⟨last, hlast, rfl⟩ := Option.map_eq_some_iff.mp hrest
    have hadvanced := advanced_complete hfirst
    by_cases hremoved : first.1.phase = .removed
    · -- Nothing is under way any more, so there are no further completions.
      cases rest with
      | nil =>
        cases hlast
        exact ⟨hadvanced.id_eq, by simpa using hadvanced.live_eq⟩
      | cons s' rest => simp [completeAll, complete, hremoved] at hlast
    · have hrest := ih hremoved hlast
      refine ⟨hrest.id_eq.trans hadvanced.id_eq, fun ids ↦ ?_⟩
      rw [List.foldl_append, hadvanced.live_eq, if_neg hremoved, hrest.live_eq, hadvanced.id_eq]

theorem ends_eq {completions : List Status} (hstep : h.completeAll completions = some result) :
    h.ends completions = decide (result.1.phase = .removed) := by
  rw [ends, hstep, Option.any_some]

end RosServiceHandler

/-! ### What a step keeps -/

namespace RosServiceManager

variable {manager : RosServiceManager}

theorem ids_addHandler (handler : RosServiceHandler) :
    (manager.addHandler handler).ids = manager.ids ++ [handler.id] := by
  simp [ids, addHandler]

theorem ids_setHandler (handler : RosServiceHandler) :
    (manager.setHandler handler).ids = manager.ids := by
  rw [ids, setHandler, List.map_map, ids]
  refine List.map_congr_left fun other _ ↦ ?_
  rw [Function.comp_apply]
  split_ifs with hid
  · exact hid.symm
  · rfl

theorem ids_removeIfAsked (handler : RosServiceHandler) :
    (manager.removeIfAsked handler).ids =
      if handler.phase = .removed then manager.ids.takeWhile (· != handler.id)
      else manager.ids := by
  unfold removeIfAsked
  split_ifs
  · rw [ids, removeHandler, ids, List.takeWhile_map]
    rfl
  · rfl

end RosServiceManager

namespace RosServer

variable {server : RosServer} {a : RosServerAction} {result : RosServer × List RosServerEvent}

/-- The handlers are numbered in the order of their construction. -/
structure Numbered (server : RosServer) : Prop where
  sorted : server.serviceManager.ids.Pairwise (· < ·)
  constructed : ∀ id ∈ server.serviceManager.ids, id < server.constructed

theorem Numbered.removed (h : server.Numbered) (id : ℕ) :
    (server.serviceManager.ids.takeWhile (· != id)).Pairwise (· < ·) ∧
      ∀ other ∈ server.serviceManager.ids.takeWhile (· != id), other < server.constructed := by
  have hbegins := List.takeWhile_sublist (l := server.serviceManager.ids) (· != id)
  exact ⟨h.sorted.sublist hbegins, fun other hmem ↦ h.constructed other (hbegins.subset hmem)⟩

theorem Numbered.setHandshakes (h : server.Numbered) (handshakes : ℕ) :
    Numbered { server with handshakes } :=
  ⟨h.sorted, h.constructed⟩

/-- What the manager holds after a handler was constructed and added. -/
theorem ids_addNewHandler (h : server.Numbered) {useRosProtocol persistent : Bool}
    {completions : List Status}
    (hstep : server.addNewHandler useRosProtocol persistent completions = some result) :
    result.1.serviceManager.ids = server.serviceManager.ids ++ [server.constructed] ∧
      result.1.constructed = server.constructed + 1 := by
  obtain ⟨last, hlast, rfl⟩ := Option.map_eq_some_iff.mp hstep
  have hadvanced := RosServiceHandler.advanced_completeAll (by simp [newHandler]) hlast
  have hid : last.1.id = server.constructed := hadvanced.id_eq
  have hkept : server.serviceManager.ids.takeWhile (· != server.constructed) =
      server.serviceManager.ids := by
    rw [List.takeWhile_eq_self_iff]
    intro id hmem
    simpa using (h.constructed id hmem).ne
  refine ⟨?_, rfl⟩
  rw [RosServiceManager.ids_addHandler, RosServiceManager.ids_removeIfAsked, hid, hkept, ite_self]

theorem live_addNewHandler (h : server.Numbered) {useRosProtocol persistent : Bool}
    {completions : List Status}
    (hstep : server.addNewHandler useRosProtocol persistent completions = some result) :
    result.2.foldl RosServerEvent.live server.serviceManager.ids =
      if (server.newHandler useRosProtocol persistent).ends completions then
        server.serviceManager.ids
      else server.serviceManager.ids ++ [server.constructed] := by
  obtain ⟨last, hlast, rfl⟩ := Option.map_eq_some_iff.mp hstep
  have hadvanced := RosServiceHandler.advanced_completeAll (by simp [newHandler]) hlast
  rw [RosServiceHandler.ends_eq hlast, List.foldl_cons, hadvanced.live_eq]
  by_cases hremoved : last.1.phase = .removed
  · simp only [hremoved, if_true, decide_true, RosServerEvent.live, newHandler,
      List.filter_append]
    have hself : server.serviceManager.ids.filter (· != server.constructed) =
        server.serviceManager.ids := by
      rw [List.filter_eq_self]
      intro id hmem
      simpa using (h.constructed id hmem).ne
    simp [hself]
  · simp [hremoved, RosServerEvent.live]

/-- A new handler is held and counts as constructed, unless it asked to be removed. -/
theorem ids_addNewHandler_iff (h : server.Numbered) {useRosProtocol persistent : Bool}
    {completions : List Status}
    (hstep : server.addNewHandler useRosProtocol persistent completions = some result) :
    result.1.serviceManager.ids =
        result.2.foldl RosServerEvent.live server.serviceManager.ids ↔
      (server.newHandler useRosProtocol persistent).ends completions = false := by
  rw [(ids_addNewHandler h hstep).1, live_addNewHandler h hstep]
  cases (server.newHandler useRosProtocol persistent).ends completions with
  | false => simp
  | true => simp

theorem numbered_addNewHandler (h : server.Numbered) {useRosProtocol persistent : Bool}
    {completions : List Status}
    (hstep : server.addNewHandler useRosProtocol persistent completions = some result) :
    result.1.Numbered := by
  obtain ⟨hids, hconstructed⟩ := ids_addNewHandler h hstep
  constructor
  · rw [hids, List.pairwise_append]
    refine ⟨h.sorted, List.pairwise_singleton _ _, fun id hid new hnew ↦ ?_⟩
    rw [List.mem_singleton.mp hnew]
    exact h.constructed id hid
  · intro id hmem
    rw [hids, List.mem_append, List.mem_singleton] at hmem
    rw [hconstructed]
    rcases hmem with hmem | rfl
    · exact Nat.lt_succ_of_lt (h.constructed id hmem)
    · exact Nat.lt_succ_self _

/-- What the manager holds after completions of a handler, and what it should hold. -/
theorem ids_complete {id : ℕ} {completions : List Status} {handler : RosServiceHandler}
    (hfound : server.handler? id = some handler) (hphase : handler.phase ≠ .removed)
    (hstep : server.complete id completions = some result) :
    result.1.constructed = server.constructed ∧
    result.1.serviceManager.ids = (if handler.ends completions then
      server.serviceManager.ids.takeWhile (· != id) else server.serviceManager.ids) ∧
    result.2.foldl RosServerEvent.live server.serviceManager.ids =
      if handler.ends completions then server.serviceManager.ids.filter (· != id)
      else server.serviceManager.ids := by
  rw [complete, hfound, Option.bind_some] at hstep
  obtain ⟨last, hlast, rfl⟩ := Option.map_eq_some_iff.mp hstep
  have hadvanced := RosServiceHandler.advanced_completeAll hphase hlast
  have hid : handler.id = id := by simpa using List.find?_some hfound
  rw [hid] at hadvanced
  refine ⟨rfl, ?_, ?_⟩
  · rw [RosServiceManager.ids_removeIfAsked, RosServiceManager.ids_setHandler, hadvanced.id_eq,
      RosServiceHandler.ends_eq hlast]
    simp
  · rw [hadvanced.live_eq, RosServiceHandler.ends_eq hlast]
    simp

/-- A handler that something ends for is held and waits for it. -/
theorem exists_handler_of_complete {id : ℕ} {s : Status} {completions : List Status}
    (hstep : server.complete id (s :: completions) = some result) :
    ∃ handler, server.handler? id = some handler ∧ handler.phase ≠ .removed ∧
      id ∈ server.serviceManager.ids := by
  obtain ⟨handler, hfound, hstep⟩ := Option.bind_eq_some_iff.mp hstep
  obtain ⟨last, hlast, -⟩ := Option.map_eq_some_iff.mp hstep
  refine ⟨handler, hfound, fun hremoved ↦ ?_, ?_⟩
  · simp [RosServiceHandler.completeAll, RosServiceHandler.complete, hremoved] at hlast
  · have hid : handler.id = id := by simpa using List.find?_some hfound
    rw [← hid]
    exact List.mem_map_of_mem (List.mem_of_find?_eq_some hfound)

theorem numbered_step {usesRos : Bool} (h : server.Numbered)
    (hstep : server.step usesRos a = some result) : result.1.Numbered := by
  cases a with
  | run =>
    cases hstep
    exact ⟨h.sorted, h.constructed⟩
  | onAccept s completions =>
    simp only [step, onAccept] at hstep
    split_ifs at hstep
    · cases hstep
      exact h.setHandshakes _
    · exact numbered_addNewHandler h hstep
    · cases hstep
      exact h
  | onRosServiceHandshake persistent completions =>
    simp only [step, onRosServiceHandshake] at hstep
    split_ifs at hstep
    exact numbered_addNewHandler (h.setHandshakes _) hstep
  | rosServiceHandshakeFailed =>
    simp only [step] at hstep
    split_ifs at hstep
    cases hstep
    exact h.setHandshakes _
  | complete id s completions =>
    obtain ⟨handler, hfound, hphase, -⟩ := exists_handler_of_complete hstep
    obtain ⟨hconstructed, hids, -⟩ := ids_complete hfound hphase hstep
    have hremoved := h.removed id
    split_ifs at hids
    · exact ⟨hids ▸ hremoved.1, by rw [hids, hconstructed]; exact hremoved.2⟩
    · exact ⟨hids ▸ h.sorted, by rw [hids, hconstructed]; exact h.constructed⟩
  | shutdown =>
    cases hstep
    exact ⟨List.Pairwise.nil, List.forall_mem_nil _⟩

/-- The step lemma. -/
theorem ids_step_iff {usesRos : Bool} (h : server.Numbered)
    (hstep : server.step usesRos a = some result) :
    result.1.serviceManager.ids =
        result.2.foldl RosServerEvent.live server.serviceManager.ids ↔
      server.RemovesLast usesRos a := by
  cases a with
  | run =>
    cases hstep
    exact iff_of_true rfl trivial
  | onAccept s completions =>
    simp only [step, onAccept] at hstep
    split_ifs at hstep with _ hok hros
    · cases hstep
      exact iff_of_true rfl fun _ hnot ↦ by simp [hros] at hnot
    · rw [ids_addNewHandler_iff h hstep]
      simp [RemovesLast, hok, hros]
    · cases hstep
      exact iff_of_true rfl fun hok' ↦ absurd hok' hok
  | onRosServiceHandshake persistent completions =>
    simp only [step, onRosServiceHandshake] at hstep
    split_ifs at hstep
    exact ids_addNewHandler_iff (h.setHandshakes (server.handshakes - 1)) hstep
  | rosServiceHandshakeFailed =>
    simp only [step] at hstep
    split_ifs at hstep
    cases hstep
    exact iff_of_true rfl trivial
  | complete id s completions =>
    obtain ⟨handler, hfound, hphase, hmem⟩ := exists_handler_of_complete hstep
    obtain ⟨-, hids, hlive⟩ := ids_complete hfound hphase hstep
    rw [hids, hlive]
    simp only [RemovesLast, hfound, Option.mem_def, Option.some.injEq, forall_eq']
    split_ifs with hends
    · rw [takeWhile_ne_eq_filter_iff h.sorted.nodup hmem]
      simp [hends]
    · simp [hends]
  | shutdown =>
    cases hstep
    exact iff_of_true rfl trivial

/-- Assumes: a run in which no handler asks to be removed while it is constructed, and afterwards
only the last one does. The manager holds exactly the handlers that were constructed and not
removed, in the order of their construction; and a further step leaves it so if and only if it is
such a step, too. -/
theorem handlers_eq_live_iff (usesRos : Bool) (server : RosServer) (history : List RosServerEvent)
    (run : Run (rosServing usesRos) (RemovesLast usesRos) server history) :
    server.serviceManager.ids = liveHandlers history ∧
    ∀ a server' events, server.step usesRos a = some (server', events) →
      (server'.serviceManager.ids = liveHandlers (history ++ events) ↔
        server.RemovesLast usesRos a) := by
  have hinv : server.Numbered ∧ server.serviceManager.ids = liveHandlers history := by
    refine run.invariant
      (I := fun server history ↦ server.Numbered ∧ server.serviceManager.ids = liveHandlers history)
      ?_ ?_
    · rintro s rfl
      exact ⟨⟨List.Pairwise.nil, List.forall_mem_nil _⟩, rfl⟩
    · intro s a s' history observed _ hinv hguard hstep
      refine ⟨numbered_step hinv.1 hstep, ?_⟩
      rw [(ids_step_iff hinv.1 hstep).mpr hguard, hinv.2, liveHandlers, liveHandlers,
        List.foldl_append]
  refine ⟨hinv.2, fun a server' events hstep ↦ ?_⟩
  have hiff := ids_step_iff hinv.1 hstep
  rw [hinv.2] at hiff
  rw [liveHandlers, List.foldl_append]
  exact hiff

end RosServer

namespace Scenario

/-- Two clients are accepted, and the second one goes away. -/
def secondClientLeaves : List RosServerAction :=
  [.run, .onAccept Status.OK [], .onAccept Status.OK [Status.OK],
    .complete 0 Status.OK [Status.OK, Status.OK], .complete 1 Status.OK [⟨.aborted, ""⟩]]

/-- Two clients are accepted, and the first one goes away. -/
def firstClientLeaves : List RosServerAction :=
  [.run, .onAccept Status.OK [], .onAccept Status.OK [], .complete 0 ⟨.aborted, ""⟩ []]

/-- A client is gone as soon as it was accepted. -/
def clientGoneAtOnce : List RosServerAction :=
  [.run, .onAccept Status.OK [⟨.aborted, ""⟩]]

end Scenario

namespace RosServer

/-- The handler of the client that stayed is the only one. -/
theorem handlers_eq_live_of_two_clients :
    ∃ server history, Run (rosServing false) (RemovesLast false) server history ∧
      liveHandlers history = [0] ∧ server.serviceManager.ids = [0] := by
  have hexec : ((rosServing false).exec (RemovesLast false) {} [] Scenario.secondClientLeaves).map
      (fun result ↦ liveHandlers result.2) = some [0] := by
    decide
  obtain ⟨⟨server, history⟩, hrun, heq⟩ := Option.map_eq_some_iff.mp hexec
  have run : Run (rosServing false) (RemovesLast false) server history :=
    (Run.start rfl).of_exec hrun
  obtain ⟨hids, -⟩ := handlers_eq_live_iff false server history run
  exact ⟨server, history, run, heq, hids.trans heq⟩

/-- The removal of a handler takes the later ones with it, and a handler whose first receive failed
is held. -/
theorem handlers_ne_live :
    (∃ server history, Run (rosServing false) unguarded server history ∧
      liveHandlers history = [1] ∧ server.serviceManager.ids = []) ∧
    (∃ server history, Run (rosServing false) unguarded server history ∧
      liveHandlers history = [] ∧ server.serviceManager.ids = [0]) ∧
    ¬ ∀ server history, Run (rosServing false) unguarded server history →
      server.serviceManager.ids = liveHandlers history := by
  have hfirst : ((rosServing false).exec unguarded {} [] Scenario.firstClientLeaves).map
      (fun result ↦ (liveHandlers result.2, result.1.serviceManager.ids)) = some ([1], []) := by
    decide
  have hgone : ((rosServing false).exec unguarded {} [] Scenario.clientGoneAtOnce).map
      (fun result ↦ (liveHandlers result.2, result.1.serviceManager.ids)) = some ([], [0]) := by
    decide
  obtain ⟨⟨server, history⟩, hrun, heq⟩ := Option.map_eq_some_iff.mp hfirst
  obtain ⟨⟨server', history'⟩, hrun', heq'⟩ := Option.map_eq_some_iff.mp hgone
  simp only [Prod.mk.injEq] at heq heq'
  have run : Run (rosServing false) unguarded server history := (Run.start rfl).of_exec hrun
  refine ⟨⟨server, history, run, heq⟩,
    ⟨server', history', (Run.start rfl).of_exec hrun', heq'⟩, fun hall ↦ ?_⟩
  have hids := hall server history run
  rw [heq.1, heq.2] at hids
  cases hids

end RosServer

end Felicia
