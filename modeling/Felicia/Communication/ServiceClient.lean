import Felicia.Communication.RegisterState
import Felicia.Core.Messages
import Felicia.Support.Transition

/-!
# Service clients

`ServiceClient` of `felicia/core/communication/service_client.h` over the gRPC client of
`felicia/core/rpc/grpc_client_impl.h`. A notification of a service server connects the client and
runs an RPC loop on a new completion queue; a notification that the server is gone, or a successful
`RequestUnregister`, shuts the client down.

Three things are not looked at. `Shutdown` uses the completion queue of a client that may never have
been connected. `Connect` replaces the completion queue of a client whose loop still runs, and `Run`
then posts a loop to each of its threads. `Connect` reports success whatever became of the
connection. `lifecycle_iff` says that nothing else goes wrong: in a run that avoids these the client
is shut down only with a completion queue, at most one loop is attached to it and none to a replaced
one, and the user is told of a connection only if there is one; the first step that does not avoid
them breaks this.

A callback that calls back into the service client is a request of its own: where one runs in the
middle of a handler, what is left of the handler does not depend on it.
-/

set_option autoImplicit false
set_option relaxedAutoImplicit false

namespace Felicia

open Support TransitionSystem

/-! ### State and steps -/

/-- `rpc::Client` over gRPC. -/
structure GrpcClient where
  serviceInfo : ServiceInfo := {}
  /-- The channel of `stub_` is not null. -/
  hasChannel : Bool := false
  /-- The number of completion queues made so far. The last of them is `cq_`. -/
  queues : ℕ := 0
  /-- The number of `threads_`. -/
  threads : ℕ := 0
  /-- The completion queues that a `HandleRpcsLoop` task is attached to. -/
  loops : List ℕ := []
  deriving DecidableEq

namespace GrpcClient

variable (client : GrpcClient)

/-- `ClientInterface::set_service_info`. -/
def setServiceInfo (serviceInfo : ServiceInfo) : GrpcClient :=
  { client with serviceInfo := serviceInfo }

/-- `Client::Connect`, with whether `ConnectToGrpcServer` returns a channel and what is passed to
the callback. -/
def connect (connects : Bool) : GrpcClient × Status :=
  ({ client with hasChannel := connects, queues := client.queues + 1 }, .OK)

/-- `Client::Run`: one more thread, and then a loop for each of the threads. -/
def run : GrpcClient × Status :=
  ({ client with
      threads := client.threads + 1
      loops := client.loops ++ List.replicate (client.threads + 1) client.queues }, .OK)

/-- `Client::Shutdown`. The loops of `cq_` end; those of a replaced queue are not told. -/
def shutdown : GrpcClient :=
  { client with threads := 0, loops := client.loops.filter (· ≠ client.queues) }

end GrpcClient

/-- `ServiceClient`, with the tasks that it posted. -/
structure ServiceClient where
  client : GrpcClient := {}
  onConnectCallback : Option ℕ := none
  registerState : RegisterState := .unregistered
  /-- `OnFindServiceServer` tasks, the oldest first. -/
  findTasks : List ServiceInfo := []
  deriving DecidableEq

/-- What is seen of a service client. -/
inductive ServiceClientEvent
  /-- The callback of a request is run, or its error logged. -/
  | answered (status : Status)
  /-- `ConnectToGrpcServer` is called. -/
  | connected (ipEndpoint : IPEndPoint) (succeeded : Bool)
  /-- `Shutdown` is called, with whether there is a completion queue. -/
  | shutdown (hasQueue : Bool)
  /-- `on_connect_callback_` is run. -/
  | told (callback : Option ℕ) (status : InfoStatus)
  deriving DecidableEq

/-- What can happen next. The replies to `RequestRegister` carry the callback of the request. -/
inductive ServiceClientAction
  | requestRegister
  | onRegisterServiceClientAsync (onConnectCallback : ℕ) (status : Status)
  | requestUnregister
  | onUnregisterServiceClientAsync (status : Status)
  | onFindServiceServer (serviceInfo : ServiceInfo) (connects : Bool)
  | runFindTask (connects : Bool)

namespace ServiceClient

variable (p : ServiceClient)

/-- `client_.Shutdown()`. -/
def shutdownClient : ServiceClient × ServiceClientEvent :=
  ({ p with client := p.client.shutdown }, .shutdown (0 < p.client.queues))

/-- `ServiceClient::RequestRegister` on the main thread. -/
def requestRegister : ServiceClient × List ServiceClientEvent :=
  if p.registerState ≠ .unregistered then (p, [.answered p.registerState.invalidStateError])
  else ({ p with registerState := .registering }, [])

/-- `ServiceClient::OnRegisterServiceClientAsync`. -/
def onRegisterServiceClientAsync (onConnectCallback : ℕ) (status : Status) :
    ServiceClient × List ServiceClientEvent :=
  if p.registerState ≠ .registering then (p, [.answered p.registerState.invalidStateError])
  else if !status.isOk then ({ p with registerState := .unregistered }, [.answered status])
  else
    ({ p with onConnectCallback := some onConnectCallback, registerState := .registered },
      [.answered status])

/-- `ServiceClient::RequestUnregister` on the main thread. -/
def requestUnregister : ServiceClient × List ServiceClientEvent :=
  if p.registerState ≠ .registered then (p, [.answered p.registerState.invalidStateError])
  else ({ p with registerState := .unregistering }, [])

/-- `ServiceClient::OnUnregisterServiceClientAsync`. -/
def onUnregisterServiceClientAsync (status : Status) : ServiceClient × List ServiceClientEvent :=
  if p.registerState ≠ .unregistering then (p, [.answered p.registerState.invalidStateError])
  else if !status.isOk then ({ p with registerState := .registered }, [.answered status])
  else
    let result := { p with registerState := .unregistered }.shutdownClient
    (result.1, [.answered status, result.2])

/-- `ServiceClient::OnConnect`. -/
def onConnect (status : Status) : ServiceClient × List ServiceClientEvent :=
  if status.isOk then
    let result := p.client.run
    ({ p with client := result.1 },
      if result.2.isOk then [.told p.onConnectCallback .registered] else [])
  else (p, [])

/-- `ServiceClient::OnFindServiceServer`. -/
def onFindServiceServer (serviceInfo : ServiceInfo) (connects : Bool) :
    ServiceClient × List ServiceClientEvent :=
  if p.registerState = .registering ∨ p.registerState = .unregistering then
    ({ p with findTasks := p.findTasks ++ [serviceInfo] }, [])
  else if p.registerState = .unregistered then (p, [])
  else if serviceInfo.status = .unregistered then
    let result := p.shutdownClient
    (result.1, [result.2, .told p.onConnectCallback .unregistered])
  else
    let result := (p.client.setServiceInfo serviceInfo).connect connects
    let told := { p with client := result.1 }.onConnect result.2
    (told.1, .connected serviceInfo.serviceSource.firstIpEndpoint connects :: told.2)

def takeFindTask : ServiceClient := { p with findTasks := p.findTasks.tail }

/-- One step. There must be a task to run one. -/
def step : ServiceClientAction → Option (ServiceClient × List ServiceClientEvent)
  | .requestRegister => some p.requestRegister
  | .onRegisterServiceClientAsync onConnectCallback status =>
    some (p.onRegisterServiceClientAsync onConnectCallback status)
  | .requestUnregister => some p.requestUnregister
  | .onUnregisterServiceClientAsync status => some (p.onUnregisterServiceClientAsync status)
  | .onFindServiceServer serviceInfo connects => some (p.onFindServiceServer serviceInfo connects)
  | .runFindTask connects =>
    p.findTasks.head?.map fun serviceInfo ↦ p.takeFindTask.onFindServiceServer serviceInfo connects

end ServiceClient

/-- A service client from its construction on. -/
def requestingService : TransitionSystem ServiceClient ServiceClientAction ServiceClientEvent where
  Initial p := p = {}
  step := ServiceClient.step

/-! ### The life of a client -/

namespace ServiceClient

variable {p p' : ServiceClient} {history events : List ServiceClientEvent}

/-- Whether the client has a connection that succeeded and was not shut down since. -/
def connectedAfter (history : List ServiceClientEvent) : Bool :=
  history.foldl
    (fun connected event ↦ match event with
      | .connected _ succeeded => succeeded
      | .shutdown _ => false
      | _ => connected)
    false

/-- The user was told of a service server only with a connection to it. -/
def ToldConnected (history : List ServiceClientEvent) : Prop :=
  ∀ before callback, before ++ [.told callback .registered] <+: history →
    connectedAfter before = true

/-- What a service client relies on, between two tasks. -/
structure Lifecycle (p : ServiceClient) (history : List ServiceClientEvent) : Prop where
  /-- Only a client with a completion queue was shut down. -/
  hasQueue : ∀ hasQueue, .shutdown hasQueue ∈ history → hasQueue = true
  /-- No two loops are attached to the completion queue. -/
  single : p.client.loops.length ≤ 1
  /-- No loop is attached to a replaced completion queue. -/
  current : ∀ loop ∈ p.client.loops, loop = p.client.queues
  told : ToldConnected history

/-- A notification finds the client fit for it. That of a server finds no loop and leads to a
connection, that of the end of a server finds a completion queue. -/
def Fits (p : ServiceClient) (serviceInfo : ServiceInfo) (connects : Bool) : Prop :=
  p.registerState = .registered →
    if serviceInfo.status = .unregistered then 0 < p.client.queues
    else p.client.loops = [] ∧ connects = true

instance (serviceInfo : ServiceInfo) (connects : Bool) :
    Decidable (p.Fits serviceInfo connects) :=
  inferInstanceAs (Decidable (p.registerState = .registered →
    if serviceInfo.status = .unregistered then 0 < p.client.queues
    else p.client.loops = [] ∧ connects = true))

/-- A step in which each notification fits, and a client is shut down only if it was connected. -/
def Orderly (p : ServiceClient) : ServiceClientAction → Prop
  | .onUnregisterServiceClientAsync status =>
    p.registerState = .unregistering → status.isOk = true → 0 < p.client.queues
  | .onFindServiceServer serviceInfo connects => p.Fits serviceInfo connects
  | .runFindTask connects => ∀ serviceInfo ∈ p.findTasks.head?, p.Fits serviceInfo connects
  | _ => True

instance (p : ServiceClient) : DecidablePred p.Orderly
  | .onUnregisterServiceClientAsync status =>
    inferInstanceAs (Decidable
      (p.registerState = .unregistering → status.isOk = true → 0 < p.client.queues))
  | .onFindServiceServer serviceInfo connects =>
    inferInstanceAs (Decidable (p.Fits serviceInfo connects))
  | .runFindTask connects =>
    inferInstanceAs (Decidable (∀ serviceInfo ∈ p.findTasks.head?, p.Fits serviceInfo connects))
  | .requestRegister | .onRegisterServiceClientAsync _ _ | .requestUnregister => isTrue trivial

/-! ### What a step can do -/

/-- An event that says nothing of a connection. -/
def Neutral (event : ServiceClientEvent) : Prop :=
  (∃ status, event = .answered status) ∨ ∃ callback, event = .told callback .unregistered

/-- What a step does to the client and lets see of it, and when it is orderly. -/
inductive StepCase (p : ServiceClient) (orderly : Prop) :
    ServiceClient → List ServiceClientEvent → Prop
  | neutral {p' : ServiceClient} {events : List ServiceClientEvent} (hclient : p'.client = p.client)
      (hevents : ∀ event ∈ events, Neutral event) (horderly : orderly) :
      StepCase p orderly p' events
  | shutdown {p' : ServiceClient} (before after : List ServiceClientEvent)
      (hclient : p'.client = p.client.shutdown) (hbefore : ∀ event ∈ before, Neutral event)
      (hafter : ∀ event ∈ after, Neutral event) (horderly : orderly ↔ 0 < p.client.queues) :
      StepCase p orderly p' (before ++ .shutdown (0 < p.client.queues) :: after)
  | found {p' : ServiceClient} (serviceInfo : ServiceInfo) (ipEndpoint : IPEndPoint)
      (connects : Bool) (callback : Option ℕ)
      (hclient : p'.client = ((p.client.setServiceInfo serviceInfo).connect connects).1.run.1)
      (horderly : orderly ↔ p.client.loops = [] ∧ connects = true) :
      StepCase p orderly p' [.connected ipEndpoint connects, .told callback .registered]

theorem neutral_answered (status : Status) :
    ∀ event ∈ [ServiceClientEvent.answered status], Neutral event := by
  simp [Neutral]

theorem onFindServiceServer_cases (serviceInfo : ServiceInfo) (connects : Bool) :
    StepCase p (p.Fits serviceInfo connects) (p.onFindServiceServer serviceInfo connects).1
      (p.onFindServiceServer serviceInfo connects).2 := by
  unfold onFindServiceServer
  split_ifs with hbusy hunregistered hstatus
  · refine .neutral rfl (List.forall_mem_nil _) fun hregistered ↦ ?_
    simp [hregistered] at hbusy
  · refine .neutral rfl (List.forall_mem_nil _) fun hregistered ↦ ?_
    simp [hregistered] at hunregistered
  · have hregistered : p.registerState = .registered := by
      cases h : p.registerState <;> simp_all
    refine .shutdown [] [.told p.onConnectCallback .unregistered] rfl (List.forall_mem_nil _)
      (by simp [Neutral]) ?_
    simp [Fits, hregistered, hstatus]
  · have hregistered : p.registerState = .registered := by
      cases h : p.registerState <;> simp_all
    refine .found serviceInfo _ connects p.onConnectCallback rfl ?_
    simp [Fits, hregistered, hstatus]

theorem step_cases {a : ServiceClientAction} (hstep : p.step a = some (p', events)) :
    StepCase p (p.Orderly a) p' events := by
  cases a with
  | requestRegister =>
    have heq : p.requestRegister = (p', events) := Option.some.inj hstep
    unfold requestRegister at heq
    split_ifs at heq <;> cases heq
    · exact .neutral rfl (neutral_answered _) trivial
    · exact .neutral rfl (List.forall_mem_nil _) trivial
  | onRegisterServiceClientAsync onConnectCallback status =>
    have heq : p.onRegisterServiceClientAsync onConnectCallback status = (p', events) :=
      Option.some.inj hstep
    unfold onRegisterServiceClientAsync at heq
    split_ifs at heq <;> cases heq <;> exact .neutral rfl (neutral_answered _) trivial
  | requestUnregister =>
    have heq : p.requestUnregister = (p', events) := Option.some.inj hstep
    unfold requestUnregister at heq
    split_ifs at heq <;> cases heq
    · exact .neutral rfl (neutral_answered _) trivial
    · exact .neutral rfl (List.forall_mem_nil _) trivial
  | onUnregisterServiceClientAsync status =>
    have heq : p.onUnregisterServiceClientAsync status = (p', events) := Option.some.inj hstep
    unfold onUnregisterServiceClientAsync at heq
    split_ifs at heq with hstate hstatus <;> cases heq
    · exact .neutral rfl (neutral_answered _) fun hunregistering ↦ absurd hunregistering hstate
    · refine .neutral rfl (neutral_answered _) fun _ hok ↦ ?_
      simp [hok] at hstatus
    · refine .shutdown [.answered status] [] rfl (neutral_answered _) (List.forall_mem_nil _) ?_
      have hok : status.isOk = true := by simpa using hstatus
      simp [Orderly, not_not.mp hstate, hok]
  | onFindServiceServer serviceInfo connects =>
    have heq : p.onFindServiceServer serviceInfo connects = (p', events) := Option.some.inj hstep
    have hcases := onFindServiceServer_cases (p := p) serviceInfo connects
    rw [heq] at hcases
    exact hcases
  | runFindTask connects =>
    obtain ⟨serviceInfo, hhead, heq⟩ := Option.map_eq_some_iff.mp hstep
    have hcases := onFindServiceServer_cases (p := p.takeFindTask) serviceInfo connects
    rw [heq] at hcases
    -- The task is taken from the list; nothing that decides its case is in the list.
    have horderly : p.Orderly (.runFindTask connects) ↔
        p.takeFindTask.Fits serviceInfo connects := by
      simp [Orderly, hhead, Fits, takeFindTask]
    rw [horderly]
    cases hcases with
    | neutral hclient hevents hfits => exact .neutral hclient hevents hfits
    | shutdown before after hclient hbefore hafter hfits =>
      exact .shutdown before after hclient hbefore hafter hfits
    | found serviceInfo ipEndpoint connects callback hclient hfits =>
      exact .found serviceInfo ipEndpoint connects callback hclient hfits

/-! ### What is told -/

theorem ToldConnected.concat (h : ToldConnected history) {event : ServiceClientEvent}
    (hevent : ∀ callback, event = .told callback .registered → connectedAfter history = true) :
    ToldConnected (history ++ [event]) := by
  intro before callback hbegins
  rcases List.prefix_concat_iff.mp hbegins with heq | hbegins
  · obtain ⟨rfl, htold⟩ := List.append_inj' heq rfl
    exact hevent callback (List.singleton_inj.mp htold).symm
  · exact h before callback hbegins

theorem ToldConnected.append_neutral (h : ToldConnected history)
    (hevents : ∀ event ∈ events, Neutral event) : ToldConnected (history ++ events) := by
  induction events generalizing history with
  | nil => simpa using h
  | cons event events ih =>
    have hconcat : ToldConnected (history ++ [event]) := by
      refine h.concat fun callback htold ↦ ?_
      have hneutral := hevents event List.mem_cons_self
      simp [Neutral, htold] at hneutral
    have happend := ih hconcat fun event hmem ↦ hevents event (List.mem_cons_of_mem _ hmem)
    simpa using happend

theorem ToldConnected.append_shutdown (h : ToldConnected history) {hasQueue : Bool}
    {before after : List ServiceClientEvent} (hbefore : ∀ event ∈ before, Neutral event)
    (hafter : ∀ event ∈ after, Neutral event) :
    ToldConnected (history ++ (before ++ .shutdown hasQueue :: after)) := by
  have hshutdown : ToldConnected (history ++ before ++ [.shutdown hasQueue]) :=
    (h.append_neutral hbefore).concat fun callback htold ↦ by cases htold
  have happend := hshutdown.append_neutral hafter
  simpa using happend

theorem connectedAfter_concat_connected (ipEndpoint : IPEndPoint) (succeeded : Bool) :
    connectedAfter (history ++ [.connected ipEndpoint succeeded]) = succeeded := by
  simp [connectedAfter]

theorem toldConnected_append_found_iff (h : ToldConnected history) (ipEndpoint : IPEndPoint)
    (connects : Bool) (callback : Option ℕ) :
    ToldConnected (history ++ [.connected ipEndpoint connects, .told callback .registered]) ↔
      connects = true := by
  have hsplit : history ++ [.connected ipEndpoint connects, .told callback .registered] =
      history ++ [.connected ipEndpoint connects] ++ [.told callback .registered] := by simp
  have hconnected : ToldConnected (history ++ [.connected ipEndpoint connects]) :=
    h.concat fun callback htold ↦ by cases htold
  rw [hsplit]
  constructor
  · intro htold
    have hlast := htold _ callback (List.prefix_refl _)
    rwa [connectedAfter_concat_connected] at hlast
  · intro hconnects
    refine hconnected.concat fun _ _ ↦ ?_
    rwa [connectedAfter_concat_connected]

/-! ### What a step keeps -/

/-- The lifecycle, with one loop for each thread. -/
structure Kept (p : ServiceClient) (history : List ServiceClientEvent) : Prop where
  lifecycle : p.Lifecycle history
  threads : p.client.threads = p.client.loops.length

/-- A neutral event is no shutdown. -/
theorem shutdown_not_mem (hevents : ∀ event ∈ events, Neutral event) (hasQueue : Bool) :
    .shutdown hasQueue ∉ events := by
  intro hmem
  have hneutral := hevents _ hmem
  simp [Neutral] at hneutral

theorem Kept.neutral (h : p.Kept history) (hclient : p'.client = p.client)
    (hevents : ∀ event ∈ events, Neutral event) : p'.Kept (history ++ events) := by
  refine ⟨⟨fun hasQueue hmem ↦ ?_, ?_, ?_, ?_⟩, ?_⟩
  · rcases List.mem_append.mp hmem with hold | hnew
    · exact h.lifecycle.hasQueue hasQueue hold
    · exact absurd hnew (shutdown_not_mem hevents hasQueue)
  · simpa [hclient] using h.lifecycle.single
  · simpa [hclient] using h.lifecycle.current
  · exact h.lifecycle.told.append_neutral hevents
  · simpa [hclient] using h.threads

theorem Kept.shutdown (h : p.Kept history) (hclient : p'.client = p.client.shutdown)
    {before after : List ServiceClientEvent} (hbefore : ∀ event ∈ before, Neutral event)
    (hafter : ∀ event ∈ after, Neutral event) (hqueues : 0 < p.client.queues) :
    p'.Kept (history ++ (before ++ .shutdown (0 < p.client.queues) :: after)) := by
  have hloops : p'.client.loops = [] := by
    rw [hclient]
    refine List.filter_eq_nil_iff.mpr fun loop hloop ↦ ?_
    simp [h.lifecycle.current loop hloop]
  refine ⟨⟨fun hasQueue hmem ↦ ?_, ?_, ?_, ?_⟩, ?_⟩
  · rcases List.mem_append.mp hmem with hold | hnew
    · exact h.lifecycle.hasQueue hasQueue hold
    · have hnot := shutdown_not_mem hbefore hasQueue
      have hnot' := shutdown_not_mem hafter hasQueue
      simpa [hnot, hnot', hqueues] using hnew
  · simp [hloops]
  · simp [hloops]
  · exact h.lifecycle.told.append_shutdown hbefore hafter
  · rw [hloops, hclient]
    rfl

theorem Kept.found (h : p.Kept history) {serviceInfo : ServiceInfo} {connects : Bool}
    (hclient : p'.client = ((p.client.setServiceInfo serviceInfo).connect connects).1.run.1)
    (hloops : p.client.loops = []) (hconnects : connects = true) (ipEndpoint : IPEndPoint)
    (callback : Option ℕ) :
    p'.Kept (history ++ [.connected ipEndpoint connects, .told callback .registered]) := by
  have hthreads : p.client.threads = 0 := by simp [h.threads, hloops]
  have hloops' : p'.client.loops = [p'.client.queues] := by
    simp [hclient, GrpcClient.run, GrpcClient.connect, GrpcClient.setServiceInfo, hloops, hthreads]
  refine ⟨⟨fun hasQueue hmem ↦ ?_, ?_, ?_, ?_⟩, ?_⟩
  · exact h.lifecycle.hasQueue hasQueue (by simpa using hmem)
  · simp [hloops']
  · simp [hloops']
  · rw [toldConnected_append_found_iff h.lifecycle.told]
    exact hconnects
  · rw [hloops', hclient]
    simp [GrpcClient.run, GrpcClient.connect, GrpcClient.setServiceInfo, hthreads]

theorem Kept.step (h : p.Kept history) {orderly : Prop} (hcase : StepCase p orderly p' events)
    (horderly : orderly) : p'.Kept (history ++ events) := by
  cases hcase with
  | neutral hclient hevents _ => exact h.neutral hclient hevents
  | shutdown before after hclient hbefore hafter hiff =>
    exact h.shutdown hclient hbefore hafter (hiff.mp horderly)
  | found serviceInfo ipEndpoint connects callback hclient hiff =>
    obtain ⟨hloops, hconnects⟩ := hiff.mp horderly
    exact h.found hclient hloops hconnects ipEndpoint callback

/-- Assumes: a step after which the lifecycle still holds. The step was orderly. -/
theorem orderly_of_lifecycle (h : p.Kept history) {orderly : Prop}
    (hcase : StepCase p orderly p' events) (hlifecycle : p'.Lifecycle (history ++ events)) :
    orderly := by
  cases hcase with
  | neutral _ _ horderly => exact horderly
  | shutdown before after _ _ _ hiff =>
    have hqueue := hlifecycle.hasQueue (0 < p.client.queues) (by simp)
    exact hiff.mpr (of_decide_eq_true hqueue)
  | found serviceInfo ipEndpoint connects callback hclient hiff =>
    refine hiff.mpr ⟨?_, ?_⟩
    · -- A loop of before would be joined by one for its thread and one for the new thread.
      have hsingle := hlifecycle.single
      have hthreads := h.threads
      simp only [hclient, GrpcClient.run, GrpcClient.connect, GrpcClient.setServiceInfo,
        List.length_append, List.length_replicate] at hsingle
      exact List.eq_nil_of_length_eq_zero (by omega)
    · exact (toldConnected_append_found_iff h.lifecycle.told _ _ _).mp hlifecycle.told

/-- Assumes: a run in which every notification fits and no client without a completion queue is shut
down. The lifecycle holds at its end, and a further step keeps it if and only if it is orderly. -/
theorem lifecycle_iff (p : ServiceClient) (history : List ServiceClientEvent)
    (run : Run requestingService Orderly p history) :
    p.Lifecycle history ∧ ∀ a p' events, p.step a = some (p', events) →
      (p'.Lifecycle (history ++ events) ↔ p.Orderly a) := by
  have hkept : p.Kept history := by
    refine run.invariant (I := Kept) ?_ ?_
    · rintro s rfl
      refine ⟨⟨by simp, by simp, by simp, ?_⟩, rfl⟩
      intro before callback hbegins
      simp at hbegins
    · intro s a s' history events _ hkept horderly hstep
      exact hkept.step (step_cases hstep) horderly
  refine ⟨hkept.lifecycle, fun a p' events hstep ↦ ⟨?_, ?_⟩⟩
  · exact orderly_of_lifecycle hkept (step_cases hstep)
  · exact fun horderly ↦ (hkept.step (step_cases hstep) horderly).lifecycle

end ServiceClient

namespace Scenario

/-- A service client that was registered. -/
def awaitService : List ServiceClientAction :=
  [.requestRegister, .onRegisterServiceClientAsync 0 Status.OK]

/-- A service server comes, goes and comes again, and the service client is unregistered. -/
def serviceComesAgain : List ServiceClientAction :=
  awaitService ++ [.onFindServiceServer {} true,
    .onFindServiceServer { status := .unregistered } true, .onFindServiceServer {} true,
    .requestUnregister, .onUnregisterServiceClientAsync Status.OK]

end Scenario

namespace ServiceClient

/-- The client of `Scenario.serviceComesAgain` made two completion queues and has no loop left. -/
theorem lifecycle_of_second_server :
    ∃ p history, Run requestingService Orderly p history ∧ p.Lifecycle history ∧
      p.client.queues = 2 ∧ p.client.loops = [] ∧ .told (some 0) .registered ∈ history := by
  have hexec : (requestingService.exec Orderly {} [] Scenario.serviceComesAgain).map
      (fun result ↦ (result.1.client.queues, result.1.client.loops,
        decide (.told (some 0) .registered ∈ result.2))) = some (2, [], true) := by
    decide
  obtain ⟨⟨p, history⟩, hrun, heq⟩ := Option.map_eq_some_iff.mp hexec
  simp only [Prod.mk.injEq, decide_eq_true_eq] at heq
  have run : Run requestingService Orderly p history := (Run.start rfl).of_exec hrun
  exact ⟨p, history, run, (lifecycle_iff p history run).1, heq⟩

/-- A service client that is unregistered before a server came shuts down a client without a
completion queue; a second server leaves two loops on one queue and one on a replaced queue; a
connection that failed is told as one that succeeded. -/
theorem lifecycle_broken :
    (¬ ∀ p history, Run requestingService unguarded p history →
      ∀ hasQueue, .shutdown hasQueue ∈ history → hasQueue = true) ∧
    (¬ ∀ p history, Run requestingService unguarded p history → p.client.loops.length ≤ 1 ∧
      ∀ loop ∈ p.client.loops, loop = p.client.queues) ∧
    ¬ ∀ p history, Run requestingService unguarded p history → ToldConnected history := by
  refine ⟨fun hall ↦ ?_, fun hall ↦ ?_, fun hall ↦ ?_⟩
  · have hexec : (requestingService.exec unguarded {} [] (Scenario.awaitService ++
        [.requestUnregister, .onUnregisterServiceClientAsync Status.OK])).map Prod.snd =
        some [.answered Status.OK, .answered Status.OK, .shutdown false] := by
      decide
    obtain ⟨⟨p, history⟩, hrun, rfl⟩ := Option.map_eq_some_iff.mp hexec
    have hqueue := hall p _ ((Run.start rfl).of_exec hrun) false (by simp)
    cases hqueue
  · have hexec : (requestingService.exec unguarded {} [] (Scenario.awaitService ++
        [.onFindServiceServer {} true, .onFindServiceServer {} true])).map
        (fun result ↦ result.1.client.loops) = some [1, 2, 2] := by
      decide
    obtain ⟨⟨p, history⟩, hrun, hloops⟩ := Option.map_eq_some_iff.mp hexec
    have hsingle := (hall p history ((Run.start rfl).of_exec hrun)).1
    rw [show p.client.loops = [1, 2, 2] from hloops] at hsingle
    simp at hsingle
  · have hexec : (requestingService.exec unguarded {} [] (Scenario.awaitService ++
        [.onFindServiceServer {} false])).map Prod.snd =
        some [.answered Status.OK,
          .connected (ChannelSource.firstIpEndpoint {}) false, .told (some 0) .registered] := by
      decide
    obtain ⟨⟨p, history⟩, hrun, rfl⟩ := Option.map_eq_some_iff.mp hexec
    have htold := hall p _ ((Run.start rfl).of_exec hrun)
      [.answered Status.OK, .connected (ChannelSource.firstIpEndpoint {}) false] (some 0)
      (List.prefix_refl _)
    cases htold

end ServiceClient

end Felicia
