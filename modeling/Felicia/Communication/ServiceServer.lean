import Felicia.Communication.RegisterState
import Felicia.Support.Transition

/-!
# Service servers

`ServiceServer` of `felicia/core/communication/service_server.h` over the gRPC server of
`felicia/core/rpc/grpc_server_impl.h`. `RequestRegister` starts the server before it asks the master
for the registration and does not look at what `Start` returns. If the master refuses, the service
server is unregistered and its server goes on running, and the next `RequestRegister` calls `Start`
on it. The successful `RequestUnregister` shuts the server down.

`server_running_iff` says that the server runs exactly while the service server is not unregistered,
in every run in which each server starts and the master refuses no registration, and that the first
step that is not of this kind breaks it.
-/

set_option autoImplicit false
set_option relaxedAutoImplicit false

namespace Felicia

open Support TransitionSystem

/-! ### State and steps -/

/-- How `Server::Start` goes. -/
structure ServerStart where
  /-- What `RegisterService` returns. -/
  registered : Status := .OK
  /-- Whether `BuildAndStart` returns a server. -/
  builds : Bool := true
  deriving DecidableEq

def ServerStart.succeeds (start : ServerStart) : Bool := start.registered.isOk && start.builds

/-- `rpc::Server` over gRPC. -/
structure GrpcServer where
  /-- `server_` was built and started, and not shut down or replaced since. -/
  isRunning : Bool := false
  /-- The number of `threads_`. -/
  threads : ℕ := 0
  deriving DecidableEq

namespace GrpcServer

variable (server : GrpcServer)

/-- `Server::Start`. A service that cannot be added to the builder leaves the former server alone;
a server that cannot be built replaces it by none. -/
def start (outcome : ServerStart) : GrpcServer × Status :=
  if !outcome.registered.isOk then (server, outcome.registered)
  else if !outcome.builds then
    ({ server with isRunning := false }, ⟨.unknown, "Could not start gRPC server"⟩)
  else ({ server with isRunning := true }, .OK)

/-- `Server::Run`. -/
def run : GrpcServer := { server with threads := server.threads + 1 }

/-- `Server::Shutdown`. The threads stay. -/
def shutdown : GrpcServer := { server with isRunning := false }

/-- A server that does not run is running after `Start` exactly when `Start` succeeds. -/
theorem start_isRunning {server : GrpcServer} (hstopped : server.isRunning = false)
    (outcome : ServerStart) : (server.start outcome).1.isRunning = outcome.succeeds := by
  simp only [start, ServerStart.succeeds]
  cases hregistered : outcome.registered.isOk with
  | false => simpa using hstopped
  | true => cases outcome.builds <;> rfl

end GrpcServer

/-- `ServiceServer`. -/
structure ServiceServer where
  server : GrpcServer := {}
  registerState : RegisterState := .unregistered
  deriving DecidableEq

/-- What is seen of a service server. -/
inductive ServiceServerEvent
  /-- The callback of a request is run, or its error logged. -/
  | answered (status : Status)
  /-- `Start` is called, with what it returns. -/
  | started (wasRunning : Bool) (status : Status)
  deriving DecidableEq

/-- What can happen next. -/
inductive ServiceServerAction
  | requestRegister (outcome : ServerStart)
  | onRegisterServiceServerAsync (status : Status)
  | requestUnregister
  | onUnegisterServiceServerAsync (status : Status)

namespace ServiceServer

variable (p : ServiceServer)

/-- `ServiceServer::RequestRegister` on the main thread. -/
def requestRegister (outcome : ServerStart) : ServiceServer × List ServiceServerEvent :=
  if p.registerState ≠ .unregistered then (p, [.answered p.registerState.invalidStateError])
  else
    let started := p.server.start outcome
    ({ p with registerState := .registering, server := started.1.run },
      [.started p.server.isRunning started.2])

/-- `ServiceServer::OnRegisterServiceServerAsync`. -/
def onRegisterServiceServerAsync (status : Status) : ServiceServer × List ServiceServerEvent :=
  if p.registerState ≠ .registering then (p, [.answered p.registerState.invalidStateError])
  else if !status.isOk then ({ p with registerState := .unregistered }, [.answered status])
  else ({ p with registerState := .registered }, [.answered status])

/-- `ServiceServer::RequestUnregister` on the main thread. -/
def requestUnregister : ServiceServer × List ServiceServerEvent :=
  if p.registerState ≠ .registered then (p, [.answered p.registerState.invalidStateError])
  else ({ p with registerState := .unregistering }, [])

/-- `ServiceServer::OnUnegisterServiceServerAsync`. -/
def onUnegisterServiceServerAsync (status : Status) : ServiceServer × List ServiceServerEvent :=
  if p.registerState ≠ .unregistering then (p, [.answered p.registerState.invalidStateError])
  else if !status.isOk then ({ p with registerState := .registered }, [.answered status])
  else ({ p with registerState := .unregistered, server := p.server.shutdown }, [.answered status])

def step : ServiceServerAction → ServiceServer × List ServiceServerEvent
  | .requestRegister outcome => p.requestRegister outcome
  | .onRegisterServiceServerAsync status => p.onRegisterServiceServerAsync status
  | .requestUnregister => p.requestUnregister
  | .onUnegisterServiceServerAsync status => p.onUnegisterServiceServerAsync status

end ServiceServer

/-- A service server from its construction on. -/
def serving : TransitionSystem ServiceServer ServiceServerAction ServiceServerEvent where
  Initial p := p = {}
  step p a := some (p.step a)

/-! ### When the server runs -/

namespace ServiceServer

variable {p : ServiceServer} {history : List ServiceServerEvent}

/-- The server runs exactly while the service server is not unregistered. -/
def Served (p : ServiceServer) : Prop :=
  p.server.isRunning = true ↔ p.registerState ≠ .unregistered

/-- The server starts, and the master does not refuse the registration. -/
def Succeeds (p : ServiceServer) : ServiceServerAction → Prop
  | .requestRegister outcome => p.registerState = .unregistered → outcome.succeeds = true
  | .onRegisterServiceServerAsync status => p.registerState = .registering → status.isOk = true
  | _ => True

instance (p : ServiceServer) : DecidablePred p.Succeeds
  | .requestRegister outcome =>
    inferInstanceAs (Decidable (p.registerState = .unregistered → outcome.succeeds = true))
  | .onRegisterServiceServerAsync status =>
    inferInstanceAs (Decidable (p.registerState = .registering → status.isOk = true))
  | .requestUnregister | .onUnegisterServiceServerAsync _ => isTrue trivial

theorem Served.stopped (h : p.Served) (hunregistered : p.registerState = .unregistered) :
    p.server.isRunning = false := by
  simpa [Served, hunregistered] using h

theorem served_step_iff (h : p.Served) (a : ServiceServerAction) :
    (p.step a).1.Served ↔ p.Succeeds a := by
  cases a with
  | requestRegister outcome =>
    simp only [step, requestRegister, Succeeds]
    split_ifs with hregister
    · exact iff_of_true h fun hunregistered ↦ absurd hunregistered hregister
    · have hstarted := GrpcServer.start_isRunning (h.stopped (not_not.mp hregister)) outcome
      simp [Served, GrpcServer.run, hstarted, not_not.mp hregister]
  | onRegisterServiceServerAsync status =>
    simp only [step, onRegisterServiceServerAsync, Succeeds]
    split_ifs with hregister hstatus
    · exact iff_of_true h fun hregistering ↦ absurd hregistering hregister
    · have hrunning : p.server.isRunning = true := h.mpr (by simp [not_not.mp hregister])
      have hrefused : ¬ status.isOk = true := by simpa using hstatus
      simp [Served, hrunning, not_not.mp hregister, hrefused]
    · have hrunning : p.server.isRunning = true := h.mpr (by simp [not_not.mp hregister])
      have hok : status.isOk = true := by simpa using hstatus
      simp [Served, hrunning, hok]
  | requestUnregister =>
    simp only [step, requestUnregister, Succeeds]
    split_ifs with hregister
    · exact iff_of_true h trivial
    · have hrunning : p.server.isRunning = true := h.mpr (by simp [not_not.mp hregister])
      simp [Served, hrunning]
  | onUnegisterServiceServerAsync status =>
    simp only [step, onUnegisterServiceServerAsync, Succeeds]
    split_ifs with hregister hstatus
    · exact iff_of_true h trivial
    · have hrunning : p.server.isRunning = true := h.mpr (by simp [not_not.mp hregister])
      simp [Served, hrunning]
    · simp [Served, GrpcServer.shutdown]

/-- Only a server that does not run is started. -/
theorem not_running_of_started (h : p.Served) (a : ServiceServerAction) (wasRunning : Bool)
    (status : Status) (hmem : .started wasRunning status ∈ (p.step a).2) : wasRunning = false := by
  cases a with
  | requestRegister outcome =>
    simp only [step, requestRegister] at hmem
    split_ifs at hmem with hregister
    · simp at hmem
    · simp only [List.mem_singleton, ServiceServerEvent.started.injEq] at hmem
      exact hmem.1.trans (h.stopped (not_not.mp hregister))
  | onRegisterServiceServerAsync status =>
    simp only [step, onRegisterServiceServerAsync] at hmem
    split_ifs at hmem <;> simp at hmem
  | requestUnregister =>
    simp only [step, requestUnregister] at hmem
    split_ifs at hmem <;> simp at hmem
  | onUnegisterServiceServerAsync status =>
    simp only [step, onUnegisterServiceServerAsync] at hmem
    split_ifs at hmem <;> simp at hmem

/-- Assumes: a run in which every server starts and the master refuses no registration. The server
runs exactly while the service server is not unregistered, no running server was started, and a
further step leaves it so if and only if it is such a step, too. -/
theorem server_running_iff (p : ServiceServer) (history : List ServiceServerEvent)
    (run : Run serving Succeeds p history) :
    (p.server.isRunning = true ↔ p.registerState ≠ .unregistered) ∧
    (∀ wasRunning status, .started wasRunning status ∈ history → wasRunning = false) ∧
    ∀ a, ((p.step a).1.server.isRunning = true ↔ (p.step a).1.registerState ≠ .unregistered) ↔
      p.Succeeds a := by
  have hsafe : p.Served ∧ ∀ e ∈ history, ∀ wasRunning status, e = .started wasRunning status →
      wasRunning = false := by
    refine run.safe ?_ ?_
    · rintro s rfl
      simp [Served]
    · intro s a s' observed _ hserved hguard hstep
      have heq : s.step a = (s', observed) := Option.some.inj hstep
      have hkept := (served_step_iff hserved a).mpr hguard
      have hstarted := not_running_of_started hserved a
      rw [heq] at hkept hstarted
      refine ⟨hkept, fun e hmem wasRunning status he ↦ ?_⟩
      exact hstarted wasRunning status (he ▸ hmem)
  refine ⟨hsafe.1, ?_, served_step_iff hsafe.1⟩
  exact fun wasRunning status hmem ↦ hsafe.2 _ hmem wasRunning status rfl

end ServiceServer

namespace Scenario

/-- A service server is registered and unregistered. -/
def serveOnce : List ServiceServerAction :=
  [.requestRegister {}, .onRegisterServiceServerAsync Status.OK, .requestUnregister,
    .onUnegisterServiceServerAsync Status.OK]

end Scenario

namespace ServiceServer

/-- The server of a service server that was unregistered does not run. -/
theorem server_stopped_after_unregistration :
    ∃ p history, Run serving Succeeds p history ∧ p.registerState = .unregistered ∧
      p.server.threads = 1 ∧ p.server.isRunning = false := by
  have hexec : (serving.exec Succeeds {} [] Scenario.serveOnce).map
      (fun result ↦ (result.1.registerState, result.1.server.threads)) =
      some (.unregistered, 1) := by
    decide
  obtain ⟨⟨p, history⟩, hrun, heq⟩ := Option.map_eq_some_iff.mp hexec
  simp only [Prod.mk.injEq] at heq
  have run : Run serving Succeeds p history := (Run.start rfl).of_exec hrun
  obtain ⟨hserved, -⟩ := server_running_iff p history run
  refine ⟨p, history, run, heq.1, heq.2, ?_⟩
  exact Served.stopped hserved heq.1

/-- When the master refuses the registration the server goes on running, and the next attempt starts
it again; when the server does not start, the service server is registering without one. -/
theorem server_running_while_unregistered :
    (¬ ∀ p history, Run serving unguarded p history →
      (p.server.isRunning = true ↔ p.registerState ≠ .unregistered)) ∧
    (¬ ∀ p history, Run serving unguarded p history →
      ∀ wasRunning status, .started wasRunning status ∈ history → wasRunning = false) ∧
    ∃ p history, Run serving unguarded p history ∧ p.registerState = .registered ∧
      p.server.isRunning = false := by
  refine ⟨fun hall ↦ ?_, fun hall ↦ ?_, ?_⟩
  · have hexec : serving.exec unguarded {} []
        [.requestRegister {}, .onRegisterServiceServerAsync (aborted "")] =
        some (⟨⟨true, 1⟩, .unregistered⟩, [.started false Status.OK, .answered (aborted "")]) := by
      decide
    have hserved := hall _ _ ((Run.start rfl).of_exec hexec)
    simp at hserved
  · have hexec : serving.exec unguarded {} []
        [.requestRegister {}, .onRegisterServiceServerAsync (aborted ""),
          .requestRegister {}] =
        some (⟨⟨true, 2⟩, .registering⟩, [.started false Status.OK, .answered (aborted ""),
          .started true Status.OK]) := by
      decide
    cases hall _ _ ((Run.start rfl).of_exec hexec) true Status.OK (by decide)
  · have hexec : serving.exec unguarded {} []
        [.requestRegister { builds := false }, .onRegisterServiceServerAsync Status.OK] =
        some (⟨⟨false, 1⟩, .registered⟩,
          [.started false ⟨.unknown, "Could not start gRPC server"⟩, .answered Status.OK]) := by
      decide
    exact ⟨_, _, (Run.start rfl).of_exec hexec, rfl, rfl⟩

end ServiceServer

end Felicia
