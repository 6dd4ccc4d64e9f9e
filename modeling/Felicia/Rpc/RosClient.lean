import Felicia.Channel.MessageReceiver
import Felicia.Support.Obligations
import Felicia.Support.Transition

/-!
# Clients of a ROS service

The ROS `rpc::Client` of `felicia/core/rpc/ros_client_impl.h`. `Connect` makes a TCP channel and,
for a ROS service, does the handshake of `RosServiceRequest` over it. `Call` remembers its callback
and sends the request if the channel is connected; `Run` sends the request of the call that is
remembered, whether or not it was sent already. A connection or a handshake that fails shuts the
client down, and `Shutdown` forgets both callbacks without running them.

`calls_answered_once_iff` says what this leaves of the contract: each callback runs exactly once,
each accepted call is sent exactly once and after the handshake, and what is outstanding is waited
for, as long as every step is `Careful`; and the first step that is not breaks it.

`Connect` while a `Connect` is outstanding is excluded by a `DCHECK`, and `Run` without a channel
would dereference a null pointer: both have no step. A callback that calls the client again is a
later step. What requests and responses hold is left out.
-/

set_option autoImplicit false
set_option relaxedAutoImplicit false

namespace Felicia

open Support TransitionSystem

/-! ### State and steps -/

/-- How far the channel is. -/
inductive RosClientPhase
  /-- There is no channel. -/
  | absent
  | connecting | handshaking | ready
  deriving DecidableEq

/-- How far a call is. -/
inductive CallProgress
  | unsent | sending | receiving
  /-- What was under way went away with its channel. -/
  | stalled
  deriving DecidableEq

/-- The channel that something was under way on is replaced. -/
def CallProgress.replaceChannel : CallProgress → CallProgress
  | .unsent => .unsent
  | .sending | .receiving | .stalled => .stalled

/-- What `call_callback_` stands for. -/
structure OutstandingCall where
  callback : ℕ
  progress : CallProgress := .unsent
  deriving DecidableEq

/-- The ROS `rpc::Client`. Callbacks are known by a number. -/
structure RosClient where
  phase : RosClientPhase := .absent
  /-- `channel_->IsConnected()`. -/
  isConnected : Bool := false
  connectCallback : Option ℕ := none
  call : Option OutstandingCall := none
  deriving DecidableEq

/-- What is seen of a client. -/
inductive RosClientEvent
  | connectCalled (callback : ℕ)
  | connectAnswered (callback : ℕ) (s : Status)
  | callMade (callback : ℕ)
  /-- The call is not refused at once. -/
  | callAccepted (callback : ℕ)
  | callAnswered (callback : ℕ) (s : Status)
  /-- `SendRequest`, and whether the channel is ready for it. -/
  | requestSent (callback : ℕ) (isReady : Bool)
  deriving DecidableEq

/-- What can happen next. -/
inductive RosClientAction
  | connect (callback : ℕ)
  | onConnect (s : Status)
  | onRosServiceHandshake (s : Status)
  | run
  | call (callback : ℕ)
  | onSendRequest (s : Status)
  /-- A response, and what its header says. -/
  | onReceiveResponse (s : Status) (ok : Bool)
  | shutdown
  /-- The channel is not connected any more. -/
  | disconnect

namespace RosClient

variable (usesRos : Bool) (client : RosClient)

/-- `Client::Connect`. The former channel goes, with what was under way on it. -/
def connect (callback : ℕ) : RosClient × List RosClientEvent :=
  ({ phase := .connecting
     isConnected := false
     connectCallback := some callback
     call := client.call.map fun call ↦
       { call with progress := call.progress.replaceChannel } },
    [.connectCalled callback])

/-- `Client::Shutdown`. -/
def shutdown (_ : RosClient) : RosClient × List RosClientEvent :=
  ({ phase := .absent, isConnected := false, connectCallback := none, call := none }, [])

/-- The channel is ready, and `connect_callback_` is run. -/
def finishConnect : RosClient × List RosClientEvent :=
  ({ client with phase := .ready, connectCallback := none },
    client.connectCallback.toList.map fun callback ↦ .connectAnswered callback Status.OK)

/-- `Client::OnConnect`. -/
def onConnect (s : Status) : RosClient × List RosClientEvent :=
  if !s.isOk then client.shutdown
  else if usesRos then ({ client with phase := .handshaking, isConnected := true }, [])
  else ({ client with isConnected := true }).finishConnect

/-- `Client::OnRosServiceHandshake`. -/
def onRosServiceHandshake (s : Status) : RosClient × List RosClientEvent :=
  if !s.isOk then client.shutdown else client.finishConnect

/-- `Client::MaybeSendRequest` and `SendRequest`. -/
def maybeSendRequest : RosClient × List RosClientEvent :=
  match client.call with
  | some call =>
    if client.isConnected then
      ({ client with call := some { call with progress := .sending } },
        [.requestSent call.callback (client.phase = .ready)])
    else (client, [])
  | none => (client, [])

/-- `Client::Call`. -/
def callService (callback : ℕ) : RosClient × List RosClientEvent :=
  if client.call.isSome then
    (client, [.callMade callback, .callAnswered callback
      (aborted "You already called and it is waiting for response.")])
  else if client.phase = .absent then
    (client, [.callMade callback, .callAnswered callback (aborted "channel is not connected.")])
  else
    let sent := maybeSendRequest { client with call := some { callback } }
    (sent.1, .callMade callback :: .callAccepted callback :: sent.2)

/-- `call_callback_` is run. -/
def answer (call : OutstandingCall) (s : Status) : RosClient × List RosClientEvent :=
  ({ client with call := none }, [.callAnswered call.callback s])

/-- `Client::OnSendRequest` and `ReceiveResponse`, whose receiver has a channel only after the
handshake. -/
def onSendRequest (s : Status) : Option (RosClient × List RosClientEvent) :=
  client.call.bind fun call ↦
    if call.progress = .sending then
      if !s.isOk then some (client.answer call s)
      else if client.phase = .ready then
        some ({ client with call := some { call with progress := .receiving } }, [])
      else none
    else none

/-- `Client::OnReceiveResponse`. Only a ROS client reads the header. -/
def onReceiveResponse (s : Status) (ok : Bool) : Option (RosClient × List RosClientEvent) :=
  client.call.bind fun call ↦
    if call.progress = .receiving then
      if s.isOk && (ok || !usesRos) then some (client.answer call Status.OK)
      else if !s.isOk then some (client.answer call s)
      else some (client.answer call ⟨.unknown, "Failed to rpc call."⟩)
    else none

def step : RosClientAction → Option (RosClient × List RosClientEvent)
  | .connect callback => if client.connectCallback.isSome then none else client.connect callback
  | .onConnect s => if client.phase = .connecting then client.onConnect usesRos s else none
  | .onRosServiceHandshake s =>
    if client.phase = .handshaking then client.onRosServiceHandshake s else none
  | .run => if client.phase = .absent then none else client.maybeSendRequest
  | .call callback => client.callService callback
  | .onSendRequest s => client.onSendRequest s
  | .onReceiveResponse s ok => client.onReceiveResponse usesRos s ok
  | .shutdown => client.shutdown
  | .disconnect =>
    if client.isConnected then some ({ client with isConnected := false }, []) else none

end RosClient

/-- A client from its construction on. -/
def rosCalling (usesRos : Bool) : TransitionSystem RosClient RosClientAction RosClientEvent where
  Initial client := client = {}
  step client a := client.step usesRos a

/-! ### What is owed -/

/-- The callbacks of the calls. -/
def callLedger : Ledger RosClient RosClientEvent ℕ where
  issued
    | .callMade callback => some callback
    | _ => none
  settled
    | .callAnswered callback _ => some callback
    | _ => none
  held client :=
    match client.call with
    | some call => {call.callback}
    | none => 0

/-- The requests of the accepted calls. -/
def requestLedger : Ledger RosClient RosClientEvent ℕ where
  issued
    | .callAccepted callback => some callback
    | _ => none
  settled
    | .requestSent callback _ => some callback
    | _ => none
  held client :=
    match client.call with
    | some ⟨callback, .unsent⟩ => {callback}
    | _ => 0

/-- The callbacks of `Connect`. -/
def connectLedger : Ledger RosClient RosClientEvent ℕ where
  issued
    | .connectCalled callback => some callback
    | _ => none
  settled
    | .connectAnswered callback _ => some callback
    | _ => none
  held client :=
    match client.connectCallback with
    | some callback => {callback}
    | none => 0

/-- No request is sent before the channel is ready. -/
def RosClientEvent.IsTimely : RosClientEvent → Prop
  | .requestSent _ isReady => isReady = true
  | _ => True

namespace RosClient

/-- What is outstanding is waited for: a call whose request was sent for the send or the response;
a call whose request was not sent for the channel to become ready or, on a connected one, for `Run`;
and `Connect` for the connection or the handshake. -/
@[mk_iff] structure Waits (client : RosClient) : Prop where
  call : ∀ call ∈ client.call,
    call.progress = .unsent ∧ (client.phase = .connecting ∨ client.phase = .handshaking ∨
      client.phase = .ready ∧ client.isConnected = true) ∨
    (call.progress = .sending ∨ call.progress = .receiving) ∧ client.phase = .ready
  connect : client.connectCallback.isSome ↔
    client.phase = .connecting ∨ client.phase = .handshaking

/-- Each callback is run once or outstanding, each accepted call is sent once or has yet to be, no
request was sent early, and what is outstanding is waited for. -/
structure Accounted (client : RosClient) (history : List RosClientEvent) : Prop where
  calls : callLedger.Balanced client history
  requests : requestLedger.Balanced client history
  connects : connectLedger.Balanced client history
  timely : ∀ e ∈ history, e.IsTimely
  waits : client.Waits

/-- Nothing is shut down while a callback is outstanding, be it because a connection or a handshake
fails; no call is made during a handshake, or after the connection was lost; `Run` finds no call but
one that is not sent, on a channel that is ready; and the channel is neither replaced while a
request is under way, nor lost while one is waiting for `Run`. -/
def Careful (client : RosClient) : RosClientAction → Prop
  | .connect _ => ∀ call ∈ client.call, call.progress = .unsent
  | .onConnect s => s.isOk = true
  | .onRosServiceHandshake s =>
    s.isOk = true ∧ (client.call.isSome = true → client.isConnected = true)
  | .run => client.isConnected = true → ∀ call ∈ client.call,
    call.progress = .unsent ∧ client.phase = .ready
  | .call _ => client.call = none → (client.phase = .handshaking → client.isConnected = false) ∧
    (client.phase = .ready → client.isConnected = true)
  | .shutdown => client.connectCallback = none ∧ client.call = none
  | .disconnect => client.phase = .ready → ∀ call ∈ client.call, call.progress ≠ .unsent
  | .onSendRequest _ | .onReceiveResponse _ _ => True

instance (client : RosClient) : DecidablePred client.Careful
  | .connect _ => inferInstanceAs (Decidable (∀ call ∈ client.call, call.progress = .unsent))
  | .onConnect s => inferInstanceAs (Decidable (s.isOk = true))
  | .onRosServiceHandshake s => inferInstanceAs (Decidable
    (s.isOk = true ∧ (client.call.isSome = true → client.isConnected = true)))
  | .run => inferInstanceAs (Decidable (client.isConnected = true → ∀ call ∈ client.call,
    call.progress = .unsent ∧ client.phase = .ready))
  | .call _ => inferInstanceAs (Decidable (client.call = none →
    (client.phase = .handshaking → client.isConnected = false) ∧
    (client.phase = .ready → client.isConnected = true)))
  | .shutdown => inferInstanceAs (Decidable (client.connectCallback = none ∧ client.call = none))
  | .disconnect => inferInstanceAs (Decidable
    (client.phase = .ready → ∀ call ∈ client.call, call.progress ≠ .unsent))
  | .onSendRequest _ | .onReceiveResponse _ _ => isTrue trivial

/-! ### What a step keeps -/

variable {usesRos : Bool} {client : RosClient} {a : RosClientAction} {history : List RosClientEvent}
  {result : RosClient × List RosClientEvent}

/-- A channel that is not connected yet. -/
def Sound (client : RosClient) : Prop := client.phase = .connecting → client.isConnected = false

/-- What a step has to keep. -/
def KeepsAccounts (client : RosClient) (result : RosClient × List RosClientEvent) : Prop :=
  (callLedger.Keeps client result ∧ requestLedger.Keeps client result ∧
    connectLedger.Keeps client result) ∧ (∀ e ∈ result.2, e.IsTimely) ∧ result.1.Waits

/-- Assumes: a client whose accounts are right. -/
theorem accounted_append_iff (h : client.Accounted history) {client' : RosClient}
    {events : List RosClientEvent} :
    client'.Accounted (history ++ events) ↔ KeepsAccounts client (client', events) := by
  constructor
  · intro ⟨hcalls, hrequests, hconnects, htimely, hwaits⟩
    exact ⟨⟨h.calls.append_iff.mp hcalls, h.requests.append_iff.mp hrequests,
      h.connects.append_iff.mp hconnects⟩, (List.forall_mem_append.mp htimely).2, hwaits⟩
  · intro ⟨⟨hcalls, hrequests, hconnects⟩, htimely, hwaits⟩
    exact ⟨h.calls.append_iff.mpr hcalls, h.requests.append_iff.mpr hrequests,
      h.connects.append_iff.mpr hconnects, List.forall_mem_append.mpr ⟨h.timely, htimely⟩, hwaits⟩

theorem sound_maybeSendRequest (h : client.Sound) : client.maybeSendRequest.1.Sound := by
  unfold maybeSendRequest
  split
  · split_ifs
    · exact h
    · exact h
  · exact h

theorem sound_step (h : client.Sound) (hstep : client.step usesRos a = some result) :
    result.1.Sound := by
  cases a with
  | connect callback =>
    simp only [step] at hstep
    split_ifs at hstep
    cases hstep
    exact fun _ ↦ rfl
  | onConnect s =>
    simp only [step, onConnect] at hstep
    split_ifs at hstep <;> cases hstep <;> simp [Sound, shutdown, finishConnect]
  | onRosServiceHandshake s =>
    simp only [step, onRosServiceHandshake] at hstep
    split_ifs at hstep <;> cases hstep <;> simp [Sound, shutdown, finishConnect]
  | run =>
    simp only [step] at hstep
    split_ifs at hstep
    cases hstep
    exact sound_maybeSendRequest h
  | call callback =>
    simp only [step, callService] at hstep
    split_ifs at hstep
    · cases hstep
      exact h
    · cases hstep
      exact h
    · cases hstep
      exact sound_maybeSendRequest h
  | onSendRequest s =>
    obtain ⟨call, -, hstep⟩ := Option.bind_eq_some_iff.mp hstep
    split_ifs at hstep <;> cases hstep <;> exact h
  | onReceiveResponse s ok =>
    obtain ⟨call, -, hstep⟩ := Option.bind_eq_some_iff.mp hstep
    split_ifs at hstep <;> cases hstep <;> exact h
  | shutdown =>
    cases hstep
    simp [Sound, shutdown]
  | disconnect =>
    simp only [step] at hstep
    split_ifs at hstep
    cases hstep
    exact fun _ ↦ rfl

theorem keeps_unchanged (h : client.Waits) : KeepsAccounts client (client, []) :=
  ⟨⟨Ledger.keeps_nil rfl, Ledger.keeps_nil rfl, Ledger.keeps_nil rfl⟩, List.forall_mem_nil _, h⟩

section

-- The accounts of a step whose events and states are known are computed.
attribute [local simp] KeepsAccounts Ledger.Keeps Ledger.settles Ledger.issues callLedger
  requestLedger connectLedger RosClientEvent.IsTimely waits_iff

theorem keeps_connect_iff (callback : ℕ) (hconnect : client.connectCallback = none) :
    KeepsAccounts client (client.connect callback) ↔
      ∀ call ∈ client.call, call.progress = .unsent := by
  cases hcall : client.call with
  | none => simp [connect, hcall, hconnect]
  | some call =>
    obtain ⟨callback, progress⟩ := call
    cases progress <;> simp [connect, hcall, hconnect, CallProgress.replaceChannel]

theorem keeps_shutdown_iff : KeepsAccounts client client.shutdown ↔
    client.connectCallback = none ∧ client.call = none := by
  cases hcall : client.call with
  | none => cases hconnect : client.connectCallback <;> simp [shutdown, hcall, hconnect]
  | some call => simp [shutdown, hcall]

theorem keeps_handshaking (h : client.Waits) (hphase : client.phase = .connecting) :
    KeepsAccounts client ({ client with phase := .handshaking, isConnected := true }, []) := by
  have hsome : client.connectCallback.isSome = true := h.connect.mpr (Or.inl hphase)
  have hcall := h.call
  simp_all

/-- Assumes: a connection or a handshake that is waited for. -/
theorem keeps_connected_iff (h : client.Waits)
    (hphase : client.phase = .connecting ∨ client.phase = .handshaking) (isConnected : Bool) :
    KeepsAccounts client ({ client with isConnected } : RosClient).finishConnect ↔
      (client.call.isSome = true → isConnected = true) := by
  obtain ⟨callback, hconnect⟩ := Option.isSome_iff_exists.mp (h.connect.mpr hphase)
  have hready : client.phase ≠ .ready := by
    rcases hphase with hphase | hphase <;> simp [hphase]
  cases hcall : client.call with
  | none => simp [finishConnect, hcall, hconnect]
  | some call =>
    obtain ⟨callback, progress⟩ := call
    -- Nothing is sent before the channel is ready.
    have hunsent : progress = .unsent := by
      rcases h.call _ hcall with hwait | hwait
      · exact hwait.1
      · exact absurd hwait.2 hready
    simp [finishConnect, hcall, hconnect, hunsent]

/-- A request is sent in time, and once, if it was not sent before and the channel is ready. -/
theorem keeps_maybeSendRequest_iff (h : client.Waits) :
    KeepsAccounts client client.maybeSendRequest ↔ (client.isConnected = true →
      ∀ call ∈ client.call, call.progress = .unsent ∧ client.phase = .ready) := by
  cases hcall : client.call with
  | none =>
    have hsame : client.maybeSendRequest = (client, []) := by simp [maybeSendRequest, hcall]
    rw [hsame]
    exact iff_of_true (keeps_unchanged h) fun _ call hmem ↦ by cases hmem
  | some call =>
    cases hconnected : client.isConnected with
    | false =>
      have hsame : client.maybeSendRequest = (client, []) := by
        simp [maybeSendRequest, hcall, hconnected]
      rw [hsame]
      exact iff_of_true (keeps_unchanged h) fun hnot ↦ by cases hnot
    | true =>
      obtain ⟨callback, progress⟩ := call
      have hconnect := h.connect
      by_cases hready : client.phase = .ready
      · have hnone : client.connectCallback = none := by simpa [hready] using hconnect
        cases progress <;> simp [maybeSendRequest, hcall, hconnected, hready, hnone]
      · simp [maybeSendRequest, hcall, hconnected, hready]

theorem keeps_refused (h : client.Waits) (callback : ℕ) (s : Status) :
    KeepsAccounts client (client, [.callMade callback, .callAnswered callback s]) := by
  refine ⟨⟨?_, Ledger.keeps_nil rfl, Ledger.keeps_nil rfl⟩, by simp, h⟩
  exact add_comm _ _

theorem keeps_callService_iff (h : client.Waits) (hsound : client.Sound) (callback : ℕ) :
    KeepsAccounts client (client.callService callback) ↔ (client.call = none →
      (client.phase = .handshaking → client.isConnected = false) ∧
      (client.phase = .ready → client.isConnected = true)) := by
  have hconnect := h.connect
  unfold callService
  split_ifs with hcall habsent
  · refine iff_of_true (keeps_refused h _ _) fun hnone ↦ ?_
    simp [hnone] at hcall
  · exact iff_of_true (keeps_refused h _ _) fun _ ↦ by simp [habsent]
  · have hnone : client.call = none := by simpa using hcall
    cases hphase : client.phase with
    | absent => exact absurd hphase habsent
    | connecting =>
      have hconnected := hsound hphase
      have hsome : client.connectCallback.isSome = true := hconnect.mpr (Or.inl hphase)
      simp [maybeSendRequest, hnone, hconnected, hsome]
    | handshaking =>
      have hsome : client.connectCallback.isSome = true := hconnect.mpr (Or.inr hphase)
      cases client.isConnected <;> simp [maybeSendRequest, hnone, hsome]
    | ready =>
      have hnot : client.connectCallback = none := by simpa [hphase] using hconnect
      cases client.isConnected <;> simp [maybeSendRequest, hnone, hnot]

/-- Assumes: a request that was sent and not answered. -/
theorem keeps_answer (h : client.Waits) {call : OutstandingCall} (hcall : client.call = some call)
    (hsent : call.progress ≠ .unsent) (s : Status) :
    KeepsAccounts client (client.answer call s) := by
  have hconnect := h.connect
  obtain ⟨callback, progress⟩ := call
  cases progress <;> simp_all [answer]

theorem keeps_receive (h : client.Waits) {call : OutstandingCall} (hcall : client.call = some call)
    (hsending : call.progress = .sending) (hready : client.phase = .ready) :
    KeepsAccounts client
      ({ client with call := some { call with progress := .receiving } }, []) := by
  have hconnect := h.connect
  obtain ⟨callback, progress⟩ := call
  simp_all

theorem keeps_disconnect_iff (h : client.Waits) :
    KeepsAccounts client ({ client with isConnected := false }, []) ↔
      (client.phase = .ready → ∀ call ∈ client.call, call.progress ≠ .unsent) := by
  have hconnect := h.connect
  cases hcall : client.call with
  | none => simp [hcall, hconnect]
  | some call =>
    have hwait := h.call call hcall
    obtain ⟨callback, progress⟩ := call
    cases hphase : client.phase with
    | ready => cases progress <;> simp_all
    | absent | connecting | handshaking => simp_all

end

/-- The step lemma. -/
theorem keepsAccounts_step_iff (h : client.Waits) (hsound : client.Sound)
    (hstep : client.step usesRos a = some result) :
    KeepsAccounts client result ↔ client.Careful a := by
  cases a with
  | connect callback =>
    simp only [step] at hstep
    split_ifs at hstep with hconnect
    cases hstep
    exact keeps_connect_iff callback (by simpa using hconnect)
  | onConnect s =>
    simp only [step, onConnect] at hstep
    split_ifs at hstep with hphase hfailed hros
    · cases hstep
      have hsome := h.connect.mpr (Or.inl hphase)
      rw [keeps_shutdown_iff]
      refine iff_of_false (fun hnone ↦ ?_) (by simpa [Careful] using hfailed)
      simp [hnone.1] at hsome
    · cases hstep
      refine iff_of_true (keeps_handshaking h hphase) ?_
      simpa [Careful] using hfailed
    · cases hstep
      refine iff_of_true ?_ (by simpa [Careful] using hfailed)
      exact (keeps_connected_iff h (Or.inl hphase) true).mpr fun _ ↦ rfl
  | onRosServiceHandshake s =>
    simp only [step, onRosServiceHandshake] at hstep
    split_ifs at hstep with hphase hfailed
    · cases hstep
      have hsome := h.connect.mpr (Or.inr hphase)
      rw [keeps_shutdown_iff]
      refine iff_of_false (fun hnone ↦ ?_) fun hcareful ↦ ?_
      · simp [hnone.1] at hsome
      · simp [hcareful.1] at hfailed
    · cases hstep
      have hok : s.isOk = true := by simpa using hfailed
      rw [keeps_connected_iff h (Or.inr hphase) client.isConnected]
      simp [Careful, hok]
  | run =>
    simp only [step] at hstep
    split_ifs at hstep
    cases hstep
    exact keeps_maybeSendRequest_iff h
  | call callback =>
    cases hstep
    exact keeps_callService_iff h hsound callback
  | onSendRequest s =>
    obtain ⟨call, hcall, hstep⟩ := Option.bind_eq_some_iff.mp hstep
    split_ifs at hstep with hsending hfailed hready
    · cases hstep
      exact iff_of_true (keeps_answer h hcall (by simp [hsending]) s) trivial
    · cases hstep
      exact iff_of_true (keeps_receive h hcall hsending hready) trivial
  | onReceiveResponse s ok =>
    obtain ⟨call, hcall, hstep⟩ := Option.bind_eq_some_iff.mp hstep
    split_ifs at hstep with hreceiving hok hfailed
    all_goals
      cases hstep
      exact iff_of_true (keeps_answer h hcall (by simp [hreceiving]) _) trivial
  | shutdown =>
    cases hstep
    exact keeps_shutdown_iff
  | disconnect =>
    simp only [step] at hstep
    split_ifs at hstep
    cases hstep
    exact keeps_disconnect_iff h

/-- Assumes: a run of careful steps. Each callback of `Call` and of `Connect` is run exactly once,
or is outstanding and waited for, each accepted call sends its request exactly once or has yet to
send it, and no request is sent before the handshake; and a further step leaves it so if and only if
it is a careful one, too. -/
theorem calls_answered_once_iff (usesRos : Bool) (client : RosClient)
    (history : List RosClientEvent) (run : Run (rosCalling usesRos) Careful client history) :
    client.Accounted history ∧
    ∀ a client' events, client.step usesRos a = some (client', events) →
      (client'.Accounted (history ++ events) ↔ client.Careful a) := by
  have hinv : client.Sound ∧ client.Accounted history := by
    refine run.invariant (I := fun client history ↦ client.Sound ∧ client.Accounted history) ?_ ?_
    · rintro s rfl
      refine ⟨fun hphase ↦ ?_, rfl, rfl, rfl, List.forall_mem_nil _, ?_⟩
      · cases hphase
      · simp [waits_iff]
    · intro s a s' history observed _ hinv hguard hstep
      have hkeeps := (keepsAccounts_step_iff hinv.2.waits hinv.1 hstep).mpr hguard
      exact ⟨sound_step hinv.1 hstep, (accounted_append_iff hinv.2).mpr hkeeps⟩
  refine ⟨hinv.2, fun a client' events hstep ↦ ?_⟩
  rw [← keepsAccounts_step_iff hinv.2.waits hinv.1 hstep]
  exact accounted_append_iff hinv.2

end RosClient

namespace Scenario

/-- A call is made before the connection, sent by `Run` after the handshake, and answered; another
one is refused meanwhile. -/
def callBeforeConnection : List RosClientAction :=
  [.connect 0, .call 1, .onConnect Status.OK, .onRosServiceHandshake Status.OK, .run, .call 2,
    .onSendRequest Status.OK, .onReceiveResponse Status.OK true, .shutdown]

/-- The connection fails while a call is outstanding. -/
def connectionFails : List RosClientAction :=
  [.connect 0, .call 1, .onConnect ⟨.networkError, "ERR_CONNECTION_REFUSED"⟩]

/-- `Run` comes while the response of a call is awaited. -/
def runWhileReceiving : List RosClientAction :=
  [.connect 0, .onConnect Status.OK, .onRosServiceHandshake Status.OK, .call 1,
    .onSendRequest Status.OK, .run]

/-- A call is made during the handshake. -/
def callDuringHandshake : List RosClientAction :=
  [.connect 0, .onConnect Status.OK, .call 1]

end Scenario

namespace RosClient

/-- Both calls and the `Connect` are answered once, and one request is sent. -/
theorem calls_answered_once_of_call :
    ∃ client history, Run (rosCalling true) Careful client history ∧
      callLedger.issues history = {1, 2} ∧ callLedger.settles history = {1, 2} ∧
      requestLedger.settles history = {1} ∧ connectLedger.settles history = {0} := by
  have hexec : ((rosCalling true).exec Careful {} [] Scenario.callBeforeConnection).map
      (fun result ↦ (result.1, callLedger.issues result.2, requestLedger.issues result.2,
        connectLedger.issues result.2)) = some ({}, {1, 2}, {1}, {0}) := by
    decide
  obtain ⟨⟨client, history⟩, hrun, heq⟩ := Option.map_eq_some_iff.mp hexec
  simp only [Prod.mk.injEq] at heq
  obtain ⟨rfl, hcalls, hrequests, hconnects⟩ := heq
  have run : Run (rosCalling true) Careful {} history := (Run.start rfl).of_exec hrun
  obtain ⟨haccounted, -⟩ := calls_answered_once_iff true {} history run
  refine ⟨_, history, run, hcalls, ?_, ?_, ?_⟩
  · exact (haccounted.calls.settles_eq rfl).trans hcalls
  · exact (haccounted.requests.settles_eq rfl).trans hrequests
  · exact (haccounted.connects.settles_eq rfl).trans hconnects

/-- A connection that fails leaves both callbacks without an answer; `Run` sends a request again;
and a request is sent during the handshake. -/
theorem calls_not_answered_once :
    (¬ ∀ client history, Run (rosCalling true) unguarded client history →
      callLedger.Balanced client history) ∧
    (¬ ∀ client history, Run (rosCalling true) unguarded client history →
      connectLedger.Balanced client history) ∧
    (¬ ∀ client history, Run (rosCalling true) unguarded client history →
      requestLedger.Balanced client history) ∧
    ¬ ∀ client history, Run (rosCalling true) unguarded client history →
      ∀ callback isReady, .requestSent callback isReady ∈ history → isReady = true := by
  have hfails : ((rosCalling true).exec unguarded {} [] Scenario.connectionFails) =
      some ({}, [.connectCalled 0, .callMade 1, .callAccepted 1]) := by
    decide
  have hagain : ((rosCalling true).exec unguarded {} [] Scenario.runWhileReceiving) =
      some (⟨.ready, true, none, some ⟨1, .sending⟩⟩, [.connectCalled 0,
        .connectAnswered 0 Status.OK, .callMade 1, .callAccepted 1, .requestSent 1 true,
        .requestSent 1 true]) := by
    decide
  have hearly : ((rosCalling true).exec unguarded {} [] Scenario.callDuringHandshake) =
      some (⟨.handshaking, true, some 0, some ⟨1, .sending⟩⟩, [.connectCalled 0, .callMade 1,
        .callAccepted 1, .requestSent 1 false]) := by
    decide
  refine ⟨fun hall ↦ ?_, fun hall ↦ ?_, fun hall ↦ ?_, fun hall ↦ ?_⟩
  · have hbalanced := hall _ _ ((Run.start rfl).of_exec hfails)
    revert hbalanced
    decide
  · have hbalanced := hall _ _ ((Run.start rfl).of_exec hfails)
    revert hbalanced
    decide
  · have hbalanced := hall _ _ ((Run.start rfl).of_exec hagain)
    revert hbalanced
    decide
  · cases hall _ _ ((Run.start rfl).of_exec hearly) 1 false (by decide)

end RosClient

end Felicia
