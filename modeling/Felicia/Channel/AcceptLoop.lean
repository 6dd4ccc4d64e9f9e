import Felicia.Channel.Socket
import Felicia.Support.Reissue
import Felicia.Support.Transition

/-!
# Accepting connections

`TCPChannel::AcceptLoop` and `TCPChannel::AcceptOnceIntercept` of
`felicia/core/channel/tcp_channel.cc` over `TCPServerSocket`, the second as `Publisher::Setup` and
`Publisher::OnAccept` of `felicia/core/communication/publisher.h` use it, and
`UnixDomainServerSocket::AcceptLoop` of
`felicia/core/channel/socket/unix_domain_server_socket.cc`. An accept, and the SSL handshake of an
accepted socket, ends at once or has to wait. Sockets are numbers.

Each of the three stops in one place. `TCPChannel::OnAccept` without SSL does not accept again after
it added a socket to an accept loop. `UnixDomainServerSocket::DoAcceptLoop` does not accept again
after an accept that fails at once. `Publisher::Setup` accepts before the channel is one of
`channels_`, where `Publisher::OnAccept` looks for the channel to add the socket to and to accept on
again.
-/

set_option autoImplicit false
set_option relaxedAutoImplicit false

namespace Felicia

open Support TransitionSystem

/-! ### A socket that listens -/

/-- What is waited for. -/
inductive AcceptOperation
  | accept
  | handshake (socket : ℕ)
  deriving DecidableEq

/-- A server socket, with what its channel waits for. -/
structure Listener where
  started : Bool := false
  pending : Option AcceptOperation := none
  acceptedSockets : List ℕ := []
  /-- Sockets in the hands of a `RosTopicResponse`. -/
  rosHandshakes : List ℕ := []
  deriving DecidableEq

/-- What a step does to the outside. -/
inductive AcceptEvent
  /-- A socket was accepted, and its handshakes succeeded. -/
  | succeeded (socket : ℕ)
  /-- The callback is run with a status, or an error is logged. -/
  | reported (status : Status)
  deriving DecidableEq

/-- The socket of an event. -/
def AcceptEvent.socket? : AcceptEvent → Option ℕ
  | .succeeded socket => some socket
  | .reported _ => none

namespace Listener

/-- `TCPServerSocket::AddSocket`. -/
def addSocket (l : Listener) (socket : ℕ) : Listener :=
  { l with acceptedSockets := l.acceptedSockets ++ [socket] }

/-- The socket has to wait for a connection. -/
def waits (l : Listener) : Listener := { l with pending := some .accept }

/-- What was waited for ended. -/
def ended (l : Listener) : Listener := { l with pending := none }

/-- Every socket that was accepted, and whose handshakes succeeded, is there once. -/
def Holds (l : Listener) (history : List AcceptEvent) : Prop :=
  l.acceptedSockets = history.filterMap (·.socket?)

/-- A listener that was started waits for an accept or for a handshake, and holds the sockets that
succeeded. -/
def Serves (l : Listener) (history : List AcceptEvent) : Prop :=
  (l.started = true → l.pending.isSome = true) ∧ l.Holds history

/-- Nothing is waited for any more. -/
def Stalled (l : Listener) : Prop := l.started = true ∧ l.pending = none

theorem Stalled.not_serves {l : Listener} (h : l.Stalled) (history : List AcceptEvent) :
    ¬ l.Serves history := by
  intro hserves
  have hpending := hserves.1 h.1
  rw [h.2] at hpending
  cases hpending

end Listener

/-! ### TCP channels -/

/-- What `callback` of a TCP channel is. -/
inductive AcceptOwner
  /-- `accept_callback_`, given to `AcceptLoop`. -/
  | acceptLoop
  /-- `Publisher::OnAccept`, given to `AcceptOnceIntercept`, of a ROS topic or not. -/
  | publisher (usesRos : Bool)
  deriving DecidableEq

/-- The settings of a TCP channel, and who accepts on it. -/
structure TcpAccepting where
  useSsl : Bool
  owner : AcceptOwner

/-- What an accept comes to, with what the handshake of the socket comes to at once. -/
inductive TcpAttempt
  | failed (status : Status)
  | accepted (socket : ℕ) (handshake : Option Status)
  deriving DecidableEq

def TcpAttempt.isFailed : TcpAttempt → Bool
  | .failed _ => true
  | .accepted _ _ => false

/-- What can happen next. Each action that issues an accept comes with what this and further accepts
come to at once. -/
inductive TcpAcceptAction
  /-- `AcceptLoop`, or `AcceptOnceIntercept` in `Publisher::Setup`. -/
  | start (attempts : List TcpAttempt)
  /-- The accept that is waited for ends. -/
  | accepted (attempt : TcpAttempt) (attempts : List TcpAttempt)
  /-- The SSL handshake that is waited for ends. -/
  | handshaken (status : Status) (attempts : List TcpAttempt)
  /-- A `RosTopicResponse` is done with its socket. -/
  | rosHandshaken (n : ℕ) (succeeds : Bool)

namespace TcpAccepting

variable (t : TcpAccepting)

/-- The socket is ready, unless a ROS handshake is still to come. -/
def succeeded (socket : ℕ) : List AcceptEvent :=
  if t.owner = .publisher true then [] else [.succeeded socket]

/-- `Publisher::OnAccept`. A channel that is not one of `channels_` is not found, and the socket is
closed. -/
def publisherOnAccept (usesRos inChannels : Bool) (l : Listener) (result : Except Status ℕ) :
    Handled Listener AcceptEvent :=
  if !inChannels then { state := l, again := false }
  else match result with
    | .error status => { state := l, observed := [.reported status], again := true }
    | .ok socket =>
      if usesRos then
        { state := { l with rosHandshakes := l.rosHandshakes ++ [socket] }, again := true }
      else { state := l.addSocket socket, again := true }

/-- `TCPChannel::OnSSLHandshake`. -/
def onSslHandshake (inChannels : Bool) (l : Listener) (socket : ℕ) (status : Status) :
    Handled Listener AcceptEvent :=
  match t.owner with
  | .acceptLoop =>
    if status.isOk then
      { state := l.addSocket socket
        observed := t.succeeded socket ++ [.reported status], again := true }
    else { state := l, observed := [.reported status], again := true }
  | .publisher usesRos =>
    if status.isOk then
      let handled := publisherOnAccept usesRos inChannels l (.ok socket)
      { handled with observed := t.succeeded socket ++ handled.observed }
    else publisherOnAccept usesRos inChannels l (.error status)

/-- `TCPChannel::OnAccept`. -/
def onAccept (inChannels : Bool) (l : Listener) : TcpAttempt → Handled Listener AcceptEvent
  | .failed status =>
    match t.owner with
    | .acceptLoop => { state := l, observed := [.reported status], again := true }
    | .publisher usesRos => publisherOnAccept usesRos inChannels l (.error status)
  | .accepted socket handshake =>
    if t.useSsl then
      match handshake with
      | none => { state := { l with pending := some (.handshake socket) }, again := false }
      | some status => t.onSslHandshake inChannels l socket status
    else match t.owner with
      | .acceptLoop =>
        { state := l.addSocket socket
          observed := t.succeeded socket ++ [.reported .OK], again := false }
      | .publisher usesRos =>
        let handled := publisherOnAccept usesRos inChannels l (.ok socket)
        { handled with observed := t.succeeded socket ++ handled.observed }

/-- `TCPChannel::DoAcceptLoop` or `TCPChannel::AcceptOnceIntercept`, and what follows at once. -/
def doAccept (inChannels : Bool) (l : Listener) (attempts : List TcpAttempt) :
    Listener × List AcceptEvent :=
  reissue Listener.waits (t.onAccept inChannels) { state := l, again := true } attempts

def step (l : Listener) : TcpAcceptAction → Option (Listener × List AcceptEvent)
  | .start attempts =>
    if l.started then none else some (t.doAccept false { l with started := true } attempts)
  | .accepted attempt attempts =>
    if l.pending = some .accept then some (t.doAccept true l.ended (attempt :: attempts)) else none
  | .handshaken status attempts =>
    match l.pending with
    | some (.handshake socket) =>
      some (reissue Listener.waits (t.onAccept true) (t.onSslHandshake true l.ended socket status)
        attempts)
    | _ => none
  | .rosHandshaken n succeeds =>
    l.rosHandshakes[n]?.map fun socket ↦
      let l := { l with rosHandshakes := l.rosHandshakes.eraseIdx n }
      if succeeds then (l.addSocket socket, [.succeeded socket]) else (l, [])

end TcpAccepting

/-- A TCP channel that listens, from before it accepts. -/
def tcpAccepting (t : TcpAccepting) : TransitionSystem Listener TcpAcceptAction AcceptEvent where
  Initial l := l = {}
  step := t.step

/-! ### Unix domain sockets -/

/-- What an accept comes to. A socket that was accepted passes `auth_callback_`, if there is one, or
does not. -/
inductive UnixAttempt
  | failed (status : Status)
  | accepted (socket : ℕ) (authenticated : Bool)
  deriving DecidableEq

def UnixAttempt.isFailed : UnixAttempt → Bool
  | .failed _ => true
  | .accepted _ _ => false

inductive UnixAcceptAction
  /-- `AcceptLoop`. -/
  | start (attempts : List UnixAttempt)
  /-- The accept that is waited for ends. -/
  | accepted (attempt : UnixAttempt) (attempts : List UnixAttempt)

namespace UnixDomainServerSocket

/-- `UnixDomainServerSocket::HandleAccpetResult`, in an accept loop. The loop goes by the result of
the accept alone. -/
def handleAccpetResult (l : Listener) : UnixAttempt → Handled Listener AcceptEvent
  | .failed status => { state := l, observed := [.reported status], again := false }
  | .accepted socket authenticated =>
    if authenticated then
      { state := l.addSocket socket, observed := [.succeeded socket, .reported .OK], again := true }
    else
      { state := l, observed := [.reported (networkError "net::ERR_INVALID_AUTH_CREDENTIALS")]
        again := true }

/-- `UnixDomainServerSocket::OnAccept`, which goes on with the loop whatever the result was. -/
def onAccept (l : Listener) (attempt : UnixAttempt) : Handled Listener AcceptEvent :=
  { handleAccpetResult l attempt with again := true }

def step (l : Listener) : UnixAcceptAction → Option (Listener × List AcceptEvent)
  | .start attempts =>
    if l.started then none
    else some (reissue Listener.waits handleAccpetResult
      { state := { l with started := true }, again := true } attempts)
  | .accepted attempt attempts =>
    if l.pending = some .accept then
      some (reissue Listener.waits handleAccpetResult (onAccept l.ended attempt) attempts)
    else none

end UnixDomainServerSocket

/-- A Unix domain socket that listens, from before it accepts. -/
def unixAccepting : TransitionSystem Listener UnixAcceptAction AcceptEvent where
  Initial l := l = {}
  step := UnixDomainServerSocket.step

/-! ### What holds while an accept is issued, and when it has to wait -/

namespace Listener

/-- An accept is being issued, after a history. -/
structure Issuing (l : Listener) (history : List AcceptEvent) : Prop where
  started : l.started = true
  pending : l.pending = none
  holds : l.Holds history

/-- A listener that serves, and that waits for nothing before it is started. -/
structure Serving (l : Listener) (history : List AcceptEvent) : Prop where
  serves : l.Serves history
  idle : l.started = false → l.pending = none

theorem Serving.of_initial : Serving {} [] := by
  refine ⟨⟨fun hstarted ↦ ?_, rfl⟩, fun _ ↦ rfl⟩
  cases hstarted

theorem Serving.of_pending {l : Listener} {history : List AcceptEvent} (hstarted : l.started = true)
    (hpending : l.pending.isSome = true) (hholds : l.Holds history) : l.Serving history :=
  ⟨⟨fun _ ↦ hpending, hholds⟩, fun hidle ↦ by simp [hstarted] at hidle⟩

theorem Serving.issuing_started {l : Listener} {history : List AcceptEvent} (h : l.Serving history)
    (hstarted : ¬ l.started = true) : Issuing { l with started := true } history :=
  ⟨rfl, h.idle (Bool.eq_false_of_not_eq_true hstarted), h.serves.2⟩

theorem Serving.issuing_ended {l : Listener} {history : List AcceptEvent} (h : l.Serving history)
    {operation : AcceptOperation} (hpending : l.pending = some operation) :
    l.ended.Issuing history := by
  refine ⟨?_, rfl, h.serves.2⟩
  by_contra hstarted
  rw [h.idle (Bool.eq_false_of_not_eq_true hstarted)] at hpending
  cases hpending

theorem Issuing.stalled {l : Listener} {history : List AcceptEvent} (h : l.Issuing history) :
    l.Stalled :=
  ⟨h.started, h.pending⟩

theorem Holds.append {l : Listener} {history events : List AcceptEvent} (h : l.Holds history)
    (hevents : events.filterMap (·.socket?) = []) : l.Holds (history ++ events) := by
  rw [Holds, List.filterMap_append, hevents, List.append_nil]
  exact h

theorem Holds.addSocket {l : Listener} {history events : List AcceptEvent} {socket : ℕ}
    (h : l.Holds history) (hevents : events.filterMap (·.socket?) = [socket]) :
    (l.addSocket socket).Holds (history ++ events) := by
  rw [Holds, List.filterMap_append, hevents, ← h]
  rfl

end Listener

namespace TcpAccepting

/-- The outcome is known at once: the accept failed, or no handshake has to be waited for. -/
def concludes (t : TcpAccepting) : TcpAttempt → Bool
  | .failed _ => true
  | .accepted _ handshake => !t.useSsl || handshake.isSome

/-- What an accept may come to: in an accept loop without SSL, a failure; and when
`Publisher::Setup` issues it, a handshake that has to be waited for. -/
def allowed (t : TcpAccepting) (inChannels : Bool) (attempt : TcpAttempt) : Bool :=
  match t.owner with
  | .acceptLoop => t.useSsl || attempt.isFailed
  | .publisher _ => inChannels || !t.concludes attempt

/-- The accepts that can end at once when the first one is issued. `Publisher::Setup` issues one
only. -/
def issuedFirst (t : TcpAccepting) (attempts : List TcpAttempt) : List TcpAttempt :=
  match t.owner with
  | .acceptLoop => attempts
  | .publisher _ => attempts.head?.toList

/-- The accepts that end in a step are allowed to end as they do. -/
def Rearms (t : TcpAccepting) (_ : Listener) : TcpAcceptAction → Prop
  | .start attempts => ∀ attempt ∈ t.issuedFirst attempts, t.allowed false attempt = true
  | .accepted first attempts => ∀ attempt ∈ first :: attempts, t.allowed true attempt = true
  | .handshaken _ _ => True
  | .rosHandshaken _ _ => True

/-- A listener that serves, and that waits for a handshake only with SSL. -/
structure Serving (t : TcpAccepting) (l : Listener) (history : List AcceptEvent) : Prop where
  serving : l.Serving history
  ssl : ∀ socket, l.pending = some (.handshake socket) → t.useSsl = true

variable {t : TcpAccepting} {l : Listener} {history : List AcceptEvent} {inChannels : Bool}

theorem serving_waits (h : l.Issuing history) : t.Serving l.waits history :=
  ⟨.of_pending h.started rfl h.holds, fun _ hpending ↦ by cases hpending⟩

/-- What a handler has to establish. -/
def Continues (t : TcpAccepting) (handled : Handled Listener AcceptEvent)
    (history : List AcceptEvent) : Prop :=
  if handled.again then handled.state.Issuing (history ++ handled.observed)
  else t.Serving handled.state (history ++ handled.observed)

/-- Assumes: a publisher that finds its channel. -/
theorem continues_publisherOnAccept (h : l.Issuing history) {usesRos : Bool}
    (howner : t.owner = .publisher usesRos) (socket : ℕ) :
    let handled := publisherOnAccept usesRos true l (.ok socket)
    t.Continues { handled with observed := t.succeeded socket ++ handled.observed } history := by
  cases usesRos with
  | true =>
    refine ⟨h.started, h.pending, ?_⟩
    exact h.holds.append (by simp [succeeded, howner, publisherOnAccept])
  | false =>
    refine ⟨h.started, h.pending, ?_⟩
    exact h.holds.addSocket (by simp [succeeded, howner, publisherOnAccept, AcceptEvent.socket?])

theorem continues_publisherOnAccept_error (h : l.Issuing history) (usesRos : Bool)
    (status : Status) :
    t.Continues (publisherOnAccept usesRos true l (.error status)) history :=
  ⟨h.started, h.pending, h.holds.append rfl⟩

/-- Assumes: a channel that a publisher finds among its channels. Whatever the handshake came to,
accepting goes on. -/
theorem continues_onSslHandshake (h : l.Issuing history)
    (hfound : ∀ usesRos, t.owner = .publisher usesRos → inChannels = true) (socket : ℕ)
    (status : Status) : t.Continues (t.onSslHandshake inChannels l socket status) history := by
  unfold onSslHandshake
  cases howner : t.owner with
  | acceptLoop =>
    dsimp only
    split_ifs
    · refine ⟨h.started, h.pending, h.holds.addSocket ?_⟩
      simp [succeeded, howner, AcceptEvent.socket?]
    · exact ⟨h.started, h.pending, h.holds.append rfl⟩
  | publisher usesRos =>
    dsimp only
    rw [hfound usesRos howner]
    split_ifs
    · exact continues_publisherOnAccept h howner socket
    · exact continues_publisherOnAccept_error h usesRos status

/-- Assumes: an accept that is allowed to end as it does. Accepting goes on, or waits for a
handshake. -/
theorem continues_onAccept (h : l.Issuing history) {attempt : TcpAttempt}
    (hallowed : t.allowed inChannels attempt = true) :
    t.Continues (t.onAccept inChannels l attempt) history := by
  -- A publisher whose accept is concluded finds its channel.
  have hfound (hconcludes : t.concludes attempt = true) (usesRos : Bool)
      (howner : t.owner = .publisher usesRos) : inChannels = true := by
    simpa [allowed, howner, hconcludes] using hallowed
  cases attempt with
  | failed status =>
    rw [onAccept]
    cases howner : t.owner with
    | acceptLoop => exact ⟨h.started, h.pending, h.holds.append rfl⟩
    | publisher usesRos =>
      dsimp only
      rw [hfound rfl usesRos howner]
      exact continues_publisherOnAccept_error h usesRos status
  | accepted socket handshake =>
    unfold onAccept
    by_cases hssl : t.useSsl = true
    · dsimp only
      rw [if_pos hssl]
      cases handshake with
      | none => exact ⟨.of_pending h.started rfl (h.holds.append rfl), fun _ _ ↦ hssl⟩
      | some status => exact continues_onSslHandshake h (hfound (by simp [concludes])) socket status
    · dsimp only
      rw [if_neg hssl]
      cases howner : t.owner with
      | acceptLoop => simp [allowed, howner, hssl, TcpAttempt.isFailed] at hallowed
      | publisher usesRos =>
        dsimp only
        rw [hfound (by simp [concludes, hssl]) usesRos howner]
        exact continues_publisherOnAccept h howner socket

/-- Assumes: accepts that are allowed to end as they do. At the end of the task something is waited
for. -/
theorem serving_reissue {handled : Handled Listener AcceptEvent}
    (h : t.Continues handled history) {attempts : List TcpAttempt}
    (hallowed : ∀ attempt ∈ attempts, t.allowed inChannels attempt = true) :
    let result := reissue Listener.waits (t.onAccept inChannels) handled attempts
    t.Serving result.1 (history ++ result.2) :=
  reissue_safe (I := Listener.Issuing) (J := t.Serving) (fun _ _ hissuing ↦ serving_waits hissuing)
    (fun _ hattempt _ _ hissuing ↦ continues_onAccept hissuing (hallowed _ hattempt)) h

theorem serving_doAccept (h : l.Issuing history) {attempts : List TcpAttempt}
    (hallowed : ∀ attempt ∈ attempts, t.allowed inChannels attempt = true) :
    t.Serving (t.doAccept inChannels l attempts).1
      (history ++ (t.doAccept inChannels l attempts).2) := by
  refine serving_reissue ?_ hallowed
  rw [Continues, if_pos rfl, List.append_nil]
  exact h

/-- Assumes: a first accept that is not issued again. The others count for nothing. -/
theorem doAccept_cons_of_not_again {attempt : TcpAttempt}
    (h : (t.onAccept inChannels l attempt).again = false) (attempts : List TcpAttempt) :
    t.doAccept inChannels l (attempt :: attempts) =
      ((t.onAccept inChannels l attempt).state, (t.onAccept inChannels l attempt).observed) := by
  rw [doAccept, reissue, if_pos rfl, reissue_of_not_again h]
  rfl

/-- Assumes: accepts of a publisher's set-up of which the first, if it ends, waits for a
handshake. -/
theorem serving_doAccept_of_setup (h : l.Issuing history) {usesRos : Bool}
    (howner : t.owner = .publisher usesRos) {attempts : List TcpAttempt}
    (hallowed : ∀ attempt ∈ attempts.head?.toList, t.allowed false attempt = true) :
    t.Serving (t.doAccept false l attempts).1 (history ++ (t.doAccept false l attempts).2) := by
  cases attempts with
  | nil => exact serving_doAccept h (List.forall_mem_nil _)
  | cons attempt attempts =>
    have hattempt := hallowed attempt (List.mem_singleton_self attempt)
    have hconcludes : t.concludes attempt = false := by simpa [allowed, howner] using hattempt
    have hagain : (t.onAccept false l attempt).again = false := by
      cases attempt with
      | failed status => cases hconcludes
      | accepted socket handshake =>
        simp only [concludes, Bool.or_eq_false_iff, Bool.not_eq_false', Option.isSome_eq_false_iff,
          Option.isNone_iff_eq_none] at hconcludes
        simp [onAccept, hconcludes]
    have hcontinues := continues_onAccept h hattempt
    rw [Continues, if_neg (by simp [hagain])] at hcontinues
    rwa [doAccept_cons_of_not_again hagain]

theorem allowed_of_useSsl (h : t.useSsl = true) (attempt : TcpAttempt) :
    t.allowed true attempt = true := by
  unfold allowed
  cases t.owner <;> simp [h]

/-- Assumes: a listener that serves, and a step whose accepts are allowed to end as they do. The
step lemma. -/
theorem Serving.step (h : t.Serving l history) {a : TcpAcceptAction} (hguard : t.Rearms l a)
    {l' : Listener} {events : List AcceptEvent} (hstep : t.step l a = some (l', events)) :
    t.Serving l' (history ++ events) := by
  cases a with
  | start attempts =>
    simp only [TcpAccepting.step] at hstep
    split_ifs at hstep with hstarted
    have hissuing := h.serving.issuing_started hstarted
    have heq := Option.some.inj hstep
    unfold Rearms issuedFirst at hguard
    cases howner : t.owner with
    | acceptLoop =>
      rw [howner] at hguard
      have hserving := serving_doAccept hissuing hguard
      rwa [heq] at hserving
    | publisher usesRos =>
      rw [howner] at hguard
      have hserving := serving_doAccept_of_setup hissuing howner hguard
      rwa [heq] at hserving
  | accepted first attempts =>
    simp only [TcpAccepting.step] at hstep
    split_ifs at hstep with hpending
    have hserving := serving_doAccept (h.serving.issuing_ended hpending) hguard
    rwa [Option.some.inj hstep] at hserving
  | handshaken status attempts =>
    simp only [TcpAccepting.step] at hstep
    split at hstep
    next socket hpending =>
      have hcontinues := continues_onSslHandshake (t := t) (h.serving.issuing_ended hpending)
        (fun _ _ ↦ rfl) socket status
      have hserving := serving_reissue hcontinues
        fun attempt (_ : attempt ∈ attempts) ↦ allowed_of_useSsl (h.ssl socket hpending) attempt
      rwa [Option.some.inj hstep] at hserving
    next => cases hstep
  | rosHandshaken n succeeds =>
    obtain ⟨socket, -, heq⟩ := Option.map_eq_some_iff.mp hstep
    dsimp only at heq
    split_ifs at heq
    · cases heq
      exact ⟨⟨⟨h.serving.serves.1, h.serving.serves.2.addSocket rfl⟩, h.serving.idle⟩, h.ssl⟩
    · cases heq
      exact ⟨⟨⟨h.serving.serves.1, h.serving.serves.2.append rfl⟩, h.serving.idle⟩, h.ssl⟩

/-! ### Steps after which nothing is waited for -/

/-- Assumes: an accept loop without SSL. No handler waits. -/
theorem stalled_onAccept (howner : t.owner = .acceptLoop) (hssl : t.useSsl = false)
    (inChannels : Bool) (attempt : TcpAttempt) (h : l.Stalled) :
    (t.onAccept inChannels l attempt).state.Stalled := by
  unfold onAccept
  cases attempt with
  | failed status => simpa [howner] using h
  | accepted socket handshake =>
    have hadded : (l.addSocket socket).Stalled := h
    simpa [howner, hssl] using hadded

/-- Assumes: an accept loop without SSL in which an accept succeeds. -/
theorem stalled_doAccept (howner : t.owner = .acceptLoop) {attempts : List TcpAttempt}
    (h : l.Stalled) (hrefused : ¬ ∀ attempt ∈ attempts, t.allowed inChannels attempt = true) :
    (t.doAccept inChannels l attempts).1.Stalled := by
  push Not at hrefused
  obtain ⟨attempt, hmem, hattempt⟩ := hrefused
  obtain ⟨hssl, haccepted⟩ : t.useSsl = false ∧ attempt.isFailed = false := by
    simpa [allowed, howner] using hattempt
  refine reissue_stops (fun l attempt ↦ stalled_onAccept howner hssl inChannels attempt) h
    (.inr ⟨attempt, hmem, fun l ↦ ?_⟩)
  cases attempt with
  | failed status => cases haccepted
  | accepted socket handshake => simp [onAccept, howner, hssl]

/-- Assumes: a first accept of a publisher's set-up that is concluded at once. -/
theorem stalled_doAccept_of_setup {usesRos : Bool} (howner : t.owner = .publisher usesRos)
    {attempts : List TcpAttempt} (h : l.Stalled)
    (hrefused : ¬ ∀ attempt ∈ attempts.head?.toList, t.allowed false attempt = true) :
    (t.doAccept false l attempts).1.Stalled := by
  cases attempts with
  | nil => simp at hrefused
  | cons attempt attempts =>
    have hconcludes : t.concludes attempt = true := by simpa [allowed, howner] using hrefused
    have hclosed : (t.onAccept false l attempt).again = false ∧
        (t.onAccept false l attempt).state = l := by
      cases attempt with
      | failed status => simp [onAccept, howner, publisherOnAccept]
      | accepted socket handshake =>
        cases hssl : t.useSsl with
        | false => simp [onAccept, howner, hssl, publisherOnAccept]
        | true =>
          cases handshake with
          | none => simp [concludes, hssl] at hconcludes
          | some status =>
            cases hok : status.isOk <;>
              simp [onAccept, onSslHandshake, howner, hssl, publisherOnAccept, hok]
    rw [doAccept_cons_of_not_again hclosed.1]
    dsimp only
    rw [hclosed.2]
    exact h

/-- Assumes: a listener that serves, and a step with an accept that is not allowed to end as it
does. Nothing is waited for after the step. -/
theorem Serving.stalls (h : t.Serving l history) {a : TcpAcceptAction} (hguard : ¬ t.Rearms l a)
    {l' : Listener} {events : List AcceptEvent} (hstep : t.step l a = some (l', events)) :
    l'.Stalled := by
  cases a with
  | start attempts =>
    simp only [TcpAccepting.step] at hstep
    split_ifs at hstep with hstarted
    have hstalled := (h.serving.issuing_started hstarted).stalled
    have heq := Option.some.inj hstep
    unfold Rearms issuedFirst at hguard
    cases howner : t.owner with
    | acceptLoop =>
      rw [howner] at hguard
      have hresult := stalled_doAccept howner hstalled hguard
      rwa [heq] at hresult
    | publisher usesRos =>
      rw [howner] at hguard
      have hresult := stalled_doAccept_of_setup howner hstalled hguard
      rwa [heq] at hresult
  | accepted first attempts =>
    simp only [TcpAccepting.step] at hstep
    split_ifs at hstep with hpending
    have hstalled := (h.serving.issuing_ended hpending).stalled
    cases howner : t.owner with
    | acceptLoop =>
      have hresult := stalled_doAccept howner hstalled hguard
      rwa [Option.some.inj hstep] at hresult
    | publisher usesRos =>
      refine absurd (fun attempt _ ↦ ?_) hguard
      simp [allowed, howner]
  | handshaken | rosHandshaken => exact absurd trivial hguard

end TcpAccepting

/-! ### Unix domain sockets serve -/

namespace UnixDomainServerSocket

/-- No accept that is issued fails at once. -/
def Rearms (_ : Listener) : UnixAcceptAction → Prop
  | .start attempts => ∀ attempt ∈ attempts, attempt.isFailed = false
  | .accepted _ attempts => ∀ attempt ∈ attempts, attempt.isFailed = false

instance (l : Listener) : (a : UnixAcceptAction) → Decidable (Rearms l a)
  | .start attempts => inferInstanceAs (Decidable (∀ attempt ∈ attempts, attempt.isFailed = false))
  | .accepted _ attempts =>
    inferInstanceAs (Decidable (∀ attempt ∈ attempts, attempt.isFailed = false))

variable {l l' : Listener} {history events : List AcceptEvent}

/-- A handler keeps what holds when an accept is issued. -/
theorem issuing_handleAccpetResult (h : l.Issuing history) (attempt : UnixAttempt) :
    (handleAccpetResult l attempt).state.Issuing
      (history ++ (handleAccpetResult l attempt).observed) := by
  cases attempt with
  | failed status => exact ⟨h.started, h.pending, h.holds.append rfl⟩
  | accepted socket authenticated =>
    cases authenticated with
    | true => exact ⟨h.started, h.pending, h.holds.addSocket rfl⟩
    | false => exact ⟨h.started, h.pending, h.holds.append rfl⟩

theorem again_handleAccpetResult (l : Listener) (attempt : UnixAttempt) :
    (handleAccpetResult l attempt).again = !attempt.isFailed := by
  cases attempt with
  | failed status => rfl
  | accepted socket authenticated => cases authenticated <;> rfl

/-- Assumes: an accept loop that goes on, and no accept that fails at once. -/
theorem serving_reissue (handled : Handled Listener AcceptEvent) (hagain : handled.again = true)
    (h : handled.state.Issuing (history ++ handled.observed)) {attempts : List UnixAttempt}
    (hattempts : ∀ attempt ∈ attempts, attempt.isFailed = false) :
    let result := reissue Listener.waits handleAccpetResult handled attempts
    result.1.Serving (history ++ result.2) := by
  refine reissue_safe (I := Listener.Issuing) (J := Listener.Serving) ?_ ?_ ?_
  · exact fun l history hissuing ↦ .of_pending hissuing.started rfl hissuing.holds
  · intro attempt hmem l history hissuing
    rw [if_pos (by rw [again_handleAccpetResult, hattempts attempt hmem]; rfl)]
    exact issuing_handleAccpetResult hissuing attempt
  · rw [if_pos hagain]
    exact h

theorem stalled_reissue (handled : Handled Listener AcceptEvent) (h : handled.state.Stalled)
    {attempts : List UnixAttempt}
    (hattempts : ¬ ∀ attempt ∈ attempts, attempt.isFailed = false) :
    (reissue Listener.waits handleAccpetResult handled attempts).1.Stalled := by
  push Not at hattempts
  obtain ⟨failed, hmem, hfailed⟩ := hattempts
  refine reissue_stops (fun l attempt hstalled ↦ ?_) h (.inr ⟨failed, hmem, fun l ↦ ?_⟩)
  · cases attempt with
    | failed status => exact hstalled
    | accepted socket authenticated => cases authenticated <;> exact hstalled
  · rw [again_handleAccpetResult, Bool.eq_true_of_not_eq_false hfailed]
    rfl

/-- Assumes: a listener that serves. It does after a step exactly if no accept fails at once. -/
theorem serving_step (h : l.Serving history) {a : UnixAcceptAction}
    (hstep : UnixDomainServerSocket.step l a = some (l', events)) :
    (Rearms l a → l'.Serving (history ++ events)) ∧ (¬ Rearms l a → l'.Stalled) := by
  cases a with
  | start attempts =>
    simp only [UnixDomainServerSocket.step] at hstep
    split_ifs at hstep with hstarted
    have hissuing := h.issuing_started hstarted
    have hresult := Option.some.inj hstep
    constructor
    · intro hguard
      have hserving := serving_reissue { state := { l with started := true }, again := true } rfl
        (by rwa [List.append_nil]) hguard
      rwa [hresult] at hserving
    · intro hguard
      have hstalled := stalled_reissue { state := { l with started := true }, again := true }
        hissuing.stalled hguard
      rwa [hresult] at hstalled
  | accepted first attempts =>
    simp only [UnixDomainServerSocket.step] at hstep
    split_ifs at hstep with hpending
    have hissuing := issuing_handleAccpetResult (h.issuing_ended hpending) first
    have hresult := Option.some.inj hstep
    constructor
    · intro hguard
      have hserving := serving_reissue (onAccept l.ended first) rfl hissuing hguard
      rwa [hresult] at hserving
    · intro hguard
      have hstalled := stalled_reissue (onAccept l.ended first) hissuing.stalled hguard
      rwa [hresult] at hstalled

end UnixDomainServerSocket

/-! ### Accept loops -/

instance (t : TcpAccepting) (l : Listener) : (a : TcpAcceptAction) → Decidable (t.Rearms l a)
  | .start attempts =>
    inferInstanceAs (Decidable (∀ attempt ∈ t.issuedFirst attempts, t.allowed false attempt = true))
  | .accepted first attempts =>
    inferInstanceAs (Decidable (∀ attempt ∈ first :: attempts, t.allowed true attempt = true))
  | .handshaken _ _ => isTrue trivial
  | .rosHandshaken _ _ => isTrue trivial

/-- In every run of a TCP channel whose accepts all end as they are allowed to, once it was started
an accept or a handshake is waited for, and the accepted sockets are those that succeeded, each as
often as it did; after a step with an accept that is not allowed to end as it does, nothing is
waited for. An accept loop without SSL allows failures only, and the accept that `Publisher::Setup`
issues must not be concluded at once. The same holds of a Unix domain socket, where no accept may
fail at once. -/
theorem accepting_until_refused (t : TcpAccepting) (l : Listener) (history : List AcceptEvent) :
    (Run (tcpAccepting t) t.Rearms l history →
      l.Serves history ∧ ∀ a l' events, t.step l a = some (l', events) → ¬ t.Rearms l a →
        ¬ l'.Serves (history ++ events)) ∧
    (Run unixAccepting UnixDomainServerSocket.Rearms l history →
      l.Serves history ∧ ∀ a l' events, UnixDomainServerSocket.step l a = some (l', events) →
        ¬ UnixDomainServerSocket.Rearms l a → ¬ l'.Serves (history ++ events)) := by
  constructor
  · intro run
    have hserving : t.Serving l history := by
      refine run.invariant ?_ ?_
      · rintro l rfl
        exact ⟨.of_initial, fun _ hpending ↦ by cases hpending⟩
      · exact fun l a l' history events _ h hguard hstep ↦ h.step hguard hstep
    refine ⟨hserving.serving.serves, fun a l' events hstep hguard ↦ ?_⟩
    exact (hserving.stalls hguard hstep).not_serves _
  · intro run
    have hserving : l.Serving history := by
      refine run.invariant ?_ ?_
      · rintro l rfl
        exact .of_initial
      · intro l a l' history events _ h hguard hstep
        exact (UnixDomainServerSocket.serving_step h hstep).1 hguard
    refine ⟨hserving.serves, fun a l' events hstep hguard ↦ ?_⟩
    exact ((UnixDomainServerSocket.serving_step hserving hstep).2 hguard).not_serves _

namespace Scenario

/-- No descriptor is left for another socket. -/
def noDescriptor : Status := networkError "net::ERR_INSUFFICIENT_RESOURCES"

/-- An accept loop with SSL: the first handshake takes its time, a second connection is there when
it is done, and a further accept fails. -/
def sslConnections : List TcpAcceptAction :=
  [.start [], .accepted (.accepted 1 none) [],
    .handshaken .OK [.accepted 2 (some .OK), .failed noDescriptor]]

/-- One connection is refused, and one is accepted at once after it. -/
def unixConnections : List UnixAcceptAction :=
  [.start [], .accepted (.accepted 1 false) [.accepted 2 true]]

end Scenario

/-- Two connections with SSL, and one of two over a Unix domain socket. -/
theorem accepting_until_refused_of_connections :
    (∃ l history, Run (tcpAccepting ⟨true, .acceptLoop⟩) (TcpAccepting.Rearms ⟨true, .acceptLoop⟩)
      l history ∧ l.acceptedSockets = [1, 2] ∧ l.Serves history) ∧
    ∃ l history, Run unixAccepting UnixDomainServerSocket.Rearms l history ∧
      l.acceptedSockets = [2] ∧ l.Serves history := by
  constructor
  · have hexec : ((tcpAccepting ⟨true, .acceptLoop⟩).exec (TcpAccepting.Rearms ⟨true, .acceptLoop⟩)
        {} [] Scenario.sslConnections).map (·.1.acceptedSockets) = some [1, 2] := by
      decide
    obtain ⟨⟨l, history⟩, hrun, hsockets⟩ := Option.map_eq_some_iff.mp hexec
    have run := (Run.start rfl).of_exec hrun
    exact ⟨l, history, run, hsockets, ((accepting_until_refused _ l history).1 run).1⟩
  · have hexec : (unixAccepting.exec UnixDomainServerSocket.Rearms {} []
        Scenario.unixConnections).map (·.1.acceptedSockets) = some [2] := by
      decide
    obtain ⟨⟨l, history⟩, hrun, hsockets⟩ := Option.map_eq_some_iff.mp hexec
    have run := (Run.start rfl).of_exec hrun
    have hserves := (accepting_until_refused ⟨true, .acceptLoop⟩ l history).2 run
    exact ⟨l, history, run, hsockets, hserves.1⟩

/-- Assumes: an execution after which nothing is waited for. -/
theorem not_serves_of_exec {α : Type} {T : TransitionSystem Listener α AcceptEvent}
    (hinitial : T.Initial {}) (as : List α)
    (h : (T.exec unguarded {} [] as).map (fun result ↦ (result.1.started, result.1.pending)) =
      some (true, none)) : ¬ ∀ l history, Run T unguarded l history → l.Serves history := by
  intro hserves
  obtain ⟨⟨l, history⟩, hrun, heq⟩ := Option.map_eq_some_iff.mp h
  obtain ⟨hstarted, hpending⟩ := Prod.mk.inj heq
  exact Listener.Stalled.not_serves ⟨hstarted, hpending⟩ history
    (hserves l history ((Run.start hinitial).of_exec hrun))

/-- A connection is accepted in an accept loop without SSL; an accept on a Unix domain socket fails
at once; and a connection is there when a publisher sets its channel up. -/
theorem accept_loops_stall :
    (¬ ∀ l history, Run (tcpAccepting ⟨false, .acceptLoop⟩) unguarded l history →
      l.Serves history) ∧
    (¬ ∀ l history, Run unixAccepting unguarded l history → l.Serves history) ∧
    ¬ ∀ l history, Run (tcpAccepting ⟨false, .publisher false⟩) unguarded l history →
      l.Serves history := by
  refine ⟨?_, ?_, ?_⟩
  · exact not_serves_of_exec rfl [.start [], .accepted (.accepted 1 none) []] (by decide)
  · exact not_serves_of_exec rfl [.start [.failed Scenario.noDescriptor]] (by decide)
  · exact not_serves_of_exec rfl [.start [.accepted 1 none]] (by decide)

end Felicia
