import Felicia.Channel.WebSocketRequest
import Felicia.Support.Obligations
import Felicia.Support.Transition

/-!
# The handshake of a WebSocket server

`WebSocketServer` of `felicia/core/channel/socket/web_socket_server.cc` and the
`WebSocket::HandshakeHandler` it has. The server accepts one socket at a time and lets the handler
read the request, answer it and report with `OnHandshaked`; then it accepts the next one. The
handler answers a request that takes too long with an error.

Two things go wrong. The timeout answers while the read is still pending, and if its response has to
wait, the read may end first and lead to a second response. And `OnWriteResponse` does not look at
how the write went, so a socket is handed over although the response that says so was not written,
or not all of it.

`handshaked_once_iff` says that nothing else does: `OnHandshaked` is called once for each accepted
socket, one response is sent to it, and it is handed over exactly when that response was written, in
every run in which no read ends after the timeout and every accepting response is written whole; and
the first step that is not of this kind breaks it.
-/

set_option autoImplicit false
set_option relaxedAutoImplicit false

namespace Felicia

open Support TransitionSystem

/-! ### Responses -/

namespace HttpStatusCode

/-- The number of a code. -/
def number : HttpStatusCode → String
  | .switchingProtocols => "101"
  | .badRequest => "400"
  | .requestTimeout => "408"
  | .internalServerError => "500"

/-- `net::GetHttpReasonPhrase`. -/
def reason : HttpStatusCode → String
  | .switchingProtocols => "Switching Protocols"
  | .badRequest => "Bad Request"
  | .requestTimeout => "Request Timeout"
  | .internalServerError => "Internal Server Error"

/-- The status that `SendError` keeps. -/
def errorStatus (code : HttpStatusCode) : Status :=
  match code with
  | .badRequest => ⟨.invalidArgument, code.reason⟩
  | .requestTimeout => ⟨.resourceExhausted, code.reason⟩
  | _ => ⟨.unknown, code.reason⟩

end HttpStatusCode

namespace HandshakeReply

/-- The code that is sent. -/
def code : HandshakeReply → HttpStatusCode
  | .ok _ _ => .switchingProtocols
  | .error code => code

/-- It is the response that accepts. -/
def accepts : HandshakeReply → Bool
  | .ok _ _ => true
  | .error _ => false

/-- What is kept in `status_`. -/
def status : HandshakeReply → Status
  | .ok _ _ => .OK
  | .error code => code.errorStatus

/-- The text that `SendOK` or `SendError` writes. -/
def response : HandshakeReply → String
  | .ok key extension =>
    "HTTP/1.1 101 Switching Protocols\r\nConnection: Upgrade\r\nUpgrade: websocket\r\n" ++
      "Sec-WebSocket-Accept: " ++ cStr key ++ "\r\n" ++
      (if extension ≠ "" then "Sec-WebSocket-Extensions: " ++ cStr extension ++ "\r\n" else "") ++
      "\r\n"
  | .error code =>
    "HTTP/1.1 " ++ code.number ++ " " ++ code.reason ++
      "\r\nConnection: close\r\nContent-Type: text/plain\r\nContent-Length: " ++
      toString code.reason.length ++ "\r\n\r\n" ++ code.reason

end HandshakeReply

/-- What came of the loop of `WriteResponse`. -/
inductive ResponseWrite
  /-- A call has to wait, with this much left to write. -/
  | waits (left : ℕ)
  /-- `OnWriteResponse` is called, with this much left. -/
  | ends (left : ℕ)
  deriving DecidableEq

/-- `OnWriteResponse` is called before everything was written. -/
def ResponseWrite.isShort : ResponseWrite → Bool
  | .waits _ => false
  | .ends left => left ≠ 0

/-- The loop of `HandshakeHandler::WriteResponse`, on the calls of `Write` that end at once. When
there are no more of them, the next one has to wait. -/
def writeResponse (left : ℕ) : List (Completion NetError) → ResponseWrite
  | [] => .waits left
  | completion :: rest =>
    let rv := result left completion
    let left := left - completion.count left
    if left = 0 ∨ rv ≤ 0 then .ends left else writeResponse left rest

/-! ### The server and its handler -/

/-- A response that is being written. -/
structure PendingResponse where
  reply : HandshakeReply
  left : ℕ
  deriving DecidableEq

/-- `WebSocketServer`, with its `HandshakeHandler`. Sockets are known by a number. -/
structure WebSocketServer where
  /-- `AcceptLoop` was called. -/
  isStarted : Bool := false
  /-- `AcceptOnceIntercept` is waited for. -/
  accepting : Bool := false
  /-- `socket_` of the handler. -/
  socket : Option ℕ := none
  status : Status := .OK
  /-- `timeout_` is set and was not cancelled. -/
  timeout : Bool := false
  /-- A `Read` of the handler is waited for. -/
  reading : Bool := false
  /-- A `Write` of the handler is waited for. -/
  writing : Option PendingResponse := none
  deriving DecidableEq

/-- What is seen of a server. -/
inductive WebSocketServerEvent
  /-- `accept_callback_` is run with an error. -/
  | acceptFailed (s : Status)
  /-- `HandshakeHandler::Handle`. -/
  | handled (socket : ℕ)
  /-- A response is sent to `socket_`. -/
  | responded (socket : Option ℕ) (code : HttpStatusCode)
  /-- `OnHandshaked` for `socket_`, with the socket or the error, and whether the accepting response
  was written whole. -/
  | handshaked (socket : Option ℕ) (s : Status) (isWhole : Bool)
  deriving DecidableEq

/-- What can happen next. The writes of an action are those that end at once. -/
inductive WebSocketServerAction
  | acceptLoop
  | onAcceptFailed (s : Status)
  /-- A socket is accepted. Its first read may end at once. -/
  | onAccept (socket : ℕ) (read : Option (Except NetError (List UInt8)))
      (writes : List (Completion NetError))
  | onReadHeader (read : Except NetError (List UInt8)) (writes : List (Completion NetError))
  | onTimeout (writes : List (Completion NetError))
  | onWriteResponse (completion : Completion NetError)

namespace WebSocketServer

variable (env : HandshakeEnv) (server : WebSocketServer)

/-- `HandshakeHandler::OnWriteResponse`, and `WebSocketServer::OnHandshaked`. A socket that is not
handed over is destroyed, with what is waited for on it. -/
def onWriteResponse (isWhole : Bool) : WebSocketServer × List WebSocketServerEvent :=
  if server.status.isOk then
    ({ server with socket := none, accepting := true },
      [.handshaked server.socket server.status isWhole])
  else
    ({ server with socket := none, accepting := true, reading := false, writing := none },
      [.handshaked server.socket server.status isWhole])

/-- `HandshakeHandler::SendOK` or `SendError`, and `WriteResponse`. -/
def send (reply : HandshakeReply) (writes : List (Completion NetError)) :
    WebSocketServer × List WebSocketServerEvent :=
  let server := { server with timeout := false, status := reply.status }
  match writeResponse reply.response.length writes with
  | .waits left =>
    ({ server with writing := some ⟨reply, left⟩ }, [.responded server.socket reply.code])
  | .ends left =>
    let ended := server.onWriteResponse (reply.accepts && left = 0)
    (ended.1, .responded server.socket reply.code :: ended.2)

/-- A decision is sent, if there is one. -/
def decided (decision : HeaderDecision) (writes : List (Completion NetError)) :
    Option (WebSocketServer × List WebSocketServerEvent) :=
  decision.reply.map fun reply ↦ server.send reply writes

/-- `HandshakeHandler::Handle`, up to its read. -/
def handle (socket : ℕ) : WebSocketServer :=
  { server with accepting := false, socket := some socket, timeout := true }

/-- `WebSocketServer::OnAccept` with a socket, and `HandshakeHandler::Handle`. -/
def onAccept (socket : ℕ) (read : Option (Except NetError (List UInt8)))
    (writes : List (Completion NetError)) :
    Option (WebSocketServer × List WebSocketServerEvent) :=
  if server.accepting ∧ server.socket = none then
    match read with
    | none => some ({ server.handle socket with reading := true }, [.handled socket])
    | some read =>
      ((server.handle socket).decided
        (env.readHeader [] (read.map fun bytes ↦ bytes.take kHeaderSize)) writes).map
        fun result ↦ (result.1, .handled socket :: result.2)
  else none

def step : WebSocketServerAction → Option (WebSocketServer × List WebSocketServerEvent)
  | .acceptLoop =>
    if server.isStarted then none
    else some ({ server with isStarted := true, accepting := true }, [])
  | .onAcceptFailed s => if server.accepting then some (server, [.acceptFailed s]) else none
  | .onAccept socket read writes => server.onAccept env socket read writes
  | .onReadHeader read writes =>
    if server.reading then
      ({ server with reading := false } : WebSocketServer).decided
        (env.onReadHeader [] (read.map fun bytes ↦ bytes.take kHeaderSize)) writes
    else none
  | .onTimeout writes =>
    if server.timeout then some (server.send (.error .requestTimeout) writes) else none
  | .onWriteResponse completion =>
    server.writing.map fun response ↦
      ({ server with writing := none } : WebSocketServer).onWriteResponse
        (response.reply.accepts && completion.count response.left = response.left)

end WebSocketServer

/-- A server from its construction on. -/
def webSocketServing (env : HandshakeEnv) :
    TransitionSystem WebSocketServer WebSocketServerAction WebSocketServerEvent where
  Initial server := server = {}
  step server a := server.step env a

/-! ### What is owed to a socket -/

/-- The calls of `OnHandshaked`. -/
def handshakeLedger : Ledger WebSocketServer WebSocketServerEvent (Option ℕ) where
  issued
    | .handled socket => some (some socket)
    | _ => none
  settled
    | .handshaked socket _ _ => some socket
    | _ => none
  held server :=
    match server.socket with
    | some socket => {some socket}
    | none => 0

/-- The responses. One is owed as long as the timeout is set. -/
def responseLedger : Ledger WebSocketServer WebSocketServerEvent (Option ℕ) where
  issued
    | .handled socket => some (some socket)
    | _ => none
  settled
    | .responded socket _ => some socket
    | _ => none
  held server := if server.timeout then {server.socket} else 0

/-- A socket is handed over exactly when the response that says so was written whole. -/
def WebSocketServerEvent.IsRight : WebSocketServerEvent → Prop
  | .handshaked _ s isWhole => s.isOk = isWhole
  | _ => True

namespace WebSocketServer

/-- Either an accept is waited for or a handshake is in progress, and the latter waits for its read
with the timeout set, or for the write of its response. -/
@[mk_iff] structure Waits (server : WebSocketServer) : Prop where
  accepting : server.accepting = true ↔ server.isStarted = true ∧ server.socket = none
  handshaking : ∀ socket ∈ server.socket, server.isStarted = true ∧
    (server.timeout = true ∧ server.reading = true ∧ server.writing = none ∨
      server.timeout = false ∧ server.writing.isSome = true)
  idle : server.socket = none →
    server.timeout = false ∧ server.reading = false ∧ server.writing = none
  status : ∀ response ∈ server.writing, server.status.isOk = response.reply.accepts ∧
    (response.reply.accepts = true → server.reading = false)

/-- `OnHandshaked` was called once for each accepted socket, or the handshake is in progress; one
response was sent to each, or has yet to be; and a socket was handed over exactly when the response
that says so was written. -/
structure Handshaken (server : WebSocketServer) (history : List WebSocketServerEvent) : Prop where
  handshakes : handshakeLedger.Balanced server history
  responses : responseLedger.Balanced server history
  right : ∀ e ∈ history, e.IsRight
  waits : server.Waits

/-- An accepting response, if this is one, is not cut short. -/
def WritesWhole (decision : HeaderDecision) (writes : List (Completion NetError)) : Prop :=
  ∀ reply ∈ decision.reply, reply.accepts = true →
    (writeResponse reply.response.length writes).isShort = false

instance (decision : HeaderDecision) (writes : List (Completion NetError)) :
    Decidable (WritesWhole decision writes) :=
  inferInstanceAs (Decidable (∀ reply ∈ decision.reply, reply.accepts = true →
    (writeResponse reply.response.length writes).isShort = false))

/-- No read ends while the response of the timeout is being written, and every accepting response is
written whole. -/
def Clean (env : HandshakeEnv) (server : WebSocketServer) : WebSocketServerAction → Prop
  | .onAccept _ (some read) writes =>
    WritesWhole (env.readHeader [] (read.map fun bytes ↦ bytes.take kHeaderSize)) writes
  | .onReadHeader read writes => server.writing = none ∧
    WritesWhole (env.onReadHeader [] (read.map fun bytes ↦ bytes.take kHeaderSize)) writes
  | .onWriteResponse completion => ∀ response ∈ server.writing,
    response.reply.accepts = true → completion.count response.left = response.left
  | _ => True

instance (env : HandshakeEnv) (server : WebSocketServer) : DecidablePred (server.Clean env)
  | .onAccept _ (some read) writes => inferInstanceAs (Decidable
    (WritesWhole (env.readHeader [] (read.map fun bytes ↦ bytes.take kHeaderSize)) writes))
  | .onReadHeader read writes => inferInstanceAs (Decidable (server.writing = none ∧
    WritesWhole (env.onReadHeader [] (read.map fun bytes ↦ bytes.take kHeaderSize)) writes))
  | .onWriteResponse completion => inferInstanceAs (Decidable (∀ response ∈ server.writing,
    response.reply.accepts = true → completion.count response.left = response.left))
  | .acceptLoop | .onAcceptFailed _ | .onAccept _ none _ | .onTimeout _ => isTrue trivial

/-! ### What a step keeps -/

variable {env : HandshakeEnv} {server : WebSocketServer} {a : WebSocketServerAction}
  {history : List WebSocketServerEvent} {result : WebSocketServer × List WebSocketServerEvent}

/-- What a step has to keep. -/
def KeepsHandshakes (server : WebSocketServer)
    (result : WebSocketServer × List WebSocketServerEvent) : Prop :=
  (handshakeLedger.Keeps server result ∧ responseLedger.Keeps server result) ∧
    (∀ e ∈ result.2, e.IsRight) ∧ result.1.Waits

/-- Assumes: a server whose accounts are right. -/
theorem handshaken_append_iff (h : server.Handshaken history) {server' : WebSocketServer}
    {events : List WebSocketServerEvent} :
    server'.Handshaken (history ++ events) ↔ KeepsHandshakes server (server', events) := by
  constructor
  · intro ⟨hhandshakes, hresponses, hright, hwaits⟩
    exact ⟨⟨h.handshakes.append_iff.mp hhandshakes, h.responses.append_iff.mp hresponses⟩,
      (List.forall_mem_append.mp hright).2, hwaits⟩
  · intro ⟨⟨hhandshakes, hresponses⟩, hright, hwaits⟩
    exact ⟨h.handshakes.append_iff.mpr hhandshakes, h.responses.append_iff.mpr hresponses,
      List.forall_mem_append.mpr ⟨h.right, hright⟩, hwaits⟩

theorem isOk_status (reply : HandshakeReply) : reply.status.isOk = reply.accepts := by
  cases reply with
  | ok key extension => rfl
  | error code => cases code <;> rfl

/-- Assumes: something that only a handshake waits for. -/
theorem Waits.exists_socket (h : server.Waits)
    (hbusy : ¬ (server.timeout = false ∧ server.reading = false ∧ server.writing = none)) :
    ∃ socket, server.socket = some socket ∧ server.isStarted = true ∧
      server.accepting = false := by
  obtain ⟨socket, hsocket⟩ := Option.ne_none_iff_exists'.mp (mt h.idle hbusy)
  refine ⟨socket, hsocket, (h.handshaking socket hsocket).1, ?_⟩
  rw [Bool.eq_false_iff, ne_eq, h.accepting, hsocket]
  simp

section

-- The accounts of a step whose events and states are known are computed.
attribute [local simp] KeepsHandshakes Ledger.Keeps Ledger.settles Ledger.issues handshakeLedger
  responseLedger WebSocketServerEvent.IsRight waits_iff

/-- Assumes: a handshake in progress that was not answered. Answering it goes right unless the
accepting response is cut short. -/
theorem keeps_send_iff (before server : WebSocketServer) {socket : ℕ}
    (hbefore : before.socket = some socket) (htimeout : before.timeout = true)
    (hstarted : server.isStarted = true) (haccepting : server.accepting = false)
    (hsocket : server.socket = some socket) (hwriting : server.writing = none)
    {reply : HandshakeReply} (hreading : reply.accepts = true → server.reading = false)
    (writes : List (Completion NetError)) :
    KeepsHandshakes before (server.send reply writes) ↔
      (reply.accepts = true → (writeResponse reply.response.length writes).isShort = false) := by
  have hok := isOk_status reply
  cases hwrite : writeResponse reply.response.length writes with
  | waits left =>
    simpa [send, hwrite, hbefore, htimeout, hsocket, hstarted, haccepting, hok,
      ResponseWrite.isShort] using hreading
  | ends left =>
    cases haccepts : reply.accepts with
    | false =>
      simp [send, hwrite, onWriteResponse, hbefore, htimeout, hsocket, hstarted, hok, haccepts]
    | true =>
      simp [send, hwrite, onWriteResponse, hbefore, htimeout, hsocket, hstarted, hok, haccepts,
        hwriting, hreading haccepts, ResponseWrite.isShort]

/-- A second response is one too many. -/
theorem not_keeps_send {before : WebSocketServer} (htimeout : before.timeout = false)
    (reply : HandshakeReply) (writes : List (Completion NetError)) :
    ¬ KeepsHandshakes before (server.send reply writes) := by
  have hok := isOk_status reply
  cases hwrite : writeResponse reply.response.length writes with
  | waits left => simp [send, hwrite, htimeout]
  | ends left =>
    cases haccepts : reply.accepts <;>
      simp [send, hwrite, onWriteResponse, htimeout, hok, haccepts]

theorem keeps_onWriteResponse_iff (h : server.Waits) {response : PendingResponse}
    (hwriting : server.writing = some response) (isWhole : Bool) :
    KeepsHandshakes server (({ server with writing := none } : WebSocketServer).onWriteResponse
      (response.reply.accepts && isWhole)) ↔
      (response.reply.accepts = true → isWhole = true) := by
  obtain ⟨hstatus, hreading⟩ := h.status response hwriting
  obtain ⟨socket, hsocket, hstarted, -⟩ := h.exists_socket (by simp [hwriting])
  have htimeout : server.timeout = false := by
    simpa [hwriting] using (h.handshaking socket hsocket).2
  cases haccepts : response.reply.accepts with
  | false =>
    rw [haccepts] at hstatus
    simp [onWriteResponse, hstatus, hsocket, hstarted, htimeout]
  | true =>
    rw [haccepts] at hstatus
    simp [onWriteResponse, hstatus, hsocket, hstarted, htimeout, hreading haccepts]

/-- A socket is accepted. -/
theorem keeps_handle (h : server.Waits) (haccepting : server.accepting = true) (socket : ℕ) :
    handshakeLedger.Keeps server (server.handle socket, [.handled socket]) ∧
      responseLedger.Keeps server (server.handle socket, [.handled socket]) := by
  obtain ⟨-, hsocket⟩ := h.accepting.mp haccepting
  simp [handle, hsocket, (h.idle hsocket).1]

end

/-- Accepting a socket and then going on with it. -/
theorem keeps_handled_iff (h : server.Waits) (haccepting : server.accepting = true) (socket : ℕ) :
    KeepsHandshakes server (result.1, .handled socket :: result.2) ↔
      KeepsHandshakes (server.handle socket) result := by
  obtain ⟨hhandshake, hresponse⟩ := keeps_handle h haccepting socket
  have hhandshakes : handshakeLedger.Keeps server (result.1, .handled socket :: result.2) ↔
      handshakeLedger.Keeps (server.handle socket) result := hhandshake.append_iff
  have hresponses : responseLedger.Keeps server (result.1, .handled socket :: result.2) ↔
      responseLedger.Keeps (server.handle socket) result := hresponse.append_iff
  rw [KeepsHandshakes, KeepsHandshakes, hhandshakes, hresponses]
  simp [WebSocketServerEvent.IsRight]

theorem keeps_onAccept_iff (h : server.Waits) {socket : ℕ}
    {read : Option (Except NetError (List UInt8))} {writes : List (Completion NetError)}
    (hstep : server.onAccept env socket read writes = some result) :
    KeepsHandshakes server result ↔ server.Clean env (.onAccept socket read writes) := by
  unfold onAccept at hstep
  split_ifs at hstep with haccept
  obtain ⟨haccepting, hsocket⟩ := haccept
  obtain ⟨hstarted, -⟩ := h.accepting.mp haccepting
  obtain ⟨-, hreading, hwriting⟩ := h.idle hsocket
  cases read with
  | none =>
    cases hstep
    obtain ⟨hhandshake, hresponse⟩ := keeps_handle h haccepting socket
    refine iff_of_true ⟨⟨hhandshake, hresponse⟩, by simp [WebSocketServerEvent.IsRight], ?_⟩ trivial
    simp [waits_iff, handle, hstarted, hwriting]
  | some read =>
    obtain ⟨sent, hsent, rfl⟩ := Option.map_eq_some_iff.mp hstep
    obtain ⟨reply, hreply, rfl⟩ := Option.map_eq_some_iff.mp hsent
    have hsend := keeps_send_iff (server.handle socket) (server.handle socket) rfl rfl hstarted
      rfl rfl hwriting (fun _ : reply.accepts = true ↦ hreading) writes
    rw [keeps_handled_iff h haccepting, hsend]
    simp [Clean, WritesWhole, hreply]

theorem keeps_onReadHeader_iff (h : server.Waits) {read : Except NetError (List UInt8)}
    {writes : List (Completion NetError)}
    (hstep : server.step env (.onReadHeader read writes) = some result) :
    KeepsHandshakes server result ↔ server.Clean env (.onReadHeader read writes) := by
  simp only [step] at hstep
  split_ifs at hstep with hreading
  obtain ⟨reply, hreply, rfl⟩ := Option.map_eq_some_iff.mp hstep
  obtain ⟨socket, hsocket, hstarted, haccepting⟩ := h.exists_socket (by simp [hreading])
  rcases (h.handshaking socket hsocket).2 with ⟨htimeout, -, hwriting⟩ | ⟨htimeout, hwriting⟩
  · have hsend := keeps_send_iff server { server with reading := false } hsocket htimeout
      hstarted haccepting hsocket hwriting (fun _ : reply.accepts = true ↦ rfl) writes
    rw [hsend]
    simp [Clean, WritesWhole, hreply, hwriting]
  · -- The timeout has answered already.
    refine iff_of_false (not_keeps_send htimeout reply writes) fun hclean ↦ ?_
    simp [hclean.1] at hwriting

theorem keeps_onTimeout (h : server.Waits) (htimeout : server.timeout = true)
    (writes : List (Completion NetError)) :
    KeepsHandshakes server (server.send (.error .requestTimeout) writes) := by
  obtain ⟨socket, hsocket, hstarted, haccepting⟩ := h.exists_socket (by simp [htimeout])
  have hpending : server.reading = true ∧ server.writing = none := by
    simpa [htimeout] using (h.handshaking socket hsocket).2
  refine (keeps_send_iff server server hsocket htimeout hstarted haccepting hsocket hpending.2 ?_
    writes).mpr ?_
  · exact fun haccepts ↦ by cases haccepts
  · exact fun haccepts ↦ by cases haccepts

/-- The step lemma. -/
theorem keepsHandshakes_step_iff (h : server.Waits) (hstep : server.step env a = some result) :
    KeepsHandshakes server result ↔ server.Clean env a := by
  cases a with
  | acceptLoop =>
    simp only [step] at hstep
    split_ifs at hstep with hstarted
    cases hstep
    refine iff_of_true ⟨⟨Ledger.keeps_nil rfl, Ledger.keeps_nil rfl⟩, List.forall_mem_nil _, ?_⟩
      trivial
    have hsocket : server.socket = none := by
      refine Option.eq_none_iff_forall_not_mem.mpr fun socket hsocket ↦ ?_
      exact hstarted (h.handshaking socket hsocket).1
    exact ⟨by simp [hsocket], by simp [hsocket], h.idle, h.status⟩
  | onAcceptFailed s =>
    simp only [step] at hstep
    split_ifs at hstep
    cases hstep
    exact iff_of_true ⟨⟨Ledger.keeps_nil rfl, Ledger.keeps_nil rfl⟩,
      by simp [WebSocketServerEvent.IsRight], h⟩ trivial
  | onAccept socket read writes => exact keeps_onAccept_iff h hstep
  | onReadHeader read writes => exact keeps_onReadHeader_iff h hstep
  | onTimeout writes =>
    simp only [step] at hstep
    split_ifs at hstep with htimeout
    cases hstep
    exact iff_of_true (keeps_onTimeout h htimeout writes) trivial
  | onWriteResponse completion =>
    obtain ⟨response, hwriting, rfl⟩ := Option.map_eq_some_iff.mp hstep
    rw [keeps_onWriteResponse_iff h hwriting]
    simp [Clean, hwriting]

/-- Assumes: a run in which no read ends while the response of the timeout is being written, and
every accepting response is written whole. `OnHandshaked` was called exactly once for each accepted
socket, or its handshake is in progress; exactly one response was sent to each, or has yet to be;
the socket was handed over exactly when the response that says so was written; either an accept is
waited for or a handshake is in progress; and a further step leaves it so if and only if it is such
a step, too. -/
theorem handshaked_once_iff (env : HandshakeEnv) (server : WebSocketServer)
    (history : List WebSocketServerEvent)
    (run : Run (webSocketServing env) (Clean env) server history) :
    server.Handshaken history ∧
    ∀ a server' events, server.step env a = some (server', events) →
      (server'.Handshaken (history ++ events) ↔ server.Clean env a) := by
  have hinv : server.Handshaken history := by
    refine run.invariant (I := Handshaken) ?_ ?_
    · rintro s rfl
      exact ⟨rfl, rfl, List.forall_mem_nil _, by simp [waits_iff]⟩
    · intro s a s' history observed _ hinv hguard hstep
      have hkeeps := (keepsHandshakes_step_iff hinv.waits hstep).mpr hguard
      exact (handshaken_append_iff hinv).mpr hkeeps
  refine ⟨hinv, fun a server' events hstep ↦ ?_⟩
  rw [handshaken_append_iff hinv, keepsHandshakes_step_iff hinv.waits hstep]

end WebSocketServer

namespace Scenario

/-- The request, all of it. -/
def wholeRequest : Except NetError (List UInt8) := .ok (requestStart ++ requestRest)

/-- A request that arrives in time is answered in two writes, and the next one takes too long. -/
def handshakeAndTimeout : List WebSocketServerAction :=
  [.acceptLoop, .onAccept 0 none [], .onReadHeader wholeRequest [.moved 10],
    .onWriteResponse (.moved 1000), .onAccept 1 none [], .onTimeout [.moved 1000]]

/-- The request arrives while the response of the timeout is being written. -/
def requestAfterTimeout : List WebSocketServerAction :=
  [.acceptLoop, .onAccept 0 none [], .onTimeout [], .onReadHeader wholeRequest [.moved 1000],
    .onWriteResponse (.moved 1000)]

/-- The response to a request is not written. -/
def responseNotWritten : List WebSocketServerAction :=
  [.acceptLoop, .onAccept 0 (some wholeRequest)
    [.failed ⟨errConnectionReset, errConnectionReset_neg, errConnectionReset_ne⟩]]

end Scenario

namespace WebSocketServer

/-- Both sockets are reported once. -/
theorem handshaked_once_of_two :
    ∃ server history,
      Run (webSocketServing Scenario.sampleEnv) (Clean Scenario.sampleEnv) server history ∧
      handshakeLedger.settles history = {some 0, some 1} ∧
      responseLedger.settles history = {some 0, some 1} ∧ server.accepting = true := by
  have hexec : (webSocketServing Scenario.sampleEnv).exec (Clean Scenario.sampleEnv) {} []
      Scenario.handshakeAndTimeout = some
        (⟨true, true, none, ⟨.resourceExhausted, "Request Timeout"⟩, false, false, none⟩,
          [.handled 0, .responded (some 0) .switchingProtocols, .handshaked (some 0) .OK true,
            .handled 1, .responded (some 1) .requestTimeout,
            .handshaked (some 1) ⟨.resourceExhausted, "Request Timeout"⟩ false]) := by
    decide +kernel
  have run := (Run.start rfl).of_exec hexec
  obtain ⟨hinv, -⟩ := handshaked_once_iff _ _ _ run
  refine ⟨_, _, run, ?_, ?_, hinv.waits.accepting.mpr ⟨rfl, rfl⟩⟩
  · exact hinv.handshakes.settles_eq rfl
  · exact hinv.responses.settles_eq rfl

/-- When the request arrives while the response of the timeout is being written, a second response
is sent, the socket is handed over, and `OnHandshaked` is called again when the first write ends;
and a socket is handed over although nothing was written to it. -/
theorem handshaked_not_once :
    (¬ ∀ server history, Run (webSocketServing Scenario.sampleEnv) unguarded server history →
      responseLedger.Balanced server history) ∧
    (¬ ∀ server history, Run (webSocketServing Scenario.sampleEnv) unguarded server history →
      handshakeLedger.Balanced server history) ∧
    ¬ ∀ server history, Run (webSocketServing Scenario.sampleEnv) unguarded server history →
      ∀ socket s isWhole, .handshaked socket s isWhole ∈ history → s.isOk = isWhole := by
  have hlate : (webSocketServing Scenario.sampleEnv).exec unguarded {} []
      Scenario.requestAfterTimeout = some
        (⟨true, true, none, .OK, false, false, none⟩,
          [.handled 0, .responded (some 0) .requestTimeout, .responded (some 0) .switchingProtocols,
            .handshaked (some 0) .OK true, .handshaked none .OK false]) := by
    decide +kernel
  have hnothing : (webSocketServing Scenario.sampleEnv).exec unguarded {} []
      Scenario.responseNotWritten = some
        (⟨true, true, none, .OK, false, false, none⟩,
          [.handled 0, .responded (some 0) .switchingProtocols,
            .handshaked (some 0) .OK false]) := by
    decide +kernel
  refine ⟨fun hall ↦ ?_, fun hall ↦ ?_, fun hall ↦ ?_⟩
  · have hbalanced := hall _ _ ((Run.start rfl).of_exec hlate)
    revert hbalanced
    decide
  · have hbalanced := hall _ _ ((Run.start rfl).of_exec hlate)
    revert hbalanced
    decide
  · cases hall _ _ ((Run.start rfl).of_exec hnothing) (some 0) .OK false (by decide)

end WebSocketServer

end Felicia
