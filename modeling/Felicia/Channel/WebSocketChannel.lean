import Felicia.Channel.IoBuffer
import Felicia.Support.Lists
import Felicia.Support.Obligations
import Felicia.Support.Transition
import Mathlib.Data.Multiset.Range

/-!
# WebSocket channels

`WebSocketChannel` of `felicia/core/channel/socket/web_socket_channel.cc`: the frames that are read
and answered, the frames that are sent, and the closing handshake. Frames that are sent while a
write is under way wait in `data_to_send_next_` and are written together when it ends. There is one
`write_callback_`, for the one `SendFrame` that may be outstanding; pongs and close frames go
through the same buffers.

A frame of a read is handled in a step of its own: the frames of one read are handled one after the
other, and a new read is started after the last. `Close` of the stream cancels what is waited for on
it. The `DCHECK`s of `SetState`, `HandleFrameByState`, `FailChannel` and `SendFrameInternal` are
observations, and the code goes on after them as it does where they are compiled out. The states
`FRESHLY_CONSTRUCTED` and `CONNECTING` are never taken, and `pending_received_frames_` is never
filled. A call from inside a callback is a later step.

`Sends` is what every run keeps: the callback of a `SendFrame` is run once, or a write is still
waited for, and it is run with OK only after the stream accepted its frame.
-/

set_option autoImplicit false
set_option relaxedAutoImplicit false

namespace Felicia

open Support TransitionSystem

/-! ### State -/

/-- `WebSocketChannel::State`. -/
inductive WebSocketState
  | connected | sendClosed | recvClosed | closeWait | closed
  deriving DecidableEq

/-- A frame that is sent. -/
inductive OutFrame
  /-- The frame of a `SendFrame`, known by the number of the call. -/
  | data (call : ℕ)
  | pong (payload : List UInt8)
  /-- A close frame with a code and a reason, or with no payload for 1005. -/
  | close (code : ℕ) (reason : String)
  deriving DecidableEq

/-- `WebSocketChannel`. -/
structure WebSocketChannel where
  state : WebSocketState := .connected
  /-- `stream_` was not closed. -/
  isOpen : Bool := true
  dataBeingSent : Option (List OutFrame) := none
  dataToSendNext : Option (List OutFrame) := none
  /-- `WriteFrames` of the stream is waited for. -/
  writing : Bool := false
  /-- `close_timer_` is running. -/
  closeTimer : Bool := false
  hasReceivedCloseFrame : Bool := false
  receivedCloseCode : ℕ := 0
  receivedCloseReason : String := ""
  /-- The call that `write_callback_` belongs to. -/
  writeCallback : Option ℕ := none
  /-- The number of calls of `SendFrame` so far. -/
  calls : ℕ := 0
  deriving DecidableEq

/-- What is seen of a channel. -/
inductive WebSocketEvent
  /-- `SetState`. -/
  | moved (old new : WebSocketState)
  /-- A `DCHECK`. -/
  | checked (holds : Bool)
  | sendCalled (call : ℕ)
  /-- The stream accepted some frames. -/
  | written (frames : List OutFrame)
  /-- The callback of a `SendFrame` is run. -/
  | answered (call : ℕ) (result : ℤ)
  deriving DecidableEq

/-- What a function of the channel did, and whether it returned `CHANNEL_ALIVE`. -/
structure ChannelStep where
  channel : WebSocketChannel
  events : List WebSocketEvent := []
  isAlive : Bool := true
  deriving DecidableEq

namespace ChannelStep

/-- Go on with the channel. -/
def andThen (s : ChannelStep) (f : WebSocketChannel → ChannelStep) : ChannelStep where
  channel := (f s.channel).channel
  events := s.events ++ (f s.channel).events
  isAlive := (f s.channel).isAlive

/-- Go on unless `CHANNEL_DELETED` was returned. -/
def ifAlive (s : ChannelStep) (f : WebSocketChannel → ChannelStep) : ChannelStep :=
  if s.isAlive then s.andThen f else s

/-- Return `CHANNEL_DELETED`. -/
def deleted (s : ChannelStep) : ChannelStep := { s with isAlive := false }

end ChannelStep

/-- A frame that was read. -/
structure ReceivedFrame where
  opcode : ℕ
  /-- One of the reserved bits is on. -/
  isReserved : Bool := false
  payload : List UInt8 := []
  deriving DecidableEq

/-- `net::kWebSocketErrorProtocolError`. -/
def errorProtocolError : ℕ := 1002

/-- `net::kWebSocketErrorNoStatusReceived`. -/
def errorNoStatusReceived : ℕ := 1005

/-- `net::kWebSocketErrorInternalServerError`. -/
def errorInternalServerError : ℕ := 1011

/-- `net::ERR_CONNECTION_CLOSED`. -/
def errConnectionClosed : ℤ := -100

/-- `IsStrictlyValidCloseStatusCode`, for a code of 16 bits. -/
def isStrictlyValidCloseStatusCode (code : ℕ) : Bool :=
  (1000 ≤ code && code < 1006) || (1007 ≤ code && code < 1014) || (3000 ≤ code && code < 5000)

/-- `kMaximumCloseReasonLength`. -/
def kMaximumCloseReasonLength : ℕ := 123

/-- `WebSocketChannel::ParseClose`: the code and the reason, or those to fail with. A code is
refused in any case, as the validation of the text behind it is commented out. -/
def parseClose : List UInt8 → Except (ℕ × String) (ℕ × String)
  | [] => .ok (errorNoStatusReceived, "")
  | [_] => .error (errorProtocolError, "")
  | high :: low :: _ =>
    let code := high.toNat * 256 + low.toNat
    if code = 1005 ∨ code = 1006 ∨ code = 1015 then .error (errorProtocolError, "")
    else .error (errorProtocolError, "Invalid UTF-8 in Close frame")

/-! ### Steps -/

namespace WebSocketChannel

variable (c : WebSocketChannel)

/-- A `DCHECK`. -/
def check (holds : Bool) : ChannelStep := { channel := c, events := [.checked holds] }

/-- `WebSocketChannel::SetState`. -/
def setState (new : WebSocketState) : ChannelStep where
  channel := { c with state := new }
  events := [.checked (c.state ≠ new), .moved c.state new]

/-- `write_callback_` is run, if there is one. -/
def runWriteCallback (result : ℤ) : ChannelStep where
  channel := { c with writeCallback := none }
  events := c.writeCallback.toList.map (.answered · result)

/-- `stream_->Close()`. -/
def closeStream : WebSocketChannel := { c with isOpen := false, writing := false }

/-- `WebSocketChannel::DoDropChannel`. -/
def doDropChannel : ChannelStep :=
  (c.runWriteCallback errConnectionReset).andThen fun c ↦
    { channel := { c with closeTimer := false } }

/-- The end of the connection, in `OnWriteDone`, `OnReadDone` and `CloseTimeout`. -/
def closeAndDrop : ChannelStep :=
  ((c.closeStream.setState .closed).andThen doDropChannel).deleted

/-- The stream accepted `data_being_sent_`. -/
def acceptFrames : ChannelStep :=
  { channel := c, events := [.written (c.dataBeingSent.getD [])] }

/-- `data_being_sent_ = std::move(data_to_send_next_)`, or `data_being_sent_.reset()`. -/
def sendNext : WebSocketChannel :=
  { c with dataBeingSent := c.dataToSendNext, dataToSendNext := none }

/-- `OnWriteDone(true, result)`. -/
def onWriteDoneSync : Option NetError → ChannelStep
  | none => c.acceptFrames.andThen fun c ↦ c.sendNext.runWriteCallback 0
  | some _ => c.closeAndDrop

/-- `WebSocketChannel::WriteFrames`, on the writes of the stream that end at once: with OK, or with
an error. When there are no more of them, the next one has to wait. -/
def writeFrames (c : WebSocketChannel) : List (Option NetError) → ChannelStep
  | [] => { channel := { c with writing := true } }
  | result :: rest => (c.onWriteDoneSync result).ifAlive fun c ↦
    if c.dataBeingSent.isSome then c.writeFrames rest else { channel := c }

/-- `OnWriteDone(false, result)`. -/
def onWriteDone (writes : List (Option NetError)) : Option NetError → ChannelStep
  | none => ({ c with writing := false } : WebSocketChannel).acceptFrames.andThen fun c ↦
    if c.dataToSendNext.isSome then c.sendNext.writeFrames writes
    else c.sendNext.runWriteCallback 0
  | some _ => c.closeAndDrop

/-- `WebSocketChannel::SendFrameInternal`. -/
def sendFrameInternal (frame : OutFrame) (writes : List (Option NetError)) : ChannelStep :=
  (c.check (c.state = .connected ∨ c.state = .recvClosed)).andThen fun c ↦
    if c.dataBeingSent.isSome then
      { channel := { c with dataToSendNext := some (c.dataToSendNext.getD [] ++ [frame]) } }
    else ({ c with dataBeingSent := some [frame] } : WebSocketChannel).writeFrames writes

/-- `WebSocketChannel::SendClose`. -/
def sendClose (code : ℕ) (reason : String) (writes : List (Option NetError)) : ChannelStep :=
  c.sendFrameInternal (.close code reason) writes

/-- The end of `WebSocketChannel::FailChannel`. -/
def failClosing : ChannelStep :=
  (c.closeStream.setState .closed).andThen (runWriteCallback · errConnectionReset)

/-- `WebSocketChannel::FailChannel`, whose callers return `CHANNEL_DELETED`. -/
def failChannel (code : ℕ) (reason : String) (writes : List (Option NetError)) : ChannelStep :=
  ((c.check (c.state ≠ .closed)).andThen fun c ↦
    if c.state = .connected then (c.sendClose code reason writes).ifAlive failClosing
    else c.failClosing).deleted

/-- `close_timer_.Start`. -/
def startCloseTimer : ChannelStep := { channel := { c with closeTimer := true } }

/-- `WebSocketChannel::RespondToClosingHandshake`. -/
def respondToClosingHandshake (writes : List (Option NetError)) : ChannelStep :=
  (c.setState .recvClosed).andThen fun c ↦
    (c.sendClose c.receivedCloseCode c.receivedCloseReason writes).ifAlive fun c ↦
      (c.setState .closeWait).andThen startCloseTimer

/-- The close frame is remembered. -/
def receiveClose (code : ℕ) (reason : String) : WebSocketChannel :=
  { c with hasReceivedCloseFrame := true, receivedCloseCode := code, receivedCloseReason := reason }

/-- `WebSocketChannel::HandleCloseFrame`. -/
def handleCloseFrame (code : ℕ) (reason : String) (writes : List (Option NetError)) : ChannelStep :=
  match c.state with
  | .connected => (c.receiveClose code reason).respondToClosingHandshake writes
  | .sendClosed => (c.setState .closeWait).andThen fun c ↦
    c.startCloseTimer.andThen fun c ↦ { channel := c.receiveClose code reason }
  | _ => { channel := c }

/-- The `switch` of `WebSocketChannel::HandleFrameByState`. -/
def handleByOpcode (frame : ReceivedFrame) (writes : List (Option NetError)) : ChannelStep :=
  match frame.opcode with
  | 0 | 1 | 2 => { channel := c }
  | 9 =>
    if c.state = .connected then c.sendFrameInternal (.pong frame.payload) writes
    else { channel := c }
  | 10 => { channel := c }
  | 8 =>
    match parseClose frame.payload with
    | .ok (code, reason) => c.handleCloseFrame code reason writes
    | .error (code, reason) => c.failChannel code reason writes
  | _ => c.failChannel errorProtocolError "Unknown opcode" writes

/-- `WebSocketChannel::HandleFrameByState`. -/
def handleFrameByState (frame : ReceivedFrame) (writes : List (Option NetError)) : ChannelStep :=
  ((c.check (c.state ≠ .recvClosed)).andThen fun c ↦ c.check (c.state ≠ .closed)).andThen fun c ↦
    if c.state = .closeWait then c.failChannel errorProtocolError "" writes
    else c.handleByOpcode frame writes

/-- `WebSocketChannel::HandleFrame`. -/
def handleFrame (frame : ReceivedFrame) (writes : List (Option NetError)) : ChannelStep :=
  if frame.isReserved then c.failChannel errorProtocolError "Invalid reserved bit" writes
  else c.handleFrameByState frame writes

/-- `WebSocketChannel::InClosingState`. -/
def inClosingState : Bool :=
  c.state = .sendClosed || c.state = .closeWait || c.state = .closed

/-- The call of `SendFrame` is counted. -/
def countCall : ChannelStep :=
  { channel := { c with calls := c.calls + 1 }, events := [.sendCalled c.calls] }

/-- `WebSocketChannel::SendFrame`, with a binary frame. -/
def sendFrame (writes : List (Option NetError)) : ChannelStep :=
  c.countCall.andThen fun c' ↦
    if c.inClosingState then { channel := c', events := [.answered c.calls errConnectionClosed] }
    else ({ c' with writeCallback := some c.calls } : WebSocketChannel).sendFrameInternal
      (.data c.calls) writes

/-- The code and the reason that `WebSocketChannel::StartClosingHandshake` sends. -/
def closeToSend (code : ℕ) (reason : String) : ℕ × String :=
  if !isStrictlyValidCloseStatusCode code || kMaximumCloseReasonLength < reason.utf8ByteSize then
    (errorInternalServerError, "")
  else (code, reason)

/-- `WebSocketChannel::StartClosingHandshake`. -/
def startClosingHandshake (code : ℕ) (reason : String) (writes : List (Option NetError)) :
    ChannelStep :=
  if c.inClosingState then { channel := c }
  else if c.hasReceivedCloseFrame then c.respondToClosingHandshake writes
  else c.startCloseTimer.andThen fun c ↦
    (c.sendClose (closeToSend code reason).1 (closeToSend code reason).2 writes).ifAlive
      (setState · .sendClosed)

/-- `WebSocketChannel::CloseTimeout`. -/
def closeTimeout : ChannelStep := ({ c with closeTimer := false } : WebSocketChannel).closeAndDrop

end WebSocketChannel

/-- What can happen next. The writes of an action are those that end at once. -/
inductive WebSocketAction
  | sendFrame (writes : List (Option NetError))
  | startClosingHandshake (code : ℕ) (reason : String) (writes : List (Option NetError))
  /-- A frame was read. -/
  | handleFrame (frame : ReceivedFrame) (writes : List (Option NetError))
  /-- A read ends with `ERR_WS_PROTOCOL_ERROR`. -/
  | onReadProtocolError (writes : List (Option NetError))
  /-- A read ends with another error. -/
  | onReadError
  | onWriteDone (result : Option NetError) (writes : List (Option NetError))
  | closeTimeout

def WebSocketAction.isSendFrame : WebSocketAction → Bool
  | .sendFrame _ => true
  | _ => false

/-- What is done, where it can happen: reads and writes end on an open stream only, and there is at
most one `SendFrame` outstanding. -/
def WebSocketChannel.act (c : WebSocketChannel) : WebSocketAction → Option ChannelStep
  | .sendFrame writes => if c.writeCallback = none then some (c.sendFrame writes) else none
  | .startClosingHandshake code reason writes =>
    some (c.startClosingHandshake code reason writes)
  | .handleFrame frame writes => if c.isOpen then some (c.handleFrame frame writes) else none
  | .onReadProtocolError writes =>
    if c.isOpen then some (c.failChannel errorProtocolError "WebSocket Protocol Error" writes)
    else none
  | .onReadError => if c.isOpen then some c.closeAndDrop else none
  | .onWriteDone result writes =>
    if c.writing then some (c.onWriteDone writes result) else none
  | .closeTimeout => if c.closeTimer then some c.closeTimeout else none

/-- A channel from its construction on. -/
def webSocketing : TransitionSystem WebSocketChannel WebSocketAction WebSocketEvent where
  Initial c := c = {}
  step c a := (c.act a).map fun s ↦ (s.channel, s.events)

/-! ### Writing and the closing handshake -/

/-- A transition that the closing handshake has. -/
def WebSocketState.CanMove : WebSocketState → WebSocketState → Prop
  | .connected, .sendClosed | .connected, .recvClosed | .sendClosed, .closeWait
  | .recvClosed, .closeWait => True
  | old, .closed => old ≠ .closed
  | _, _ => False

/-- No `DCHECK` fails, and the state moves only as it should. -/
def WebSocketEvent.Orderly : WebSocketEvent → Prop
  | .moved old new => old.CanMove new
  | .checked holds => holds = true
  | _ => True

namespace WebSocketChannel

/-- A write leaves the state, the timer and the stream as they are. -/
structure Stays (c : WebSocketChannel) (s : ChannelStep) : Prop where
  isAlive : s.isAlive = true
  state : s.channel.state = c.state
  isOpen : s.channel.isOpen = c.isOpen
  closeTimer : s.channel.closeTimer = c.closeTimer
  orderly : ∀ e ∈ s.events, e.Orderly

/-- The connection ends. -/
structure Drops (c : WebSocketChannel) (s : ChannelStep) : Prop where
  isAlive : s.isAlive = false
  state : s.channel.state = .closed
  isOpen : s.channel.isOpen = false
  closeTimer : s.channel.closeTimer = false
  orderly : c.state ≠ .closed → ∀ e ∈ s.events, e.Orderly

variable {c : WebSocketChannel}

theorem orderly_runWriteCallback (c : WebSocketChannel) (result : ℤ) :
    ∀ e ∈ (c.runWriteCallback result).events, e.Orderly := by
  intro e he
  obtain ⟨call, -, rfl⟩ := List.mem_map.mp he
  trivial

theorem orderly_failClosing (hstate : c.state ≠ .closed) :
    ∀ e ∈ c.failClosing.events, e.Orderly := by
  have hmove : c.state.CanMove .closed := by
    cases hc : c.state <;> simp_all [WebSocketState.CanMove]
  refine List.forall_mem_append.mpr ⟨?_, orderly_runWriteCallback _ errConnectionReset⟩
  simp [setState, closeStream, WebSocketEvent.Orderly, hstate, hmove]

theorem closeAndDrop_eq (c : WebSocketChannel) : c.closeAndDrop =
    (c.failClosing.andThen fun c ↦ { channel := { c with closeTimer := false } }).deleted := by
  simp only [closeAndDrop, failClosing, doDropChannel, ChannelStep.andThen, List.append_assoc]

theorem drops_closeAndDrop (c : WebSocketChannel) : c.Drops c.closeAndDrop where
  isAlive := rfl
  state := rfl
  isOpen := rfl
  closeTimer := rfl
  orderly hstate := by
    rw [closeAndDrop_eq]
    exact List.forall_mem_append.mpr ⟨orderly_failClosing hstate, List.forall_mem_nil _⟩

/-- Induction on the writes of the stream that end at once. -/
theorem writeFrames_cases (c : WebSocketChannel) (writes : List (Option NetError)) :
    c.Stays (c.writeFrames writes) ∨ c.Drops (c.writeFrames writes) := by
  induction writes generalizing c with
  | nil => exact Or.inl ⟨rfl, rfl, rfl, rfl, List.forall_mem_nil _⟩
  | cons result rest ih =>
    cases result with
    | none =>
      have hwritten : ∀ e ∈ (c.onWriteDoneSync none).events, e.Orderly := by
        refine List.forall_mem_append.mpr ⟨?_, orderly_runWriteCallback _ 0⟩
        simp [acceptFrames, WebSocketEvent.Orderly]
      have hrest (s : ChannelStep) (hs : (c.onWriteDoneSync none).channel.Stays s ∨
          (c.onWriteDoneSync none).channel.Drops s) :
          c.Stays ((c.onWriteDoneSync none).andThen fun _ ↦ s) ∨
            c.Drops ((c.onWriteDoneSync none).andThen fun _ ↦ s) := by
        refine hs.imp (fun h ↦ ?_) fun h ↦ ?_
        · exact ⟨h.isAlive, h.state, h.isOpen, h.closeTimer,
            List.forall_mem_append.mpr ⟨hwritten, h.orderly⟩⟩
        · exact ⟨h.isAlive, h.state, h.isOpen, h.closeTimer, fun hstate ↦
            List.forall_mem_append.mpr ⟨hwritten, h.orderly hstate⟩⟩
      refine hrest _ ?_
      split_ifs
      · exact ih _
      · exact Or.inl ⟨rfl, rfl, rfl, rfl, List.forall_mem_nil _⟩
    | some e => exact Or.inr (drops_closeAndDrop c)

/-- Assumes: a state in which a frame may be sent. -/
theorem sendFrameInternal_cases (hstate : c.state = .connected ∨ c.state = .recvClosed)
    (frame : OutFrame) (writes : List (Option NetError)) :
    c.Stays (c.sendFrameInternal frame writes) ∨ c.Drops (c.sendFrameInternal frame writes) := by
  have hchecked : ∀ e ∈ (c.check (c.state = .connected ∨ c.state = .recvClosed)).events,
      e.Orderly := by
    simpa [check, WebSocketEvent.Orderly] using hstate
  have hrest (s : ChannelStep) (hs : c.Stays s ∨ c.Drops s) :
      c.Stays ((c.check (c.state = .connected ∨ c.state = .recvClosed)).andThen fun _ ↦ s) ∨
        c.Drops ((c.check (c.state = .connected ∨ c.state = .recvClosed)).andThen fun _ ↦ s) := by
    refine hs.imp (fun h ↦ ?_) fun h ↦ ?_
    · exact ⟨h.isAlive, h.state, h.isOpen, h.closeTimer,
        List.forall_mem_append.mpr ⟨hchecked, h.orderly⟩⟩
    · exact ⟨h.isAlive, h.state, h.isOpen, h.closeTimer, fun hclosed ↦
        List.forall_mem_append.mpr ⟨hchecked, h.orderly hclosed⟩⟩
  refine hrest _ ?_
  split_ifs
  · exact Or.inl ⟨rfl, rfl, rfl, rfl, List.forall_mem_nil _⟩
  · have hwritten := writeFrames_cases { c with dataBeingSent := some [frame] } writes
    exact hwritten.imp (fun h ↦ ⟨h.isAlive, h.state, h.isOpen, h.closeTimer, h.orderly⟩)
      fun h ↦ ⟨h.isAlive, h.state, h.isOpen, h.closeTimer, h.orderly⟩

/-- Assumes: a state in which a frame may be sent, which `CHANNEL_ALIVE` was returned from. -/
theorem stays_of_isAlive (hstate : c.state = .connected ∨ c.state = .recvClosed)
    {frame : OutFrame} {writes : List (Option NetError)}
    (halive : (c.sendFrameInternal frame writes).isAlive = true) :
    c.Stays (c.sendFrameInternal frame writes) := by
  refine (sendFrameInternal_cases hstate frame writes).resolve_right fun hdrops ↦ ?_
  rw [hdrops.isAlive] at halive
  cases halive

theorem inClosingState_eq_false :
    c.inClosingState = false ↔ c.state = .connected ∨ c.state = .recvClosed := by
  cases hstate : c.state <;> simp [inClosingState, hstate]

end WebSocketChannel

/-! ### Callbacks -/

/-- A callback is taken on with `SendFrame` and settled when it is run. -/
def sendCalls : Ledger WebSocketChannel WebSocketEvent ℕ where
  issued
    | .sendCalled call => some call
    | _ => none
  settled
    | .answered call _ => some call
    | _ => none
  held c := c.writeCallback.toList

/-- The stream accepted the frame of a `SendFrame`. -/
def Accepted (call : ℕ) (history : List WebSocketEvent) : Prop :=
  ∃ frames, .written frames ∈ history ∧ .data call ∈ frames

theorem Accepted.append {call : ℕ} {history events : List WebSocketEvent}
    (h : Accepted call history) : Accepted call (history ++ events) := by
  obtain ⟨frames, hwritten, hframe⟩ := h
  exact ⟨frames, List.mem_append_left _ hwritten, hframe⟩

/-- No callback is taken on or run. -/
def WebSocketEvent.IsQuiet (e : WebSocketEvent) : Prop :=
  sendCalls.issued e = none ∧ sendCalls.settled e = none

/-- A callback is run with OK only after the stream accepted the frame. -/
def WebSocketEvent.AfterAccepted (history : List WebSocketEvent) : WebSocketEvent → Prop
  | .answered call result => result = 0 → Accepted call history
  | _ => True

namespace ChannelStep

/-- What a function leaves behind, as a statement about the channel and all that was seen of it. -/
def Ends (s : ChannelStep) (I : WebSocketChannel → List WebSocketEvent → Prop)
    (history : List WebSocketEvent) : Prop := I s.channel (history ++ s.events)

variable {s : ChannelStep} {f : WebSocketChannel → ChannelStep} {history : List WebSocketEvent}
  {I : WebSocketChannel → List WebSocketEvent → Prop}

theorem ends_andThen : (s.andThen f).Ends I history ↔
    (f s.channel).Ends I (history ++ s.events) := by
  simp only [Ends, andThen, List.append_assoc]

/-- Assumes: what is needed if `CHANNEL_DELETED` was returned, and otherwise. -/
theorem ends_ifAlive (hdeleted : s.isAlive = false → s.Ends I history)
    (halive : s.isAlive = true → (f s.channel).Ends I (history ++ s.events)) :
    (s.ifAlive f).Ends I history := by
  unfold ifAlive
  split_ifs with h
  · exact ends_andThen.mpr (halive h)
  · exact hdeleted (by simpa using h)

theorem ends_mk {c : WebSocketChannel} {isAlive : Bool} :
    ({ channel := c, isAlive } : ChannelStep).Ends I history ↔ I c history := by
  simp only [Ends, List.append_nil]

theorem ends_deleted : s.deleted.Ends I history ↔ s.Ends I history := Iff.rfl

end ChannelStep

namespace WebSocketChannel

/-- Callbacks that were run, and the one that is not, are those of the `n` calls so far. -/
structure Answers (c : WebSocketChannel) (n : ℕ) (history : List WebSocketEvent) : Prop where
  balanced : sendCalls.Balanced c history
  calls : c.calls = n
  numbered : sendCalls.issues history = Multiset.range n
  accepted : EachAfter (fun before e ↦ e.AfterAccepted before) history

/-- Between two steps, a callback that was not run waits for a write of the stream, and its frame is
among those to be written if it was not accepted before. -/
structure Sends (c : WebSocketChannel) (n : ℕ) (history : List WebSocketEvent) : Prop extends
    Answers c n history where
  isOpen : c.isOpen = true ↔ c.state ≠ .closed
  writing : c.writing = (c.isOpen && c.dataBeingSent.isSome)
  next : c.dataBeingSent = none → c.dataToSendNext = none
  callback : ∀ call ∈ c.writeCallback, c.writing = true ∧
    (.data call ∈ c.dataBeingSent.getD [] ++ c.dataToSendNext.getD [] ∨ Accepted call history)

variable {c c' : WebSocketChannel} {n : ℕ} {history events : List WebSocketEvent}

/-- Assumes: steps that have nothing to do with callbacks. -/
theorem Answers.quiet (h : c.Answers n history) (hcalls : c'.calls = c.calls)
    (hcallback : c'.writeCallback = c.writeCallback) (hevents : ∀ e ∈ events, e.IsQuiet) :
    c'.Answers n (history ++ events) where
  balanced := by
    refine h.balanced.append_iff.mpr (Ledger.keeps_of_quiet ?_ ?_ ?_)
    · exact fun e he ↦ (hevents e he).1
    · exact fun e he ↦ (hevents e he).2
    · simp only [sendCalls, hcallback]
  calls := hcalls.trans h.calls
  numbered := by
    rw [Ledger.issues_append, Ledger.issues_eq_zero fun e he ↦ (hevents e he).1, add_zero,
      h.numbered]
  accepted := by
    refine eachAfter_append.mpr ⟨h.accepted, fun before e after hsplit ↦ ?_⟩
    have hquiet : e.IsQuiet := hevents e (by simp [hsplit])
    cases e with
    | answered call result => cases hquiet.2
    | _ => trivial

theorem Answers.same (h : c.Answers n history) (hcalls : c'.calls = c.calls)
    (hcallback : c'.writeCallback = c.writeCallback) : c'.Answers n history := by
  have hquiet := h.quiet hcalls hcallback (List.forall_mem_nil _)
  rwa [List.append_nil] at hquiet

/-- Assumes: if the result is OK, the frame of the call was accepted. -/
theorem Answers.runWriteCallback (h : c.Answers n history) (result : ℤ)
    (hresult : result = 0 → ∀ call ∈ c.writeCallback, Accepted call history) :
    (c.runWriteCallback result).Ends (Answers · n) history := by
  cases hcallback : c.writeCallback with
  | none =>
    refine h.quiet rfl hcallback.symm ?_
    simp [WebSocketChannel.runWriteCallback, hcallback]
  | some call =>
    have hevents : (c.runWriteCallback result).events = [.answered call result] := by
      simp [WebSocketChannel.runWriteCallback, hcallback]
    refine ⟨h.balanced.append_iff.mpr ?_, h.calls, ?_, ?_⟩
    · simp [Ledger.Keeps, Ledger.issues, Ledger.settles, sendCalls, hcallback,
        WebSocketChannel.runWriteCallback]
    · rw [hevents, Ledger.issues_append, h.numbered]
      exact add_zero _
    · rw [hevents]
      refine eachAfter_append.mpr ⟨h.accepted, ?_⟩
      simpa [WebSocketEvent.AfterAccepted] using fun hzero ↦ hresult hzero call hcallback

/-- Assumes: a step that has nothing to do with sending, and does not end the connection. -/
theorem Sends.quiet (h : c.Sends n history) {state : WebSocketState}
    (hstate : state = .closed ↔ c.state = .closed) (closeTimer hasReceived : Bool) (code : ℕ)
    (reason : String)
    (hevents : ∀ e ∈ events, e.IsQuiet) :
    ({ c with
      state, closeTimer, hasReceivedCloseFrame := hasReceived, receivedCloseCode := code
      receivedCloseReason := reason } : WebSocketChannel).Sends n (history ++ events) where
  toAnswers := h.toAnswers.quiet rfl rfl hevents
  isOpen := h.isOpen.trans (not_congr hstate.symm)
  writing := h.writing
  next := h.next
  callback call hcall := (h.callback call hcall).imp_right (Or.imp_right Accepted.append)

/-- The connection ends: what was waited for is answered, and the channel is closed. -/
theorem Answers.failClosing (h : c.Answers n history)
    (hnext : c.dataBeingSent = none → c.dataToSendNext = none) :
    c.failClosing.Ends (Sends · n) history := by
  have hmoved : (c.closeStream.setState .closed).Ends (Answers · n) history :=
    h.quiet rfl rfl (by simp [setState, WebSocketEvent.IsQuiet, sendCalls])
  have hanswers : c.failClosing.Ends (Answers · n) history :=
    ChannelStep.ends_andThen.mpr
      (hmoved.runWriteCallback errConnectionReset fun hzero ↦ by cases hzero)
  exact { toAnswers := hanswers
          isOpen := by simp [WebSocketChannel.failClosing, ChannelStep.andThen, closeStream,
            setState, WebSocketChannel.runWriteCallback]
          writing := rfl
          next := hnext
          callback := fun call hcall ↦ by cases hcall }

theorem Answers.closeAndDrop (h : c.Answers n history)
    (hnext : c.dataBeingSent = none → c.dataToSendNext = none) :
    c.closeAndDrop.Ends (Sends · n) history := by
  rw [closeAndDrop_eq, ChannelStep.ends_deleted, ChannelStep.ends_andThen]
  exact (h.failClosing hnext).quiet Iff.rfl false _ _ _ (List.forall_mem_nil _)

/-- Some frames are about to be written, and nothing waits behind them. -/
structure Writes (c : WebSocketChannel) (n : ℕ) (frames : List OutFrame)
    (history : List WebSocketEvent) : Prop extends Answers c n history where
  isOpen : c.isOpen = true
  state : c.state ≠ .closed
  being : c.dataBeingSent = some frames
  next : c.dataToSendNext = none
  callback : ∀ call ∈ c.writeCallback, .data call ∈ frames ∨ Accepted call history

variable {frames : List OutFrame}

/-- The stream accepts the frames. -/
theorem Writes.accepted_of_written (h : c.Writes n frames history) {call : ℕ}
    (hcall : call ∈ c.writeCallback) : Accepted call (history ++ [.written frames]) := by
  rcases h.callback call hcall with hframe | haccepted
  · exact ⟨frames, by simp, hframe⟩
  · exact haccepted.append

theorem isQuiet_written (frames : List OutFrame) : (WebSocketEvent.written frames).IsQuiet :=
  ⟨rfl, rfl⟩

/-- Assumes: no write of the stream is waited for any more. -/
theorem Writes.finish (h : c.Writes n frames history) (hwriting : c.writing = false) :
    (c.acceptFrames.andThen fun c ↦ c.sendNext.runWriteCallback 0).Ends (Sends · n) history := by
  have hwritten : c.sendNext.Answers n (history ++ [.written frames]) :=
    h.toAnswers.quiet rfl rfl (by simp [isQuiet_written])
  have hanswers := hwritten.runWriteCallback 0 fun _ call hcall ↦
    h.accepted_of_written hcall
  rw [ChannelStep.ends_andThen]
  simp only [acceptFrames, h.being, Option.getD_some]
  exact { toAnswers := hanswers
          isOpen := iff_of_true h.isOpen h.state
          writing := by
            simp [WebSocketChannel.runWriteCallback, sendNext, hwriting, h.next]
          next := fun _ ↦ rfl
          callback := fun call hcall ↦ by cases hcall }

/-- The loop makes one write, as nothing is sent while it runs. -/
theorem Writes.writeFrames (h : c.Writes n frames history) (hwriting : c.writing = false)
    (writes : List (Option NetError)) : (c.writeFrames writes).Ends (Sends · n) history := by
  cases writes with
  | nil =>
    refine ⟨h.toAnswers.quiet rfl rfl (List.forall_mem_nil _), iff_of_true h.isOpen h.state, ?_, ?_,
      fun call hcall ↦ ⟨rfl, ?_⟩⟩
    · simp [WebSocketChannel.writeFrames, h.isOpen, h.being]
    · intro hnone
      cases h.being.symm.trans hnone
    · simpa [WebSocketChannel.writeFrames, h.being, h.next] using h.callback call hcall
  | cons result rest =>
    cases result with
    | none =>
      refine ChannelStep.ends_ifAlive (fun hdeleted ↦ ?_) fun _ ↦ ?_
      · cases hdeleted
      · have hnone : (c.onWriteDoneSync none).channel.dataBeingSent = none := h.next
        simp only [hnone, Option.isSome_none, Bool.false_eq_true, if_false, ChannelStep.Ends,
          List.append_nil]
        exact h.finish hwriting
    | some e =>
      refine ChannelStep.ends_ifAlive (fun _ ↦ ?_) fun halive ↦ ?_
      · exact h.toAnswers.closeAndDrop fun _ ↦ h.next
      · cases halive

theorem isQuiet_checked (holds : Bool) : (WebSocketEvent.checked holds).IsQuiet := ⟨rfl, rfl⟩

/-- Assumes: `write_callback_` waits for this frame, or for a write that is under way. -/
theorem Answers.sendFrameInternal (h : c.Answers n history) (hopen : c.isOpen = true)
    (hstate : c.state ≠ .closed) (hwriting : c.writing = (c.isOpen && c.dataBeingSent.isSome))
    (hnext : c.dataBeingSent = none → c.dataToSendNext = none) {frame : OutFrame}
    (hcallback : ∀ call ∈ c.writeCallback, frame = .data call ∨ c.writing = true ∧
      (.data call ∈ c.dataBeingSent.getD [] ++ c.dataToSendNext.getD [] ∨ Accepted call history))
    (writes : List (Option NetError)) :
    (c.sendFrameInternal frame writes).Ends (Sends · n) history := by
  have hchecked (holds : Bool) : c.Answers n (history ++ [.checked holds]) :=
    h.quiet rfl rfl (by simp [isQuiet_checked])
  refine ChannelStep.ends_andThen.mpr ?_
  cases hbeing : c.dataBeingSent with
  | some frames =>
    simp only [check, hbeing, Option.isSome_some, if_true]
    refine ⟨(hchecked _).quiet rfl rfl (List.forall_mem_nil _), iff_of_true hopen hstate, ?_, ?_,
      fun call hcall ↦ ⟨?_, ?_⟩⟩
    · simp [hwriting, hbeing]
    · simp
    · simp [hwriting, hopen, hbeing]
    · rw [List.append_nil]
      rcases hcallback call hcall with rfl | ⟨-, hframe | haccepted⟩
      · simp
      · rw [hbeing] at hframe
        refine Or.inl ?_
        simp only [Option.getD_some, List.mem_append] at hframe ⊢
        tauto
      · exact Or.inr haccepted.append
  | none =>
    simp only [check, hbeing, Option.isSome_none, Bool.false_eq_true, if_false]
    have hwrites (holds : Bool) : ({ c with dataBeingSent := some [frame] } :
        WebSocketChannel).Writes n [frame] (history ++ [.checked holds]) := by
      refine ⟨h.quiet rfl rfl (by simp [isQuiet_checked]), hopen, hstate, rfl, hnext hbeing,
        fun call hcall ↦ ?_⟩
      rcases hcallback call hcall with rfl | ⟨hwaiting, -⟩
      · exact Or.inl (List.mem_singleton_self _)
      · simp [hwriting, hbeing] at hwaiting
    exact (hwrites _).writeFrames (by simp [hwriting, hbeing]) writes

/-- A pong or a close frame. -/
theorem Sends.sendFrameInternal (h : c.Sends n history) (hstate : c.state ≠ .closed)
    (frame : OutFrame) (writes : List (Option NetError)) :
    (c.sendFrameInternal frame writes).Ends (Sends · n) history :=
  h.toAnswers.sendFrameInternal (h.isOpen.mpr hstate) hstate h.writing h.next
    (fun call hcall ↦ Or.inr (h.callback call hcall)) writes

theorem isQuiet_setState (new : WebSocketState) : ∀ e ∈ (c.setState new).events, e.IsQuiet := by
  simp [setState, WebSocketEvent.IsQuiet, sendCalls]

theorem Sends.setState (h : c.Sends n history) {new : WebSocketState} (hnew : new ≠ .closed)
    (hstate : c.state ≠ .closed) : (c.setState new).Ends (Sends · n) history :=
  h.quiet (iff_of_false hnew hstate) _ _ _ _ (isQuiet_setState new)

theorem Sends.failChannel (h : c.Sends n history) (code : ℕ) (reason : String)
    (writes : List (Option NetError)) :
    (c.failChannel code reason writes).Ends (Sends · n) history := by
  rw [WebSocketChannel.failChannel, ChannelStep.ends_deleted, ChannelStep.ends_andThen]
  have hchecked (holds : Bool) : c.Sends n (history ++ [.checked holds]) :=
    h.quiet Iff.rfl _ _ _ _ (by simp [isQuiet_checked])
  by_cases hstate : c.state = .connected
  · have hclosed : c.state ≠ .closed := by simp [hstate]
    have hsent :=
      (hchecked (c.state ≠ .closed)).sendFrameInternal hclosed (.close code reason) writes
    rw [if_pos (show (c.check _).channel.state = .connected from hstate)]
    exact ChannelStep.ends_ifAlive (fun _ ↦ hsent) fun _ ↦ hsent.toAnswers.failClosing hsent.next
  · rw [if_neg (show (c.check _).channel.state ≠ .connected from hstate)]
    exact (hchecked _).toAnswers.failClosing h.next

theorem Sends.startCloseTimer (h : c.Sends n history) :
    c.startCloseTimer.Ends (Sends · n) history :=
  h.quiet Iff.rfl true _ _ _ (List.forall_mem_nil _)

theorem Sends.respondToClosingHandshake (h : c.Sends n history) (hstate : c.state ≠ .closed)
    (writes : List (Option NetError)) :
    (c.respondToClosingHandshake writes).Ends (Sends · n) history := by
  have hreceived : (c.setState .recvClosed).Ends (Sends · n) history :=
    h.setState (by decide) hstate
  have hsent := hreceived.sendFrameInternal (show WebSocketState.recvClosed ≠ .closed by decide)
    (.close c.receivedCloseCode c.receivedCloseReason) writes
  refine ChannelStep.ends_andThen.mpr (ChannelStep.ends_ifAlive (fun _ ↦ hsent) fun halive ↦ ?_)
  have hstays := stays_of_isAlive (Or.inr rfl) halive
  have hopen := ne_of_eq_of_ne (hstays.state.trans rfl)
    (show WebSocketState.recvClosed ≠ .closed by decide)
  exact ChannelStep.ends_andThen.mpr (hsent.setState (by decide) hopen).startCloseTimer

theorem Sends.receiveClose (h : c.Sends n history) (code : ℕ) (reason : String) :
    (c.receiveClose code reason).Sends n history := by
  have hsame := h.quiet Iff.rfl c.closeTimer true code reason (List.forall_mem_nil _)
  rwa [List.append_nil] at hsame

theorem Sends.handleCloseFrame (h : c.Sends n history) (code : ℕ) (reason : String)
    (writes : List (Option NetError)) :
    (c.handleCloseFrame code reason writes).Ends (Sends · n) history := by
  unfold WebSocketChannel.handleCloseFrame
  cases hstate : c.state with
  | connected =>
    refine (h.receiveClose code reason).respondToClosingHandshake ?_ writes
    simp [WebSocketChannel.receiveClose, hstate]
  | sendClosed =>
    have hwait : (c.setState .closeWait).Ends (Sends · n) history :=
      h.setState (by decide) (by simp [hstate])
    refine ChannelStep.ends_andThen.mpr (ChannelStep.ends_andThen.mpr ?_)
    exact ChannelStep.ends_mk.mpr (Sends.receiveClose hwait.startCloseTimer code reason)
  | recvClosed | closeWait | closed => exact ChannelStep.ends_mk.mpr h

theorem Sends.check (h : c.Sends n history) (holds : Bool) :
    (c.check holds).Ends (Sends · n) history :=
  h.quiet Iff.rfl _ _ _ _ (by simp [WebSocketChannel.check, isQuiet_checked])

theorem Sends.handleByOpcode (h : c.Sends n history) (hopen : c.state ≠ .closed)
    (frame : ReceivedFrame) (writes : List (Option NetError)) :
    (c.handleByOpcode frame writes).Ends (Sends · n) history := by
  have hsame : ({ channel := c } : ChannelStep).Ends (Sends · n) history :=
    ChannelStep.ends_mk.mpr h
  unfold WebSocketChannel.handleByOpcode
  split
  · exact hsame
  · exact hsame
  · exact hsame
  · split_ifs
    · exact h.sendFrameInternal hopen _ writes
    · exact hsame
  · exact hsame
  · split
    · exact h.handleCloseFrame _ _ writes
    · exact h.failChannel _ _ writes
  · exact h.failChannel _ _ writes

theorem Sends.handleFrame (h : c.Sends n history) (hopen : c.state ≠ .closed)
    (frame : ReceivedFrame) (writes : List (Option NetError)) :
    (c.handleFrame frame writes).Ends (Sends · n) history := by
  unfold WebSocketChannel.handleFrame
  split_ifs
  · exact h.failChannel _ _ writes
  have hchecked := Sends.check (h.check (c.state ≠ .recvClosed)) (c.state ≠ .closed)
  refine ChannelStep.ends_andThen.mpr ?_
  rw [ChannelStep.andThen, ← List.append_assoc]
  split_ifs
  · exact Sends.failChannel hchecked _ _ writes
  · exact Sends.handleByOpcode hchecked hopen frame writes

theorem Answers.countCall (h : c.Answers n history) (hcallback : c.writeCallback = none) :
    ({ c with calls := c.calls + 1, writeCallback := some c.calls } : WebSocketChannel).Answers
      (n + 1) (history ++ [.sendCalled c.calls]) where
  balanced := by
    refine h.balanced.append_iff.mpr ?_
    simp [Ledger.Keeps, Ledger.issues, Ledger.settles, sendCalls, hcallback]
  calls := by rw [h.calls]
  numbered := by
    rw [Ledger.issues_append, h.numbered, Multiset.range_succ, ← Multiset.singleton_add, add_comm,
      h.calls]
    rfl
  accepted := eachAfter_append.mpr ⟨h.accepted, by simp [WebSocketEvent.AfterAccepted]⟩

/-- A call of `SendFrame`, while no other is outstanding. -/
theorem Sends.sendFrame (h : c.Sends n history) (hcallback : c.writeCallback = none)
    (writes : List (Option NetError)) : (c.sendFrame writes).Ends (Sends · (n + 1)) history := by
  have hcounted := h.toAnswers.countCall hcallback
  refine ChannelStep.ends_andThen.mpr ?_
  split_ifs with hclosing
  · have hanswered := hcounted.runWriteCallback errConnectionClosed fun hzero ↦ by
      cases hzero
    have hanswers : ({ c with calls := c.calls + 1 } : WebSocketChannel).Answers (n + 1)
        (history ++ [.sendCalled c.calls] ++ [.answered c.calls errConnectionClosed]) := by
      simpa [ChannelStep.Ends, WebSocketChannel.runWriteCallback, hcallback] using hanswered
    exact ⟨hanswers, h.isOpen, h.writing, h.next, fun call hcall ↦ by
      cases hcallback.symm.trans hcall⟩
  · have hstate := inClosingState_eq_false.mp (by simpa using hclosing)
    have hopen : c.state ≠ .closed := by
      rcases hstate with hstate | hstate <;> simp [hstate]
    refine hcounted.sendFrameInternal (h.isOpen.mpr hopen) hopen h.writing h.next
      (fun call hcall ↦ Or.inl ?_) writes
    rw [Option.mem_some_iff.mp hcall]

theorem Sends.startClosingHandshake (h : c.Sends n history) (code : ℕ) (reason : String)
    (writes : List (Option NetError)) :
    (c.startClosingHandshake code reason writes).Ends (Sends · n) history := by
  unfold WebSocketChannel.startClosingHandshake
  split_ifs with hclosing
  · exact ChannelStep.ends_mk.mpr h
  · have hstate := inClosingState_eq_false.mp (by simpa using hclosing)
    refine h.respondToClosingHandshake ?_ writes
    rcases hstate with hstate | hstate <;> simp [hstate]
  · have hstate := inClosingState_eq_false.mp (by simpa using hclosing)
    have hopen : c.state ≠ .closed := by
      rcases hstate with hstate | hstate <;> simp [hstate]
    refine ChannelStep.ends_andThen.mpr ?_
    have hsent := Sends.sendFrameInternal h.startCloseTimer hopen
      (.close (closeToSend code reason).1 (closeToSend code reason).2) writes
    refine ChannelStep.ends_ifAlive (fun _ ↦ hsent) fun halive ↦ ?_
    have hstays := stays_of_isAlive (c := c.startCloseTimer.channel) hstate halive
    exact hsent.setState (by decide) (ne_of_eq_of_ne hstays.state hopen)

theorem Sends.onWriteDone (h : c.Sends n history) (hwriting : c.writing = true)
    (writes : List (Option NetError)) (result : Option NetError) :
    (c.onWriteDone writes result).Ends (Sends · n) history := by
  cases result with
  | some e => exact h.toAnswers.closeAndDrop h.next
  | none =>
    have hboth : c.isOpen = true ∧ c.dataBeingSent.isSome = true := by
      simpa [h.writing] using hwriting
    obtain ⟨hopen, hsome⟩ := hboth
    obtain ⟨frames, hbeing⟩ := Option.isSome_iff_exists.mp hsome
    have hstate := h.isOpen.mp hopen
    cases hnext : c.dataToSendNext with
    | none =>
      have hwrites : ({ c with writing := false } : WebSocketChannel).Writes n frames history := by
        refine ⟨h.toAnswers.same rfl rfl, hopen, hstate, hbeing, hnext, fun call hcall ↦ ?_⟩
        simpa [hbeing, hnext] using (h.callback call hcall).2
      have hfinish := hwrites.finish rfl
      simpa [WebSocketChannel.onWriteDone, acceptFrames, ChannelStep.andThen, hnext] using hfinish
    | some next =>
      have hwrites : ({ c with writing := false } : WebSocketChannel).sendNext.Writes n next
          (history ++ [.written frames]) := by
        refine ⟨h.toAnswers.quiet rfl rfl (by simp [isQuiet_written]), hopen, hstate, hnext, rfl,
          fun call hcall ↦ ?_⟩
        rcases (h.callback call hcall).2 with hframe | haccepted
        · simp only [hbeing, hnext, Option.getD_some, List.mem_append] at hframe
          exact hframe.symm.imp_right fun hframe ↦ ⟨frames, by simp, hframe⟩
        · exact Or.inr haccepted.append
      have hevents : ({ c with writing := false } : WebSocketChannel).acceptFrames.events =
          [.written frames] := by
        simp [acceptFrames, hbeing]
      unfold WebSocketChannel.onWriteDone
      refine ChannelStep.ends_andThen.mpr ?_
      rw [hevents, if_pos (by simp [acceptFrames, hnext])]
      exact hwrites.writeFrames rfl writes

/-- The step lemma. -/
theorem Sends.act (h : c.Sends n history) {a : WebSocketAction} {s : ChannelStep}
    (hact : c.act a = some s) : s.Ends (Sends · (n + a.isSendFrame.toNat)) history := by
  cases a with
  | sendFrame writes =>
    obtain ⟨hcallback, ⟨⟩⟩ := Option.ite_none_right_eq_some.mp hact
    exact h.sendFrame hcallback writes
  | startClosingHandshake code reason writes =>
    cases hact
    exact h.startClosingHandshake code reason writes
  | handleFrame frame writes =>
    obtain ⟨hopen, ⟨⟩⟩ := Option.ite_none_right_eq_some.mp hact
    exact h.handleFrame (h.isOpen.mp hopen) frame writes
  | onReadProtocolError writes =>
    obtain ⟨hopen, ⟨⟩⟩ := Option.ite_none_right_eq_some.mp hact
    exact h.failChannel _ _ writes
  | onReadError =>
    obtain ⟨hopen, ⟨⟩⟩ := Option.ite_none_right_eq_some.mp hact
    exact h.toAnswers.closeAndDrop h.next
  | onWriteDone result writes =>
    obtain ⟨hwriting, ⟨⟩⟩ := Option.ite_none_right_eq_some.mp hact
    exact h.onWriteDone hwriting writes result
  | closeTimeout =>
    obtain ⟨htimer, ⟨⟩⟩ := Option.ite_none_right_eq_some.mp hact
    exact (h.toAnswers.same rfl rfl).closeAndDrop h.next

theorem sends_nil : Sends {} 0 [] := by
  refine ⟨⟨by decide, rfl, rfl, eachAfter_nil⟩, by decide, rfl, fun _ ↦ rfl, fun call hcall ↦ ?_⟩
  cases hcall

/-- The run lemma. -/
theorem Sends.of_run {guard : WebSocketChannel → WebSocketAction → Prop}
    (run : Run webSocketing guard c history) : c.Sends c.calls history := by
  refine run.invariant (I := fun c history ↦ c.Sends c.calls history) ?_ ?_
  · rintro c rfl
    exact sends_nil
  · intro c a c' history events _ h _ hstep
    obtain ⟨s, hact, heq⟩ := Option.map_eq_some_iff.mp hstep
    cases heq
    have hends : s.channel.Sends (c.calls + a.isSendFrame.toNat) (history ++ s.events) := h.act hact
    rwa [hends.calls]

end WebSocketChannel

end Felicia
