import Felicia.Channel.WebSocketChannel

/-!
# The closing handshake

The states that a `WebSocketChannel` goes through, and its `close_timer_`. `FailChannel` closes the
stream and goes to `CLOSED`, but leaves the timer as it is. In `CONNECTED` the timer is not running;
once a close frame was sent it is, and then goes off in `CLOSED`, where `CloseTimeout` sets the
state that the channel is in.

`closing_iff` says that nothing else goes wrong: as long as the channel is failed only in
`CONNECTED`, the state moves only along the closing handshake or to `CLOSED`, which is final, the
timer is not running there, and no `DCHECK` fails; and the first step that is not of this kind
leaves the timer running.
-/

set_option autoImplicit false
set_option relaxedAutoImplicit false

namespace Felicia

open Support TransitionSystem

/-- A frame that `HandleFrameByState` refuses in any state: its opcode is unknown, or it is a close
frame with a payload. -/
def ReceivedFrame.IsRefused (frame : ReceivedFrame) : Prop :=
  frame.opcode ∉ [0, 1, 2, 8, 9, 10] ∨ frame.opcode = 8 ∧ frame.payload ≠ []

instance (frame : ReceivedFrame) : Decidable frame.IsRefused :=
  inferInstanceAs (Decidable (_ ∨ _))

namespace WebSocketChannel

/-- `FailChannel` is called. -/
def Fails (c : WebSocketChannel) : WebSocketAction → Prop
  | .handleFrame frame _ => frame.isReserved = true ∨ c.state = .closeWait ∨ frame.IsRefused
  | .onReadProtocolError _ => True
  | _ => False

/-- The channel is failed only in `CONNECTED`. -/
def FailsConnected (c : WebSocketChannel) (a : WebSocketAction) : Prop :=
  c.Fails a → c.state = .connected

instance (c : WebSocketChannel) : DecidablePred c.Fails
  | .handleFrame frame _ => inferInstanceAs (Decidable
    (frame.isReserved = true ∨ c.state = .closeWait ∨ frame.IsRefused))
  | .onReadProtocolError _ => isTrue trivial
  | .sendFrame _ | .startClosingHandshake _ _ _ | .onReadError | .onWriteDone _ _
  | .closeTimeout => isFalse id

instance (c : WebSocketChannel) (a : WebSocketAction) : Decidable (c.FailsConnected a) :=
  inferInstanceAs (Decidable (_ → _))

/-- What a step should keep: no `DCHECK` fails, the state moves as it should, and the timer is not
running in `CLOSED`. -/
def ClosesOrderly (c : WebSocketChannel) (events : List WebSocketEvent) : Prop :=
  (∀ e ∈ events, e.Orderly) ∧ (c.state = .closed → c.closeTimer = false)

/-- Between two steps, the timer is running while a close frame was sent and the channel is not
closed.
-/
structure Timed (c : WebSocketChannel) : Prop where
  notReceived : c.state ≠ .recvClosed
  isOpen : c.isOpen = true ↔ c.state ≠ .closed
  closeTimer : c.closeTimer = true ↔ c.state = .sendClosed ∨ c.state = .closeWait

variable {c : WebSocketChannel} {s : ChannelStep}

/-- A step that goes right. -/
structure Proceeds (s : ChannelStep) : Prop where
  timed : s.channel.Timed
  orderly : ∀ e ∈ s.events, e.Orderly

theorem Timed.closeTimer_eq_false (h : c.Timed)
    (hstate : c.state = .connected ∨ c.state = .closed) :
    c.closeTimer = false := by
  rw [← Bool.not_eq_true, h.closeTimer]
  rcases hstate with hstate | hstate <;> simp [hstate]

theorem Proceeds.closesOrderly (h : Proceeds s) : s.channel.ClosesOrderly s.events :=
  ⟨h.orderly, fun hclosed ↦ h.timed.closeTimer_eq_false (Or.inr hclosed)⟩

theorem Timed.proceeds (h : c.Timed) : Proceeds { channel := c } := ⟨h, List.forall_mem_nil _⟩

theorem Drops.proceeds (h : c.Drops s) (hstate : c.state ≠ .closed) : Proceeds s where
  timed := by
    refine ⟨?_, ?_, ?_⟩ <;> simp [h.state, h.isOpen, h.closeTimer]
  orderly := h.orderly hstate

theorem Stays.proceeds (h : c.Stays s) (htimed : c.Timed) : Proceeds s where
  timed := by
    refine ⟨?_, ?_, ?_⟩
    · rw [h.state]
      exact htimed.notReceived
    · rw [h.isOpen, h.state]
      exact htimed.isOpen
    · rw [h.closeTimer, h.state]
      exact htimed.closeTimer
  orderly := h.orderly

/-- A pong, or the frame of a `SendFrame`. -/
theorem Timed.sendFrameInternal (h : c.Timed) (hstate : c.state = .connected) (frame : OutFrame)
    (writes : List (Option NetError)) : Proceeds (c.sendFrameInternal frame writes) := by
  rcases sendFrameInternal_cases (Or.inl hstate) frame writes with hstays | hdrops
  · exact hstays.proceeds h
  · exact hdrops.proceeds (by simp [hstate])

theorem Proceeds.andThen {f : WebSocketChannel → ChannelStep} (h : Proceeds (f s.channel))
    (hevents : ∀ e ∈ s.events, e.Orderly) : Proceeds (s.andThen f) :=
  ⟨h.timed, List.forall_mem_append.mpr ⟨hevents, h.orderly⟩⟩

theorem Proceeds.ifAlive {f : WebSocketChannel → ChannelStep} (h : Proceeds s)
    (halive : s.isAlive = true → Proceeds (f s.channel)) : Proceeds (s.ifAlive f) := by
  unfold ChannelStep.ifAlive
  split_ifs with hisAlive
  · exact (halive hisAlive).andThen h.orderly
  · exact h

theorem orderly_check {holds : Bool} (h : holds = true) :
    ∀ e ∈ (c.check holds).events, e.Orderly := by
  simpa [check, WebSocketEvent.Orderly] using h

theorem orderly_setState {new : WebSocketState} (h : c.state.CanMove new) :
    ∀ e ∈ (c.setState new).events, e.Orderly := by
  have hne : c.state ≠ new := by
    rintro rfl
    cases hc : c.state <;> simp [hc, WebSocketState.CanMove] at h
  simp [setState, WebSocketEvent.Orderly, hne, h]

/-- Assumes: a close frame that can still be sent. -/
theorem Timed.failClosing (hstate : c.state ≠ .closed) (htimer : c.closeTimer = false) :
    Proceeds c.failClosing where
  timed := by
    refine ⟨?_, ?_, ?_⟩ <;>
      simp [WebSocketChannel.failClosing, ChannelStep.andThen, closeStream, setState,
        runWriteCallback, htimer]
  orderly := orderly_failClosing hstate

theorem Timed.failChannel (h : c.Timed) (hstate : c.state = .connected) (code : ℕ)
    (reason : String) (writes : List (Option NetError)) :
    Proceeds (c.failChannel code reason writes) := by
  have hclosed : c.state ≠ .closed := by simp [hstate]
  have hsent := h.sendFrameInternal hstate (.close code reason) writes
  have hfailed :
      Proceeds ((c.sendClose code reason writes).ifAlive WebSocketChannel.failClosing) := by
    refine hsent.ifAlive fun halive ↦ ?_
    have hstays := stays_of_isAlive (Or.inl hstate) halive
    refine Timed.failClosing (ne_of_eq_of_ne hstays.state hclosed) ?_
    rw [hstays.closeTimer]
    exact h.closeTimer_eq_false (Or.inl hstate)
  have hchecked : Proceeds ((c.check (c.state ≠ .closed)).andThen fun c ↦
      if c.state = .connected then (c.sendClose code reason writes).ifAlive
        WebSocketChannel.failClosing
      else c.failClosing) := by
    refine Proceeds.andThen ?_ (orderly_check (by simpa using hclosed))
    rwa [if_pos (show (c.check _).channel.state = .connected from hstate)]
  exact ⟨hchecked.timed, hchecked.orderly⟩

/-- Once a close frame was sent, `FailChannel` does not stop the timer. -/
theorem failChannel_of_ne_connected (hstate : c.state ≠ .connected) (code : ℕ) (reason : String)
    (writes : List (Option NetError)) :
    (c.failChannel code reason writes).channel.state = .closed ∧
      (c.failChannel code reason writes).channel.closeTimer = c.closeTimer := by
  have hchannel : (c.failChannel code reason writes).channel = c.failClosing.channel := by
    unfold WebSocketChannel.failChannel ChannelStep.andThen ChannelStep.deleted
    dsimp only
    rw [if_neg (show (c.check _).channel.state ≠ .connected from hstate)]
    rfl
  rw [hchannel]
  exact ⟨rfl, rfl⟩

/-- Assumes: an open stream, and a close frame that was sent or received. -/
theorem proceeds_closeWait (hopen : c.isOpen = true) (hmove : c.state.CanMove .closeWait) :
    Proceeds ((c.setState .closeWait).andThen startCloseTimer) := by
  refine Proceeds.andThen ⟨⟨?_, ?_, ?_⟩, List.forall_mem_nil _⟩ (orderly_setState hmove)
  · exact (by decide : WebSocketState.closeWait ≠ .recvClosed)
  · exact iff_of_true hopen (by decide : WebSocketState.closeWait ≠ .closed)
  · exact iff_of_true rfl (Or.inr rfl)

theorem Timed.respondToClosingHandshake (h : c.Timed) (hstate : c.state = .connected)
    (writes : List (Option NetError)) : Proceeds (c.respondToClosingHandshake writes) := by
  have hopen : c.isOpen = true := h.isOpen.mpr (by simp [hstate])
  have hmove : c.state.CanMove .recvClosed := by simp [hstate, WebSocketState.CanMove]
  refine Proceeds.andThen ?_ (orderly_setState hmove)
  set received := (c.setState .recvClosed).channel
  unfold ChannelStep.ifAlive
  split_ifs with halive
  · have hstays := stays_of_isAlive (Or.inr rfl) halive
    refine (proceeds_closeWait (hstays.isOpen.trans hopen) ?_).andThen hstays.orderly
    rw [hstays.state]
    trivial
  · have hdrops := (sendFrameInternal_cases (c := received) (Or.inr rfl) _ _).resolve_left
      fun hstays ↦ halive hstays.isAlive
    exact hdrops.proceeds (by decide : WebSocketState.recvClosed ≠ .closed)

theorem Timed.handleCloseFrame (h : c.Timed) (hstate : c.state = .connected ∨ c.state = .sendClosed)
    (code : ℕ) (reason : String) (writes : List (Option NetError)) :
    Proceeds (c.handleCloseFrame code reason writes) := by
  unfold WebSocketChannel.handleCloseFrame
  rcases hstate with hstate | hstate
  · have hreceived : (c.receiveClose code reason).Timed := ⟨h.notReceived, h.isOpen, h.closeTimer⟩
    simp only [hstate]
    exact hreceived.respondToClosingHandshake hstate writes
  · have hopen : c.isOpen = true := h.isOpen.mpr (by simp [hstate])
    have hwaits := proceeds_closeWait hopen (by simp [hstate, WebSocketState.CanMove])
    simp only [hstate]
    exact ⟨⟨hwaits.timed.notReceived, hwaits.timed.isOpen, hwaits.timed.closeTimer⟩,
      hwaits.orderly⟩

theorem Timed.handleByOpcode (h : c.Timed) (hstate : c.state = .connected ∨ c.state = .sendClosed)
    {frame : ReceivedFrame} (hrefused : frame.IsRefused → c.state = .connected)
    (writes : List (Option NetError)) : Proceeds (c.handleByOpcode frame writes) := by
  unfold WebSocketChannel.handleByOpcode
  split
  · exact h.proceeds
  · exact h.proceeds
  · exact h.proceeds
  · split_ifs with hconnected
    · exact h.sendFrameInternal hconnected _ writes
    · exact h.proceeds
  · exact h.proceeds
  · rename_i hopcode
    cases hpayload : frame.payload with
    | nil => exact h.handleCloseFrame hstate _ _ writes
    | cons first rest =>
      have hconnected := hrefused (Or.inr ⟨hopcode, by simp [hpayload]⟩)
      split
      · exact h.handleCloseFrame hstate _ _ writes
      · exact h.failChannel hconnected _ _ writes
  · refine h.failChannel (hrefused (Or.inl ?_)) _ _ writes
    simp only [List.mem_cons, List.not_mem_nil]
    tauto

theorem Timed.handleFrame (h : c.Timed) (hopen : c.isOpen = true) {frame : ReceivedFrame}
    {writes : List (Option NetError)} (hfails : c.FailsConnected (.handleFrame frame writes)) :
    Proceeds (c.handleFrame frame writes) := by
  have hclosed := h.isOpen.mp hopen
  have hstate : c.state = .connected ∨ c.state = .sendClosed := by
    have hreceived := h.notReceived
    cases hc : c.state with
    | closeWait => cases hc.symm.trans (hfails (Or.inr (Or.inl hc)))
    | connected | sendClosed | recvClosed | closed => simp_all
  unfold WebSocketChannel.handleFrame
  split_ifs with hreserved
  · exact h.failChannel (hfails (Or.inl hreserved)) _ _ writes
  have hwait : ((c.check (c.state ≠ .recvClosed)).andThen fun c ↦
      c.check (c.state ≠ .closed)).channel.state ≠ .closeWait := by
    change c.state ≠ .closeWait
    rcases hstate with hstate | hstate <;> simp [hstate]
  refine Proceeds.andThen ?_ (List.forall_mem_append.mpr
    ⟨orderly_check (by simpa using h.notReceived), orderly_check (decide_eq_true hclosed)⟩)
  rw [if_neg hwait]
  exact h.handleByOpcode hstate (fun hrefused ↦ hfails (Or.inr (Or.inr hrefused))) writes

theorem Timed.inClosingState (h : c.Timed) (hclosing : ¬ c.inClosingState = true) :
    c.state = .connected := by
  have hstate := inClosingState_eq_false.mp (by simpa using hclosing)
  exact hstate.resolve_right h.notReceived

theorem Timed.sendFrame (h : c.Timed) (writes : List (Option NetError)) :
    Proceeds (c.sendFrame writes) := by
  refine Proceeds.andThen ?_ (by simp [countCall, WebSocketEvent.Orderly])
  split_ifs with hclosing
  · exact ⟨⟨h.notReceived, h.isOpen, h.closeTimer⟩, by simp [WebSocketEvent.Orderly]⟩
  · have hcalled : ({ c.countCall.channel with writeCallback := some c.calls } :
        WebSocketChannel).Timed := ⟨h.notReceived, h.isOpen, h.closeTimer⟩
    exact hcalled.sendFrameInternal (h.inClosingState hclosing) _ writes

theorem Timed.startClosingHandshake (h : c.Timed) (code : ℕ) (reason : String)
    (writes : List (Option NetError)) :
    Proceeds (c.startClosingHandshake code reason writes) := by
  unfold WebSocketChannel.startClosingHandshake
  split_ifs with hclosing
  · exact h.proceeds
  · exact h.respondToClosingHandshake (h.inClosingState hclosing) writes
  have hstate := h.inClosingState hclosing
  have hopen : c.isOpen = true := h.isOpen.mpr (by simp [hstate])
  refine Proceeds.andThen ?_ (List.forall_mem_nil _)
  unfold ChannelStep.ifAlive
  split_ifs with halive
  · have hstays := stays_of_isAlive (c := c.startCloseTimer.channel) (Or.inl hstate) halive
    have hsent : (c.startCloseTimer.channel.sendClose (closeToSend code reason).1
        (closeToSend code reason).2 writes).channel.state = .connected := hstays.state.trans hstate
    refine Proceeds.andThen ⟨⟨?_, ?_, ?_⟩, orderly_setState ?_⟩ hstays.orderly
    · exact (by decide : WebSocketState.sendClosed ≠ .recvClosed)
    · exact iff_of_true (hstays.isOpen.trans hopen)
        (by decide : WebSocketState.sendClosed ≠ .closed)
    · exact iff_of_true hstays.closeTimer (Or.inl rfl)
    · rw [hsent]
      trivial
  · have hdrops := (sendFrameInternal_cases (c := c.startCloseTimer.channel) (Or.inl hstate) _
      _).resolve_left fun hstays ↦ halive hstays.isAlive
    exact hdrops.proceeds (ne_of_eq_of_ne hstate (by decide))

theorem Timed.onWriteDone (h : c.Timed) (hopen : c.isOpen = true) (writes : List (Option NetError))
    (result : Option NetError) : Proceeds (c.onWriteDone writes result) := by
  have hclosed := h.isOpen.mp hopen
  cases result with
  | some e => exact (drops_closeAndDrop c).proceeds hclosed
  | none =>
    unfold WebSocketChannel.onWriteDone
    refine Proceeds.andThen ?_ (by simp [acceptFrames, WebSocketEvent.Orderly])
    have hnext (c' : WebSocketChannel) (hstate : c'.state = c.state) (hopen : c'.isOpen = c.isOpen)
        (htimer : c'.closeTimer = c.closeTimer) : c'.Timed := by
      refine ⟨?_, ?_, ?_⟩
      · rw [hstate]
        exact h.notReceived
      · rw [hopen, hstate]
        exact h.isOpen
      · rw [htimer, hstate]
        exact h.closeTimer
    split_ifs
    · rcases writeFrames_cases _ writes with hstays | hdrops
      · exact hstays.proceeds (hnext _ rfl rfl rfl)
      · exact hdrops.proceeds hclosed
    · exact ⟨hnext _ rfl rfl rfl, orderly_runWriteCallback _ 0⟩

/-- The step lemma. -/
theorem Timed.act (h : c.Timed) (hwriting : c.writing = true → c.isOpen = true)
    {a : WebSocketAction} (hact : c.act a = some s) (hfails : c.FailsConnected a) :
    Proceeds s := by
  cases a with
  | sendFrame writes =>
    obtain ⟨hcallback, ⟨⟩⟩ := Option.ite_none_right_eq_some.mp hact
    exact h.sendFrame writes
  | startClosingHandshake code reason writes =>
    cases hact
    exact h.startClosingHandshake code reason writes
  | handleFrame frame writes =>
    obtain ⟨hopen, ⟨⟩⟩ := Option.ite_none_right_eq_some.mp hact
    exact h.handleFrame hopen hfails
  | onReadProtocolError writes =>
    obtain ⟨hopen, ⟨⟩⟩ := Option.ite_none_right_eq_some.mp hact
    exact h.failChannel (hfails trivial) _ _ writes
  | onReadError =>
    obtain ⟨hopen, ⟨⟩⟩ := Option.ite_none_right_eq_some.mp hact
    exact (drops_closeAndDrop c).proceeds (h.isOpen.mp hopen)
  | onWriteDone result writes =>
    obtain ⟨hwaits, ⟨⟩⟩ := Option.ite_none_right_eq_some.mp hact
    exact h.onWriteDone (hwriting hwaits) writes result
  | closeTimeout =>
    obtain ⟨htimer, ⟨⟩⟩ := Option.ite_none_right_eq_some.mp hact
    refine (drops_closeAndDrop { c with closeTimer := false }).proceeds ?_
    rcases h.closeTimer.mp htimer with hstate | hstate <;> simp [hstate]

theorem parseClose_of_ne_nil {payload : List UInt8} (h : payload ≠ []) :
    ∃ failed, parseClose payload = .error failed := by
  match payload, h with
  | [_], _ => exact ⟨_, rfl⟩
  | high :: low :: _, _ =>
    simp only [parseClose]
    split_ifs
    · exact ⟨_, rfl⟩
    · exact ⟨_, rfl⟩

theorem handleByOpcode_of_isRefused {frame : ReceivedFrame} (h : frame.IsRefused)
    (writes : List (Option NetError)) :
    ∃ code reason, c.handleByOpcode frame writes = c.failChannel code reason writes := by
  unfold WebSocketChannel.handleByOpcode
  rcases h with hopcode | ⟨hopcode, hpayload⟩
  · simp only [List.mem_cons, List.not_mem_nil, or_false, not_or] at hopcode
    split
    case h_7 => exact ⟨_, _, rfl⟩
    all_goals simp_all
  · obtain ⟨failed, hparsed⟩ := parseClose_of_ne_nil hpayload
    simp only [hopcode, hparsed]
    exact ⟨_, _, rfl⟩

theorem handleFrame_of_fails {frame : ReceivedFrame} {writes : List (Option NetError)}
    (h : c.Fails (.handleFrame frame writes)) : ∃ code reason,
      (c.handleFrame frame writes).channel = (c.failChannel code reason writes).channel := by
  unfold WebSocketChannel.handleFrame
  split_ifs with hreserved
  · exact ⟨_, _, rfl⟩
  · have hchannel : (c.handleFrameByState frame writes).channel =
        (if c.state = .closeWait then c.failChannel errorProtocolError "" writes
        else c.handleByOpcode frame writes).channel := rfl
    rw [hchannel]
    split_ifs with hwait
    · exact ⟨_, _, rfl⟩
    · obtain ⟨code, reason, heq⟩ := handleByOpcode_of_isRefused
        ((h.resolve_left hreserved).resolve_left hwait) writes
      exact ⟨code, reason, by rw [heq]⟩

/-- Assumes: a step that fails the channel after a close frame was sent. The timer is left running.
-/
theorem Timed.act_of_not (h : c.Timed) {a : WebSocketAction} (hact : c.act a = some s)
    (hfails : ¬ c.FailsConnected a) : ¬ s.channel.ClosesOrderly s.events := by
  have hcases : c.Fails a ∧ c.state ≠ .connected := by
    simpa [FailsConnected] using hfails
  obtain ⟨hcalled, hstate⟩ := hcases
  have hrunning (hopen : c.isOpen = true) : c.closeTimer = true := by
    have hclosed := h.isOpen.mp hopen
    have hreceived := h.notReceived
    rw [h.closeTimer]
    cases hc : c.state <;> simp_all
  have hleft (hopen : c.isOpen = true) (code : ℕ) (reason : String)
      (writes : List (Option NetError)) (events : List WebSocketEvent) :
      ¬ (c.failChannel code reason writes).channel.ClosesOrderly events := by
    obtain ⟨hclosed, htimer⟩ := failChannel_of_ne_connected hstate code reason writes
    rintro ⟨-, hstopped⟩
    rw [hrunning hopen, hstopped hclosed] at htimer
    cases htimer
  cases a with
  | handleFrame frame writes =>
    obtain ⟨hopen, ⟨⟩⟩ := Option.ite_none_right_eq_some.mp hact
    obtain ⟨code, reason, hchannel⟩ := handleFrame_of_fails hcalled
    rw [hchannel]
    exact hleft hopen code reason writes _
  | onReadProtocolError writes =>
    obtain ⟨hopen, ⟨⟩⟩ := Option.ite_none_right_eq_some.mp hact
    exact hleft hopen _ _ writes _
  | sendFrame _ | startClosingHandshake _ _ _ | onReadError | onWriteDone _ _ | closeTimeout =>
    cases hcalled

/-- Assumes: a run in which the channel is failed only in `CONNECTED`. The state moves only along
the closing handshake or to `CLOSED`, which is final, the timer is not running there and no `DCHECK`
fails; and a further step leaves it so if and only if it fails the channel only in `CONNECTED`. -/
theorem closing_iff (c : WebSocketChannel) (history : List WebSocketEvent)
    (run : Run webSocketing FailsConnected c history) :
    c.ClosesOrderly history ∧ ∀ a s, c.act a = some s →
      (s.channel.ClosesOrderly s.events ↔ c.FailsConnected a) := by
  have hopen {c : WebSocketChannel} {history : List WebSocketEvent}
      (run : Run webSocketing FailsConnected c history) (hwriting : c.writing = true) :
      c.isOpen = true := by
    rw [(Sends.of_run run).writing] at hwriting
    exact (Bool.and_eq_true_iff.mp hwriting).1
  have hsafe : c.Timed ∧ ∀ e ∈ history, e.Orderly := by
    refine run.safe ?_ ?_
    · rintro s rfl
      exact ⟨by decide, by decide, by decide⟩
    · rintro c a c' events ⟨history, run⟩ h hfails hstep
      obtain ⟨s, hact, heq⟩ := Option.map_eq_some_iff.mp hstep
      cases heq
      have hproceeds := h.act (hopen run) hact hfails
      exact ⟨hproceeds.timed, hproceeds.orderly⟩
  obtain ⟨htimed, horderly⟩ := hsafe
  refine ⟨⟨horderly, fun hclosed ↦ htimed.closeTimer_eq_false (Or.inr hclosed)⟩,
    fun a s hact ↦ ⟨fun hkept ↦ ?_, fun hfails ↦ ?_⟩⟩
  · by_contra hfails
    exact htimed.act_of_not hact hfails hkept
  · exact (htimed.act (hopen run) hact hfails).closesOrderly

end WebSocketChannel

namespace Scenario

/-- A ping is answered, both sides send a close frame, and the peer does not close the connection.
-/
def closeHandshake : List WebSocketAction :=
  [.handleFrame { opcode := 9, payload := [1] } [none], .startClosingHandshake 1000 "" [],
    .onWriteDone none [], .handleFrame { opcode := 8 } [], .closeTimeout]

/-- A frame with a reserved bit is read after a close frame was sent, and then the timer goes off.
-/
def failWhileClosing : List WebSocketAction :=
  [.startClosingHandshake 1000 "" [none], .handleFrame { opcode := 2, isReserved := true } [],
    .closeTimeout]

end Scenario

namespace WebSocketChannel

/-- The channel ends in `CLOSED`, with its timer stopped. -/
theorem closing_of_handshake :
    ∃ c history, Run webSocketing FailsConnected c history ∧ c.state = .closed ∧
      c.closeTimer = false := by
  have hexec : (webSocketing.exec FailsConnected {} [] Scenario.closeHandshake).map
      (fun result ↦ result.1.state) = some .closed := by
    decide
  obtain ⟨⟨c, history⟩, hrun, hstate⟩ := Option.map_eq_some_iff.mp hexec
  have run : Run webSocketing FailsConnected c history := (Run.start rfl).of_exec hrun
  obtain ⟨⟨-, htimer⟩, -⟩ := closing_iff c history run
  exact ⟨c, history, run, hstate, htimer hstate⟩

/-- The timer is running in `CLOSED`; when it goes off, a `DCHECK` fails and the state is set again.
-/
theorem closing_disorderly :
    (¬ ∀ c history, Run webSocketing unguarded c history → c.state = .closed →
      c.closeTimer = false) ∧
    (¬ ∀ c history, Run webSocketing unguarded c history → .checked false ∉ history) ∧
    ¬ ∀ c history, Run webSocketing unguarded c history → ∀ new, .moved .closed new ∉ history := by
  have hrunning : (webSocketing.exec unguarded {} [] (Scenario.failWhileClosing.take 2)).map
      (fun result ↦ (result.1.state, result.1.closeTimer)) = some (.closed, true) := by
    decide
  have hexpired : (webSocketing.exec unguarded {} [] Scenario.failWhileClosing).map
      (fun result ↦ result.2.drop 7) = some [.checked false, .moved .closed .closed] := by
    decide
  refine ⟨fun hall ↦ ?_, fun hall ↦ ?_, fun hall ↦ ?_⟩
  · obtain ⟨⟨c, history⟩, hrun, heq⟩ := Option.map_eq_some_iff.mp hrunning
    simp only [Prod.mk.injEq] at heq
    have htimer := hall c history ((Run.start rfl).of_exec hrun) heq.1
    rw [heq.2] at htimer
    cases htimer
  · obtain ⟨⟨c, history⟩, hrun, heq⟩ := Option.map_eq_some_iff.mp hexpired
    refine hall c history ((Run.start rfl).of_exec hrun) (List.mem_of_mem_drop (i := 7) ?_)
    simp only at heq
    rw [heq]
    exact List.mem_cons_self
  · obtain ⟨⟨c, history⟩, hrun, heq⟩ := Option.map_eq_some_iff.mp hexpired
    refine hall c history ((Run.start rfl).of_exec hrun) .closed (List.mem_of_mem_drop (i := 7) ?_)
    simp only at heq
    rw [heq]
    simp

end WebSocketChannel

end Felicia
