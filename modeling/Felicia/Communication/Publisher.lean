import Felicia.Channel.ChannelBuffer
import Felicia.Message.Header
import Felicia.Support.Transition
import Felicia.Util.Pool

/-!
# The send buffer of a publisher

`Publisher::SendMessage` of `felicia/core/communication/publisher.h`, for a registered publisher
whose channels have no native header. They share `send_buffer_`, handed out by
`Channel::SetSendBuffer`. `SendMessage` goes on when one of them is free and stores the next message
there; the others may still be sending the last one.

The main thread is inside the loop of `SendMessage` or it is not. Outside it runs tasks, and the
writes of all channels go on. Inside it is in `SendInternalBuffer` of one channel at most, whose
write may take bytes and end before the call returns, and then its callback may publish again, so
loops can be nested. `publishing` is the system of these steps.

`Sound` is the invariant of the runs that store no message while a channel is sending or a loop is
under way, and `Sound.step` is its step lemma.
-/

set_option autoImplicit false
set_option relaxedAutoImplicit false

namespace Felicia

open Support TransitionSystem

/-! ### State -/

/-- A write under way, started by `SendInternalBuffer`. -/
structure Send where
  /-- What the message was serialized to. -/
  content : List UInt8
  toSend : ℕ
  /-- The allocation of the buffer when the write was started. -/
  allocation : ℕ
  /-- What each receiver got so far. -/
  received : List (List UInt8)
  deriving DecidableEq

/-- A receiver takes bytes from the memory, as many of those to send as come after what it got. -/
def Send.take (send : Send) (memory : List UInt8) (j n : ℕ) : Option Send :=
  send.received[j]?.map fun bytes ↦
    let more := ((memory.take send.toSend).drop bytes.length).take n
    { send with received := send.received.set j (bytes ++ more) }

/-- A channel without a native header. `IsSending` while its callback did not run. -/
structure PublisherChannel where
  type : ChannelType
  sending : Option Send := none

/-- A run of the loop of `SendMessage`: the next channel, and the one whose `SendInternalBuffer` did
not return. -/
structure SendLoop where
  content : List UInt8
  toSend : ℕ
  next : ℕ := 0
  current : Option ℕ := none
  deriving DecidableEq

/-- `Publisher`, with the loops under way, the innermost first, and the number of `SendMessage`
tasks that were posted. -/
structure Publisher (M : Type) where
  messageQueue : Pool M
  sendBuffer : ChannelBuffer
  channels : List PublisherChannel
  loops : List SendLoop := []
  tasks : ℕ := 0

/-- A send whose callback ran: the message and what each receiver got. -/
structure Sent where
  content : List UInt8
  received : List (List UInt8)
  deriving DecidableEq

/-! ### Steps -/

namespace Publisher

variable {M : Type} (serialize : M → Option (List UInt8)) (p : Publisher M)

/-- Some channel is not sending and has receivers. -/
def canSend (receivers : ℕ → ℕ) : Bool :=
  (List.range p.channels.length).any fun i ↦
    (p.channels[i]?.any fun channel ↦ channel.sending.isNone) && decide (0 < receivers i)

/-- The message that `SendMessage` takes from the queue and stores in the buffer, with the buffer
made large enough. -/
def nextContent (receivers : ℕ → ℕ) : Option (List UInt8 × ChannelBuffer) :=
  if p.canSend receivers then
    p.messageQueue.front?.bind fun message ↦ (serialize message).bind fun content ↦
      (p.sendBuffer.setEnoughCapacityIfDynamic (headerSize + content.length)).map fun buffer ↦
        (content, buffer)
  else none

/-- `SendMessage` up to its loop. A message that cannot be serialized or stored is dropped. -/
def sendMessage (receivers : ℕ → ℕ) : Publisher M :=
  if p.canSend receivers && p.messageQueue.front?.isSome then
    match p.nextContent serialize receivers with
    | some (content, buffer) =>
      { p with
        messageQueue := p.messageQueue.pop
        sendBuffer := buffer.copy (attachHeader content)
        loops := { content, toSend := headerSize + content.length } :: p.loops }
    | none => { p with messageQueue := p.messageQueue.pop, tasks := p.tasks + 1 }
  else p

/-- The main thread can run the write of a channel: it is in no loop, or in `SendInternalBuffer` of
this channel. -/
def mayWrite (i : ℕ) : Bool :=
  match p.loops with
  | [] => true
  | loop :: _ => loop.current = some i

/-- The main thread can run `Publish`: it is in no loop, or in the callback of the channel whose
`SendInternalBuffer` did not return. -/
def mayPublish : Bool :=
  match p.loops with
  | [] => true
  | loop :: _ => loop.current.any fun i ↦ p.channels[i]?.any fun channel ↦ channel.sending.isNone

/-- The write that `SendInternalBuffer` starts. -/
def startSend (loop : SendLoop) (receivers : ℕ) : Send :=
  { content := loop.content, toSend := loop.toSend, allocation := p.sendBuffer.allocations
    received := List.replicate receivers [] }

/-- One round of the innermost loop, or its end. -/
def visit (receivers : ℕ) : Option (Publisher M) :=
  match p.loops with
  | [] => none
  | loop :: outer =>
    if loop.current.isSome then none
    else match p.channels[loop.next]? with
      | none => some { p with loops := outer, tasks := p.tasks + 1 }
      | some channel =>
        if channel.sending.isNone && decide (0 < receivers) then
          let send := p.startSend loop receivers
          some { p with
            channels := p.channels.set loop.next { channel with sending := some send }
            loops := { loop with next := loop.next + 1, current := some loop.next } :: outer }
        else some { p with loops := { loop with next := loop.next + 1 } :: outer }

/-- `SendInternalBuffer` returns. -/
def ret : Option (Publisher M) :=
  match p.loops with
  | [] => none
  | loop :: outer =>
    if loop.current.isSome then some { p with loops := { loop with current := none } :: outer }
    else none

/-- A receiver of a channel gets more of the buffer, after what it got. -/
def take (i j n : ℕ) : Option (Publisher M) :=
  if p.mayWrite i then
    p.channels[i]?.bind fun channel ↦ channel.sending.bind fun send ↦
      (send.take p.sendBuffer.memory j n).map fun send ↦
        { p with channels := p.channels.set i { channel with sending := some send } }
  else none

/-- The callback of a channel runs. -/
def complete (i : ℕ) : Option (Publisher M × List Sent) :=
  if p.mayWrite i then
    p.channels[i]?.bind fun channel ↦ channel.sending.map fun send ↦
      ({ p with channels := p.channels.set i { channel with sending := none } },
        [{ content := send.content, received := send.received }])
  else none

end Publisher

/-- What can happen next. The number of receivers of each channel is what `HasReceivers` and the
channel see at that moment. -/
inductive PublisherAction (M : Type)
  /-- `Publish` on another thread: the message is pushed and `SendMessage` is posted. -/
  | post (message : M)
  /-- `Publish` on the main thread. -/
  | publish (message : M) (receivers : ℕ → ℕ)
  /-- The main thread runs a `SendMessage` task. -/
  | runTask (receivers : ℕ → ℕ)
  | visit (receivers : ℕ)
  | ret
  | take (i j n : ℕ)
  | complete (i : ℕ)

namespace Publisher

variable {M : Type} (serialize : M → Option (List UInt8)) (p : Publisher M)

/-- The state in which an action runs `SendMessage`, and the receivers that it sees. -/
def enters : PublisherAction M → Option (Publisher M × (ℕ → ℕ))
  | .publish message receivers =>
    if p.mayPublish then some ({ p with messageQueue := p.messageQueue.push message }, receivers)
    else none
  | .runTask receivers =>
    if p.loops.isEmpty && decide (0 < p.tasks) then
      some ({ p with tasks := p.tasks - 1 }, receivers)
    else none
  | _ => none

def step : PublisherAction M → Option (Publisher M × List Sent)
  | .post message =>
    some ({ p with messageQueue := p.messageQueue.push message, tasks := p.tasks + 1 }, [])
  | .publish message receivers => (p.enters (.publish message receivers)).map fun (q, receivers) ↦
      (q.sendMessage serialize receivers, [])
  | .runTask receivers => (p.enters (.runTask receivers)).map fun (q, receivers) ↦
      (q.sendMessage serialize receivers, [])
  | .visit receivers => (p.visit receivers).map (·, [])
  | .ret => p.ret.map (·, [])
  | .take i j n => (p.take i j n).map (·, [])
  | .complete i => p.complete i

/-- No channel is sending, and no loop of `SendMessage` is under way. -/
def Quiet : Prop := p.loops = [] ∧ ∀ channel ∈ p.channels, channel.sending = none

instance : Decidable p.Quiet :=
  inferInstanceAs (Decidable (p.loops = [] ∧ ∀ channel ∈ p.channels, channel.sending = none))

end Publisher

/-- A registered publisher, from a state in which it sends nothing. It observes the sends whose
callback ran. -/
def publishing {M : Type} (serialize : M → Option (List UInt8)) :
    TransitionSystem (Publisher M) (PublisherAction M) Sent where
  Initial p := p.Quiet
  step p a := p.step serialize a

/-! ### What the buffer holds while channels send from it -/

/-- The buffer holds the framed message that is being sent, in the memory it had at the start, and
each receiver got the first bytes of it. -/
structure Send.Intact (send : Send) (buffer : ChannelBuffer) : Prop where
  frame : buffer.memory.take send.toSend = attachHeader send.content
  allocation : send.allocation = buffer.allocations
  received : ∀ bytes ∈ send.received, bytes = (attachHeader send.content).take bytes.length

/-- Each receiver got the first bytes of the framed message. -/
def Sent.Framed (e : Sent) : Prop :=
  ∀ bytes ∈ e.received, bytes = (attachHeader e.content).take bytes.length

/-- Assumes: a receiver that got as many bytes as there were to send. It got the framed message. -/
theorem Sent.Framed.eq_attachHeader {e : Sent} (h : e.Framed) {bytes : List UInt8}
    (hbytes : bytes ∈ e.received) (hlength : headerSize + e.content.length ≤ bytes.length) :
    bytes = attachHeader e.content := by
  rw [h bytes hbytes, List.take_of_length_le]
  rw [length_attachHeader]
  exact hlength

namespace Publisher

variable {M : Type} {serialize : M → Option (List UInt8)} {p p' : Publisher M}
  {a : PublisherAction M} {events : List Sent}

/-- What every channel is sending is in the buffer. -/
def Intact (p : Publisher M) : Prop :=
  ∀ channel ∈ p.channels, ∀ send ∈ channel.sending, send.Intact p.sendBuffer

/-- A message is stored only when no channel is sending and no loop is under way. -/
def Alone (serialize : M → Option (List UInt8)) (p : Publisher M) (a : PublisherAction M) : Prop :=
  ∀ e ∈ p.enters a, (e.1.nextContent serialize e.2).isSome = true → p.Quiet

instance (serialize : M → Option (List UInt8)) (p : Publisher M) (a : PublisherAction M) :
    Decidable (Alone serialize p a) :=
  inferInstanceAs (Decidable
    (∀ e ∈ p.enters a, (e.1.nextContent serialize e.2).isSome = true → p.Quiet))

/-- What is being sent, and what the loops under way are going to send, is in the buffer. -/
structure Sound (p : Publisher M) : Prop where
  intact : p.Intact
  loop : ∀ loop ∈ p.loops,
    p.sendBuffer.memory.take loop.toSend = attachHeader loop.content

theorem Quiet.sound (h : p.Quiet) : p.Sound := by
  refine ⟨fun channel hchannel send hsend ↦ ?_, by simp [h.1]⟩
  rw [h.2 channel hchannel] at hsend
  cases hsend

/-- Assumes: a state that differs in the queue and the tasks. -/
theorem Sound.congr (h : p.Sound) (hbuffer : p'.sendBuffer = p.sendBuffer)
    (hchannels : p'.channels = p.channels) (hloops : p'.loops = p.loops) : p'.Sound := by
  refine ⟨?_, ?_⟩
  · rw [Intact, hbuffer, hchannels]
    exact h.intact
  · rw [hbuffer, hloops]
    exact h.loop

/-- Assumes: nothing is sent when a message is stored. -/
theorem Sound.sendMessage (h : p.Sound) (receivers : ℕ → ℕ)
    (halone : (p.nextContent serialize receivers).isSome = true → p.Quiet) :
    (p.sendMessage serialize receivers).Sound := by
  unfold Publisher.sendMessage
  split_ifs
  · cases hnext : p.nextContent serialize receivers with
    | none => exact h.congr rfl rfl rfl
    | some next =>
      obtain ⟨hloops, hchannels⟩ := halone (by rw [hnext]; rfl)
      refine ⟨fun channel hchannel send hsend ↦ ?_, ?_⟩
      · rw [hchannels channel hchannel] at hsend
        cases hsend
      · simp only [hloops, List.forall_mem_singleton, ← length_attachHeader]
        exact next.2.take_copy _
  · exact h

/-- Assumes: a channel of which only what it sends changes. -/
theorem Sound.set (h : p.Sound) (i : ℕ) {channel : PublisherChannel}
    (hsend : ∀ send ∈ channel.sending, send.Intact p.sendBuffer) :
    Sound { p with channels := p.channels.set i channel } := by
  refine ⟨fun c hc ↦ ?_, h.loop⟩
  rcases List.mem_or_eq_of_mem_set hc with hold | rfl
  · exact h.intact c hold
  · exact hsend

/-- Assumes: the innermost loop goes on with the same message. -/
theorem Sound.loops (h : p.Sound) {loop loop' : SendLoop} {outer : List SendLoop}
    (hloops : p.loops = loop :: outer) (hcontent : loop'.content = loop.content)
    (htoSend : loop'.toSend = loop.toSend) : Sound { p with loops := loop' :: outer } := by
  have hloop := h.loop
  rw [hloops, List.forall_mem_cons] at hloop
  refine ⟨h.intact, List.forall_mem_cons.mpr ⟨?_, hloop.2⟩⟩
  rw [hcontent, htoSend]
  exact hloop.1

theorem Sound.visit (h : p.Sound) {receivers : ℕ} (hstep : p.visit receivers = some p') :
    p'.Sound := by
  unfold Publisher.visit at hstep
  cases hloops : p.loops with
  | nil => simp [hloops] at hstep
  | cons loop outer =>
    have hloop := h.loop
    rw [hloops, List.forall_mem_cons] at hloop
    simp only [hloops] at hstep
    split_ifs at hstep
    cases hchannel : p.channels[loop.next]? with
    | none =>
      rw [hchannel] at hstep
      cases hstep
      exact ⟨h.intact, hloop.2⟩
    | some channel =>
      simp only [hchannel] at hstep
      split_ifs at hstep
      · cases hstep
        have hsend : (p.startSend loop receivers).Intact p.sendBuffer := by
          refine ⟨hloop.1, rfl, fun bytes hbytes ↦ ?_⟩
          rw [List.eq_of_mem_replicate hbytes]
          rfl
        exact ⟨(h.set loop.next (by simpa using hsend)).intact,
          List.forall_mem_cons.mpr ⟨hloop.1, hloop.2⟩⟩
      · cases hstep
        exact h.loops hloops rfl rfl

theorem Sound.ret (h : p.Sound) (hstep : p.ret = some p') : p'.Sound := by
  unfold Publisher.ret at hstep
  cases hloops : p.loops with
  | nil => simp [hloops] at hstep
  | cons loop outer =>
    simp only [hloops] at hstep
    split_ifs at hstep
    cases hstep
    exact h.loops hloops rfl rfl

end Publisher

/-- Assumes: a send whose message is in the buffer. It stays so when a receiver takes more. -/
theorem Send.Intact.take {send send' : Send} {buffer : ChannelBuffer} (h : send.Intact buffer)
    {j n : ℕ} (htake : send.take buffer.memory j n = some send') : send'.Intact buffer := by
  obtain ⟨bytes, hbytes, rfl⟩ := Option.map_eq_some_iff.mp htake
  refine ⟨h.frame, h.allocation, fun bytes' hbytes' ↦ ?_⟩
  rcases List.mem_or_eq_of_mem_set hbytes' with hold | rfl
  · exact h.received bytes' hold
  · have hprev := h.received bytes (List.mem_of_getElem? hbytes)
    dsimp only
    rw [h.frame]
    nth_rewrite 1 [hprev]
    rw [← List.take_add]
    simp only [List.take_eq_take_iff, List.length_append, List.length_take, List.length_drop]
    omega

namespace Publisher

variable {M : Type} {serialize : M → Option (List UInt8)} {p p' : Publisher M}
  {a : PublisherAction M} {events : List Sent}

theorem Sound.take (h : p.Sound) {i j n : ℕ} (hstep : p.take i j n = some p') : p'.Sound := by
  unfold Publisher.take at hstep
  split_ifs at hstep
  obtain ⟨channel, hchannel, hstep⟩ := Option.bind_eq_some_iff.mp hstep
  obtain ⟨send, hsend, hstep⟩ := Option.bind_eq_some_iff.mp hstep
  obtain ⟨send', htake, rfl⟩ := Option.map_eq_some_iff.mp hstep
  have hintact := h.intact channel (List.mem_of_getElem? hchannel) send hsend
  exact h.set i (by simpa using hintact.take htake)

theorem Sound.complete (h : p.Sound) {i : ℕ} (hstep : p.complete i = some (p', events)) :
    p'.Sound ∧ ∀ e ∈ events, e.Framed := by
  unfold Publisher.complete at hstep
  split_ifs at hstep
  obtain ⟨channel, hchannel, hstep⟩ := Option.bind_eq_some_iff.mp hstep
  obtain ⟨send, hsend, heq⟩ := Option.map_eq_some_iff.mp hstep
  cases heq
  have hintact := h.intact channel (List.mem_of_getElem? hchannel) send hsend
  exact ⟨h.set i (by simp), List.forall_mem_singleton.mpr hintact.received⟩

/-- Assumes: a step that stores a message only when nothing is sent. The step lemma. -/
theorem Sound.step (h : p.Sound) (halone : p.Alone serialize a)
    (hstep : p.step serialize a = some (p', events)) : p'.Sound ∧ ∀ e ∈ events, e.Framed := by
  have henters {q : Publisher M} {receivers : ℕ → ℕ} (he : p.enters a = some (q, receivers))
      (hq : q.sendBuffer = p.sendBuffer ∧ q.channels = p.channels ∧ q.loops = p.loops) :
      (q.sendMessage serialize receivers).Sound := by
    refine (h.congr hq.1 hq.2.1 hq.2.2).sendMessage receivers fun hnext ↦ ?_
    have hquiet := halone _ he hnext
    rw [Quiet, hq.2.1, hq.2.2]
    exact hquiet
  cases a with
  | post message =>
    cases hstep
    exact ⟨h.congr rfl rfl rfl, List.forall_mem_nil _⟩
  | publish message receivers =>
    obtain ⟨⟨q, seen⟩, he, heq⟩ := Option.map_eq_some_iff.mp hstep
    cases heq
    refine ⟨henters he ?_, List.forall_mem_nil _⟩
    simp only [enters] at he
    split_ifs at he
    cases he
    exact ⟨rfl, rfl, rfl⟩
  | runTask receivers =>
    obtain ⟨⟨q, seen⟩, he, heq⟩ := Option.map_eq_some_iff.mp hstep
    cases heq
    refine ⟨henters he ?_, List.forall_mem_nil _⟩
    simp only [enters] at he
    split_ifs at he
    cases he
    exact ⟨rfl, rfl, rfl⟩
  | visit receivers =>
    obtain ⟨q, hvisit, heq⟩ := Option.map_eq_some_iff.mp hstep
    cases heq
    exact ⟨h.visit hvisit, List.forall_mem_nil _⟩
  | ret =>
    obtain ⟨q, hret, heq⟩ := Option.map_eq_some_iff.mp hstep
    cases heq
    exact ⟨h.ret hret, List.forall_mem_nil _⟩
  | take i j n =>
    obtain ⟨q, htake, heq⟩ := Option.map_eq_some_iff.mp hstep
    cases heq
    exact ⟨h.take htake, List.forall_mem_nil _⟩
  | complete i => exact h.complete hstep

/-- In every run that stores a message only when no channel is sending and no loop of `SendMessage`
is under way, the buffer holds what each channel is sending from the start of the send until its
callback runs, in the memory it had at the start. Each send gives every receiver the first bytes of
one framed message, and all of it when as many bytes arrive as there were to send. -/
theorem send_buffer_intact (serialize : M → Option (List UInt8)) (p : Publisher M)
    (history : List Sent) (run : Run (publishing serialize) (Alone serialize) p history) :
    p.Intact ∧ ∀ e ∈ history, e.Framed ∧ ∀ bytes ∈ e.received,
      headerSize + e.content.length ≤ bytes.length → bytes = attachHeader e.content := by
  have hinv : p.Sound ∧ ∀ e ∈ history, e.Framed := by
    refine run.safe ?_ ?_
    · exact fun p hquiet ↦ Quiet.sound hquiet
    · exact fun p a p' events _ hsound halone hstep ↦ hsound.step halone hstep
  refine ⟨hinv.1.intact, fun e he ↦ ⟨hinv.2 e he, fun bytes hbytes hlength ↦ ?_⟩⟩
  exact (hinv.2 e he).eq_attachHeader hbytes hlength

end Publisher

namespace Scenario

/-- A publisher of byte strings with two channels. -/
def publisher : Publisher (List UInt8) where
  messageQueue := { index := { capacity := 2 } }
  sendBuffer := { isDynamic := true }
  channels := [{ type := .uds }, { type := .tcp }]

/-- Publish on the main thread. Each channel has one receiver. -/
def publish (message : List UInt8) : PublisherAction (List UInt8) :=
  .publish message fun _ ↦ 1

/-- A message is published and both channels start to send it. The second one is done at once, the
first one after two bytes has to wait. -/
def firstMessage : List (PublisherAction (List UInt8)) :=
  [publish [1], .visit 1, .take 0 0 2, .ret, .visit 1, .take 1 0 5, .complete 1, .ret, .visit 0]

end Scenario

namespace Publisher

theorem initial_scenario : (publishing (M := List UInt8) some).Initial Scenario.publisher :=
  ⟨rfl, by simp [Scenario.publisher]⟩

/-- The first message is sent before the second one is published. -/
theorem send_buffer_intact_of_two_messages :
    ∃ p history, Run (publishing (M := List UInt8) some) (Alone some) p history ∧
      history = [⟨[1], [[1, 0, 0, 0, 1]]⟩, ⟨[1], [[1, 0, 0, 0, 1]]⟩] ∧
      p.channels.map (·.sending.isSome) = [true, false] ∧ p.Intact ∧
      ∀ e ∈ history, e.Framed ∧ ∀ bytes ∈ e.received,
        headerSize + e.content.length ≤ bytes.length → bytes = attachHeader e.content := by
  have hexec : ((publishing (M := List UInt8) some).exec (Alone some) Scenario.publisher []
      (Scenario.firstMessage ++ [.take 0 0 3, .complete 0, Scenario.publish [2], .visit 1])).map
      (fun result ↦ (result.2, result.1.channels.map (·.sending.isSome))) =
      some ([⟨[1], [[1, 0, 0, 0, 1]]⟩, ⟨[1], [[1, 0, 0, 0, 1]]⟩], [true, false]) := by
    decide
  obtain ⟨⟨p, history⟩, hrun, heq⟩ := Option.map_eq_some_iff.mp hexec
  have run := (Run.start initial_scenario).of_exec hrun
  obtain ⟨hhistory, hsending⟩ := Prod.mk.inj heq
  exact ⟨p, history, run, hhistory, hsending, send_buffer_intact some p history run⟩

/-- The second message is published while the first one is being sent: it is stored over it, and a
receiver gets the end of the second after the start of the first. -/
theorem overwritten_send_buffer :
    (¬ ∀ p history, Run (publishing (M := List UInt8) some) unguarded p history → p.Intact) ∧
    ¬ ∀ p history, Run (publishing (M := List UInt8) some) unguarded p history →
      ∀ e ∈ history, e.Framed := by
  refine ⟨fun h ↦ ?_, fun h ↦ ?_⟩
  · have hexec : ((publishing (M := List UInt8) some).exec unguarded Scenario.publisher []
        (Scenario.firstMessage ++ [Scenario.publish [2]])).map (fun result ↦
          (result.1.channels.map (·.sending), result.1.sendBuffer.memory)) =
        some ([some ⟨[1], 5, 1, [[1, 0]]⟩, none], [1, 0, 0, 0, 2]) := by
      decide
    obtain ⟨⟨p, history⟩, hrun, heq⟩ := Option.map_eq_some_iff.mp hexec
    have hintact := h p history ((Run.start initial_scenario).of_exec hrun)
    obtain ⟨hsending, hmemory⟩ := Prod.mk.inj heq
    have hmem : some ⟨[1], 5, 1, [[1, 0]]⟩ ∈ p.channels.map (·.sending) := by
      rw [hsending]
      decide
    obtain ⟨channel, hchannel, hsend⟩ := List.mem_map.mp hmem
    have hframe := (hintact channel hchannel _ hsend).frame
    rw [hmemory] at hframe
    exact absurd hframe (by decide)
  · have hexec : ((publishing (M := List UInt8) some).exec unguarded Scenario.publisher []
        (Scenario.firstMessage ++ [Scenario.publish [2], .visit 1, .visit 1, .ret, .visit 0,
          .take 0 0 3, .complete 0])).map (·.2) =
        some [⟨[1], [[1, 0, 0, 0, 1]]⟩, ⟨[1], [[1, 0, 0, 0, 2]]⟩] := by
      decide
    obtain ⟨⟨p, history⟩, hrun, heq⟩ := Option.map_eq_some_iff.mp hexec
    have hframed := h p history ((Run.start initial_scenario).of_exec hrun)
    dsimp only at heq
    rw [heq] at hframed
    have hbytes := hframed ⟨[1], [[1, 0, 0, 0, 2]]⟩ (by decide) [1, 0, 0, 0, 2] (by decide)
    exact absurd hbytes (by decide)

end Publisher

end Felicia
