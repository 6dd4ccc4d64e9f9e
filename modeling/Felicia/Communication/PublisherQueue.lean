import Felicia.Channel.MessageReceiver
import Felicia.Communication.PublisherLifecycle

/-!
# What becomes of a published message

`Publisher::Publish` and `Publisher::SendMessage` of `felicia/core/communication/publisher.h`, from
the queue to the channels. `SendMessage` looks for a channel that is free and has receivers, removes
the front message, serializes it and stores the frame in `send_buffer_`. Then it hands the message
to every channel that is free and has receivers, the one it found first among them; nothing else
runs in between. `OnSendMessage` tells the status of each channel to the callback or the log.

The removed messages are numbered. `Ledger` is what holds of the numbers in every run: a number that
a channel or a loop works on was handed to a channel, and so was one that `OnSendMessage` was run
for. `Ledger.step` is its step lemma, over the cases of `step_cases`. A message that cannot be
serialized or stored is handed to no channel, and nothing is told of it: `removed_accounted_iff`.

`Felicia.Communication.Publisher` has the bytes of the buffer while channels send from it, and
`Felicia.Communication.PublisherLifecycle` has when a publisher sets up its channels, registers and
releases; here it may set up and release whenever the main thread is free or runs a callback, and
register at any time.
-/

set_option autoImplicit false
set_option relaxedAutoImplicit false

namespace Felicia

open Support TransitionSystem

/-! ### State -/

/-- `HasNativeHeader`. -/
def ChannelType.hasNativeHeader : ChannelType → Bool
  | .ws => true
  | _ => false

/-- A number of bytes as an `int`. -/
def asInt (n : ℕ) : ℤ := (BitVec.ofNat 32 n).toInt

/-- A channel, with the number of the message it sends. Without a native header it sends from the
buffer of the publisher. -/
structure QueueChannel where
  type : ChannelType
  sendBuffer : ChannelBuffer := {}
  sending : Option ℕ := none

/-- A run of the loop of `SendMessage`: the next channel, and the one whose `Send` or
`SendInternalBuffer` did not return. -/
structure Handing where
  number : ℕ
  content : List UInt8
  next : ℕ := 0
  current : Option ℕ := none

/-- `Publisher`, with the loops under way, the innermost first, the number of `SendMessage` tasks
that were posted, and of messages that `SendMessage` removed. -/
structure QueueingPublisher (M : Type) where
  messageQueue : Option (Pool M) := none
  sendBuffer : ChannelBuffer := {}
  channels : List QueueChannel := []
  loops : List Handing := []
  tasks : ℕ := 0
  removed : ℕ := 0

/-- A message that is removed, and the buffer it finds. -/
structure Removed (M : Type) where
  message : M
  capacity : ℕ
  isDynamic : Bool
  deriving DecidableEq

/-- What is seen of a message. -/
inductive QueueEvent (M : Type)
  | removed (number : ℕ) (r : Removed M)
  /-- `Send` or `SendInternalBuffer` of a channel is called. -/
  | handed (number i : ℕ)
  /-- `OnSendMessage`: the callback is run, or an error is logged. -/
  | answered (number : ℕ) (type : ChannelType) (status : Status)
  deriving DecidableEq

/-- What can happen next. Whether a channel has receivers is what `HasReceivers` says at that
moment. -/
inductive QueueAction (M : Type)
  /-- `SetupAllChannels` adds a channel. -/
  | setup (type : ChannelType)
  /-- `OnPublishTopicAsync` makes the queue. The replies of the master come on another thread, so it
  may be used before the buffers are ready. -/
  | makeQueue (settings : PublisherSettings)
  /-- `OnPublishTopicAsync` makes the buffers ready. -/
  | setBuffers (settings : PublisherSettings)
  | release
  /-- `Publish` on another thread: the message is pushed and `SendMessage` is posted. -/
  | post (message : M)
  /-- `Publish` on the main thread. -/
  | publish (message : M) (hasReceivers : ℕ → Bool)
  /-- The main thread runs a `SendMessage` task. -/
  | runTask (hasReceivers : ℕ → Bool)
  | visit (hasReceivers : Bool)
  | ret
  | complete (i : ℕ) (status : Status)

/-! ### Steps -/

/-- `Channel::Send` if the channel has a native header, else `Channel::SendInternalBuffer`; with the
status that the callback is run with at once, if any. -/
def QueueChannel.send (channel : QueueChannel) (number : ℕ) (content : List UInt8) :
    QueueChannel × Option Status :=
  if channel.type.hasNativeHeader then
    match channel.sendBuffer.reset.setEnoughCapacityIfDynamic (asInt content.length).toNat with
    | none =>
      ({ channel with sendBuffer := channel.sendBuffer.reset },
        some (aborted MessageIOError.notEnoughBuffer.toString))
    | some buffer =>
      ({ channel with sendBuffer := buffer.copy content, sending := some number }, none)
  else ({ channel with sending := some number }, none)

namespace QueueingPublisher

variable {M : Type} (serialize : M → Option (List UInt8)) (p : QueueingPublisher M)

/-- The first channel that is not sending and has receivers. -/
def firstFree (hasReceivers : ℕ → Bool) : Option (QueueChannel × ℕ) :=
  p.channels.zipIdx.find? fun entry ↦ entry.1.sending.isNone && hasReceivers entry.2

/-- The content of a message, and `send_buffer_` with enough capacity for its frame. A frame whose
length is no `int` is stored beyond the end of the buffer. -/
def framed (message : M) : Option (List UInt8 × ChannelBuffer) :=
  (serialize message).bind fun content ↦
    (p.sendBuffer.setEnoughCapacityIfDynamic (asInt (headerSize + content.length)).toNat).map
      fun buffer ↦ (content, buffer)

/-- A round of a loop in which the message is handed to the channel. -/
def hand (loop : Handing) (outer : List Handing) (channel : QueueChannel) :
    QueueingPublisher M × List (QueueEvent M) :=
  let sent := channel.send loop.number loop.content
  ({ p with
     channels := p.channels.set loop.next sent.1
     loops := { loop with next := loop.next + 1, current := some loop.next } :: outer },
    .handed loop.number loop.next :: (sent.2.map (.answered loop.number channel.type)).toList)

/-- `SendMessage`, up to the first channel that the message is handed to. -/
def sendMessage (hasReceivers : ℕ → Bool) : QueueingPublisher M × List (QueueEvent M) :=
  match p.firstFree hasReceivers, p.messageQueue.bind Pool.front? with
  | some (channel, i), some message =>
    let q := { p with messageQueue := p.messageQueue.map Pool.pop, removed := p.removed + 1 }
    let removed := .removed p.removed ⟨message, p.sendBuffer.capacity, p.sendBuffer.isDynamic⟩
    match p.framed serialize message with
    | none => ({ q with tasks := p.tasks + 1 }, [removed])
    | some (content, buffer) =>
      let handed := { q with sendBuffer := buffer.copy (attachHeader content) }.hand
        { number := p.removed, content, next := i } p.loops channel
      (handed.1, removed :: handed.2)
  | _, _ => (p, [])

/-- One round of the innermost loop, or its end. -/
def visit (hasReceivers : Bool) : Option (QueueingPublisher M × List (QueueEvent M)) :=
  match p.loops with
  | [] => none
  | loop :: outer =>
    if loop.current.isSome then none
    else match p.channels[loop.next]? with
      | none => some ({ p with loops := outer, tasks := p.tasks + 1 }, [])
      | some channel =>
        if channel.sending.isNone && hasReceivers then some (p.hand loop outer channel)
        else some ({ p with loops := { loop with next := loop.next + 1 } :: outer }, [])

/-- `Send` or `SendInternalBuffer` returns. -/
def ret : Option (QueueingPublisher M) :=
  match p.loops with
  | [] => none
  | loop :: outer =>
    if loop.current.isSome then some { p with loops := { loop with current := none } :: outer }
    else none

/-- The main thread can run the write of a channel: it is in no loop, or in `SendInternalBuffer` of
this channel. -/
def mayWrite (i : ℕ) : Bool :=
  match p.loops with
  | [] => true
  | loop :: _ => loop.current = some i

/-- The main thread can run another task or what a callback calls: it is in no loop, or in the
callback of the channel whose `Send` or `SendInternalBuffer` did not return. -/
def mayCall : Bool :=
  match p.loops with
  | [] => true
  | loop :: _ => loop.current.any fun i ↦ p.channels[i]?.all fun channel ↦ channel.sending.isNone

/-- `Channel::OnSend`. -/
def complete (i : ℕ) (status : Status) : Option (QueueingPublisher M × List (QueueEvent M)) :=
  if p.mayWrite i then
    p.channels[i]?.bind fun channel ↦ channel.sending.map fun number ↦
      ({ p with channels := p.channels.set i { channel with sending := none } },
        [.answered number channel.type status])
  else none

/-- A buffer that `OnPublishTopicAsync` makes ready. -/
def configure (settings : PublisherSettings) (buffer : ChannelBuffer) : ChannelBuffer :=
  if settings.isDynamicBuffer then { buffer with isDynamic := true }
  else buffer.setCapacity settings.bufferSize

/-- `send_buffer_` and the buffers of the channels in `OnPublishTopicAsync`. -/
def setBuffers (settings : PublisherSettings) : QueueingPublisher M :=
  { p with
    sendBuffer := configure settings p.sendBuffer
    channels := p.channels.map fun channel ↦
      { channel with
        sendBuffer := if channel.type.hasNativeHeader then configure settings channel.sendBuffer
          else configure settings p.sendBuffer } }

/-- `message_queue_->push`, if there is a queue. -/
def push (message : M) : QueueingPublisher M :=
  { p with messageQueue := p.messageQueue.map (·.push message) }

def step : QueueAction M → Option (QueueingPublisher M × List (QueueEvent M))
  | .setup type => if p.mayCall then some ({ p with channels := p.channels ++ [{ type }] }, [])
      else none
  | .makeQueue settings =>
    some ({ p with messageQueue := some { index := { capacity := settings.queueSize } } }, [])
  | .setBuffers settings => some (p.setBuffers settings, [])
  | .release => if p.mayCall then some ({ p with channels := [], messageQueue := none }, [])
      else none
  | .post message => some ({ p.push message with tasks := p.tasks + 1 }, [])
  | .publish message hasReceivers =>
    if p.mayCall then some ((p.push message).sendMessage serialize hasReceivers) else none
  | .runTask hasReceivers =>
    if p.loops.isEmpty && decide (0 < p.tasks) then
      some ({ p with tasks := p.tasks - 1 }.sendMessage serialize hasReceivers)
    else none
  | .visit hasReceivers => p.visit hasReceivers
  | .ret => p.ret.map (·, [])
  | .complete i status => p.complete i status

end QueueingPublisher

/-- A publisher from its construction on. It observes what becomes of the messages that it removes
from its queue. -/
def queueing {M : Type} (serialize : M → Option (List UInt8)) :
    TransitionSystem (QueueingPublisher M) (QueueAction M) (QueueEvent M) where
  Initial p := p = {}
  step p a := p.step serialize a

/-! ### What a step does to the messages -/

/-- A message that can be serialized, and whose frame the buffer has room for or makes room for. -/
def Removed.Stores {M : Type} (serialize : M → Option (List UInt8)) (r : Removed M) : Prop :=
  ∃ content ∈ serialize r.message,
    asInt (headerSize + content.length) ≤ r.capacity ∨ r.isDynamic = true

namespace QueueingPublisher

variable {M : Type} {serialize : M → Option (List UInt8)} {p p' : QueueingPublisher M}
  {events : List (QueueEvent M)}

/-- The message that is removed next, and the buffer it finds. -/
def removing (p : QueueingPublisher M) (message : M) : Removed M :=
  ⟨message, p.sendBuffer.capacity, p.sendBuffer.isDynamic⟩

/-- The messages that channels send and loops hand out. -/
def underWay (p : QueueingPublisher M) : List ℕ :=
  p.channels.filterMap (·.sending) ++ p.loops.map (·.number)

/-- What a step can come to: its events, how many messages it removes, and what is under way
after it. -/
inductive StepCase (serialize : M → Option (List UInt8)) (p p' : QueueingPublisher M) :
    List (QueueEvent M) → Prop
  | quiet (hremoved : p'.removed = p.removed) (hway : p'.underWay ⊆ p.underWay) :
      StepCase serialize p p' []
  | answered {number : ℕ} (type : ChannelType) (status : Status) (hnumber : number ∈ p.underWay)
      (hremoved : p'.removed = p.removed) (hway : p'.underWay ⊆ p.underWay) :
      StepCase serialize p p' [.answered number type status]
  | handed {number : ℕ} (i : ℕ) (type : ChannelType) (status : Option Status)
      (hnumber : number ∈ p.underWay) (hremoved : p'.removed = p.removed)
      (hway : p'.underWay ⊆ p.underWay) :
      StepCase serialize p p' (.handed number i :: (status.map (.answered number type)).toList)
  | dropped {r : Removed M} (hstores : ¬ r.Stores serialize) (hremoved : p'.removed = p.removed + 1)
      (hway : p'.underWay ⊆ p.underWay) :
      StepCase serialize p p' [.removed p.removed r]
  | stored {r : Removed M} (i : ℕ) (type : ChannelType) (status : Option Status)
      (hstores : r.Stores serialize) (hremoved : p'.removed = p.removed + 1)
      (hway : p'.underWay ⊆ p.removed :: p.underWay) :
      StepCase serialize p p' (.removed p.removed r :: .handed p.removed i ::
        (status.map (.answered p.removed type)).toList)

/-- The frame is stored if and only if the message can be serialized and the buffer has room for it
or makes it. -/
theorem isSome_framed_iff (p : QueueingPublisher M) (message : M) :
    (p.framed serialize message).isSome = true ↔ (p.removing message).Stores serialize := by
  unfold framed Removed.Stores removing
  cases hserialize : serialize message with
  | none => simp
  | some content =>
    simp only [Option.bind_some, Option.isSome_map, Option.mem_def, Option.some.injEq,
      exists_eq_left', ChannelBuffer.setEnoughCapacityIfDynamic, ← Int.toNat_le]
    split_ifs with hcapacity hdynamic <;> simp [*]

/-- A channel works on the message it is handed, or on what it worked on before. -/
theorem sending_send (channel : QueueChannel) (number : ℕ) (content : List UInt8) :
    ∀ k ∈ (channel.send number content).1.sending, k = number ∨ k ∈ channel.sending := by
  intro k hk
  unfold QueueChannel.send at hk
  split_ifs at hk
  · split at hk
    · exact Or.inr hk
    · exact Or.inl (Option.some.inj hk).symm
  · exact Or.inl (Option.some.inj hk).symm

theorem mem_underWay {k : ℕ} : k ∈ p.underWay ↔
    (∃ channel ∈ p.channels, k ∈ channel.sending) ∨ ∃ loop ∈ p.loops, loop.number = k := by
  simp [underWay]

/-- Assumes: a channel of the publisher. After a round in which it is handed a message, that message
is under way, and otherwise only what was before. -/
theorem mem_underWay_hand {loop : Handing} {outer : List Handing} {channel : QueueChannel}
    (hchannel : channel ∈ p.channels) {k : ℕ} (hk : k ∈ (p.hand loop outer channel).1.underWay) :
    k = loop.number ∨ (∃ c ∈ p.channels, k ∈ c.sending) ∨ ∃ l ∈ outer, l.number = k := by
  rcases mem_underWay.mp hk with ⟨c, hc, hsending⟩ | ⟨l, hl, hnumber⟩
  · rcases List.mem_or_eq_of_mem_set hc with hold | rfl
    · exact Or.inr (Or.inl ⟨c, hold, hsending⟩)
    · rcases sending_send channel loop.number loop.content k hsending with hnew | hold
      · exact Or.inl hnew
      · exact Or.inr (Or.inl ⟨channel, hchannel, hold⟩)
  · rcases List.mem_cons.mp hl with rfl | houter
    · exact Or.inl hnumber.symm
    · exact Or.inr (Or.inr ⟨l, houter, hnumber⟩)

/-- Assumes: channels and loops that come from those before, with what they worked on. -/
theorem underWay_subset
    (hchannels : ∀ channel ∈ p'.channels, ∀ k ∈ channel.sending,
      ∃ c ∈ p.channels, k ∈ c.sending)
    (hloops : ∀ loop ∈ p'.loops, ∃ l ∈ p.loops, l.number = loop.number) :
    p'.underWay ⊆ p.underWay := by
  intro k hk
  rw [mem_underWay] at hk ⊢
  rcases hk with ⟨channel, hchannel, hsending⟩ | ⟨loop, hloop, rfl⟩
  · exact Or.inl (hchannels channel hchannel k hsending)
  · exact Or.inr (hloops loop hloop)

/-- Assumes: the same loops. -/
theorem underWay_subset_of_channels (hloops : p'.loops = p.loops)
    (hchannels : ∀ channel ∈ p'.channels, ∀ k ∈ channel.sending,
      ∃ c ∈ p.channels, k ∈ c.sending) : p'.underWay ⊆ p.underWay :=
  underWay_subset hchannels fun loop hloop ↦ ⟨loop, hloops ▸ hloop, rfl⟩

/-- Assumes: the same channels. -/
theorem underWay_subset_of_loops (hchannels : p'.channels = p.channels)
    (hloops : ∀ loop ∈ p'.loops, ∃ l ∈ p.loops, l.number = loop.number) :
    p'.underWay ⊆ p.underWay :=
  underWay_subset (fun channel hchannel _ hk ↦ ⟨channel, hchannels ▸ hchannel, hk⟩) hloops

theorem firstFree_mem {hasReceivers : ℕ → Bool} {channel : QueueChannel} {i : ℕ}
    (h : p.firstFree hasReceivers = some (channel, i)) : channel ∈ p.channels := by
  obtain ⟨j, hj, heq⟩ := List.mem_iff_getElem.mp (List.mem_of_find?_eq_some h)
  rw [List.getElem_zipIdx, Prod.mk.injEq] at heq
  exact heq.1 ▸ List.getElem_mem _

/-- `SendMessage` removes nothing, or a message that it drops or hands to a channel. -/
theorem sendMessage_cases {hasReceivers : ℕ → Bool}
    (hstep : p.sendMessage serialize hasReceivers = (p', events)) :
    StepCase serialize p p' events := by
  unfold sendMessage at hstep
  split at hstep
  · rename_i channel i message hfree hfront
    cases hframed : p.framed serialize message with
    | none =>
      simp only [hframed] at hstep
      cases hstep
      have hstores : ¬ (p.removing message).Stores serialize := by
        rw [← isSome_framed_iff, hframed]
        exact Bool.false_ne_true
      exact .dropped hstores rfl (List.Subset.refl _)
    | some frame =>
      simp only [hframed] at hstep
      cases hstep
      have hstores : (p.removing message).Stores serialize := by
        rw [← isSome_framed_iff, hframed]
        rfl
      refine .stored i channel.type _ hstores rfl fun k hk ↦ ?_
      rcases mem_underWay_hand (firstFree_mem hfree) hk with rfl | hold
      · exact List.mem_cons_self
      · exact List.mem_cons_of_mem _ (mem_underWay.mpr hold)
  · cases hstep
    exact .quiet rfl (List.Subset.refl _)

theorem visit_cases {hasReceivers : Bool} (hstep : p.visit hasReceivers = some (p', events)) :
    StepCase serialize p p' events := by
  unfold visit at hstep
  cases hloops : p.loops with
  | nil => simp [hloops] at hstep
  | cons loop outer =>
    have hloop : loop ∈ p.loops := hloops ▸ List.mem_cons_self
    have houter : ∀ l ∈ outer, l ∈ p.loops := fun l hl ↦ hloops ▸ List.mem_cons_of_mem _ hl
    simp only [hloops] at hstep
    split_ifs at hstep
    cases hnext : p.channels[loop.next]? with
    | none =>
      simp only [hnext] at hstep
      cases hstep
      exact .quiet rfl (underWay_subset_of_loops rfl fun l hl ↦ ⟨l, houter l hl, rfl⟩)
    | some channel =>
      simp only [hnext] at hstep
      split_ifs at hstep
      · cases hstep
        have hnumber : loop.number ∈ p.underWay := mem_underWay.mpr (Or.inr ⟨loop, hloop, rfl⟩)
        refine .handed loop.next channel.type _ hnumber rfl fun k hk ↦ ?_
        rcases mem_underWay_hand (List.mem_of_getElem? hnext) hk with rfl | hold | ⟨l, hl, hk⟩
        · exact hnumber
        · exact mem_underWay.mpr (Or.inl hold)
        · exact mem_underWay.mpr (Or.inr ⟨l, houter l hl, hk⟩)
      · cases hstep
        refine .quiet rfl (underWay_subset_of_loops rfl fun l hl ↦ ?_)
        rcases List.mem_cons.mp hl with rfl | hl
        · exact ⟨loop, hloop, rfl⟩
        · exact ⟨l, houter l hl, rfl⟩

theorem ret_cases (hstep : p.ret = some p') : StepCase serialize p p' [] := by
  unfold ret at hstep
  cases hloops : p.loops with
  | nil => simp [hloops] at hstep
  | cons loop outer =>
    simp only [hloops] at hstep
    split_ifs at hstep
    cases hstep
    refine .quiet rfl (underWay_subset_of_loops rfl fun l hl ↦ ?_)
    rw [hloops]
    rcases List.mem_cons.mp hl with rfl | hl
    · exact ⟨loop, List.mem_cons_self, rfl⟩
    · exact ⟨l, List.mem_cons_of_mem _ hl, rfl⟩

theorem complete_cases {i : ℕ} {status : Status} (hstep : p.complete i status = some (p', events)) :
    StepCase serialize p p' events := by
  unfold complete at hstep
  split_ifs at hstep
  obtain ⟨channel, hi, hsome⟩ := Option.bind_eq_some_iff.mp hstep
  obtain ⟨number, hsending, heq⟩ := Option.map_eq_some_iff.mp hsome
  have hchannel : channel ∈ p.channels := List.mem_of_getElem? hi
  cases heq
  refine .answered channel.type status (mem_underWay.mpr (Or.inl ⟨channel, hchannel, hsending⟩)) rfl
    (underWay_subset_of_channels rfl fun c hc k hk ↦ ?_)
  rcases List.mem_or_eq_of_mem_set hc with hold | rfl
  · exact ⟨c, hold, hk⟩
  · cases hk

/-- Assumes: the step was taken from a state with the same messages under way. -/
theorem StepCase.of_eq {q : QueueingPublisher M} (h : StepCase serialize q p' events)
    (hremoved : q.removed = p.removed) (hway : q.underWay = p.underWay) :
    StepCase serialize p p' events := by
  cases h with
  | quiet hr hw => exact .quiet (hr.trans hremoved) (hway ▸ hw)
  | answered type status hn hr hw =>
    exact .answered type status (hway ▸ hn) (hr.trans hremoved) (hway ▸ hw)
  | handed i type status hn hr hw =>
    exact .handed i type status (hway ▸ hn) (hr.trans hremoved) (hway ▸ hw)
  | dropped hs hr hw =>
    rw [hremoved] at hr ⊢
    exact .dropped hs hr (hway ▸ hw)
  | stored i type status hs hr hw =>
    rw [hremoved] at hr hw ⊢
    exact .stored i type status hs hr (hway ▸ hw)

theorem step_cases {a : QueueAction M} (hstep : p.step serialize a = some (p', events)) :
    StepCase serialize p p' events := by
  cases a with
  | setup type =>
    simp only [step] at hstep
    split_ifs at hstep
    cases hstep
    refine .quiet rfl (underWay_subset_of_channels rfl fun channel hchannel k hk ↦ ?_)
    rcases List.mem_append.mp hchannel with hold | hnew
    · exact ⟨channel, hold, hk⟩
    · rw [List.mem_singleton.mp hnew] at hk
      cases hk
  | makeQueue settings =>
    cases hstep
    exact .quiet rfl (List.Subset.refl _)
  | setBuffers settings =>
    cases hstep
    refine .quiet rfl (underWay_subset_of_channels rfl fun channel hchannel k hk ↦ ?_)
    obtain ⟨c, hc, rfl⟩ := List.mem_map.mp hchannel
    exact ⟨c, hc, hk⟩
  | release =>
    simp only [step] at hstep
    split_ifs at hstep
    cases hstep
    exact .quiet rfl (underWay_subset_of_channels rfl fun channel hchannel ↦ nomatch hchannel)
  | post message =>
    cases hstep
    exact .quiet rfl (List.Subset.refl _)
  | publish message hasReceivers =>
    simp only [step] at hstep
    split_ifs at hstep
    exact (sendMessage_cases (Option.some.inj hstep)).of_eq rfl rfl
  | runTask hasReceivers =>
    simp only [step] at hstep
    split_ifs at hstep
    exact (sendMessage_cases (Option.some.inj hstep)).of_eq rfl rfl
  | visit hasReceivers => exact visit_cases hstep
  | ret =>
    obtain ⟨q, hret, heq⟩ := Option.map_eq_some_iff.mp hstep
    cases heq
    exact ret_cases hret
  | complete i status => exact complete_cases hstep

end QueueingPublisher

/-! ### What is known of a removed message -/

section History

variable {M : Type}

/-- A message was handed to a channel. -/
def Handed (history : List (QueueEvent M)) (number : ℕ) : Prop :=
  ∃ i, QueueEvent.handed number i ∈ history

/-- A message was handed to a channel, or an error was told of it. -/
def Accounted (history : List (QueueEvent M)) (number : ℕ) : Prop :=
  Handed history number ∨
    ∃ type status, status.isOk = false ∧ QueueEvent.answered number type status ∈ history

variable {history events : List (QueueEvent M)} {number : ℕ}

/-- The message that was handed to a channel or told of. -/
def QueueEvent.number? : QueueEvent M → Option ℕ
  | .removed _ _ => none
  | .handed number _ | .answered number _ _ => some number

theorem Handed.append (h : Handed history number) : Handed (history ++ events) number := by
  obtain ⟨i, hi⟩ := h
  exact ⟨i, List.mem_append_left _ hi⟩

theorem handed_append :
    Handed (history ++ events) number ↔ Handed history number ∨ Handed events number := by
  simp [Handed, exists_or]

/-- Assumes: events of one message. -/
theorem Handed.eq_of_number? {k : ℕ} (h : Handed events k)
    (hevents : ∀ e ∈ events, e.number? = some number) : k = number := by
  obtain ⟨i, hi⟩ := h
  exact Option.some.inj (hevents _ hi)

/-- What is seen when a message is handed to a channel is of that message. -/
theorem number?_of_mem_hand {i : ℕ} {type : ChannelType} {status : Option Status}
    {e : QueueEvent M}
    (he : e ∈ QueueEvent.handed number i :: (status.map (.answered number type)).toList) :
    e.number? = some number := by
  rcases List.mem_cons.mp he with rfl | he
  · rfl
  · obtain ⟨s, -, rfl⟩ := Option.map_eq_some_iff.mp (Option.mem_toList.mp he)
    rfl

end History

namespace QueueingPublisher

variable {M : Type} {serialize : M → Option (List UInt8)} {p p' : QueueingPublisher M}
  {events history : List (QueueEvent M)}

/-- What holds of the numbers of messages in every run. -/
structure Ledger (serialize : M → Option (List UInt8)) (p : QueueingPublisher M)
    (history : List (QueueEvent M)) : Prop where
  removed : ∀ k r, QueueEvent.removed k r ∈ history → k < p.removed
  handed : ∀ k, Handed history k → k < p.removed
  stores : ∀ k r, QueueEvent.removed k r ∈ history → (Handed history k ↔ r.Stores serialize)
  answered : ∀ k type status, QueueEvent.answered k type status ∈ history → Handed history k
  underWay : ∀ k ∈ p.underWay, Handed history k

/-- Assumes: a step that removes no message, whose events are of messages under way. -/
theorem Ledger.of_underWay (h : Ledger serialize p history)
    (hremoved : p'.removed = p.removed) (hway : p'.underWay ⊆ p.underWay)
    (hevents : ∀ e ∈ events, ∃ k ∈ p.underWay, e.number? = some k) :
    Ledger serialize p' (history ++ events) := by
  have hhanded : ∀ k, Handed (history ++ events) k ↔ Handed history k := by
    refine fun k ↦ ⟨fun hk ↦ ?_, Handed.append⟩
    rcases handed_append.mp hk with hold | ⟨i, hi⟩
    · exact hold
    · obtain ⟨k', hk', hnumber⟩ := hevents _ hi
      obtain rfl : k = k' := Option.some.inj hnumber
      exact h.underWay k hk'
  have hold : ∀ k r, QueueEvent.removed k r ∈ history ++ events →
      QueueEvent.removed k r ∈ history := by
    intro k r hmem
    rcases List.mem_append.mp hmem with hold | hnew
    · exact hold
    · obtain ⟨_, _, hnumber⟩ := hevents _ hnew
      cases hnumber
  refine ⟨fun k r hk ↦ ?_, fun k hk ↦ ?_, fun k r hk ↦ ?_, fun k type status hk ↦ ?_,
    fun k hk ↦ ?_⟩
  · rw [hremoved]
    exact h.removed k r (hold k r hk)
  · rw [hremoved]
    exact h.handed k ((hhanded k).mp hk)
  · rw [hhanded]
    exact h.stores k r (hold k r hk)
  · rw [hhanded]
    rcases List.mem_append.mp hk with hk | hk
    · exact h.answered k type status hk
    · obtain ⟨k', hk', hnumber⟩ := hevents _ hk
      obtain rfl : k = k' := Option.some.inj hnumber
      exact h.underWay k hk'
  · rw [hhanded]
    exact h.underWay k (hway hk)

/-- Assumes: a step that removes a message, whose other events are of that message. -/
theorem Ledger.of_removed (h : Ledger serialize p history) {r : Removed M}
    (hevents : ∀ e ∈ events, e.number? = some p.removed)
    (hstores : Handed events p.removed ↔ r.Stores serialize)
    (hanswered : ∀ type status, .answered p.removed type status ∈ events → Handed events p.removed)
    (hremoved : p'.removed = p.removed + 1)
    (hway : ∀ k ∈ p'.underWay, k ∈ p.underWay ∨ Handed events k) :
    Ledger serialize p' (history ++ .removed p.removed r :: events) := by
  have hhanded : ∀ k, Handed (history ++ .removed p.removed r :: events) k ↔
      Handed history k ∨ Handed events k := by
    intro k
    rw [handed_append]
    simp [Handed]
  have hcases : ∀ k r', QueueEvent.removed k r' ∈ history ++ .removed p.removed r :: events →
      QueueEvent.removed k r' ∈ history ∨ (k = p.removed ∧ r' = r) := by
    intro k r' hmem
    rcases List.mem_append.mp hmem with hold | hmem
    · exact Or.inl hold
    · rcases List.mem_cons.mp hmem with heq | hmem
      · cases heq
        exact Or.inr ⟨rfl, rfl⟩
      · cases hevents _ hmem
  refine ⟨fun k r' hk ↦ ?_, fun k hk ↦ ?_, fun k r' hk ↦ ?_, fun k type status hk ↦ ?_,
    fun k hk ↦ ?_⟩
  · rw [hremoved]
    rcases hcases k r' hk with hold | ⟨rfl, -⟩
    · exact Nat.lt_succ_of_lt (h.removed k r' hold)
    · exact Nat.lt_succ_self _
  · rw [hremoved]
    rcases (hhanded k).mp hk with hold | hnew
    · exact Nat.lt_succ_of_lt (h.handed k hold)
    · exact hnew.eq_of_number? hevents ▸ Nat.lt_succ_self _
  · rw [hhanded]
    rcases hcases k r' hk with hold | ⟨rfl, rfl⟩
    · have hne : ¬ Handed events k := fun hnew ↦
        (h.removed k r' hold).ne (hnew.eq_of_number? hevents)
      rw [or_iff_left hne]
      exact h.stores k r' hold
    · have hne : ¬ Handed history p.removed := fun hold ↦ (h.handed _ hold).false
      rw [or_iff_right hne]
      exact hstores
  · rw [hhanded]
    rcases List.mem_append.mp hk with hold | hk
    · exact Or.inl (h.answered k type status hold)
    · rcases List.mem_cons.mp hk with heq | hk
      · cases heq
      · obtain rfl : k = p.removed := Option.some.inj (hevents _ hk)
        exact Or.inr (hanswered type status hk)
  · rw [hhanded]
    exact (hway k hk).imp_left (h.underWay k)

theorem Ledger.step (h : Ledger serialize p history) {a : QueueAction M}
    (hstep : p.step serialize a = some (p', events)) : Ledger serialize p' (history ++ events) := by
  cases step_cases hstep with
  | quiet hremoved hway => exact h.of_underWay hremoved hway (by simp)
  | answered type status hnumber hremoved hway =>
    refine h.of_underWay hremoved hway fun e he ↦ ⟨_, hnumber, ?_⟩
    rw [List.mem_singleton.mp he]
    rfl
  | handed i type status hnumber hremoved hway =>
    exact h.of_underWay hremoved hway fun e he ↦ ⟨_, hnumber, number?_of_mem_hand he⟩
  | dropped hstores hremoved hway =>
    refine h.of_removed (by simp) ?_ (by simp) hremoved fun k hk ↦ Or.inl (hway hk)
    simp [Handed, hstores]
  | stored i type status hstores hremoved hway =>
    have hhanded : Handed (.handed p.removed i ::
        (status.map (QueueEvent.answered (M := M) p.removed type)).toList) p.removed :=
      ⟨i, List.mem_cons_self⟩
    refine h.of_removed (fun e ↦ number?_of_mem_hand) (iff_of_true hhanded hstores)
      (fun _ _ _ ↦ hhanded) hremoved fun k hk ↦ ?_
    rcases List.mem_cons.mp (hway hk) with rfl | hold
    · exact Or.inr hhanded
    · exact Or.inl hold

theorem ledger_of_run (run : Run (queueing serialize) unguarded p history) :
    Ledger serialize p history := by
  refine run.invariant (I := Ledger serialize) ?_ ?_
  · rintro s rfl
    exact ⟨by simp, by simp [Handed], by simp, by simp, by simp [QueueingPublisher.underWay]⟩
  · intro s a s' history observed _ h _ hstep
    exact h.step hstep

/-- Assumes: a message that `SendMessage` removed from the queue, in any run. It was handed to a
channel or an error was told of it if and only if it could be serialized, and the buffer had room
for its frame or was dynamic. -/
theorem removed_accounted_iff (serialize : M → Option (List UInt8)) (p : QueueingPublisher M)
    (history : List (QueueEvent M)) (run : Run (queueing serialize) unguarded p history)
    (number : ℕ) (r : Removed M) (hremoved : .removed number r ∈ history) :
    Accounted history number ↔ r.Stores serialize := by
  have h := ledger_of_run run
  rw [← h.stores number r hremoved]
  refine ⟨fun haccounted ↦ ?_, Or.inl⟩
  rcases haccounted with hhanded | ⟨type, status, -, hanswered⟩
  · exact hhanded
  · exact h.answered number type status hanswered

end QueueingPublisher

namespace Scenario

/-- Every channel has receivers. -/
def anyReceiver (_ : ℕ) : Bool := true

/-- A message is published over TCP and web sockets, with a buffer of eight bytes. -/
def publishOverTwo (message : List UInt8) : List (QueueAction (List UInt8)) :=
  [.setup .tcp, .setup .ws, .makeQueue ⟨1000, 8, false, 10⟩, .setBuffers ⟨1000, 8, false, 10⟩,
    .publish message anyReceiver]

end Scenario

namespace QueueingPublisher

/-- A message whose frame fills the buffer: it is handed to both channels, and the write to the
first fails. -/
theorem removed_accounted_of_full_buffer :
    ∃ p history, Run (queueing (M := List UInt8) some) unguarded p history ∧
      history = [.removed 0 ⟨[1, 2, 3, 4], 8, false⟩, .handed 0 0, .answered 0 .tcp (aborted ""),
        .handed 0 1] ∧ Accounted history 0 := by
  have hexec : ((queueing (M := List UInt8) some).exec unguarded {} []
      (Scenario.publishOverTwo [1, 2, 3, 4] ++
        [.complete 0 (aborted ""), .ret, .visit true])).map (·.2) =
      some [.removed 0 ⟨[1, 2, 3, 4], 8, false⟩, .handed 0 0, .answered 0 .tcp (aborted ""),
        .handed 0 1] := by
    decide
  obtain ⟨⟨p, history⟩, hrun, rfl⟩ := Option.map_eq_some_iff.mp hexec
  have run : Run (queueing some) unguarded p _ := (Run.start rfl).of_exec hrun
  refine ⟨p, _, run, rfl, ?_⟩
  have hiff := removed_accounted_iff some p _ run 0 ⟨[1, 2, 3, 4], 8, false⟩ List.mem_cons_self
  exact hiff.mpr ⟨[1, 2, 3, 4], rfl, Or.inl (by decide)⟩

/-- Assumes: a run in which a message is removed and nothing else happens to it. -/
theorem lost_of_exec {M : Type} {serialize : M → Option (List UInt8)} {t : List (QueueAction M)}
    {r : Removed M}
    (h : ((queueing serialize).exec unguarded {} [] t).map (·.2) = some [.removed 0 r]) :
    ¬ ∀ p history, Run (queueing serialize) unguarded p history →
      ∀ number r, .removed number r ∈ history → Accounted history number := by
  intro hall
  obtain ⟨⟨p, history⟩, hrun, rfl⟩ := Option.map_eq_some_iff.mp h
  have haccounted := hall p _ ((Run.start rfl).of_exec hrun) 0 r List.mem_cons_self
  simp [Accounted, Handed] at haccounted

/-- A message whose frame is one byte longer than a fixed buffer is lost, and so is one that cannot
be serialized. -/
theorem removed_message_lost :
    (¬ ∀ p history, Run (queueing (M := List UInt8) some) unguarded p history →
      ∀ number r, .removed number r ∈ history → Accounted history number) ∧
    ¬ ∀ p history, Run (queueing (M := List UInt8) fun _ ↦ none) unguarded p history →
      ∀ number r, .removed number r ∈ history → Accounted history number := by
  constructor
  · apply lost_of_exec (t := Scenario.publishOverTwo [1, 2, 3, 4, 5])
      (r := ⟨[1, 2, 3, 4, 5], 8, false⟩)
    decide
  · apply lost_of_exec (t := Scenario.publishOverTwo [1]) (r := ⟨[1], 8, false⟩)
    decide

end QueueingPublisher

end Felicia
