import Felicia.Channel.BroadcastRounds
import Felicia.Channel.WebSocketChannel

/-!
# Broadcasting to WebSocket channels

`WebSocketChannelBroadcaster` of
`felicia/core/channel/socket/web_socket_channel_broadcaster.cc` over the life of its server, which
adds a channel after each handshake. `Broadcast` counts all channels, erases those in `CLOSED` and
reports `ERR_CONNECTION_RESET` for them, and calls `SendFrame` of the others; what a callback of
`SendFrame` is run with is what that channel reports. `Broadcast` is called only when the callback
of the broadcast before has returned, as its checks ask.

Channels are told apart by names, which the source does not have. The events are those of the
broadcasts to sockets: a broadcast starts with all its channels, also the closed ones.

`send_completion` says that every callback of a `SendFrame` is run once, with OK only after the
stream accepted its frame, and that a broadcast runs its callback once, after each of its channels
reported once, with an error exactly if one of them reported one or there was none, and leaves its
counts at 0.
-/

set_option autoImplicit false
set_option relaxedAutoImplicit false

namespace Felicia

open Support TransitionSystem

/-! ### State and steps -/

/-- `WebSocketChannelBroadcaster`, with the channels of its server. -/
structure WebSocketBroadcaster where
  channels : List (ℕ × WebSocketChannel) := []
  toWriteCount : ℕ := 0
  writtenCount : ℕ := 0
  writeResult : ℤ := 0
  /-- `callback_` is not null. -/
  hasCallback : Bool := false
  /-- The name of the next channel. -/
  next : ℕ := 0

/-- What can happen next. -/
inductive WebSocketBroadcastAction
  /-- `OnHandshaked` of the server. -/
  | handshaked
  /-- `Broadcast`, with the writes to each channel that end at once. -/
  | broadcast (writes : ℕ → List (Option NetError))
  /-- Something happens to the channel at some place. -/
  | act (i : ℕ) (a : WebSocketAction)

/-- What the callbacks of `SendFrame` were run with. -/
def answers (events : List WebSocketEvent) : List ℤ :=
  events.filterMap fun
    | .answered _ result => some result
    | _ => none

namespace WebSocketBroadcaster

variable (errorToString : ℤ → String) (b : WebSocketBroadcaster)

/-- `WebSocketChannelBroadcaster::OnWrite`, for a channel. -/
def onWrite (name : ℕ) (result : ℤ) : WebSocketBroadcaster × List BroadcastEvent :=
  let writtenCount := b.writtenCount + 1
  let writeResult := if result < 0 then result else b.writeResult
  if b.toWriteCount = writtenCount then
    ({ b with toWriteCount := 0, writtenCount := 0, writeResult := 0, hasCallback := false },
      [.ended name result, .reported (callbackWithStatus errorToString writeResult)])
  else ({ b with writtenCount, writeResult }, [.ended name result])

/-- `OnWrite` for each callback of a channel that was run. -/
def onWrites (b : WebSocketBroadcaster) (name : ℕ) :
    List ℤ → WebSocketBroadcaster × List BroadcastEvent
  | [] => (b, [])
  | result :: results =>
    let written := b.onWrite errorToString name result
    let rest := written.1.onWrites name results
    (rest.1, written.2 ++ rest.2)

/-- The loop of `WebSocketChannelBroadcaster::Broadcast`; `channels` are those it is done with. -/
def broadcastLoop (writes : ℕ → List (Option NetError)) (b : WebSocketBroadcaster) :
    List (ℕ × WebSocketChannel) → WebSocketBroadcaster × List BroadcastEvent
  | [] => (b, [])
  | (name, c) :: rest =>
    let sent :=
      if c.state = .closed then b.onWrite errorToString name errConnectionReset
      else
        let s := c.sendFrame (writes name)
        ({ b with channels := b.channels ++ [(name, s.channel)] } :
          WebSocketBroadcaster).onWrites errorToString name (answers s.events)
    let after := broadcastLoop writes sent.1 rest
    (after.1, sent.2 ++ after.2)

/-- `WebSocketChannelBroadcaster::Broadcast`. -/
def broadcast (writes : ℕ → List (Option NetError)) : WebSocketBroadcaster × List BroadcastEvent :=
  if b.channels = [] then
    (b, [.started [], .reported (callbackWithStatus errorToString errSocketNotConnected)])
  else
    let written := broadcastLoop errorToString writes
      { b with channels := [], toWriteCount := b.channels.length, hasCallback := true } b.channels
    (written.1, .started (b.channels.map Prod.fst) :: written.2)

/-- A new channel is added. -/
def handshaked : WebSocketBroadcaster :=
  { b with channels := b.channels ++ [(b.next, {})], next := b.next + 1 }

/-- A step of the channel at some place. -/
def act (i : ℕ) (a : WebSocketAction) : Option (WebSocketBroadcaster × List BroadcastEvent) :=
  b.channels[i]?.bind fun x ↦ (x.2.act a).map fun s ↦
    ({ b with channels := b.channels.set i (x.1, s.channel) } :
      WebSocketBroadcaster).onWrites errorToString x.1 (answers s.events)

/-- One step. `Broadcast` asks for no other broadcast under way, and only it calls `SendFrame`. -/
def step : WebSocketBroadcastAction → Option (WebSocketBroadcaster × List BroadcastEvent)
  | .handshaked => some (b.handshaked, [])
  | .broadcast writes =>
    if b.hasCallback = false then some (b.broadcast errorToString writes) else none
  | .act i a => if a.isSendFrame = false then b.act errorToString i a else none

end WebSocketBroadcaster

/-- A broadcaster from its construction on. -/
def webSocketBroadcasting (errorToString : ℤ → String) :
    TransitionSystem WebSocketBroadcaster WebSocketBroadcastAction BroadcastEvent where
  Initial b := b = {}
  step b := b.step errorToString

/-! ### Broadcasts -/

/-- Histories of complete broadcasts. -/
inductive Broadcasts : List BroadcastEvent → Prop
  | start : Broadcasts []
  | round {history : List BroadcastEvent} (broadcasts : Broadcasts history) {names : List ℕ}
      (hnodup : names.Nodup) {results : List (ℕ × ℤ)}
      (hresults : (results.map Prod.fst).Perm names) {status : Status}
      (hstatus : status ≠ .OK ↔ names = [] ∨ ∃ x ∈ results, x.2 < 0) :
      Broadcasts (history ++ .started names :: (endedEvents results ++ [.reported status]))

namespace WebSocketBroadcaster

/-- The channels whose callback was not run. -/
def waiting (b : WebSocketBroadcaster) : List ℕ :=
  (b.channels.filter (·.2.writeCallback.isSome)).map Prod.fst

/-- No broadcast is under way. -/
structure Settled (b : WebSocketBroadcaster) : Prop where
  hasCallback : b.hasCallback = false
  toWriteCount : b.toWriteCount = 0
  writtenCount : b.writtenCount = 0
  writeResult : b.writeResult = 0
  waiting : b.waiting = []

/-- A broadcast in which these results were reported, and these channels are still to report. -/
structure Counting (b : WebSocketBroadcaster) (names : List ℕ) (results : List (ℕ × ℤ))
    (due : List ℕ) : Prop where
  perm : (results.map Prod.fst ++ due).Perm names
  hasCallback : b.hasCallback = true
  toWriteCount : b.toWriteCount = names.length
  writtenCount : b.writtenCount = results.length
  writeResult : b.writeResult < 0 ↔ ∃ x ∈ results, x.2 < 0

/-- The history is one of complete broadcasts and, while one is under way, of what its channels
reported; then some of them are still to report. -/
inductive Bookkept (b : WebSocketBroadcaster) : List BroadcastEvent → Prop
  | between {history : List BroadcastEvent} (broadcasts : Broadcasts history)
      (settled : b.Settled) : Bookkept b history
  | during {history : List BroadcastEvent} (broadcasts : Broadcasts history) {names : List ℕ}
      (hnodup : names.Nodup) {results : List (ℕ × ℤ)}
      (counting : b.Counting names results b.waiting) (hwaiting : b.waiting ≠ []) :
      Bookkept b (history ++ .started names :: endedEvents results)

end WebSocketBroadcaster

/-! ### What a channel reports -/

theorem length_answers (events : List WebSocketEvent) :
    (answers events).length = (sendCalls.settles events).card := by
  rw [Ledger.settles, Multiset.coe_card]
  induction events with
  | nil => rfl
  | cons e events ih =>
    cases e <;> simpa [answers, sendCalls] using ih

namespace WebSocketChannel

variable {c : WebSocketChannel} {s : ChannelStep} {a : WebSocketAction} {n : ℕ}
  {history : List WebSocketEvent}

/-- What was waited for is answered or waited for after the step. -/
theorem Sends.length_answers_act (h : c.Sends n history) (hact : c.act a = some s) :
    (answers s.events).length + s.channel.writeCallback.toList.length =
      c.writeCallback.toList.length + a.isSendFrame.toNat := by
  have hs : s.channel.Sends (n + a.isSendFrame.toNat) (history ++ s.events) := h.act hact
  have hkeeps := congrArg Multiset.card (h.balanced.append_iff.mp hs.balanced)
  have hissued := congrArg Multiset.card hs.numbered
  rw [Ledger.issues_append, h.numbered, Multiset.card_add, Multiset.card_range,
    Multiset.card_range] at hissued
  rw [Multiset.card_add, Multiset.card_add, ← length_answers] at hkeeps
  simp only [sendCalls, Multiset.coe_card] at hkeeps hissued
  omega

theorem step_of_act (hact : c.act a = some s) :
    webSocketing.step c a = some (s.channel, s.events) :=
  congrArg (Option.map _) hact

/-- Assumes: a step other than `SendFrame`, or a `SendFrame` while no other is outstanding. A
channel reports once, or goes on to wait. -/
theorem answers_cases (hreachable : Reachable webSocketing unguarded c) (hact : c.act a = some s) :
    (answers s.events = [] ∧
      s.channel.writeCallback.isSome = (c.writeCallback.isSome || a.isSendFrame)) ∨
    ∃ result, answers s.events = [result] ∧ s.channel.writeCallback = none ∧
      (c.writeCallback.isSome || a.isSendFrame) = true := by
  obtain ⟨history, run⟩ := hreachable
  have hlength := (Sends.of_run run).length_answers_act hact
  have hsend : a.isSendFrame = true → c.writeCallback = none := by
    intro hsend
    cases a with
    | sendFrame writes => exact (Option.ite_none_right_eq_some.mp hact).1
    | _ => cases hsend
  match hanswers : answers s.events with
  | [] =>
    refine Or.inl ⟨rfl, ?_⟩
    cases hafter : s.channel.writeCallback <;> cases hbefore : c.writeCallback <;>
      cases hcall : a.isSendFrame <;> simp_all
  | [result] =>
    refine Or.inr ⟨result, rfl, ?_⟩
    cases hafter : s.channel.writeCallback <;> cases hbefore : c.writeCallback <;>
      cases hcall : a.isSendFrame <;> simp_all
  | _ :: _ :: _ =>
    cases hafter : s.channel.writeCallback <;> cases hbefore : c.writeCallback <;>
      cases hcall : a.isSendFrame <;> simp_all

end WebSocketChannel

namespace WebSocketBroadcaster

variable (errorToString : ℤ → String) {b : WebSocketBroadcaster} {names due : List ℕ}
  {results : List (ℕ × ℤ)}

theorem channels_onWrite (b : WebSocketBroadcaster) (name : ℕ) (result : ℤ) :
    (b.onWrite errorToString name result).1.channels = b.channels ∧
      (b.onWrite errorToString name result).1.next = b.next := by
  unfold onWrite
  dsimp only
  by_cases hlast : b.toWriteCount = b.writtenCount + 1
  · rw [if_pos hlast]
    exact ⟨rfl, rfl⟩
  · rw [if_neg hlast]
    exact ⟨rfl, rfl⟩

/-- Assumes: a channel that is still to report. The counts go on, or the last report was made. -/
theorem Counting.onWrite {name : ℕ} (h : b.Counting names results (name :: due)) (result : ℤ) :
    (due ≠ [] ∧
      (b.onWrite errorToString name result).1.Counting names (results ++ [(name, result)]) due ∧
      (b.onWrite errorToString name result).2 = [.ended name result]) ∨
    (due = [] ∧ ∃ status,
      b.onWrite errorToString name result = ({ b with
        toWriteCount := 0, writtenCount := 0, writeResult := 0, hasCallback := false },
          [.ended name result, .reported status]) ∧
      (status ≠ .OK ↔ ∃ x ∈ results ++ [(name, result)], x.2 < 0)) := by
  have hlength := h.perm.length_eq
  simp only [List.length_append, List.length_map, List.length_cons] at hlength
  have hresult : (if result < 0 then result else b.writeResult) < 0 ↔
      ∃ x ∈ results ++ [(name, result)], x.2 < 0 := by
    simp only [List.mem_append, List.mem_singleton, or_and_right, exists_or, exists_eq_left,
      ← h.writeResult]
    split_ifs with hneg
    · simp [hneg]
    · simp [hneg]
  unfold WebSocketBroadcaster.onWrite
  dsimp only
  by_cases hlast : due = []
  · have hcount : b.toWriteCount = b.writtenCount + 1 := by
      rw [h.toWriteCount, h.writtenCount, ← hlength, hlast, List.length_nil]
    refine Or.inr ⟨hlast, _, if_pos hcount, ?_⟩
    rw [Ne, callbackWithStatus_eq_OK, not_le, hresult]
  · have hcount : b.toWriteCount ≠ b.writtenCount + 1 := by
      have hpositive := List.length_pos_of_ne_nil hlast
      rw [h.toWriteCount, h.writtenCount]
      omega
    rw [if_neg hcount]
    refine Or.inl ⟨hlast, ⟨?_, h.hasCallback, h.toWriteCount, ?_, hresult⟩, rfl⟩
    · simpa using h.perm
    · simp [h.writtenCount]

/-- What a part of a broadcast leads to: some channels are still to report, or all have reported,
and the callback was run. -/
inductive Goes (names : List ℕ) (results : List (ℕ × ℤ)) (due : List ℕ) (b : WebSocketBroadcaster) :
    List BroadcastEvent → Prop
  | on (reported : List (ℕ × ℤ)) (counting : b.Counting names (results ++ reported) due)
      (hdue : due ≠ []) : Goes names results due b (endedEvents reported)
  | off (reported : List (ℕ × ℤ)) (status : Status) (settled : b.Settled)
      (hperm : ((results ++ reported).map Prod.fst).Perm names)
      (hstatus : status ≠ .OK ↔ ∃ x ∈ results ++ reported, x.2 < 0) :
      Goes names results due b (endedEvents reported ++ [.reported status])

variable {events : List BroadcastEvent}

theorem Counting.of_perm (h : b.Counting names results due) {due' : List ℕ}
    (hperm : due.Perm due') : b.Counting names results due' :=
  { h with perm := (hperm.symm.append_left _).trans h.perm }

theorem waiting_onWrite (b : WebSocketBroadcaster) (name : ℕ) (result : ℤ) :
    (b.onWrite errorToString name result).1.waiting = b.waiting := by
  simp only [waiting, (channels_onWrite errorToString b name result).1]

theorem Goes.after {reported : List (ℕ × ℤ)} (h : Goes names (results ++ reported) due b events) :
    Goes names results due b (endedEvents reported ++ events) := by
  have hended (more : List (ℕ × ℤ)) :
      endedEvents reported ++ endedEvents more = endedEvents (reported ++ more) := by
    simp [endedEvents]
  cases h with
  | on more counting hdue =>
    rw [hended]
    rw [List.append_assoc] at counting
    exact .on (reported ++ more) counting hdue
  | off more status settled hperm hstatus =>
    rw [← List.append_assoc, hended]
    rw [List.append_assoc] at hperm hstatus
    exact .off (reported ++ more) status settled hperm hstatus

/-- Assumes: a channel that is still to report, as are those that wait and some more. -/
theorem Counting.goes_onWrite {name : ℕ} {more : List ℕ}
    (h : b.Counting names results (name :: (b.waiting ++ more))) (result : ℤ) :
    (b.waiting ++ more ≠ [] ∧
      (b.onWrite errorToString name result).1.Counting names (results ++ [(name, result)])
        ((b.onWrite errorToString name result).1.waiting ++ more) ∧
      (b.onWrite errorToString name result).2 = endedEvents [(name, result)]) ∨
    (more = [] ∧ Goes names results (b.onWrite errorToString name result).1.waiting
      (b.onWrite errorToString name result).1 (b.onWrite errorToString name result).2) := by
  rcases h.onWrite errorToString result with
    ⟨hdue, hcounting, hevents⟩ | ⟨hdue, status, hwritten, hstatus⟩
  · rw [waiting_onWrite]
    exact Or.inl ⟨hdue, hcounting, hevents⟩
  · obtain ⟨hwaiting, hmore⟩ := List.append_eq_nil_iff.mp hdue
    refine Or.inr ⟨hmore, ?_⟩
    rw [hwritten]
    refine .off [(name, result)] status ⟨rfl, rfl, rfl, rfl, hwaiting⟩ ?_ hstatus
    simpa [hwaiting, hmore] using h.perm

/-- Assumes: the loop over the other channels, wherever it starts. A channel reports, and the loop
goes on. -/
theorem Counting.goes_report {name : ℕ} (writes : ℕ → List (Option NetError))
    {rest : List (ℕ × WebSocketChannel)}
    (hcounting : b.Counting names results (name :: (b.waiting ++ rest.map Prod.fst)))
    (hrest : ∀ (b : WebSocketBroadcaster) (results : List (ℕ × ℤ)),
      b.Counting names results (b.waiting ++ rest.map Prod.fst) →
      b.waiting ++ rest.map Prod.fst ≠ [] →
      Goes names results (broadcastLoop errorToString writes b rest).1.waiting
        (broadcastLoop errorToString writes b rest).1
        (broadcastLoop errorToString writes b rest).2) (result : ℤ) :
    let counted := b.onWrite errorToString name result
    Goes names results (broadcastLoop errorToString writes counted.1 rest).1.waiting
      (broadcastLoop errorToString writes counted.1 rest).1
      (counted.2 ++ (broadcastLoop errorToString writes counted.1 rest).2) := by
  dsimp only
  rcases hcounting.goes_onWrite errorToString result with
    ⟨hmore, hcounted, hevents⟩ | ⟨hmore, hgoes⟩
  · rw [hevents]
    refine (hrest _ _ hcounted ?_).after
    rwa [waiting_onWrite]
  · rw [List.map_eq_nil_iff] at hmore
    subst hmore
    simpa [broadcastLoop] using hgoes

/-- Assumes: the channels that are not visited yet have no callback. Each of them reports, or goes
on to wait. -/
theorem goes_broadcastLoop (writes : ℕ → List (Option NetError))
    (rest : List (ℕ × WebSocketChannel)) (b : WebSocketBroadcaster) (results : List (ℕ × ℤ))
    (hcounting : b.Counting names results (b.waiting ++ rest.map Prod.fst))
    (hdue : b.waiting ++ rest.map Prod.fst ≠ [])
    (hrest : ∀ x ∈ rest, Reachable webSocketing unguarded x.2 ∧ x.2.writeCallback = none) :
    Goes names results (broadcastLoop errorToString writes b rest).1.waiting
      (broadcastLoop errorToString writes b rest).1
      (broadcastLoop errorToString writes b rest).2 := by
  induction rest generalizing b results with
  | nil =>
    have hnil : [] = endedEvents [] := rfl
    simp only [broadcastLoop]
    rw [hnil]
    refine .on [] ?_ (by simpa using hdue)
    simpa using hcounting
  | cons x rest ih =>
    obtain ⟨name, c⟩ := x
    have hlater (x : ℕ × WebSocketChannel) (hx : x ∈ rest) := hrest x (List.mem_cons_of_mem _ hx)
    have hreport (b' : WebSocketBroadcaster) (result : ℤ)
        (hcounting : b'.Counting names results (name :: (b'.waiting ++ rest.map Prod.fst))) :=
      hcounting.goes_report errorToString writes
        (fun b results hcounting hdue ↦ ih b results hcounting hdue hlater) result
    simp only [broadcastLoop]
    split_ifs with hclosed
    · refine hreport b errConnectionReset (hcounting.of_perm ?_)
      exact List.perm_middle
    · obtain ⟨hreachable, hcallback⟩ := hrest (name, c) List.mem_cons_self
      have hact : c.act (.sendFrame (writes name)) = some (c.sendFrame (writes name)) :=
        if_pos hcallback
      set sent := c.sendFrame (writes name)
      set b' : WebSocketBroadcaster := { b with channels := b.channels ++ [(name, sent.channel)] }
        with hb'
      have hcounting' : b'.Counting names results (b.waiting ++ name :: rest.map Prod.fst) :=
        ⟨hcounting.perm, hcounting.hasCallback, hcounting.toWriteCount, hcounting.writtenCount,
          hcounting.writeResult⟩
      rcases WebSocketChannel.answers_cases hreachable hact with
        ⟨hanswers, hwaits⟩ | ⟨result, hanswers, hnone, -⟩
      · have hwaiting : b'.waiting = b.waiting ++ [name] := by
          simp [hb', waiting, hwaits, WebSocketAction.isSendFrame]
        rw [hanswers]
        refine ih b' results ?_ ?_ hlater
        · simpa [hwaiting] using hcounting'
        · simp [hwaiting]
      · have hwaiting : b'.waiting = b.waiting := by
          simp [hb', waiting, hnone]
        rw [hanswers]
        simp only [onWrites, List.append_nil]
        refine hreport b' result (hcounting'.of_perm ?_)
        rw [hwaiting]
        exact List.perm_middle

/-! ### The run -/

/-- The names tell the channels apart, and a channel has only done what it can do. -/
structure Named (b : WebSocketBroadcaster) : Prop where
  nodup : (b.channels.map Prod.fst).Nodup
  fresh : ∀ name ∈ b.channels.map Prod.fst, name < b.next
  reachable : ∀ x ∈ b.channels, Reachable webSocketing unguarded x.2

theorem channels_onWrites (b : WebSocketBroadcaster) (name : ℕ) (results : List ℤ) :
    (b.onWrites errorToString name results).1.channels = b.channels ∧
      (b.onWrites errorToString name results).1.next = b.next := by
  induction results generalizing b with
  | nil => exact ⟨rfl, rfl⟩
  | cons result results ih =>
    obtain ⟨hchannels, hnext⟩ := ih (b.onWrite errorToString name result).1
    obtain ⟨hchannels', hnext'⟩ := channels_onWrite errorToString b name result
    exact ⟨hchannels.trans hchannels', hnext.trans hnext'⟩

/-- Assumes: the channels that are not visited yet have no callback. Some of the channels are left.
-/
theorem channels_broadcastLoop (writes : ℕ → List (Option NetError))
    (rest : List (ℕ × WebSocketChannel)) (b : WebSocketBroadcaster)
    (hreachable : ∀ x ∈ b.channels, Reachable webSocketing unguarded x.2)
    (hrest : ∀ x ∈ rest, Reachable webSocketing unguarded x.2 ∧ x.2.writeCallback = none) :
    ((broadcastLoop errorToString writes b rest).1.channels.map Prod.fst).Sublist
        ((b.channels ++ rest).map Prod.fst) ∧
      (broadcastLoop errorToString writes b rest).1.next = b.next ∧
      ∀ x ∈ (broadcastLoop errorToString writes b rest).1.channels,
        Reachable webSocketing unguarded x.2 := by
  induction rest generalizing b with
  | nil => exact ⟨by simp [broadcastLoop], rfl, hreachable⟩
  | cons x rest ih =>
    obtain ⟨name, c⟩ := x
    have hlater (x : ℕ × WebSocketChannel) (hx : x ∈ rest) := hrest x (List.mem_cons_of_mem _ hx)
    simp only [broadcastLoop]
    split_ifs with hclosed
    · obtain ⟨hchannels, hnext⟩ := channels_onWrite errorToString b name
        errConnectionReset
      obtain ⟨hsublist, hsame, hkept⟩ := ih _ (by rwa [hchannels]) hlater
      rw [hchannels] at hsublist
      refine ⟨hsublist.trans ?_, hsame.trans hnext, hkept⟩
      exact ((List.sublist_cons_self _ _).append_left _).map Prod.fst
    · obtain ⟨hc, hcallback⟩ := hrest (name, c) List.mem_cons_self
      have hact : c.act (.sendFrame (writes name)) = some (c.sendFrame (writes name)) :=
        if_pos hcallback
      set sent := c.sendFrame (writes name)
      set b' : WebSocketBroadcaster := { b with channels := b.channels ++ [(name, sent.channel)] }
      obtain ⟨hchannels, hnext⟩ := channels_onWrites errorToString b' name
        (answers sent.events)
      have hsent : ∀ x ∈ b'.channels, Reachable webSocketing unguarded x.2 := by
        intro x hx
        rcases List.mem_append.mp hx with hold | hnew
        · exact hreachable x hold
        · rw [List.mem_singleton.mp hnew]
          exact hc.next trivial (WebSocketChannel.step_of_act hact)
      obtain ⟨hsublist, hsame, hkept⟩ := ih _ (by rwa [hchannels]) hlater
      rw [hchannels] at hsublist
      refine ⟨?_, hsame.trans hnext, hkept⟩
      simpa [b'] using hsublist

theorem Settled.callback (hsettled : b.Settled) {x : ℕ × WebSocketChannel} (hx : x ∈ b.channels) :
    x.2.writeCallback = none := by
  have hnone := List.filter_eq_nil_iff.mp (List.map_eq_nil_iff.mp hsettled.waiting) x hx
  simpa using hnone

theorem Named.broadcast (h : b.Named) (hsettled : b.Settled)
    (writes : ℕ → List (Option NetError)) : (b.broadcast errorToString writes).1.Named := by
  unfold WebSocketBroadcaster.broadcast
  split_ifs with hnone
  · exact h
  · obtain ⟨hsublist, hnext, hreachable⟩ := channels_broadcastLoop
      errorToString writes b.channels
      { b with channels := [], toWriteCount := b.channels.length, hasCallback := true }
      (List.forall_mem_nil _) fun x hx ↦ ⟨h.reachable x hx, hsettled.callback hx⟩
    refine ⟨hsublist.nodup h.nodup, fun name hname ↦ ?_, hreachable⟩
    rw [hnext]
    exact h.fresh name (hsublist.subset hname)

theorem Goes.bookkept {history : List BroadcastEvent} (broadcasts : Broadcasts history)
    (hnodup : names.Nodup) (hnames : names ≠ []) (h : Goes names results b.waiting b events) :
    b.Bookkept (history ++ .started names :: (endedEvents results ++ events)) := by
  have hended (more : List (ℕ × ℤ)) :
      endedEvents results ++ endedEvents more = endedEvents (results ++ more) := by
    simp [endedEvents]
  cases h with
  | on reported counting hdue =>
    rw [hended]
    exact .during broadcasts hnodup counting hdue
  | off reported status settled hperm hstatus =>
    rw [← List.append_assoc, hended]
    refine .between (broadcasts.round hnodup hperm ?_) settled
    rw [hstatus, or_iff_right hnames]

theorem Bookkept.same {history : List BroadcastEvent} (h : b.Bookkept history)
    {channels : List (ℕ × WebSocketChannel)} {next : ℕ}
    (hwaiting : ({ b with channels, next } : WebSocketBroadcaster).waiting = b.waiting) :
    ({ b with channels, next } : WebSocketBroadcaster).Bookkept history := by
  cases h with
  | between broadcasts settled =>
    exact .between broadcasts { settled with waiting := hwaiting.trans settled.waiting }
  | during broadcasts hnodup counting hdue =>
    rw [← hwaiting] at counting hdue
    exact .during broadcasts hnodup { counting with } hdue

/-- A new broadcast. -/
theorem Settled.broadcast (hsettled : b.Settled) (h : b.Named)
    (writes : ℕ → List (Option NetError)) {history : List BroadcastEvent}
    (broadcasts : Broadcasts history) : (b.broadcast errorToString writes).1.Bookkept
      (history ++ (b.broadcast errorToString writes).2) := by
  unfold WebSocketBroadcaster.broadcast
  split_ifs with hnone
  · have hresults : (([] : List (ℕ × ℤ)).map Prod.fst).Perm [] := List.Perm.nil
    refine .between (broadcasts.round List.nodup_nil hresults ?_) hsettled
    rw [Ne, callbackWithStatus_eq_OK]
    simp [errSocketNotConnected]
  · have hnames : b.channels.map Prod.fst ≠ [] := by simpa using hnone
    have hcounting : ({ b with
        channels := [], toWriteCount := b.channels.length, hasCallback := true } :
          WebSocketBroadcaster).Counting (b.channels.map Prod.fst) []
            (b.channels.map Prod.fst) := by
      refine ⟨List.Perm.refl _, rfl, (List.length_map _).symm, hsettled.writtenCount, ?_⟩
      simp [hsettled.writeResult]
    have hgoes := goes_broadcastLoop errorToString writes b.channels _ []
      hcounting hnames
      fun x hx ↦ ⟨h.reachable x hx, hsettled.callback hx⟩
    dsimp only
    exact hgoes.bookkept broadcasts h.nodup hnames

theorem Named.handshaked (h : b.Named) : b.handshaked.Named where
  nodup := by
    simp only [WebSocketBroadcaster.handshaked, List.map_append, List.map_cons, List.map_nil]
    refine List.nodup_append.mpr ⟨h.nodup, List.nodup_singleton _, fun name hname other hother ↦ ?_⟩
    rw [List.mem_singleton.mp hother]
    exact (h.fresh name hname).ne
  fresh name hname := by
    simp only [WebSocketBroadcaster.handshaked, List.map_append, List.map_cons, List.map_nil,
      List.mem_append, List.mem_singleton] at hname ⊢
    rcases hname with hold | rfl
    · exact (h.fresh name hold).trans (Nat.lt_succ_self _)
    · exact Nat.lt_succ_self _
  reachable x hx := by
    rcases List.mem_append.mp hx with hold | hnew
    · exact h.reachable x hold
    · rw [List.mem_singleton.mp hnew]
      exact ⟨[], Run.start rfl⟩

theorem waiting_handshaked (b : WebSocketBroadcaster) : b.handshaked.waiting = b.waiting := by
  simp [waiting, handshaked]

variable {errorToString}

/-- What a step of a channel comes to. -/
theorem exists_of_act {i : ℕ} {a : WebSocketAction} {b' : WebSocketBroadcaster}
    (hact : b.act errorToString i a = some (b', events)) :
    ∃ name c s before after, c.act a = some s ∧ b.channels = before ++ (name, c) :: after ∧
      (b', events) = ({ b with channels := before ++ (name, s.channel) :: after } :
        WebSocketBroadcaster).onWrites errorToString name (answers s.events) := by
  obtain ⟨⟨name, c⟩, hget, hstep⟩ := Option.bind_eq_some_iff.mp hact
  obtain ⟨s, hs, heq⟩ := Option.map_eq_some_iff.mp hstep
  obtain ⟨before, after, hsplit, hset⟩ := exists_split_set hget (name, s.channel)
  exact ⟨name, c, s, before, after, hs, hsplit, by rw [← heq, hset]⟩

theorem Named.act (h : b.Named) {i : ℕ} {a : WebSocketAction} {b' : WebSocketBroadcaster}
    (hact : b.act errorToString i a = some (b', events)) : b'.Named := by
  obtain ⟨name, c, s, before, after, hs, hsplit, heq⟩ := exists_of_act hact
  obtain ⟨hchannels, hnext⟩ := channels_onWrites errorToString
    { b with channels := before ++ (name, s.channel) :: after } name (answers s.events)
  rw [← heq] at hchannels hnext
  simp only at hchannels hnext
  have hnames : b'.channels.map Prod.fst = b.channels.map Prod.fst := by
    simp [hchannels, hsplit]
  refine ⟨by rw [hnames]; exact h.nodup, fun name hname ↦ ?_, fun x hx ↦ ?_⟩
  · rw [hnames] at hname
    rw [hnext]
    exact h.fresh name hname
  · rw [hchannels] at hx
    have hreachable (x : ℕ × WebSocketChannel) (hx : x ∈ before ++ (name, c) :: after) :=
      h.reachable x (hsplit ▸ hx)
    rcases List.mem_append.mp hx with hbefore | hx
    · exact hreachable x (List.mem_append_left _ hbefore)
    · rcases List.mem_cons.mp hx with rfl | hafter
      · exact (hreachable (name, c) (by simp)).next trivial (WebSocketChannel.step_of_act hs)
      · exact hreachable x (by simp [hafter])

/-- A step of a channel other than a `SendFrame`. -/
theorem Bookkept.act (h : b.Named) {history : List BroadcastEvent} (hkept : b.Bookkept history)
    {i : ℕ} {a : WebSocketAction} (hsend : a.isSendFrame = false) {b' : WebSocketBroadcaster}
    (hact : b.act errorToString i a = some (b', events)) : b'.Bookkept (history ++ events) := by
  obtain ⟨name, c, s, before, after, hs, hsplit, heq⟩ := exists_of_act hact
  have hreachable : Reachable webSocketing unguarded c := h.reachable (name, c) (by simp [hsplit])
  have hcases := WebSocketChannel.answers_cases hreachable hs
  simp only [hsend, Bool.or_false] at hcases
  set b₁ : WebSocketBroadcaster := { b with channels := before ++ (name, s.channel) :: after }
    with hb₁
  rcases hcases with ⟨hanswers, hsame⟩ | ⟨result, hanswers, hnone, hsome⟩
  · have hwaiting : b₁.waiting = b.waiting := by
      simp only [waiting, hb₁, hsplit, List.filter_append, List.filter_cons, hsame]
      split_ifs <;> simp
    rw [hanswers] at heq
    obtain ⟨rfl, rfl⟩ := Prod.mk.inj heq
    rw [List.append_nil]
    exact hkept.same hwaiting
  · have hwaiting : b.waiting.Perm (name :: b₁.waiting) := by
      simp only [waiting, hb₁, hsplit, List.filter_append, List.filter_cons, hsome, hnone,
        if_true, Option.isSome_none]
      simp
    rw [hanswers] at heq
    simp only [onWrites, List.append_nil] at heq
    obtain ⟨rfl, rfl⟩ := Prod.mk.inj heq
    cases hkept with
    | between broadcasts settled =>
      rw [settled.waiting] at hwaiting
      cases hwaiting.nil_eq
    | @during history broadcasts names hnodup results counting hdue =>
      have hcounting : b₁.Counting names results (name :: (b₁.waiting ++ [])) := by
        rw [List.append_nil]
        exact { counting.of_perm hwaiting with }
      have hnames : names ≠ [] := by
        rintro rfl
        exact hdue (List.append_eq_nil_iff.mp counting.perm.eq_nil).2
      rw [List.append_assoc, List.cons_append]
      refine Goes.bookkept broadcasts hnodup hnames ?_
      rcases hcounting.goes_onWrite errorToString result with
        ⟨hmore, hcounted, hevents⟩ | ⟨-, hgoes⟩
      · rw [hevents]
        rw [List.append_nil] at hmore hcounted
        refine .on [(name, result)] hcounted ?_
        rwa [waiting_onWrite]
      · exact hgoes

/-- The run lemma: every history is one of complete broadcasts, and of the one under way. -/
theorem bookkept_of_steps {history : List BroadcastEvent}
    (run : Run (webSocketBroadcasting errorToString) unguarded b history) :
    b.Named ∧ b.Bookkept history := by
  refine run.invariant (I := fun b history ↦ b.Named ∧ b.Bookkept history) ?_ ?_
  · rintro b rfl
    refine ⟨⟨List.nodup_nil, by simp, by simp⟩, .between .start ⟨rfl, rfl, rfl, rfl, rfl⟩⟩
  · rintro b a b' history events - ⟨hnamed, hkept⟩ - hstep
    cases a with
    | handshaked =>
      cases hstep
      rw [List.append_nil]
      exact ⟨hnamed.handshaked, hkept.same (waiting_handshaked b)⟩
    | broadcast writes =>
      obtain ⟨hcallback, heq⟩ := Option.ite_none_right_eq_some.mp hstep
      cases hkept with
      | between broadcasts settled =>
        have hnext := hnamed.broadcast errorToString settled writes
        have hbroadcast := settled.broadcast errorToString hnamed writes broadcasts
        rw [Option.some.inj heq] at hnext hbroadcast
        exact ⟨hnext, hbroadcast⟩
      | during broadcasts hnodup counting hdue =>
        rw [counting.hasCallback] at hcallback
        cases hcallback
    | act i a =>
      obtain ⟨hsend, hact⟩ := Option.ite_none_right_eq_some.mp hstep
      exact ⟨hnamed.act hact, hkept.act hnamed hsend hact⟩

end WebSocketBroadcaster

namespace Scenario

/-- A frame is sent while a pong is being written. -/
def sendBehindPong : List WebSocketAction :=
  [.handleFrame { opcode := 9, payload := [1] } [], .sendFrame [], .onWriteDone none [none]]

/-- Of two channels, one is closed by its peer before the broadcast, and the other writes later. -/
def broadcastToClosed : List WebSocketBroadcastAction :=
  [.handshaked, .handshaked, .act 0 .onReadError, .broadcast fun _ ↦ [],
    .act 0 (.onWriteDone none [])]

end Scenario

end Felicia
