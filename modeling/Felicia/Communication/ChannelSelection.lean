import Felicia.Communication.SubscriberHandlers
import Mathlib.Data.Nat.Bitwise

/-!
# How a subscriber selects a channel

`ConnectToPublisher` and `OnConnectToPublisher` of `felicia/core/communication/subscriber.h`. The
channel types are the powers of two; `channel_type_` goes through them from the first on and stays
where it is while a `Connect` is under way. `offered` is what there is to try: for each type of the
mask, in the order of the types, the first definition of that type that the publisher has. A failed
`Connect`, or a failed ROS handshake after it, takes up the search behind the type it was for.

`channels_tried_in_order` says that the definitions that are connected to are those of `offered`, in
order, up to the first that succeeds; that the loop is then started on that channel; and that the
error is told if and only if all of them failed.
-/

set_option autoImplicit false
set_option relaxedAutoImplicit false

namespace Felicia

/-- The channel types, in the order of their numbers. -/
def channelTypesInOrder : List ChannelType := [.shm, .uds, .udp, .tcp, .ws]

/-- What there is to try: the first definition of each channel type of a mask. -/
def offered (channelDefs : List ChannelDef) (channelTypes : ℕ) : List ChannelDef :=
  channelTypesInOrder.filterMap fun type ↦
    if type.toNat &&& channelTypes = 0 then none
    else channelDefs.find? fun channelDef ↦ channelDef.type = type

/-- `on_error_callback_` is run with this when nothing is left to try. -/
def failedToConnect : Status := ⟨.unavailable, "Failed to connect to publisher."⟩

namespace SubscriberEvent

variable {M : Type}

/-- What a `Connect` is called with. -/
def opened? : SubscriberEvent M → Option ChannelDef
  | .opened channelDef => some channelDef
  | _ => none

/-- An event that is neither a `Connect` nor the end of a search. -/
def isAside : SubscriberEvent M → Bool
  | .opened _ => false
  | .error status _ => status ≠ failedToConnect
  | _ => true

end SubscriberEvent

/-- What becomes of a `Connect`: of the connection, of the ROS handshake if there is one, and of the
receives that complete before the loop is started. -/
structure ConnectOutcome (M : Type) where
  status : Status
  handshake : Status := .OK
  received : List (ReceiveResult M) := []

/-- The channel is connected, and the handshake was agreed to if there is one. -/
def ConnectOutcome.succeeds {M : Type} (usesRos : Bool) (outcome : ConnectOutcome M) : Bool :=
  outcome.status.isOk && (!usesRos || outcome.handshake.isOk)

namespace Subscriber

variable {M : Type}

/-! ### The search -/

/-- There is a ROS handshake after a `Connect`. -/
def usesRos (hasRos : Bool) (p : Subscriber M) : Bool :=
  hasRos && isUsingRosProtocol p.topicInfo.topic

/-- A `Connect` completes, and the handshake after it. -/
def attempt (hasRos : Bool) (p : Subscriber M) (outcome : ConnectOutcome M) :
    Subscriber M × List (SubscriberEvent M) :=
  let connected := p.onConnectToPublisher hasRos outcome.status outcome.received
  if outcome.status.isOk && p.usesRos hasRos then
    let shaken := connected.1.onRosTopicHandshake outcome.handshake outcome.received
    (shaken.1, connected.2 ++ shaken.2)
  else connected

/-- One `Connect` after the other completes, as long as there is one under way. -/
def tryAll (hasRos : Bool) :
    Subscriber M → List (ConnectOutcome M) → Subscriber M × List (SubscriberEvent M)
  | p, [] => (p, [])
  | p, outcome :: rest =>
    if p.isInPhase .connecting then
      let first := p.attempt hasRos outcome
      let others := tryAll hasRos first.1 rest
      (others.1, first.2 ++ others.2)
    else (p, [])

/-- A search from the first channel type on. -/
def search (hasRos : Bool) (p : Subscriber M) (outcomes : List (ConnectOutcome M)) :
    Subscriber M × List (SubscriberEvent M) :=
  let first := p.fromFirst.connectToPublisher
  let others := first.1.tryAll hasRos outcomes
  (others.1, first.2 ++ others.2)

/-! ### What one search through the types finds -/

variable {channelDefs : List ChannelDef} {channelTypes bit : ℕ} {p : Subscriber M}

/-- The definition that is tried for a bit of the mask. -/
def candidate (channelDefs : List ChannelDef) (channelTypes bit : ℕ) : Option ChannelDef :=
  if 2 ^ bit &&& channelTypes = 0 then none
  else channelDefs.find? fun channelDef ↦ channelDef.type.toNat = 2 ^ bit

/-- What there is to try from a bit on. -/
def offeredFrom (channelDefs : List ChannelDef) (channelTypes bit : ℕ) : List ChannelDef :=
  (List.range' bit (5 - bit)).filterMap (candidate channelDefs channelTypes)

theorem toNat_lt_two_pow (type : ChannelType) : type.toNat < 2 ^ 5 := by
  cases type <;> decide

theorem candidate_eq_none_of_le (hbit : 5 ≤ bit) :
    candidate channelDefs channelTypes bit = none := by
  unfold candidate
  split_ifs
  · rfl
  refine List.find?_eq_none.mpr fun channelDef _ ↦ ?_
  have hlt := toNat_lt_two_pow channelDef.type
  have hle : 2 ^ 5 ≤ 2 ^ bit := Nat.pow_le_pow_right (by decide) hbit
  simp only [decide_eq_true_eq]
  omega

theorem candidate_eq_none_of_lt (hmask : channelTypes < 2 ^ bit) :
    candidate channelDefs channelTypes bit = none := by
  have hand : 2 ^ bit &&& channelTypes = 0 := by
    rw [Nat.land_comm, Nat.and_two_pow, Nat.testBit_lt_two_pow hmask]
    simp
  rw [candidate, if_pos hand]

theorem offeredFrom_eq (channelDefs : List ChannelDef) (channelTypes bit : ℕ) :
    offeredFrom channelDefs channelTypes bit =
      (candidate channelDefs channelTypes bit).toList ++
        offeredFrom channelDefs channelTypes (bit + 1) := by
  unfold offeredFrom
  by_cases hbit : bit < 5
  · obtain ⟨n, hn⟩ : ∃ n, 5 - bit = n + 1 := ⟨4 - bit, by omega⟩
    have hn' : 5 - (bit + 1) = n := by omega
    rw [hn, hn', List.range'_succ, List.filterMap_cons]
    cases candidate channelDefs channelTypes bit <;> rfl
  · have hn : 5 - bit = 0 := by omega
    have hn' : 5 - (bit + 1) = 0 := by omega
    rw [hn, hn', candidate_eq_none_of_le (by omega)]
    rfl

/-- Assumes: a mask below the bit. -/
theorem offeredFrom_eq_nil (hmask : channelTypes < 2 ^ bit) :
    offeredFrom channelDefs channelTypes bit = [] := by
  refine List.filterMap_eq_nil_iff.mpr fun other hother ↦ ?_
  have hle : 2 ^ bit ≤ 2 ^ other :=
    Nat.pow_le_pow_right (by decide) (List.mem_range'_1.mp hother).1
  exact candidate_eq_none_of_lt (hmask.trans_le hle)

theorem offeredFrom_succ_eq_nil (hnil : offeredFrom channelDefs channelTypes bit = []) :
    offeredFrom channelDefs channelTypes (bit + 1) = [] := by
  rw [offeredFrom_eq] at hnil
  exact (List.append_eq_nil_iff.mp hnil).2

theorem two_pow_shiftLeft_one (bit : ℕ) : 2 ^ bit <<< 1 = 2 ^ (bit + 1) := by
  rw [Nat.shiftLeft_succ, Nat.shiftLeft_zero, pow_succ']

theorem offered_eq (channelDefs : List ChannelDef) (channelTypes : ℕ) :
    offered channelDefs channelTypes = offeredFrom channelDefs channelTypes 0 := by
  have hfind : ∀ type : ChannelType, ∀ bit, type.toNat = 2 ^ bit →
      (channelDefs.find? fun channelDef ↦ channelDef.type = type) =
        channelDefs.find? fun channelDef ↦ channelDef.type.toNat = 2 ^ bit := by
    intro type bit htype
    congr 1
    funext channelDef
    rw [← htype]
    cases channelDef.type <;> cases type <;> rfl
  have hrange : List.range' 0 (5 - 0) = [0, 1, 2, 3, 4] := rfl
  rw [offered, offeredFrom, hrange, channelTypesInOrder]
  simp only [List.filterMap_cons, List.filterMap_nil, candidate, hfind .shm 0 rfl,
    hfind .uds 1 rfl, hfind .udp 2 rfl, hfind .tcp 3 rfl, hfind .ws 4 rfl]
  rfl

/-- Assumes: enough rounds for the mask. The loop finds the first of what there is to try from its
bit on, and stops at the bit of its type. -/
theorem matchChannelDef_eq (channelDefs : List ChannelDef) (rounds : ℕ)
    (hmask : channelTypes < 2 ^ (bit + rounds)) :
    ∃ stop, matchChannelDef channelDefs channelTypes rounds (2 ^ bit) =
        ((offeredFrom channelDefs channelTypes bit).head?, 2 ^ stop) ∧
      (offeredFrom channelDefs channelTypes bit).tail =
        offeredFrom channelDefs channelTypes (stop + 1) := by
  induction rounds generalizing bit with
  | zero =>
    have hnil : offeredFrom channelDefs channelTypes bit = [] := offeredFrom_eq_nil hmask
    exact ⟨bit, by rw [hnil]; rfl, by rw [hnil, offeredFrom_succ_eq_nil hnil]; rfl⟩
  | succ rounds ih =>
    unfold matchChannelDef
    by_cases hlt : channelTypes < 2 ^ bit
    · have hnil : offeredFrom channelDefs channelTypes bit = [] := offeredFrom_eq_nil hlt
      exact ⟨bit, by rw [if_pos hlt, hnil]; rfl,
        by rw [hnil, offeredFrom_succ_eq_nil hnil]; rfl⟩
    rw [if_neg hlt, offeredFrom_eq]
    have hshift := two_pow_shiftLeft_one bit
    cases hcandidate : candidate channelDefs channelTypes bit with
    | some channelDef =>
      refine ⟨bit, ?_, rfl⟩
      unfold candidate at hcandidate
      simp only [hcandidate]
      rfl
    | none =>
      obtain ⟨stop, hmatch, htail⟩ := ih (by rwa [Nat.add_right_comm, Nat.add_assoc])
      refine ⟨stop, ?_, htail⟩
      unfold candidate at hcandidate
      simp only [hcandidate, hshift]
      exact hmatch

/-- Assumes: enough rounds for the mask. More of them change nothing. -/
theorem matchChannelDef_add (channelDefs : List ChannelDef) (rounds more : ℕ)
    (hmask : channelTypes < 2 ^ (bit + rounds)) :
    matchChannelDef channelDefs channelTypes (rounds + more) (2 ^ bit) =
      matchChannelDef channelDefs channelTypes rounds (2 ^ bit) := by
  induction rounds generalizing bit with
  | zero =>
    cases more with
    | zero => rfl
    | succ more =>
      have hlt : channelTypes < 2 ^ bit := hmask
      simp [matchChannelDef, hlt]
  | succ rounds ih =>
    rw [Nat.add_right_comm, matchChannelDef, matchChannelDef, two_pow_shiftLeft_one,
      ih (by rwa [Nat.add_right_comm, Nat.add_assoc])]

/-! ### One `ConnectToPublisher` -/

/-- The type of the channel and how far it is. -/
def stands (p : Subscriber M) : Option (ChannelType × ChannelPhase) :=
  p.channel.map fun channel ↦ (channel.type, channel.phase)

/-- How a search stands: what is left to try begins with what is being connected to. -/
inductive Seeks (p : Subscriber M) : List ChannelDef → Prop
  | gaveUp (hchannel : p.channel = none) : Seeks p []
  | tries (channelDef : ChannelDef) (bit : ℕ) (htype : p.channelType = 2 ^ bit)
      (hstands : p.stands = some (channelDef.type, .connecting)) :
      Seeks p (channelDef ::
        offeredFrom p.topicInfo.topicSource.channelDefs p.channelTypes (bit + 1))

/-- What a search leaves alone. -/
def SameSubject (p p' : Subscriber M) : Prop :=
  p'.topicInfo = p.topicInfo ∧ p'.channelTypes = p.channelTypes ∧
    p'.registerState = p.registerState ∧ p'.subscriberState = p.subscriberState ∧
      p'.onErrorCallback = p.onErrorCallback

/-- What is seen when a search goes on. -/
def connectEvents (isSet : Bool) : List ChannelDef → List (SubscriberEvent M)
  | [] => [.error failedToConnect isSet]
  | channelDef :: _ => [.opened channelDef]

/-- Assumes: a mask of fewer bits than an `int` has. -/
theorem connectToPublisher_seeks (hmask : p.channelTypes < 2 ^ 30)
    (htype : p.channelType = 2 ^ bit) :
    Seeks p.connectToPublisher.1
        (offeredFrom p.topicInfo.topicSource.channelDefs p.channelTypes bit) ∧
      p.connectToPublisher.2 = connectEvents p.onErrorCallback
        (offeredFrom p.topicInfo.topicSource.channelDefs p.channelTypes bit) ∧
      SameSubject p p.connectToPublisher.1 := by
  have hrounds : p.channelTypes < 2 ^ (bit + 31) :=
    hmask.trans_le (Nat.pow_le_pow_right (by decide) (by omega))
  obtain ⟨stop, hmatch, htail⟩ :=
    matchChannelDef_eq p.topicInfo.topicSource.channelDefs 31 hrounds
  unfold connectToPublisher
  rw [htype, hmatch]
  cases htries : offeredFrom p.topicInfo.topicSource.channelDefs p.channelTypes bit with
  | nil => exact ⟨.gaveUp rfl, rfl, rfl, rfl, rfl, rfl, rfl⟩
  | cons channelDef rest =>
    rw [htries] at htail
    obtain rfl : rest = _ := htail
    exact ⟨.tries channelDef stop rfl rfl, rfl, rfl, rfl, rfl, rfl, rfl⟩

/-! ### One attempt -/

variable {hasRos : Bool} {outcome : ConnectOutcome M}

/-- A search replaces the channel, whatever became of it. -/
theorem connectToPublisher_of_channel (p : Subscriber M) (channel : Option SubscriberChannel) :
    ({ p with channel }).connectToPublisher = p.connectToPublisher := by
  unfold connectToPublisher
  cases matchChannelDef p.topicInfo.topicSource.channelDefs p.channelTypes 31 p.channelType with
  | mk channelDef channelType => cases channelDef <;> rfl

theorem setPhase_setPhase (p : Subscriber M) (phase phase' : ChannelPhase) :
    (p.setPhase phase).setPhase phase' = p.setPhase phase' := by
  unfold setPhase
  cases p.channel <;> rfl

theorem attempt_of_fails (hfails : outcome.succeeds (p.usesRos hasRos) = false) :
    p.attempt hasRos outcome = p.tryNext.connectToPublisher := by
  unfold attempt onConnectToPublisher
  by_cases hstatus : outcome.status.isOk = true
  · obtain ⟨hros, hhandshake⟩ : p.usesRos hasRos = true ∧ outcome.handshake.isOk = false := by
      simpa [ConnectOutcome.succeeds, hstatus] using hfails
    have huses : (hasRos && isUsingRosProtocol p.topicInfo.topic) = true := hros
    simp only [hstatus, hros, huses, Bool.and_self, if_true, onRosTopicHandshake, hhandshake]
    exact connectToPublisher_of_channel p.tryNext _
  · simp [hstatus]

theorem attempt_of_succeeds (hsucceeds : outcome.succeeds (p.usesRos hasRos) = true) :
    p.attempt hasRos outcome = (p.setPhase .established).startMessageLoop outcome.received := by
  unfold attempt onConnectToPublisher
  obtain ⟨hstatus, hhandshake⟩ : outcome.status.isOk = true ∧
      (p.usesRos hasRos = true → outcome.handshake.isOk = true) := by
    simpa [ConnectOutcome.succeeds, Bool.or_eq_true, imp_iff_not_or] using hsucceeds
  by_cases hros : p.usesRos hasRos = true
  · have huses : (hasRos && isUsingRosProtocol p.topicInfo.topic) = true := hros
    simp only [hstatus, hros, huses, Bool.and_self, if_true, onRosTopicHandshake, hhandshake hros,
      setPhase_setPhase, List.nil_append]
  · have huses : ¬ (hasRos && isUsingRosProtocol p.topicInfo.topic) = true := hros
    simp [hstatus, hros, huses]

/-- The error of a receive has a text of its own. -/
theorem receive_error_ne (code : ErrorCode) (text : String) :
    (⟨code, "Failed to receive a message: " ++ text⟩ : Status) ≠ failedToConnect := by
  intro heq
  have htext := congrArg (fun status ↦ status.errorMessage.toList.take 11) heq
  simp [failedToConnect] at htext

theorem isAside_handleReceived (p : Subscriber M) (received : ReceiveResult M) :
    ∀ e ∈ (p.handleReceived received).2, e.isAside = true := by
  unfold handleReceived
  cases received with
  | message message => split_ifs <;> exact List.forall_mem_nil _
  | failure status isConnected =>
    have herror : (SubscriberEvent.error ⟨status.errorCode, "Failed to receive a message: " ++
        cStr status.errorMessage⟩ p.onErrorCallback : SubscriberEvent M).isAside = true :=
      decide_eq_true (receive_error_ne _ _)
    dsimp only
    split_ifs
    · exact List.forall_mem_nil _
    · exact List.forall_mem_singleton.mpr herror
    · exact List.forall_mem_cons.mpr ⟨herror, List.forall_mem_singleton.mpr rfl⟩
    · exact List.forall_mem_singleton.mpr herror

theorem isAside_receiveAll (p : Subscriber M) (received : List (ReceiveResult M)) :
    ∀ e ∈ (p.receiveAll received).2, e.isAside = true :=
  forall_mem_receiveAll (fun q first ↦ isAside_handleReceived q.received first) p received

/-- Assumes: a loop that is stopped. The loop is started on the channel there is, unless the
subscription was given up, and nothing is connected to. -/
theorem startMessageLoop_selects (hstate : p.subscriberState = .stopped)
    (received : List (ReceiveResult M)) :
    (∀ e ∈ (p.startMessageLoop received).2, e.isAside = true) ∧
    (p.startMessageLoop received).1.channel.map SubscriberChannel.fixed =
      p.channel.map SubscriberChannel.fixed ∧
    (p.registerState = .registering ∨ p.registerState = .registered →
      (p.startMessageLoop received).1.subscriberState ≠ .stopped ∧
      ∃ opened current, .started opened current ∈ (p.startMessageLoop received).2) := by
  have hcase := startMessageLoop_cases p received
  revert hcase
  generalize p.startMessageLoop received = result
  rintro (hrefused | hputOff | _)
  · refine ⟨List.forall_mem_nil _, rfl, fun hregister ↦ ?_⟩
    rcases hrefused with h | h | h <;> rcases hregister with h' | h' <;> simp_all
  · cases hstate.symm.trans hputOff
  · have hframe := receiveFrame_firstReceives p received
    have hne : (p.firstReceives received).1.subscriberState ≠ .stopped :=
      hframe.ne_stopped (by simp [justStarted])
    obtain ⟨⟨_, _, _, heq⟩, htold⟩ := (notifyMessageLoop_cases hne).frame
    refine ⟨?_, ?_, fun _ ↦ ⟨?_, _, _, List.mem_cons_self⟩⟩
    · refine List.forall_mem_cons.mpr ⟨rfl, List.forall_mem_append.mpr
        ⟨isAside_receiveAll _ received, fun e he ↦ ?_⟩⟩
      obtain ⟨message, rfl⟩ := htold e he
      rfl
    · rw [heq]
      exact hframe.channel
    · rw [heq]
      exact hne

/-! ### Searches -/

theorem opened?_eq_none {e : SubscriberEvent M} (h : e.isAside = true) : e.opened? = none := by
  cases e <;> first | rfl | cases h

/-- What some attempts come to, of which so many fail before the first that succeeds: the
definitions behind the first that are connected to, when the error is told, the channel, and the
loop on it. -/
structure Selects (p : Subscriber M) (tries : List ChannelDef) (failures attempts : ℕ)
    (result : Subscriber M × List (SubscriberEvent M)) : Prop where
  opened : result.2.filterMap SubscriberEvent.opened? = tries.tail.take failures
  error : .error failedToConnect p.onErrorCallback ∈ result.2 ↔
    tries ≠ [] ∧ tries.length ≤ failures
  channel : result.1.stands = tries[failures]?.map fun channelDef ↦
    (channelDef.type, if failures < attempts then .established else .connecting)
  started : failures < attempts → failures < tries.length →
    p.registerState = .registering ∨ p.registerState = .registered →
      result.1.subscriberState ≠ .stopped ∧ ∃ opened current, .started opened current ∈ result.2

theorem tryAll_of_not_connecting (h : p.isInPhase .connecting = false)
    (outcomes : List (ConnectOutcome M)) : p.tryAll hasRos outcomes = (p, []) := by
  cases outcomes with
  | nil => rfl
  | cons outcome rest => rw [tryAll, h, if_neg (by decide)]

theorem tryAll_cons (h : p.isInPhase .connecting = true) (outcome : ConnectOutcome M)
    (rest : List (ConnectOutcome M)) :
    p.tryAll hasRos (outcome :: rest) =
      (((p.attempt hasRos outcome).1.tryAll hasRos rest).1,
        (p.attempt hasRos outcome).2 ++ ((p.attempt hasRos outcome).1.tryAll hasRos rest).2) := by
  rw [tryAll, if_pos h]

theorem isInPhase_eq (p : Subscriber M) (phase : ChannelPhase) :
    p.isInPhase phase = p.stands.any (·.2 = phase) := by
  unfold isInPhase stands
  cases p.channel <;> rfl

theorem stands_eq_of_fixed {p' : Subscriber M}
    (h : p'.channel.map SubscriberChannel.fixed = p.channel.map SubscriberChannel.fixed) :
    p'.stands = p.stands := by
  have hfixed : ∀ q : Subscriber M, q.stands = (q.channel.map SubscriberChannel.fixed).map
      fun channel ↦ (channel.type, channel.phase) := by
    intro q
    unfold stands
    cases q.channel <;> rfl
  rw [hfixed, hfixed, h]

theorem error_notMem_of_isAside {events : List (SubscriberEvent M)} {isSet : Bool}
    (h : ∀ e ∈ events, e.isAside = true) : .error failedToConnect isSet ∉ events := by
  intro hmem
  simpa [SubscriberEvent.isAside] using h _ hmem

theorem opened_eq_nil_of_isAside {events : List (SubscriberEvent M)}
    (h : ∀ e ∈ events, e.isAside = true) :
    events.filterMap SubscriberEvent.opened? = [] :=
  List.filterMap_eq_nil_iff.mpr fun e he ↦ opened?_eq_none (h e he)

/-- Assumes: the first of the attempts succeeds. -/
theorem selects_of_succeeds {channelDef : ChannelDef} {tries : List ChannelDef}
    (hstate : p.subscriberState = .stopped)
    (hstands : p.stands = some (channelDef.type, .connecting))
    (hsucceeds : outcome.succeeds (p.usesRos hasRos) = true) (rest : List (ConnectOutcome M)) :
    Selects p (channelDef :: tries) 0 (rest.length + 1) (p.tryAll hasRos (outcome :: rest)) := by
  have hestablished : (p.setPhase .established).subscriberState = .stopped := hstate
  obtain ⟨haside, hfixed, hstarted⟩ := startMessageLoop_selects hestablished outcome.received
  have hchannel : ((p.setPhase .established).startMessageLoop outcome.received).1.stands =
      some (channelDef.type, .established) := by
    rw [stands_eq_of_fixed hfixed]
    obtain ⟨channel, hchannel, hpair⟩ := Option.map_eq_some_iff.mp hstands
    simp only [Prod.mk.injEq] at hpair
    simp [stands, setPhase, hchannel, hpair.1]
  have hconnecting : p.isInPhase .connecting = true := by simp [isInPhase_eq, hstands]
  rw [tryAll_cons hconnecting, attempt_of_succeeds hsucceeds,
    tryAll_of_not_connecting (by simp [isInPhase_eq, hchannel]), List.append_nil]
  refine ⟨?_, ?_, ?_, fun _ _ ↦ hstarted⟩
  · rw [opened_eq_nil_of_isAside haside, List.take_zero]
  · simpa using error_notMem_of_isAside haside
  · simp [hchannel]

/-- Assumes: what the attempts after the next `ConnectToPublisher` come to. -/
theorem Selects.of_fails {q : Subscriber M} {channelDef : ChannelDef} {tries : List ChannelDef}
    {failures attempts : ℕ} {result : Subscriber M × List (SubscriberEvent M)}
    (h : Selects q tries failures attempts result) (hsame : SameSubject p q) :
    Selects p (channelDef :: tries) (failures + 1) (attempts + 1)
      (result.1, connectEvents p.onErrorCallback tries ++ result.2) := by
  obtain ⟨-, -, hregister, -, hset⟩ := hsame
  have herror := h.error
  rw [hset] at herror
  refine ⟨?_, ?_, ?_, ?_⟩
  · rw [List.filterMap_append, h.opened]
    cases tries <;> simp [connectEvents, SubscriberEvent.opened?]
  · rw [List.mem_append, herror]
    cases tries <;> simp [connectEvents]
  · rw [h.channel]
    simp
  · intro hattempts htries hstate
    rw [← hregister] at hstate
    obtain ⟨hactive, opened, current, hstarted⟩ := h.started (by omega)
      (by simpa using htries) hstate
    exact ⟨hactive, opened, current, List.mem_append_right _ hstarted⟩

/-- Assumes: a search that is over. -/
theorem selects_of_gaveUp (hchannel : p.channel = none) (outcomes : List (ConnectOutcome M))
    (failures : ℕ) : Selects p [] failures outcomes.length (p.tryAll hasRos outcomes) := by
  rw [tryAll_of_not_connecting (by simp [isInPhase, hchannel])]
  exact ⟨by simp, by simp, by simp [stands, hchannel], by simp⟩

/-- Assumes: a search that stands at some definitions, with a stopped loop. -/
theorem tryAll_selects {tries : List ChannelDef} (hmask : p.channelTypes < 2 ^ 30)
    (hstate : p.subscriberState = .stopped) (hseeks : p.Seeks tries)
    (outcomes : List (ConnectOutcome M)) :
    Selects p tries
      (outcomes.takeWhile fun outcome ↦ !outcome.succeeds (p.usesRos hasRos)).length
      outcomes.length (p.tryAll hasRos outcomes) := by
  induction outcomes generalizing p tries with
  | nil =>
    cases hseeks with
    | gaveUp hchannel => exact selects_of_gaveUp hchannel [] _
    | tries channelDef bit htype hstands =>
      exact ⟨rfl, by simp [tryAll], by simpa [tryAll] using hstands, by simp⟩
  | cons outcome rest ih =>
    cases hseeks with
    | gaveUp hchannel => exact selects_of_gaveUp hchannel (outcome :: rest) _
    | tries channelDef bit htype hstands =>
      by_cases hsucceeds : outcome.succeeds (p.usesRos hasRos) = true
      · simpa [hsucceeds] using selects_of_succeeds hstate hstands hsucceeds rest
      · -- The search goes on behind the type of the channel that failed.
        have hconnecting : p.isInPhase .connecting = true := by simp [isInPhase_eq, hstands]
        have hfails : outcome.succeeds (p.usesRos hasRos) = false := by simpa using hsucceeds
        have hnext : p.tryNext.channelType = 2 ^ (bit + 1) := by
          rw [tryNext, htype, two_pow_shiftLeft_one]
        obtain ⟨hseeks', hevents, hsame⟩ := connectToPublisher_seeks (p := p.tryNext) hmask hnext
        have hsubject : SameSubject p p.tryNext.connectToPublisher.1 := hsame
        obtain ⟨htopic, htypes, -, hstate', -⟩ := hsame
        have hros : p.tryNext.connectToPublisher.1.usesRos hasRos = p.usesRos hasRos := by
          rw [usesRos, htopic]
          rfl
        have hrest := ih (by rw [htypes]; exact hmask) (hstate'.trans hstate) hseeks'
        rw [hros] at hrest
        rw [tryAll_cons hconnecting, attempt_of_fails hfails, hevents,
          List.takeWhile_cons_of_pos (by simp [hfails])]
        exact hrest.of_fails hsubject

/-- A publisher that can be reached over TCP, UDP and, twice, a Unix domain socket. -/
def reachableOverThree : TopicInfo :=
  { topicSource := { channelDefs := [{ type := .tcp }, { type := .uds }, { type := .udp },
    { type := .uds }] } }

end Subscriber

end Felicia
