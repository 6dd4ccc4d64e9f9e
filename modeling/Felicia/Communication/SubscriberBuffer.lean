import Felicia.Channel.FixedBuffer

/-!
# What peers can make a subscriber allocate

What a `Subscriber` of `felicia/core/communication/subscriber.h` does with the receive buffer of its
channel. A subscriber of a topic of felicia never makes its buffer dynamic when it is configured not
to, so its peers do not make it allocate. A subscriber of a ROS topic makes it dynamic for the
handshake, and as `SetDynamicBuffer` ignores its argument, it stays so: from then on it allocates
what its peers announce.

Of the subscriber only the calls on its receive buffer are here. Its handlers may run in any order
that the channel allows, which is more than the order in which a subscriber runs them.
-/

set_option autoImplicit false
set_option relaxedAutoImplicit false

namespace Felicia

open Support TransitionSystem

/-! ### Subscribers -/

/-- `communication::Settings`, as far as it is about buffers. -/
structure BufferSettings where
  /-- `buffer_size`. -/
  bufferSize : ℕ
  isDynamicBuffer : Bool

/-- The capacity that `TrySetEnoughReceiveBufferSize` asks for. -/
def ReceiveMode.enoughSize (mode : ReceiveMode) (size : ℤ) : ℤ :=
  match mode with
  | .stream => size
  | .oneShot channel => channel.enoughSize

/-- The channel of a subscriber. -/
structure BufferedChannel where
  mode : ReceiveMode
  receiveBuffer : TrackedBuffer := {}
  /-- The `RosTopicRequest` waits for its response. -/
  handshaking : Bool
  /-- What is being received, if a receive is under way. -/
  receiving : Option Receiving := none

/-- What can happen to a subscriber. -/
inductive BufferedAction
  /-- A new channel is connected. -/
  | onConnectToPublisher (mode : ReceiveMode)
  /-- A header arrived in full, and announces the size of a message. -/
  | onReceiveHeader (messageSize : ℤ)
  /-- The callback of `ReceiveMessage` is run. -/
  | onReceiveMessage (ok : Bool)
  /-- The socket stored bytes. -/
  | setOffset (offset : ℤ)

namespace BufferedChannel

variable (c : BufferedChannel)

/-- Calls on the receive buffer. -/
def perform (calls : List BufferCall) : Option (TrackedBuffer × List BufferEvent) :=
  (channelBuffer.startingAt c.receiveBuffer).exec unguarded c.receiveBuffer [] calls

/-- Whether `TrySetEnoughReceiveBufferSize` returned true, by the calls that were made. -/
def foundRoom (events : List BufferEvent) : Bool :=
  match c.mode with
  | .stream => events.getLast?.bind (·.returned) = some true
  | .oneShot _ => true

/-- Calls on the receive buffer and then `Channel::ReceiveInternalBuffer`. -/
def receiveAfter (calls : List BufferCall) (receiving : Receiving) :
    Option (BufferedChannel × List BufferEvent) :=
  (c.perform (calls ++
    [.reset, .setEnoughCapacityIfDynamic (c.mode.enoughSize receiving.size)])).map fun result ↦
      ({ c with
        receiveBuffer := result.1
        receiving := if c.foundRoom result.2 then some receiving else none }, result.2)

/-- `MessageReceiver::OnReceiveHeader`. -/
def onReceiveHeader (messageSize : ℤ) : Option (BufferedChannel × List BufferEvent) :=
  match c.mode, c.receiving with
  | .stream, some .header =>
    if 0 < messageSize then c.receiveAfter [] (.message messageSize.toNat)
    else some ({ c with receiving := none }, [])
  | _, _ => none

variable {c} {c' : BufferedChannel} {events : List BufferEvent}

theorem fixed_of_perform {t : TrackedBuffer} {calls : List BufferCall}
    (h : c.perform calls = some (t, events)) : ∀ e ∈ events, (e.Fixed ↔ e.Within) :=
  TrackedBuffer.fixed_iff_within ((Run.start rfl).of_exec h)

/-- Assumes: a new buffer. Its size is set, and it may be made dynamic. -/
theorem buffer_of_setCapacity (hnew : c.receiveBuffer = {}) {size : ℤ} {isDynamic : Bool}
    {t : TrackedBuffer} (h : c.perform ([.setCapacity size] ++
      if isDynamic then [.setDynamicBuffer true] else []) = some (t, events)) :
    (t.buffer.capacity : ℤ) = size ∧ t.buffer.isDynamic = isDynamic := by
  rw [perform, hnew] at h
  by_cases hsize : 0 ≤ size
  · cases isDynamic <;>
      simp [exec, unguarded, startingAt, channelBuffer, TrackedBuffer.step, TrackedBuffer.perform,
        hsize] at h <;>
      obtain ⟨rfl, -⟩ := h
    · exact ⟨by simp [hsize], rfl⟩
    · exact ⟨by simp [hsize], rfl⟩
  · simp [exec, unguarded, startingAt, channelBuffer, TrackedBuffer.step, TrackedBuffer.perform,
      hsize] at h

/-- Assumes: a call of `ReceiveInternalBuffer`. It is made in the buffer that the other calls
left. -/
theorem exists_of_receiveAfter {calls : List BufferCall} {receiving : Receiving}
    (h : c.receiveAfter calls receiving = some (c', events)) :
    ∃ t before, c.perform calls = some (t, before) ∧
      c'.receiveBuffer.buffer = (t.buffer.reset.setEnoughCapacityIfDynamic
        (c.mode.enoughSize receiving.size)).1 ∧
      c'.mode = c.mode ∧ c'.handshaking = c.handshaking := by
  obtain ⟨result, hperform, heq⟩ := Option.map_eq_some_iff.mp h
  rw [perform, exec_append] at hperform
  obtain ⟨⟨t, before⟩, hcalls, hreceive⟩ := Option.bind_eq_some_iff.mp hperform
  cases hreceive
  cases heq
  exact ⟨t, before, hcalls, rfl, rfl, rfl⟩

/-- What `OnReceiveHeader` does. -/
theorem onReceiveHeader_cases {messageSize : ℤ}
    (h : c.onReceiveHeader messageSize = some (c', events)) :
    (messageSize ≤ 0 ∧ c' = { c with receiving := none } ∧ events = []) ∨
    (0 < messageSize ∧ c.mode = .stream ∧
      c.receiveAfter [] (.message messageSize.toNat) = some (c', events)) := by
  unfold onReceiveHeader at h
  cases hmode : c.mode with
  | oneShot channel => simp [hmode] at h
  | stream =>
    by_cases hreceiving : c.receiving = some .header
    · simp only [hmode, hreceiving] at h
      split_ifs at h with hpositive
      · exact Or.inr ⟨hpositive, rfl, h⟩
      · cases h
        exact Or.inl ⟨not_lt.mp hpositive, rfl, rfl⟩
    · cases hother : c.receiving with
      | none => simp [hmode, hother] at h
      | some receiving =>
        cases receiving with
        | header => exact absurd hother hreceiving
        | message size => simp [hmode, hother] at h

theorem exists_of_perform_singleton {call : BufferCall} {t : TrackedBuffer}
    (h : c.perform [call] = some (t, events)) :
    ∃ returned, c.receiveBuffer.perform call = some (t, returned) := by
  cases hcall : c.receiveBuffer.perform call with
  | none => simp [perform, exec, startingAt, channelBuffer, TrackedBuffer.step, hcall] at h
  | some result =>
    simp only [perform, exec, unguarded, startingAt, channelBuffer, TrackedBuffer.step, hcall,
      Option.map_some, if_true] at h
    cases h
    exact ⟨result.2, rfl⟩

/-- The socket moves the offset alone. -/
theorem buffer_of_setOffset {offset : ℤ} {t : TrackedBuffer}
    (h : c.perform [.setOffset offset] = some (t, events)) :
    t.buffer.toChannelBuffer = c.receiveBuffer.buffer.toChannelBuffer := by
  obtain ⟨returned, hcall⟩ := exists_of_perform_singleton h
  simp only [TrackedBuffer.perform] at hcall
  split_ifs at hcall
  cases hcall
  rfl

end BufferedChannel

namespace BufferSettings

variable (settings : BufferSettings) (usesRos : Bool)

/-- The calls of `Subscriber::OnConnectToPublisher` and `RosTopicRequest::Request`. -/
def connectCalls (mode : ReceiveMode) : List BufferCall :=
  (if settings.isDynamicBuffer then [.setDynamicBuffer true]
    else [.setCapacity (toInt (mode.receiveBufferSize settings.bufferSize))]) ++
  if usesRos then [.setDynamicBuffer true] else []

/-- `Subscriber::OnConnectToPublisher`, with OK. -/
def onConnectToPublisher (mode : ReceiveMode) : Option (BufferedChannel × List BufferEvent) :=
  BufferedChannel.receiveAfter { mode, handshaking := usesRos }
    (settings.connectCalls usesRos mode) .header

/-- A subscriber, which has a channel once it is connected. A handshake ends in
`RosTopicRequest::OnReceiveResponse` and `Subscriber::OnRosTopicHandshake`, a message in
`Subscriber::OnReceiveMessage`. -/
def step : Option BufferedChannel → BufferedAction →
    Option (Option BufferedChannel × List BufferEvent)
  | _, .onConnectToPublisher mode =>
    (settings.onConnectToPublisher usesRos mode).map fun result ↦ (some result.1, result.2)
  | none, _ => none
  | some c, .onReceiveHeader messageSize =>
    (c.onReceiveHeader messageSize).map fun result ↦ (some result.1, result.2)
  | some c, .onReceiveMessage ok =>
    if !c.handshaking then
      (c.receiveAfter [] .header).map fun result ↦ (some result.1, result.2)
    else if ok then
      (({ c with handshaking := false } : BufferedChannel).receiveAfter
        [.setDynamicBuffer false, .setDynamicBuffer false] .header).map fun result ↦
          (some result.1, result.2)
    else (c.perform [.setDynamicBuffer false]).map fun result ↦ (none, result.2)
  | some c, .setOffset offset =>
    (c.perform [.setOffset offset]).map fun result ↦
      (some { c with receiveBuffer := result.1 }, result.2)

end BufferSettings

/-! ### What peers can make a subscriber allocate -/

theorem toInt_le (length : ℕ) : toInt length ≤ length := by
  obtain ⟨wraps, hwraps⟩ : ((2 ^ 32 : ℕ) : ℤ) ∣ length - toInt length := Int.dvd_self_sub_bmod
  have hhigh : toInt length ≤ (((2 ^ 32 : ℕ) : ℤ) - 1) / 2 := Int.bmod_le (Nat.two_pow_pos 32)
  have hword : ((2 ^ 32 : ℕ) : ℤ) = 4294967296 := rfl
  rw [hword] at hwraps hhigh
  omega

theorem le_of_toInt_eq_zero {length : ℕ} (h : toInt length = 0) (hne : length ≠ 0) :
    1000 ≤ length := by
  have hdvd : 2 ^ 32 ∣ length := Int.natCast_dvd_natCast.mp (Int.dvd_iff_bmod_eq_zero.mpr h)
  have hle := Nat.le_of_dvd (Nat.pos_of_ne_zero hne) hdvd
  omega

theorem ReceiveMode.receiveBufferSize_le (mode : ReceiveMode) (capacity : ℕ) :
    mode.receiveBufferSize capacity ≤ capacity := by
  cases mode with
  | stream => exact le_rfl
  | oneShot channel => exact Nat.min_le_left _ _

/-- A size that wraps to zero is not a small one. -/
theorem ReceiveMode.eq_zero_or_le_of_toInt_eq_zero (mode : ReceiveMode) (capacity : ℕ)
    (h : toInt (mode.receiveBufferSize capacity) = 0) :
    mode.receiveBufferSize capacity = 0 ∨ 1000 ≤ capacity := by
  by_cases hempty : mode.receiveBufferSize capacity = 0
  · exact Or.inl hempty
  · exact Or.inr ((le_of_toInt_eq_zero h hempty).trans (mode.receiveBufferSize_le capacity))

/-- A buffer that is not larger than the configured size. Without a ROS handshake it was allocated
and can not grow. -/
structure PlacedBuffer.Bounded (size : ℕ) (usesRos : Bool) (b : PlacedBuffer) : Prop where
  capacity_le : b.capacity ≤ size
  isDynamic_eq : b.isDynamic = usesRos
  allocated : usesRos = false → 0 < b.capacity

/-- Making room keeps the bound, if a dynamic buffer is not asked for more. -/
theorem PlacedBuffer.Bounded.receive_iff {size : ℕ} {usesRos : Bool} {b : PlacedBuffer}
    (h : b.Bounded size usesRos) (capacity : ℤ) :
    ((b.reset.setEnoughCapacityIfDynamic capacity).1.capacity ≤ size ↔
      (usesRos = true → capacity ≤ size)) ∧
    ((usesRos = true → capacity ≤ size) →
      (b.reset.setEnoughCapacityIfDynamic capacity).1.Bounded size usesRos) := by
  have hcapacity := b.capacity_receive capacity
  have hle := h.capacity_le
  have hdynamic : (b.reset.setEnoughCapacityIfDynamic capacity).1.isDynamic = usesRos := by
    rw [PlacedBuffer.isDynamic_setEnoughCapacityIfDynamic, PlacedBuffer.isDynamic_reset,
      h.isDynamic_eq]
  rw [h.isDynamic_eq] at hcapacity
  cases usesRos with
  | false =>
    have hpos := h.allocated rfl
    rw [if_neg Bool.false_ne_true, if_neg hpos.ne'] at hcapacity
    have hsame := Int.ofNat_inj.mp hcapacity
    refine ⟨iff_of_true (hsame ▸ hle) fun hros ↦ absurd hros Bool.false_ne_true, fun _ ↦ ?_⟩
    exact ⟨hsame ▸ hle, hdynamic, fun _ ↦ hsame ▸ hpos⟩
  | true =>
    rw [if_pos rfl] at hcapacity
    have hbound : (b.reset.setEnoughCapacityIfDynamic capacity).1.capacity ≤ size ↔
        capacity ≤ size := by omega
    refine ⟨hbound.trans ⟨fun hle _ ↦ hle, fun hasked ↦ hasked rfl⟩, fun hasked ↦ ?_⟩
    exact ⟨hbound.mpr (hasked rfl), hdynamic, fun hros ↦ absurd hros.symm Bool.false_ne_true⟩

/-- A subscriber from its construction on, for a topic of felicia or one of ROS. -/
def bufferedSubscriber (settings : BufferSettings) (usesRos : Bool) :
    TransitionSystem (Option BufferedChannel) BufferedAction BufferEvent where
  Initial s := s = none
  step := settings.step usesRos

namespace BufferSettings

variable {settings : BufferSettings} {usesRos : Bool}

/-- A subscriber of a topic of felicia needs a buffer that is not empty. One of a ROS topic needs a
size that is enough for headers, and peers that announce no more. -/
def Within (settings : BufferSettings) (usesRos : Bool) (_ : Option BufferedChannel) :
    BufferedAction → Prop
  | .onConnectToPublisher mode =>
    if usesRos then mode.enoughSize headerSize ≤ settings.bufferSize
    else mode.receiveBufferSize settings.bufferSize = 0 → 1000 ≤ settings.bufferSize
  | .onReceiveHeader messageSize => usesRos = true → messageSize ≤ settings.bufferSize
  | .onReceiveMessage _ | .setOffset _ => True

/-- The channel of a subscriber has a buffer within the configured size. -/
structure Keeps (settings : BufferSettings) (usesRos : Bool) (c : BufferedChannel) :
    Prop where
  bounded : c.receiveBuffer.buffer.Bounded settings.bufferSize usesRos
  header_le : usesRos = true → c.mode.enoughSize headerSize ≤ settings.bufferSize
  usesRos_of_handshaking : c.handshaking = true → usesRos = true

/-- Assumes: a fixed buffer. The configured size is set, and a ROS topic makes the buffer
dynamic. -/
theorem buffer_of_connectCalls (hfixed : settings.isDynamicBuffer = false) {mode : ReceiveMode}
    {t : TrackedBuffer} {events : List BufferEvent}
    (h : BufferedChannel.perform { mode, handshaking := usesRos }
      (settings.connectCalls usesRos mode) = some (t, events)) :
    (t.buffer.capacity : ℤ) = toInt (mode.receiveBufferSize settings.bufferSize) ∧
      t.buffer.isDynamic = usesRos := by
  rw [connectCalls, hfixed] at h
  exact BufferedChannel.buffer_of_setCapacity rfl h

theorem keeps_onConnectToPublisher (hfixed : settings.isDynamicBuffer = false)
    {mode : ReceiveMode} {c : BufferedChannel} {events : List BufferEvent}
    (h : settings.onConnectToPublisher usesRos mode = some (c, events)) :
    (c.receiveBuffer.buffer.capacity ≤ settings.bufferSize ↔
      settings.Within usesRos none (.onConnectToPublisher mode)) ∧
    (settings.Within usesRos none (.onConnectToPublisher mode) → settings.Keeps usesRos c) := by
  obtain ⟨t, before, hcalls, hbuffer, hmode, hhandshaking⟩ :=
    BufferedChannel.exists_of_receiveAfter h
  obtain ⟨hcapacity, hdynamic⟩ := buffer_of_connectCalls hfixed hcalls
  have hreceived := t.buffer.capacity_receive (mode.enoughSize headerSize)
  have hkept : c.receiveBuffer.buffer.isDynamic = usesRos := by
    rw [hbuffer, PlacedBuffer.isDynamic_setEnoughCapacityIfDynamic, PlacedBuffer.isDynamic_reset,
      hdynamic]
  have hle := mode.receiveBufferSize_le settings.bufferSize
  have hint := toInt_le (mode.receiveBufferSize settings.bufferSize)
  have hsame : (c.receiveBuffer.buffer.capacity : ℤ) =
      (t.buffer.reset.setEnoughCapacityIfDynamic (mode.enoughSize headerSize)).1.capacity := by
    rw [hbuffer]
    rfl
  rw [← hsame, hdynamic] at hreceived
  cases usesRos with
  | false =>
    rw [if_neg Bool.false_ne_true] at hreceived
    have hzero := mode.eq_zero_or_le_of_toInt_eq_zero settings.bufferSize
    have hnone : mode.receiveBufferSize settings.bufferSize = 0 →
        toInt (mode.receiveBufferSize settings.bufferSize) = 0 := fun hempty ↦ hempty ▸ rfl
    have hbound : c.receiveBuffer.buffer.capacity ≤ settings.bufferSize ↔
        (mode.receiveBufferSize settings.bufferSize = 0 → 1000 ≤ settings.bufferSize) := by
      split_ifs at hreceived with hunallocated <;> omega
    refine ⟨hbound, fun hsize ↦ ⟨⟨hbound.mpr hsize, hkept, fun _ ↦ ?_⟩, fun hros ↦ ?_, ?_⟩⟩
    · split_ifs at hreceived with hunallocated <;> omega
    · cases hros
    · rw [hhandshaking]
      exact id
  | true =>
    rw [if_pos rfl] at hreceived
    have hbound : c.receiveBuffer.buffer.capacity ≤ settings.bufferSize ↔
        mode.enoughSize headerSize ≤ settings.bufferSize := by omega
    refine ⟨hbound, fun hheader ↦
      ⟨⟨hbound.mpr hheader, hkept, fun hros ↦ ?_⟩, fun _ ↦ ?_, fun _ ↦ rfl⟩⟩
    · cases hros
    · rw [hmode]
      exact hheader

/-- Assumes: a channel within the configured size. So is the channel after
`ReceiveInternalBuffer`, if a dynamic buffer is not asked for more. -/
theorem Keeps.receiveAfter_iff {c c' : BufferedChannel} (hkeeps : settings.Keeps usesRos c)
    {calls : List BufferCall} {receiving : Receiving} {events : List BufferEvent}
    (hcalls : ∀ t before, c.perform calls = some (t, before) →
      t.buffer.Bounded settings.bufferSize usesRos)
    (h : c.receiveAfter calls receiving = some (c', events)) :
    (c'.receiveBuffer.buffer.capacity ≤ settings.bufferSize ↔
      (usesRos = true → c.mode.enoughSize receiving.size ≤ settings.bufferSize)) ∧
    ((usesRos = true → c.mode.enoughSize receiving.size ≤ settings.bufferSize) →
      settings.Keeps usesRos c') := by
  obtain ⟨t, before, hperform, hbuffer, hmode, hhandshaking⟩ :=
    BufferedChannel.exists_of_receiveAfter h
  obtain ⟨hiff, hbounded⟩ := (hcalls t before hperform).receive_iff
    (c.mode.enoughSize receiving.size)
  rw [← hbuffer] at hbounded
  refine ⟨?_, fun hasked ↦ ⟨hbounded hasked, fun hros ↦ ?_, fun hhandshake ↦ ?_⟩⟩
  · rw [hbuffer]
    exact hiff
  · rw [hmode]
    exact hkeeps.header_le hros
  · exact hkeeps.usesRos_of_handshaking (hhandshaking ▸ hhandshake)

/-- A receive that is started with no other call. -/
theorem Keeps.bounded_of_perform_nil {c : BufferedChannel} (hkeeps : settings.Keeps usesRos c) :
    ∀ t before, c.perform [] = some (t, before) →
      t.buffer.Bounded settings.bufferSize usesRos := by
  rintro t before ⟨⟩
  exact hkeeps.bounded

/-- A channel within the configured size has room for a header. -/
theorem Keeps.receiveHeaderAfter {c c' : BufferedChannel} (hkeeps : settings.Keeps usesRos c)
    {calls : List BufferCall} {events : List BufferEvent}
    (hcalls : ∀ t before, c.perform calls = some (t, before) →
      t.buffer.Bounded settings.bufferSize usesRos)
    (h : c.receiveAfter calls .header = some (c', events)) : settings.Keeps usesRos c' :=
  (hkeeps.receiveAfter_iff hcalls h).2 hkeeps.header_le

theorem Keeps.onReceiveHeader_iff {c c' : BufferedChannel} (hkeeps : settings.Keeps usesRos c)
    {messageSize : ℤ} {events : List BufferEvent}
    (h : c.onReceiveHeader messageSize = some (c', events)) :
    (c'.receiveBuffer.buffer.capacity ≤ settings.bufferSize ↔
      (usesRos = true → messageSize ≤ settings.bufferSize)) ∧
    ((usesRos = true → messageSize ≤ settings.bufferSize) → settings.Keeps usesRos c') := by
  rcases BufferedChannel.onReceiveHeader_cases h with
    ⟨hsize, rfl, -⟩ | ⟨hsize, hmode, hreceive⟩
  · refine ⟨iff_of_true hkeeps.bounded.capacity_le fun _ ↦ ?_, fun _ ↦ ⟨hkeeps.bounded,
      hkeeps.header_le, hkeeps.usesRos_of_handshaking⟩⟩
    exact hsize.trans (Int.natCast_nonneg _)
  · have hasked : c.mode.enoughSize (Receiving.message messageSize.toNat).size = messageSize := by
      rw [hmode]
      exact Int.toNat_of_nonneg hsize.le
    have hstep := hkeeps.receiveAfter_iff hkeeps.bounded_of_perform_nil hreceive
    rw [hasked] at hstep
    exact hstep

/-- Assumes: a channel within the configured size. The channel that waits for the next header is,
too. -/
theorem Keeps.onReceiveMessage {c : BufferedChannel} (hkeeps : settings.Keeps usesRos c)
    {ok : Bool} {s : Option BufferedChannel} {events : List BufferEvent}
    (h : settings.step usesRos (some c) (.onReceiveMessage ok) = some (s, events)) :
    ∀ c' ∈ s, settings.Keeps usesRos c' := by
  simp only [step] at h
  by_cases hhandshaking : c.handshaking = true
  · have hros := hkeeps.usesRos_of_handshaking hhandshaking
    rw [if_neg (by simp [hhandshaking])] at h
    by_cases hok : ok = true
    · rw [if_pos hok] at h
      obtain ⟨⟨c', observed⟩, hreceive, heq⟩ := Option.map_eq_some_iff.mp h
      cases heq
      have hended : settings.Keeps usesRos { c with handshaking := false } :=
        ⟨hkeeps.bounded, hkeeps.header_le, fun hfalse ↦ absurd hfalse Bool.false_ne_true⟩
      have hdynamic : ∀ t before, BufferedChannel.perform { c with handshaking := false }
          [.setDynamicBuffer false, .setDynamicBuffer false] = some (t, before) →
          t.buffer.Bounded settings.bufferSize usesRos := by
        rintro t before ⟨⟩
        exact ⟨hkeeps.bounded.capacity_le, hros.symm, hkeeps.bounded.allocated⟩
      simpa using hended.receiveHeaderAfter hdynamic hreceive
    · rw [if_neg hok] at h
      obtain ⟨result, -, heq⟩ := Option.map_eq_some_iff.mp h
      cases heq
      simp
  · rw [if_pos (by simpa using hhandshaking)] at h
    obtain ⟨⟨c', observed⟩, hreceive, heq⟩ := Option.map_eq_some_iff.mp h
    cases heq
    simpa using hkeeps.receiveHeaderAfter hkeeps.bounded_of_perform_nil hreceive

theorem Keeps.setOffset {c : BufferedChannel} (hkeeps : settings.Keeps usesRos c) {offset : ℤ}
    {s : Option BufferedChannel} {events : List BufferEvent}
    (h : settings.step usesRos (some c) (.setOffset offset) = some (s, events)) :
    ∀ c' ∈ s, settings.Keeps usesRos c' := by
  obtain ⟨⟨t, observed⟩, hperform, heq⟩ := Option.map_eq_some_iff.mp h
  cases heq
  have hsame := BufferedChannel.buffer_of_setOffset hperform
  obtain ⟨hle, hdynamic, hallocated⟩ := hkeeps.bounded
  simp only [Option.mem_some_iff, forall_eq']
  exact ⟨⟨hsame ▸ hle, hsame ▸ hdynamic, hsame ▸ hallocated⟩, hkeeps.header_le,
    hkeeps.usesRos_of_handshaking⟩

/-- Assumes: a channel within the configured size. The step lemma of a connected subscriber. -/
theorem Keeps.step_iff {c : BufferedChannel} (hkeeps : settings.Keeps usesRos c)
    {a : BufferedAction} (ha : ∀ mode, a ≠ .onConnectToPublisher mode)
    {s : Option BufferedChannel} {events : List BufferEvent}
    (h : settings.step usesRos (some c) a = some (s, events)) :
    ((∀ c' ∈ s, c'.receiveBuffer.buffer.capacity ≤ settings.bufferSize) ↔
      settings.Within usesRos (some c) a) ∧
    (settings.Within usesRos (some c) a → ∀ c' ∈ s, settings.Keeps usesRos c') := by
  have hkept (hall : ∀ c' ∈ s, settings.Keeps usesRos c') (c' : BufferedChannel) (hc : c' ∈ s) :
      c'.receiveBuffer.buffer.capacity ≤ settings.bufferSize := (hall c' hc).bounded.capacity_le
  cases a with
  | onConnectToPublisher mode => exact absurd rfl (ha mode)
  | onReceiveHeader messageSize =>
    obtain ⟨⟨c', observed⟩, hheader, heq⟩ := Option.map_eq_some_iff.mp h
    cases heq
    simp only [Option.mem_some_iff, forall_eq']
    exact hkeeps.onReceiveHeader_iff hheader
  | onReceiveMessage ok =>
    have hall := hkeeps.onReceiveMessage h
    exact ⟨iff_of_true (hkept hall) trivial, fun _ ↦ hall⟩
  | setOffset offset =>
    have hall := hkeeps.setOffset h
    exact ⟨iff_of_true (hkept hall) trivial, fun _ ↦ hall⟩

/-- Assumes: a fixed buffer. The step lemma of a subscriber. -/
theorem keeps_step_iff (hfixed : settings.isDynamicBuffer = false)
    {s s' : Option BufferedChannel} (hkeeps : ∀ c ∈ s, settings.Keeps usesRos c)
    {a : BufferedAction} {events : List BufferEvent}
    (h : settings.step usesRos s a = some (s', events)) :
    ((∀ c ∈ s', c.receiveBuffer.buffer.capacity ≤ settings.bufferSize) ↔
      settings.Within usesRos s a) ∧
    (settings.Within usesRos s a → ∀ c ∈ s', settings.Keeps usesRos c) := by
  cases a with
  | onConnectToPublisher mode =>
    obtain ⟨⟨c, observed⟩, hconnect, heq⟩ := Option.map_eq_some_iff.mp h
    cases heq
    simp only [Option.mem_some_iff, forall_eq']
    exact keeps_onConnectToPublisher hfixed hconnect
  | onReceiveHeader _ | onReceiveMessage _ | setOffset _ =>
    cases s with
    | none => cases h
    | some c => exact (hkeeps c rfl).step_iff (fun _ ↦ BufferedAction.noConfusion) h

theorem fixed_of_receiveAfter {c c' : BufferedChannel} {calls : List BufferCall}
    {receiving : Receiving} {events : List BufferEvent}
    (h : c.receiveAfter calls receiving = some (c', events)) :
    ∀ e ∈ events, (e.Fixed ↔ e.Within) := by
  obtain ⟨⟨t, observed⟩, hperform, heq⟩ := Option.map_eq_some_iff.mp h
  cases heq
  exact BufferedChannel.fixed_of_perform hperform

/-- All that happens to the buffer of a subscriber are calls. -/
theorem fixed_of_step {s s' : Option BufferedChannel} {a : BufferedAction}
    {events : List BufferEvent} (h : settings.step usesRos s a = some (s', events)) :
    ∀ e ∈ events, (e.Fixed ↔ e.Within) := by
  cases a with
  | onConnectToPublisher mode =>
    obtain ⟨⟨c, observed⟩, hconnect, heq⟩ := Option.map_eq_some_iff.mp h
    cases heq
    exact fixed_of_receiveAfter hconnect
  | onReceiveHeader messageSize =>
    cases s with
    | none => cases h
    | some c =>
      obtain ⟨⟨c', observed⟩, hheader, heq⟩ := Option.map_eq_some_iff.mp h
      cases heq
      rcases BufferedChannel.onReceiveHeader_cases hheader with ⟨-, -, rfl⟩ | ⟨-, -, hreceive⟩
      · exact List.forall_mem_nil _
      · exact fixed_of_receiveAfter hreceive
  | onReceiveMessage ok =>
    cases s with
    | none => cases h
    | some c =>
      simp only [step] at h
      split_ifs at h <;> obtain ⟨⟨_, observed⟩, hcalls, heq⟩ := Option.map_eq_some_iff.mp h <;>
        cases heq
      · exact fixed_of_receiveAfter hcalls
      · exact fixed_of_receiveAfter hcalls
      · exact BufferedChannel.fixed_of_perform hcalls
  | setOffset offset =>
    cases s with
    | none => cases h
    | some c =>
      obtain ⟨⟨t, observed⟩, hperform, heq⟩ := Option.map_eq_some_iff.mp h
      cases heq
      exact BufferedChannel.fixed_of_perform hperform

end BufferSettings

/-! ### Both -/

/-- In every run of a buffer, each call leaves the capacity fixed, says whether there is room and
changes nothing if it says no, exactly when it is no call for more than the buffer has after a last
`SetDynamicBuffer(false)`; and so do the calls in a run of a subscriber. If its buffer is fixed and
all its steps are within the configured size, then so is the buffer, and it stays so after a further
step exactly when that is within the size, too. -/
theorem capacity_fixed_iff (settings : BufferSettings) (usesRos : Bool) :
    (∀ t history, Run channelBuffer unguarded t history →
      ∀ e ∈ history, (e.Fixed ↔ e.Within)) ∧
    (settings.isDynamicBuffer = false →
      ∀ s history, Run (bufferedSubscriber settings usesRos) (settings.Within usesRos) s history →
        (∀ e ∈ history, (e.Fixed ↔ e.Within)) ∧
        (∀ c ∈ s, c.receiveBuffer.buffer.capacity ≤ settings.bufferSize) ∧
        ∀ a s' events, (bufferedSubscriber settings usesRos).step s a = some (s', events) →
          ((∀ c ∈ s', c.receiveBuffer.buffer.capacity ≤ settings.bufferSize) ↔
            settings.Within usesRos s a)) := by
  refine ⟨fun t history run ↦ TrackedBuffer.fixed_iff_within run, fun hfixed s history run ↦ ?_⟩
  obtain ⟨hkeeps, hcalls⟩ := run.safe (I := fun s ↦ ∀ c ∈ s, settings.Keeps usesRos c)
    (by rintro s rfl; simp) fun s a s' events _ hkeeps hwithin hstep ↦
      ⟨(BufferSettings.keeps_step_iff hfixed hkeeps hstep).2 hwithin,
        BufferSettings.fixed_of_step hstep⟩
  refine ⟨hcalls, fun c hc ↦ (hkeeps c hc).bounded.capacity_le, fun a s' events hstep ↦ ?_⟩
  exact (BufferSettings.keeps_step_iff hfixed hkeeps hstep).1

namespace Scenario

/-- A buffer of two bytes, where there is no room for three. -/
def fixedCalls : List BufferCall :=
  [.setCapacity 2, .reset, .setOffset 1, .setEnoughCapacityIfDynamic 3]

/-- A buffer of two bytes that is told not to grow. -/
def undynamicCalls : List BufferCall :=
  [.setCapacity 2, .setDynamicBuffer false, .setEnoughCapacityIfDynamic 3]

/-- A fixed buffer of eight bytes. -/
def eightBytes : BufferSettings := ⟨8, false⟩

/-- A publisher announces twenty bytes. -/
def announceTwenty : List BufferedAction :=
  [.onConnectToPublisher .stream, .onReceiveHeader 20, .onReceiveMessage false]

/-- A publisher of a ROS topic announces eight bytes in the handshake, and then twenty. -/
def announceTwentyLater : List BufferedAction :=
  [.onConnectToPublisher .stream, .onReceiveHeader 8, .onReceiveMessage true, .onReceiveHeader 20]

end Scenario

instance (settings : BufferSettings) (s : Option BufferedChannel) :
    DecidablePred (settings.Within false s)
  | .onConnectToPublisher mode => inferInstanceAs (Decidable
    (mode.receiveBufferSize settings.bufferSize = 0 → 1000 ≤ settings.bufferSize))
  | .onReceiveHeader messageSize =>
    inferInstanceAs (Decidable (false = true → messageSize ≤ settings.bufferSize))
  | .onReceiveMessage _ | .setOffset _ => isTrue trivial

/-- A fixed buffer refuses what it has no room for, and so does the one of a subscriber. -/
theorem capacity_fixed_eight_bytes :
    (∃ t history, Run channelBuffer unguarded t history ∧ t.buffer.capacity = 2 ∧
      ∀ e ∈ history, (e.Fixed ↔ e.Within)) ∧
    ∃ s history, Run (bufferedSubscriber Scenario.eightBytes false)
      (Scenario.eightBytes.Within false) s history ∧ s.isSome ∧
        ∀ c ∈ s, c.receiveBuffer.buffer.capacity ≤ 8 := by
  obtain ⟨hbuffer, hsubscriber⟩ := capacity_fixed_iff Scenario.eightBytes false
  have hcalls : (channelBuffer.exec unguarded {} [] Scenario.fixedCalls).map
      (fun result ↦ result.1.buffer.capacity) = some 2 := by
    decide
  have hactions : ((bufferedSubscriber Scenario.eightBytes false).exec
      (Scenario.eightBytes.Within false) none [] Scenario.announceTwenty).map
        (fun result ↦ result.1.isSome) = some true := by
    decide
  obtain ⟨⟨t, history⟩, hexec, heq⟩ := Option.map_eq_some_iff.mp hcalls
  obtain ⟨⟨s, events⟩, hexec', hsome⟩ := Option.map_eq_some_iff.mp hactions
  have run := (Run.start rfl).of_exec hexec
  have run' := (Run.start rfl).of_exec hexec'
  exact ⟨⟨t, history, run, heq, hbuffer t history run⟩, s, events, run', hsome,
    (hsubscriber rfl s events run').2.1⟩

/-- A buffer grows after `SetDynamicBuffer(false)`, and a subscriber of a ROS topic allocates what a
peer announces. -/
theorem capacity_not_fixed :
    (¬ ∀ t history, Run channelBuffer unguarded t history → ∀ e ∈ history, e.Fixed) ∧
    ¬ ∀ (settings : BufferSettings) (usesRos : Bool), settings.isDynamicBuffer = false →
      ∀ s history, Run (bufferedSubscriber settings usesRos) unguarded s history →
        ∀ c ∈ s, c.receiveBuffer.buffer.capacity ≤ settings.bufferSize := by
  have hcalls : (channelBuffer.exec unguarded {} [] Scenario.undynamicCalls).map
      (fun result ↦ result.2.getLast?.map fun e ↦ (e.call, e.before.lastDynamic,
        e.before.buffer.isDynamic, e.before.buffer.capacity)) =
      some (some (.setEnoughCapacityIfDynamic 3, false, true, 2)) := by
    decide
  have hactions : ((bufferedSubscriber Scenario.eightBytes true).exec unguarded none []
      Scenario.announceTwentyLater).map (fun result ↦
        result.1.map (·.receiveBuffer.buffer.capacity)) = some (some 20) := by
    decide
  refine ⟨fun hall ↦ ?_, fun hall ↦ ?_⟩
  · obtain ⟨⟨t, history⟩, hexec, heq⟩ := Option.map_eq_some_iff.mp hcalls
    obtain ⟨e, hlast, hvalues⟩ := Option.map_eq_some_iff.mp heq
    simp only [Prod.mk.injEq] at hvalues
    obtain ⟨hcall, hdynamic, hflag, hcapacity⟩ := hvalues
    have run := (Run.start rfl).of_exec hexec
    have hmem : e ∈ history := List.mem_of_getLast? hlast
    have hwithin := (TrackedBuffer.fixed_iff_within run e hmem).mp (hall t history run e hmem)
    have hle := hwithin 3 hcall hflag hdynamic
    rw [hcapacity] at hle
    exact absurd hle (by decide)
  · obtain ⟨⟨s, history⟩, hexec, heq⟩ := Option.map_eq_some_iff.mp hactions
    obtain ⟨c, rfl, hcapacity⟩ := Option.map_eq_some_iff.mp heq
    have hle := hall Scenario.eightBytes true rfl _ history ((Run.start rfl).of_exec hexec) c rfl
    rw [hcapacity] at hle
    exact absurd hle (by decide)

end Felicia
