import Felicia.Channel.OneShotReceiver
import Felicia.Communication.Publisher
import Felicia.Communication.PublisherQueue
import Felicia.Support.Framing

/-!
# Frames on their way

A message goes out as a frame, four bytes of length and then the content. Three functions make
frames: `Header::AttachHeader` for a string, and `MessageSender::SendMessage` and
`Publisher::SendMessage` in the buffer of a channel; the first of these two counts the header by
`sizeof(Header)`, the second by `header_size()`. Two paths of `MessageReceiver` take frames apart: a
stream channel reads the header and then as many bytes as it says, and a UDP or shared memory
channel reads both at once.

`framing_round_trip` says that the three frames are the same, and that both paths give `Deserialize`
the contents of the frames, one call for each frame, in order, in a buffer that is used again for
each. On a stream channel a dynamic buffer grows to any size. On the other channels it grows to 64
kilobytes or to the size of the shared memory, and a frame has to fit.

A read on a stream channel is one that stores as many bytes as it asks for. A read on a UDP channel
stores one datagram, or fails if there is no room for it; one on a shared memory channel copies the
memory, in which anything may follow the frame.
-/

set_option autoImplicit false
set_option relaxedAutoImplicit false

namespace Felicia

open Support

/-! ### Making frames -/

/-- `Header::AttachHeader`: a string that is as long as the frame, with the size and then the
content copied into it. -/
def Header.attachHeader (content : List UInt8) : List UInt8 :=
  let text := List.replicate (headerSize + content.length) 0
  GrowableIOBuffer.stored (GrowableIOBuffer.stored text 0 (intBytes content.length)) headerSize
    content

/-- `sizeof(Header)`: one `int`, and no virtual function. -/
def sizeofHeader : ℕ := 4

/-- How `SendMessage` ends: it has the first bytes of the buffer sent, or runs its callback. -/
inductive Sending
  | sends (buffer : ChannelBuffer) (toSend : ℤ)
  | runs (status : Status)

namespace MessageSender

/-- `Channel::Send`. -/
def send (buffer : ChannelBuffer) (text : List UInt8) : Sending :=
  match buffer.reset.setEnoughCapacityIfDynamic (asInt text.length).toNat with
  | none => .runs (aborted MessageIOError.notEnoughBuffer.toString)
  | some buffer => .sends (buffer.copy text) (asInt text.length)

/-- `MessageSender::SendMessage`, with the send buffer of the channel. -/
def sendMessage {M : Type} (serialize : M → Option (List UInt8)) (hasNativeHeader : Bool)
    (attachHeaderCallback : Option (List UInt8 → Except MessageIOError (List UInt8)))
    (buffer : ChannelBuffer) (message : M) : Sending :=
  match serialize message with
  | none => .runs (aborted MessageIOError.failedToSerialize.toString)
  | some content =>
    if hasNativeHeader then send buffer content
    else match attachHeaderCallback with
      | none =>
        let toSend := asInt (sizeofHeader + content.length)
        match buffer.setEnoughCapacityIfDynamic toSend.toNat with
        | none => .runs (aborted MessageIOError.notEnoughBuffer.toString)
        | some buffer => .sends (buffer.copy (attachHeader content)) toSend
      | some attach =>
        match attach content with
        | .error err => .runs (aborted err.toString)
        | .ok text => send buffer text

end MessageSender

/-! ### Taking frames apart -/

/-- What `receive_callback_` is run with when `Deserialize` was given some bytes. -/
def deserialized {T : Type} (deserialize : List UInt8 → Option T) (content : List UInt8) :
    Except Status T :=
  match deserialize content with
  | none => .error (aborted MessageIOError.failedToParse.toString)
  | some message => .ok message

namespace MessageReceiver

variable {T : Type} (deserialize : List UInt8 → Option T)

/-- The reads of a stream channel that a receiver waits for, at most so many: what its callback is
run with, the buffer, and what is left of the stream. -/
def await : ℕ → Receipt T → ChannelBuffer → List UInt8 →
    Option (Except Status T × ChannelBuffer × List UInt8)
  | _, .runs result, buffer, stream => some (result, buffer, stream)
  | 0, .waits _ _, _, _ => none
  | reads + 1, .waits receiving buffer, _, stream =>
    if receiving.size ≤ stream.length then
      let bytes := stream.take receiving.size
      await reads (onReceive deserialize buffer receiving .OK bytes) (buffer.copy bytes)
        (stream.drop receiving.size)
    else none

/-- A `ReceiveMessage` on a stream channel. It reads at most twice. -/
def receiveFrom (buffer : ChannelBuffer) (stream : List UInt8) :
    Option (Except Status T × ChannelBuffer × List UInt8) :=
  await deserialize 2 (receiveMessage buffer) buffer stream

end MessageReceiver

/-- `net::ERR_MSG_TOO_BIG`. -/
def errMsgTooBig : ℤ := -142

namespace OneShotChannel

/-- One read: its status and the bytes that it stores. -/
def read (errorToString : ℤ → String) (channel : OneShotChannel) (toReceive : ℕ)
    (source : List UInt8) : Status × List UInt8 :=
  match channel with
  | .udp =>
    if source.length ≤ toReceive then (.OK, source)
    else (networkError (errorToString errMsgTooBig), source.take toReceive)
  | .shm _ => (.OK, source.take toReceive)

/-- `Deserialize` on a range of the memory. -/
def deserializeRange {T : Type} (deserialize : List UInt8 → Option T) (memory : List UInt8)
    (call : DeserializeCall) : Option T :=
  deserialize ((memory.drop call.offset.toNat).take call.size.toNat)

/-- A `ReceiveMessage` on a channel that reads a message with its header. -/
def receiveFrom {T : Type} (errorToString : ℤ → String) (deserialize : List UInt8 → Option T)
    (channel : OneShotChannel) (buffer : ChannelBuffer) :
    List (List UInt8) →
      Option ((List DeserializeCall × Except Status T) × ChannelBuffer × List (List UInt8))
  | [] => none
  | source :: sources =>
    let buffer := channel.receiveInternalBuffer buffer
    let (status, bytes) := channel.read errorToString buffer.capacity source
    let buffer := buffer.copy bytes
    some (MessageReceiver.onReceiveMessageWithHeader (deserializeRange deserialize) buffer.memory
      status, buffer, sources)

/-- What one read finds of a frame: the datagram, or the memory it was written to. -/
def Carries (channel : OneShotChannel) (content source : List UInt8) : Prop :=
  match channel with
  | .udp => source = attachHeader content
  | .shm _ => attachHeader content <+: source

end OneShotChannel

/-! ### The frames are the same -/

theorem asInt_of_lt {n : ℕ} (h : n < 2 ^ 31) : asInt n = n := toInt_ofNat_of_lt h

theorem Header.attachHeader_eq (content : List UInt8) :
    Header.attachHeader content = intBytes content.length ++ content := by
  simp only [Header.attachHeader, GrowableIOBuffer.stored, intBytes, headerSize]
  simp
  omega

theorem take_copy_attachHeader (buffer : ChannelBuffer) (content : List UInt8) :
    (buffer.copy (attachHeader content)).memory.take (headerSize + content.length) =
      intBytes content.length ++ content := by
  rw [← length_attachHeader, ChannelBuffer.take_copy]
  rfl

/-- Assumes: a content whose frame has a length that an `int` holds, and a buffer that has room for
it or makes it. -/
theorem MessageSender.sendMessage_eq {M : Type} {serialize : M → Option (List UInt8)} {message : M}
    {content : List UInt8} (hcontent : serialize message = some content)
    (hlength : headerSize + content.length < 2 ^ 31) {buffer : ChannelBuffer}
    (hbuffer : buffer.Suffices (headerSize + content.length)) :
    ∃ buffer', sendMessage serialize false none buffer message =
        .sends buffer' (headerSize + content.length) ∧
      buffer'.memory.take (headerSize + content.length) = intBytes content.length ++ content := by
  obtain ⟨enlarged, henlarged, -⟩ := buffer.exists_of_suffices hbuffer
  have htoSend : asInt (sizeofHeader + content.length) = (headerSize + content.length : ℕ) :=
    asInt_of_lt hlength
  refine ⟨enlarged.copy (Felicia.attachHeader content), ?_, take_copy_attachHeader enlarged content⟩
  simp only [sendMessage, hcontent, htoSend, Int.toNat_natCast, henlarged]
  simp

/-- Assumes: a message to send, and a buffer that has room for its frame or makes it. -/
theorem Publisher.sendMessage_eq {M : Type} {serialize : M → Option (List UInt8)}
    {p : Publisher M} {receivers : ℕ → ℕ} {message : M} {content : List UInt8}
    (hcan : p.canSend receivers = true) (hfront : p.messageQueue.front? = some message)
    (hcontent : serialize message = some content)
    (hbuffer : p.sendBuffer.Suffices (headerSize + content.length)) :
    ∃ loop, (p.sendMessage serialize receivers).loops = loop :: p.loops ∧
      loop.toSend = headerSize + content.length ∧
      (p.sendMessage serialize receivers).sendBuffer.memory.take loop.toSend =
        intBytes content.length ++ content := by
  obtain ⟨enlarged, henlarged, -⟩ := p.sendBuffer.exists_of_suffices hbuffer
  have hnext : p.nextContent serialize receivers = some (content, enlarged) := by
    simp [Publisher.nextContent, hcan, hfront, hcontent, henlarged]
  refine ⟨{ content, toSend := headerSize + content.length }, ?_, rfl, ?_⟩
  · simp [Publisher.sendMessage, hcan, hfront, hnext]
  · simpa [Publisher.sendMessage, hcan, hfront, hnext] using take_copy_attachHeader enlarged content

/-! ### A stream of frames -/

namespace MessageReceiver

variable {T : Type} {deserialize : List UInt8 → Option T}

theorem onReceiveMessage_ok (buffer : ChannelBuffer) (size : ℕ) :
    onReceiveMessage deserialize buffer size .OK =
      .runs (deserialized deserialize (buffer.memory.take size)) := by
  unfold onReceiveMessage deserialized
  cases deserialize (buffer.memory.take size) <;> simp

/-- Assumes: a buffer that has room for what is to be received or makes it. -/
theorem receiveInternalBuffer_of_suffices {buffer : ChannelBuffer} (receiving : Receiving)
    (h : buffer.reset.Suffices receiving.size) :
    ∃ enlarged, receiveInternalBuffer (T := T) buffer receiving = .waits receiving enlarged ∧
      receiving.size ≤ enlarged.capacity ∧ buffer.reset.capacity ≤ enlarged.capacity ∧
      enlarged.isDynamic = buffer.isDynamic := by
  obtain ⟨enlarged, henlarged, hroom, hcapacity, hdynamic⟩ := buffer.reset.exists_of_suffices h
  refine ⟨enlarged, ?_, hroom, hcapacity, hdynamic.trans buffer.isDynamic_reset⟩
  simp [receiveInternalBuffer, henlarged]

/-- Assumes: a read for some bytes, and a stream that has them. -/
theorem await_waits (reads : ℕ) (receiving : Receiving) {buffer enlarged : ChannelBuffer}
    {bytes rest : List UInt8} (h : bytes.length = receiving.size) :
    await deserialize (reads + 1) (.waits receiving enlarged) buffer (bytes ++ rest) =
      await deserialize reads (onReceive deserialize enlarged receiving .OK bytes)
        (enlarged.copy bytes) rest := by
  simp [await, ← h]

/-- Assumes: the four bytes of a length. What `OnReceiveHeader` does with them. -/
theorem onReceive_header {n : ℕ} (hn : n < 2 ^ 31) (buffer : ChannelBuffer) :
    onReceive deserialize buffer .header .OK (intBytes n) =
      if 0 < n then receiveInternalBuffer (buffer.copy (intBytes n)) (.message n)
      else .runs (deserialized deserialize []) := by
  have hmemory : (buffer.copy (intBytes n)).memory = intBytes n ++ buffer.memory.drop 4 := rfl
  have hparse : parseHeader (buffer.copy (intBytes n)).memory = n := by
    rw [hmemory, parseHeader_intBytes hn]
  have htake : (intBytes n).take headerSize = intBytes n := rfl
  simp only [onReceive, onReceiveHeader, Receiving.size, htake, hparse]
  by_cases hpos : 0 < n
  · simp [hpos]
  · obtain rfl : n = 0 := by omega
    simp [onReceiveMessage_ok]

theorem onReceive_message (buffer : ChannelBuffer) (content : List UInt8) :
    onReceive deserialize buffer (.message content.length) .OK content =
      .runs (deserialized deserialize content) := by
  simp only [onReceive, Receiving.size, List.take_length, onReceiveMessage_ok,
    ChannelBuffer.take_copy]

/-- Assumes: a buffer that has room for the header and for the content, or makes it. A
`ReceiveMessage` takes one frame from the stream, and the buffer does not shrink. -/
theorem receiveFrom_frame {buffer : ChannelBuffer} {content : List UInt8}
    (hlength : content.length < 2 ^ 31) (hheader : buffer.reset.Suffices headerSize)
    (hcontent : buffer.reset.Suffices content.length) (rest : List UInt8) :
    ∃ buffer', receiveFrom deserialize buffer (attachHeader content ++ rest) =
        some (deserialized deserialize content, buffer', rest) ∧
      buffer'.isDynamic = buffer.isDynamic ∧ buffer.reset.capacity ≤ buffer'.capacity := by
  obtain ⟨first, hfirst, hroom, hcapacity, hdynamic⟩ :=
    receiveInternalBuffer_of_suffices (T := T) .header hheader
  have hcopy : (first.copy (intBytes content.length)).capacity = first.capacity :=
    first.capacity_copy hroom
  have hread : receiveFrom deserialize buffer (attachHeader content ++ rest) =
      await deserialize 1 (onReceive deserialize first .header .OK (intBytes content.length))
        (first.copy (intBytes content.length)) (content ++ rest) := by
    rw [receiveFrom, receiveMessage, hfirst, attachHeader, List.append_assoc]
    exact await_waits 1 .header rfl
  rw [hread, onReceive_header hlength]
  by_cases hpos : 0 < content.length
  · rw [if_pos hpos]
    -- The buffer was allocated for the header, so it is not reset to the default size.
    have hreset : (first.copy (intBytes content.length)).reset =
        first.copy (intBytes content.length) := by
      refine ChannelBuffer.reset_eq_self _ (Or.inr ?_)
      rw [hcopy]
      exact lt_of_lt_of_le (by decide) hroom
    have hsuffices : (first.copy (intBytes content.length)).reset.Suffices content.length := by
      rw [hreset]
      refine hcontent.imp (fun hle ↦ ?_) fun hdynamicReset ↦ ?_
      · rw [hcopy]
        exact hle.trans hcapacity
      · exact hdynamic.trans (buffer.isDynamic_reset.symm.trans hdynamicReset)
    obtain ⟨second, hsecond, hroom', hcapacity', hdynamic'⟩ :=
      receiveInternalBuffer_of_suffices (T := T) (.message content.length) hsuffices
    rw [hsecond, await_waits 0 (.message content.length) rfl, onReceive_message]
    refine ⟨second.copy content, rfl, hdynamic'.trans hdynamic, ?_⟩
    rw [second.capacity_copy hroom']
    rw [hreset, hcopy] at hcapacity'
    exact hcapacity.trans hcapacity'
  · obtain rfl : content = [] := List.length_eq_zero_iff.mp (by omega)
    rw [if_neg hpos]
    exact ⟨_, rfl, hdynamic, hcapacity.trans hcopy.ge⟩

/-- A buffer that takes over from another one. -/
def Replaces (buffer buffer' : ChannelBuffer) : Prop :=
  buffer'.isDynamic = buffer.isDynamic ∧ buffer.reset.capacity ≤ buffer'.reset.capacity

theorem Replaces.suffices {buffer buffer' : ChannelBuffer} (h : Replaces buffer buffer') {size : ℕ}
    (hsize : buffer.reset.Suffices size) : buffer'.reset.Suffices size := by
  refine hsize.imp (fun hle ↦ hle.trans h.2) fun hdynamic ↦ ?_
  rw [ChannelBuffer.isDynamic_reset, h.1, ← ChannelBuffer.isDynamic_reset]
  exact hdynamic

/-- Assumes: contents whose lengths are `int`s, and a buffer for them. -/
theorem readMany_receiveFrom {buffer : ChannelBuffer} {contents : List (List UInt8)}
    (hlengths : ∀ content ∈ contents, content.length < 2 ^ 31)
    (hbuffer : ∀ content ∈ contents,
      buffer.reset.Suffices headerSize ∧ buffer.reset.Suffices content.length) :
    ∃ buffer', readMany (receiveFrom deserialize) contents.length buffer
        (contents.flatMap attachHeader) =
      some (contents.map (deserialized deserialize), buffer', []) := by
  have hchunks : List.Forall₂
      (fun content chunk ↦ content ∈ contents ∧ chunk = attachHeader content)
      contents (contents.map attachHeader) := by
    rw [List.forall₂_map_right_iff, List.forall₂_same]
    exact fun content hmem ↦ ⟨hmem, rfl⟩
  have hframe : ∀ content chunk, content ∈ contents ∧ chunk = attachHeader content →
      ∀ current rest, Replaces buffer current → ∃ next, Replaces buffer next ∧
        receiveFrom deserialize current (chunk ++ rest) =
          some (deserialized deserialize content, next, rest) := by
    rintro content chunk ⟨hmem, rfl⟩ current rest hcurrent
    obtain ⟨hheader, hcontent⟩ := hbuffer content hmem
    obtain ⟨next, hnext, hdynamic, hcapacity⟩ := receiveFrom_frame (hlengths content hmem)
      (hcurrent.suffices hheader) (hcurrent.suffices hcontent) rest
    refine ⟨next, ⟨hdynamic.trans hcurrent.1, ?_⟩, hnext⟩
    exact hcurrent.2.trans (hcapacity.trans next.capacity_le_reset)
  obtain ⟨buffer', -, hread⟩ := readMany_flatten hframe hchunks ⟨rfl, le_rfl⟩ []
  refine ⟨buffer', ?_⟩
  simpa [List.flatMap] using hread

end MessageReceiver

/-! ### One frame for each read -/

namespace OneShotChannel

variable {T : Type} {channel : OneShotChannel} {buffer : ChannelBuffer}

/-- The buffer has room for some bytes, or grows to as much as the channel asks for. -/
def Suffices (channel : OneShotChannel) (buffer : ChannelBuffer) (size : ℕ) : Prop :=
  size ≤ buffer.reset.capacity ∨ buffer.isDynamic = true ∧ size ≤ channel.enoughSize

theorem capacity_le_trySetEnoughReceiveBufferSize (channel : OneShotChannel)
    (buffer : ChannelBuffer) :
    buffer.capacity ≤ (channel.trySetEnoughReceiveBufferSize buffer).capacity := by
  unfold trySetEnoughReceiveBufferSize ChannelBuffer.setEnoughCapacityIfDynamic
  split_ifs with hcapacity hdynamic
  · exact le_rfl
  · rw [Option.getD_some, ChannelBuffer.capacity_setCapacity]
    exact (not_le.mp hcapacity).le
  · exact le_rfl

theorem Suffices.le_capacity {size : ℕ} (h : channel.Suffices buffer size) :
    size ≤ (channel.receiveInternalBuffer buffer).capacity := by
  rcases h with hroom | ⟨hdynamic, hsize⟩
  · exact hroom.trans (channel.capacity_le_trySetEnoughReceiveBufferSize buffer.reset)
  · have hsuffices : buffer.reset.Suffices channel.enoughSize :=
      Or.inr (buffer.isDynamic_reset.trans hdynamic)
    obtain ⟨enlarged, henlarged, hroom, -⟩ := buffer.reset.exists_of_suffices hsuffices
    rw [receiveInternalBuffer, trySetEnoughReceiveBufferSize, henlarged]
    exact hsize.trans hroom

/-- Assumes: room for the frame. One read stores it. -/
theorem read_of_carries (errorToString : ℤ → String) {content source : List UInt8}
    (hcarries : channel.Carries content source) {capacity : ℕ}
    (hroom : headerSize + content.length ≤ capacity) :
    ∃ trailing, channel.read errorToString capacity source =
        (.OK, attachHeader content ++ trailing) ∧
      (attachHeader content ++ trailing).length ≤ capacity := by
  rw [← length_attachHeader] at hroom
  cases channel with
  | udp =>
    obtain rfl : source = attachHeader content := hcarries
    exact ⟨[], by simp only [read, if_pos hroom, List.append_nil], by simpa using hroom⟩
  | shm bufferSize =>
    obtain ⟨trailing, rfl⟩ : attachHeader content <+: source := hcarries
    refine ⟨trailing.take (capacity - (attachHeader content).length), ?_, ?_⟩
    · rw [read, List.take_append, List.take_of_length_le hroom]
    · rw [List.length_append, List.length_take]
      omega

/-- Assumes: a read that found a frame. `Deserialize` is given its content. -/
theorem onReceiveMessageWithHeader_frame {deserialize : List UInt8 → Option T}
    {content : List UInt8} (hlength : content.length < 2 ^ 31) (trailing : List UInt8) :
    MessageReceiver.onReceiveMessageWithHeader (deserializeRange deserialize)
        (attachHeader content ++ trailing) .OK =
      ([⟨headerSize, content.length⟩], deserialized deserialize content) := by
  have hparse : parseHeader (attachHeader content ++ trailing) = content.length := by
    rw [attachHeader, List.append_assoc, parseHeader_intBytes hlength]
  have hrange : deserializeRange deserialize (attachHeader content ++ trailing)
      ⟨headerSize, content.length⟩ = deserialize content := by
    simp [deserializeRange, attachHeader, headerSize, intBytes]
  simp only [MessageReceiver.onReceiveMessageWithHeader, hparse, hrange]
  rfl

theorem receiveFrom_frame (errorToString : ℤ → String) (deserialize : List UInt8 → Option T)
    {content source : List UInt8} (hlength : content.length < 2 ^ 31)
    (hcarries : channel.Carries content source)
    (hroom : headerSize + content.length ≤ (channel.receiveInternalBuffer buffer).capacity)
    (sources : List (List UInt8)) :
    ∃ buffer', channel.receiveFrom errorToString deserialize buffer (source :: sources) =
        some (([⟨headerSize, content.length⟩], deserialized deserialize content), buffer',
          sources) ∧
      buffer'.capacity = (channel.receiveInternalBuffer buffer).capacity := by
  obtain ⟨trailing, hread, hfits⟩ := read_of_carries errorToString hcarries hroom
  refine ⟨(channel.receiveInternalBuffer buffer).copy (attachHeader content ++ trailing), ?_,
    ChannelBuffer.capacity_copy _ hfits⟩
  have hmemory (b : ChannelBuffer) : (b.copy (attachHeader content ++ trailing)).memory =
      attachHeader content ++ (trailing ++
        b.memory.drop (attachHeader content ++ trailing).length) := by
    simp [ChannelBuffer.copy, GrowableIOBuffer.stored]
  simp only [receiveFrom, hread]
  rw [hmemory, onReceiveMessageWithHeader_frame hlength]

/-- Assumes: contents whose lengths are `int`s, reads that find one frame each, and a buffer for
them. -/
theorem readMany_receiveFrom (errorToString : ℤ → String) (deserialize : List UInt8 → Option T)
    {contents sources : List (List UInt8)}
    (hlengths : ∀ content ∈ contents, content.length < 2 ^ 31)
    (hcarries : List.Forall₂ channel.Carries contents sources)
    (hbuffer : ∀ content ∈ contents, channel.Suffices buffer (headerSize + content.length)) :
    ∃ buffer', readMany (channel.receiveFrom errorToString deserialize) contents.length buffer
        sources =
      some (contents.map fun content ↦
        ([⟨headerSize, content.length⟩], deserialized deserialize content), buffer', []) := by
  have hchunks : List.Forall₂ (fun content chunk ↦ content ∈ contents ∧
      ∃ source, chunk = [source] ∧ channel.Carries content source)
      contents (sources.map fun source ↦ [source]) := by
    rw [List.forall₂_and_left, List.forall₂_map_right_iff]
    refine ⟨fun content hmem ↦ hmem, hcarries.imp fun content source hsource ↦ ?_⟩
    exact ⟨source, rfl, hsource⟩
  have hframe : ∀ content chunk, (content ∈ contents ∧
      ∃ source, chunk = [source] ∧ channel.Carries content source) → ∀ current rest,
        (channel.receiveInternalBuffer buffer).capacity ≤
            (channel.receiveInternalBuffer current).capacity →
          ∃ next, (channel.receiveInternalBuffer buffer).capacity ≤
              (channel.receiveInternalBuffer next).capacity ∧
            channel.receiveFrom errorToString deserialize current (chunk ++ rest) =
              some (([⟨headerSize, content.length⟩], deserialized deserialize content), next,
                rest) := by
    rintro content chunk ⟨hmem, source, rfl, hsource⟩ current rest hcurrent
    have hroom := (hbuffer content hmem).le_capacity.trans hcurrent
    obtain ⟨next, hnext, hcapacity⟩ :=
      receiveFrom_frame errorToString deserialize (hlengths content hmem) hsource hroom rest
    refine ⟨next, ?_, hnext⟩
    calc (channel.receiveInternalBuffer buffer).capacity
        ≤ next.capacity := hcurrent.trans hcapacity.ge
      _ ≤ next.reset.capacity := next.capacity_le_reset
      _ ≤ (channel.receiveInternalBuffer next).capacity :=
        channel.capacity_le_trySetEnoughReceiveBufferSize next.reset
  obtain ⟨buffer', -, hread⟩ := readMany_flatten hframe hchunks le_rfl []
  rw [List.append_nil, ← List.flatMap_def, List.flatMap_singleton'] at hread
  exact ⟨buffer', hread⟩

end OneShotChannel

/-- Assumes: a datagram that there is no room for. The read fails, and `Deserialize` is not called.
-/
theorem OneShotChannel.receiveFrom_udp_of_lt {T : Type} (errorToString : ℤ → String)
    (deserialize : List UInt8 → Option T) {buffer : ChannelBuffer} {source : List UInt8}
    (h : (OneShotChannel.udp.receiveInternalBuffer buffer).capacity < source.length)
    (sources : List (List UInt8)) :
    ∃ buffer', OneShotChannel.udp.receiveFrom errorToString deserialize buffer (source :: sources) =
      some (([], .error (networkError (errorToString errMsgTooBig))), buffer', sources) := by
  simp only [receiveFrom, read, if_neg (not_le.mpr h)]
  exact ⟨_, rfl⟩

/-! ### The round trip -/

/-- Assumes: contents whose frames have lengths that an `int` holds. The three frames of each
content are the same, and both paths give `Deserialize` the contents, in buffers that have room for
them or make it. -/
theorem framing_round_trip {T : Type} (deserialize : List UInt8 → Option T)
    (contents : List (List UInt8))
    (hlengths : ∀ content ∈ contents, headerSize + content.length < 2 ^ 31) :
    (∀ content ∈ contents,
      Header.attachHeader content = intBytes content.length ++ content ∧
      (∀ (M : Type) (serialize : M → Option (List UInt8)) (message : M) (buffer : ChannelBuffer),
        serialize message = some content → buffer.Suffices (headerSize + content.length) →
          ∃ buffer', MessageSender.sendMessage serialize false none buffer message =
              .sends buffer' (headerSize + content.length) ∧
            buffer'.memory.take (headerSize + content.length) =
              intBytes content.length ++ content) ∧
      ∀ (M : Type) (serialize : M → Option (List UInt8)) (p : Publisher M) (receivers : ℕ → ℕ)
        (message : M), p.canSend receivers = true → p.messageQueue.front? = some message →
          serialize message = some content →
          p.sendBuffer.Suffices (headerSize + content.length) →
            ∃ loop, (p.sendMessage serialize receivers).loops = loop :: p.loops ∧
              loop.toSend = headerSize + content.length ∧
              (p.sendMessage serialize receivers).sendBuffer.memory.take loop.toSend =
                intBytes content.length ++ content) ∧
    (∀ buffer : ChannelBuffer, (∀ content ∈ contents,
        buffer.reset.Suffices headerSize ∧ buffer.reset.Suffices content.length) →
      ∃ buffer', readMany (MessageReceiver.receiveFrom deserialize) contents.length buffer
          (contents.flatMap attachHeader) =
        some (contents.map (deserialized deserialize), buffer', [])) ∧
    ∀ (errorToString : ℤ → String) (channel : OneShotChannel) (buffer : ChannelBuffer)
      (sources : List (List UInt8)), List.Forall₂ channel.Carries contents sources →
        (∀ content ∈ contents, channel.Suffices buffer (headerSize + content.length)) →
          ∃ buffer', readMany (channel.receiveFrom errorToString deserialize) contents.length buffer
              sources =
            some (contents.map fun content ↦
              ([⟨headerSize, content.length⟩], deserialized deserialize content), buffer', []) := by
  have hshort : ∀ content ∈ contents, content.length < 2 ^ 31 := fun content hmem ↦
    (Nat.le_add_left _ _).trans_lt (hlengths content hmem)
  refine ⟨fun content hmem ↦ ⟨Header.attachHeader_eq content, ?_, ?_⟩, ?_, ?_⟩
  · intro M serialize message buffer hcontent hbuffer
    exact MessageSender.sendMessage_eq hcontent (hlengths content hmem) hbuffer
  · intro M serialize p receivers message hcan hfront hcontent hbuffer
    exact Publisher.sendMessage_eq hcan hfront hcontent hbuffer
  · exact fun buffer hbuffer ↦ MessageReceiver.readMany_receiveFrom hshort hbuffer
  · intro errorToString channel buffer sources hcarries hbuffer
    exact OneShotChannel.readMany_receiveFrom errorToString deserialize hshort hcarries hbuffer

/-- A message and an empty message, through a stream to a buffer that grows, and through a shared
memory in which other bytes follow. -/
theorem framing_round_trip_of_two :
    (∃ buffer', readMany (MessageReceiver.receiveFrom some) 2 { isDynamic := true }
      [3, 0, 0, 0, 7, 8, 9, 0, 0, 0, 0] = some ([.ok [7, 8, 9], .ok []], buffer', [])) ∧
    ∃ buffer', readMany ((OneShotChannel.shm 8).receiveFrom (fun _ ↦ "") some) 2
      { isDynamic := true } [[3, 0, 0, 0, 7, 8, 9, 0], [0, 0, 0, 0, 7, 8, 9, 0]] =
      some ([([⟨4, 3⟩], .ok [7, 8, 9]), ([⟨4, 0⟩], .ok [])], buffer', []) := by
  obtain ⟨-, hstream, hmemory⟩ := framing_round_trip some [[7, 8, 9], []] (by decide)
  refine ⟨?_, ?_⟩
  · obtain ⟨buffer', hread⟩ := hstream { isDynamic := true } fun _ _ ↦ ⟨Or.inr rfl, Or.inr rfl⟩
    exact ⟨buffer', hread⟩
  · have hcarries : List.Forall₂ (OneShotChannel.shm 8).Carries [[7, 8, 9], []]
        [[3, 0, 0, 0, 7, 8, 9, 0], [0, 0, 0, 0, 7, 8, 9, 0]] :=
      .cons ⟨[0], rfl⟩ (.cons ⟨[7, 8, 9, 0], rfl⟩ .nil)
    have hbuffer : ∀ content ∈ ([[7, 8, 9], []] : List (List UInt8)),
        (OneShotChannel.shm 8).Suffices { isDynamic := true } (headerSize + content.length) := by
      intro content hmem
      refine Or.inr ⟨rfl, ?_⟩
      revert content
      decide
    obtain ⟨buffer', hread⟩ :=
      hmemory (fun _ ↦ "") (.shm 8) { isDynamic := true } _ hcarries hbuffer
    exact ⟨buffer', hread⟩

/-- A frame of 64004 bytes in a datagram, and a buffer that grows to 64 kilobytes. -/
theorem dynamic_buffer_not_enough :
    ¬ ∀ (content : List UInt8) (buffer : ChannelBuffer), headerSize + content.length < 2 ^ 31 →
      buffer.isDynamic = true →
        ∃ buffer', readMany (OneShotChannel.udp.receiveFrom (fun _ ↦ "") some) 1 buffer
            [attachHeader content] =
          some ([([⟨headerSize, content.length⟩], .ok content)], buffer', []) := by
  intro hall
  obtain ⟨content, hlength⟩ : ∃ content : List UInt8, content.length = kMaximumBufferSize :=
    ⟨List.replicate kMaximumBufferSize 0, List.length_replicate⟩
  obtain ⟨buffer', hread⟩ := hall content { isDynamic := true } (by rw [hlength]; decide) rfl
  have hreset : ({ isDynamic := true } : ChannelBuffer).reset = { isDynamic := true } :=
    ChannelBuffer.reset_eq_self _ (Or.inl rfl)
  have hgrown : (OneShotChannel.udp.receiveInternalBuffer { isDynamic := true }).capacity =
      kMaximumBufferSize := by
    rw [OneShotChannel.receiveInternalBuffer, hreset, OneShotChannel.trySetEnoughReceiveBufferSize,
      ChannelBuffer.setEnoughCapacityIfDynamic, if_neg (by decide), if_pos rfl, Option.getD_some,
      ChannelBuffer.capacity_setCapacity]
    rfl
  have hcapacity : (OneShotChannel.udp.receiveInternalBuffer { isDynamic := true }).capacity <
      (attachHeader content).length := by
    rw [hgrown, length_attachHeader, hlength]
    decide
  obtain ⟨next, hnext⟩ :=
    OneShotChannel.receiveFrom_udp_of_lt (fun _ ↦ "") some hcapacity []
  simp [readMany, hnext] at hread

end Felicia
