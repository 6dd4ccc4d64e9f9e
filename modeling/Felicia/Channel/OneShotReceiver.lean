import Felicia.Channel.MessageReceiver
import Felicia.Channel.Socket

/-!
# Receiving a message together with its header

`MessageReceiver` of `felicia/core/channel/message_receiver.h` on a UDP or shared memory channel,
where one read brings the header and the message. `ReceiveInternalBuffer` asks for as many bytes as
the buffer has room for. `OnReceiveMessageWithHeader` then takes the size of the message from the
first bytes of the buffer and passes it to `Deserialize`. Unlike `OnReceiveHeader` it does not look
at the size, which a peer may have chosen as it likes, and the four bytes of the header may
themselves lie beyond the end of a small buffer.

`bounded_parse_iff` says when `Deserialize` is given a part of the buffer.
-/

set_option autoImplicit false
set_option relaxedAutoImplicit false

namespace Felicia

/-- A channel with `ShouldReceiveMessageWithHeader`. -/
inductive OneShotChannel
  | udp
  /-- The size of the shared memory. -/
  | shm (bufferSize : ℕ)

/-- `kMaximumBufferSize` of `udp_channel.cc`: 64 kilobytes. -/
def kMaximumBufferSize : ℕ := 64000

namespace OneShotChannel

/-- The capacity that `TrySetEnoughReceiveBufferSize` asks for, whatever it is called with. -/
def enoughSize : OneShotChannel → ℕ
  | .udp => kMaximumBufferSize
  | .shm bufferSize => bufferSize

/-- `TrySetEnoughReceiveBufferSize`. A buffer that cannot grow stays as it is. -/
def trySetEnoughReceiveBufferSize (channel : OneShotChannel) (buffer : ChannelBuffer) :
    ChannelBuffer :=
  (buffer.setEnoughCapacityIfDynamic channel.enoughSize).getD buffer

/-- `Channel::ReceiveInternalBuffer` up to the read, which is for the capacity of the buffer. -/
def receiveInternalBuffer (channel : OneShotChannel) (buffer : ChannelBuffer) : ChannelBuffer :=
  channel.trySetEnoughReceiveBufferSize buffer.reset

/-- What stands in memory from the start of the buffer on when the read stored some bytes; `beyond`
is what follows the buffer. -/
def memoryAfter (channel : OneShotChannel) (buffer : ChannelBuffer) (bytes beyond : List UInt8) :
    List UInt8 :=
  ((channel.receiveInternalBuffer buffer).copy bytes).memory ++ beyond

end OneShotChannel

/-- A call of `MessageIO<T>::Deserialize`: where its range starts in the buffer, and its size. -/
structure DeserializeCall where
  offset : ℤ
  size : ℤ
  deriving DecidableEq

/-- The range lies in a buffer. -/
def DeserializeCall.InBuffer (call : DeserializeCall) (capacity : ℕ) : Prop :=
  0 ≤ call.size ∧ 0 ≤ call.offset ∧ call.offset + call.size ≤ capacity

namespace MessageReceiver

variable {T : Type} (deserialize : List UInt8 → DeserializeCall → Option T)

/-- `MessageReceiver::OnReceiveMessageWithHeader`, on the memory from the start of the buffer on:
what `Deserialize` is called with, and what `receive_callback_` is run with. -/
def onReceiveMessageWithHeader (memory : List UInt8) (status : Status) :
    List DeserializeCall × Except Status T :=
  if !status.isOk then ([], .error status)
  else
    let call := ⟨headerSize, parseHeader memory⟩
    ([call], match deserialize memory call with
      | none => .error (aborted MessageIOError.failedToParse.toString)
      | some message => .ok message)

/-- `Deserialize` is called for ranges of the buffer only, and if it is not called the receiver ends
with an error. -/
def BoundedParse (capacity : ℕ) (result : List DeserializeCall × Except Status T) : Prop :=
  (∀ call ∈ result.1, call.InBuffer capacity) ∧
    (result.1 = [] → ∃ status, status ≠ .OK ∧ result.2 = .error status)

/-- Assumes: a read that did not fail. Whatever stands in memory, `Deserialize` is called. -/
theorem boundedParse_iff_of_ok (capacity : ℕ) (memory : List UInt8) {status : Status}
    (hstatus : status.isOk = true) :
    BoundedParse capacity (onReceiveMessageWithHeader deserialize memory status) ↔
      0 ≤ parseHeader memory ∧ headerSize + parseHeader memory ≤ capacity := by
  simp [BoundedParse, onReceiveMessageWithHeader, hstatus, DeserializeCall.InBuffer]

theorem boundedParse_of_failed (capacity : ℕ) (memory : List UInt8) {status : Status}
    (hstatus : status.isOk = false) :
    BoundedParse capacity (onReceiveMessageWithHeader deserialize memory status) := by
  have hne : status ≠ .OK := by
    rintro rfl
    cases hstatus
  simp [BoundedParse, onReceiveMessageWithHeader, hstatus, hne]

/-- `Deserialize` is called for ranges of the buffer only, if and only if the read failed or the
size in the header is neither negative nor larger than what the capacity leaves after the header. -/
theorem bounded_parse_iff (channel : OneShotChannel) (buffer : ChannelBuffer)
    (bytes beyond : List UInt8) (status : Status) :
    BoundedParse (channel.receiveInternalBuffer buffer).capacity
        (onReceiveMessageWithHeader deserialize (channel.memoryAfter buffer bytes beyond) status) ↔
      (status.isOk = true → 0 ≤ parseHeader (channel.memoryAfter buffer bytes beyond) ∧
        headerSize + parseHeader (channel.memoryAfter buffer bytes beyond) ≤
          (channel.receiveInternalBuffer buffer).capacity) := by
  cases hstatus : status.isOk with
  | false => exact iff_of_true (boundedParse_of_failed deserialize _ _ hstatus) (by simp)
  | true => simpa using boundedParse_iff_of_ok deserialize _ _ hstatus

/-- In a buffer of eight bytes, a header of a peer with a negative size and one with a size that is
too large; and a header in a buffer of two bytes. -/
theorem unbounded_parse :
    (¬ ∀ (channel : OneShotChannel) (buffer : ChannelBuffer) (bytes beyond : List UInt8)
      (status : Status), bytes.length ≤ (channel.receiveInternalBuffer buffer).capacity →
        BoundedParse (channel.receiveInternalBuffer buffer).capacity
          (onReceiveMessageWithHeader (fun _ _ ↦ some ())
            (channel.memoryAfter buffer bytes beyond) status)) ∧
    (¬ BoundedParse 8 (onReceiveMessageWithHeader (fun _ _ ↦ some ())
      (OneShotChannel.udp.memoryAfter { memory := List.replicate 8 0 } [5, 0, 0, 0, 1] []) .OK)) ∧
    ¬ BoundedParse 2 (onReceiveMessageWithHeader (fun _ _ ↦ some ())
      (OneShotChannel.udp.memoryAfter { memory := [0, 0] } [0, 0] [0, 0]) .OK) := by
  refine ⟨fun hall ↦ ?_, ?_, ?_⟩
  · have hparse := hall .udp { memory := List.replicate 8 0 } [0xff, 0xff, 0xff, 0xff] [] .OK
      (by decide)
    rw [boundedParse_iff_of_ok _ _ _ rfl] at hparse
    exact absurd hparse (by decide)
  · rw [boundedParse_iff_of_ok _ _ _ rfl]
    decide
  · rw [boundedParse_iff_of_ok _ _ _ rfl]
    decide

end MessageReceiver

end Felicia
