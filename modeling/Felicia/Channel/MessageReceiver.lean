import Felicia.Channel.ChannelBuffer
import Felicia.Core.Messages
import Felicia.Message.Header

/-!
# Receiving a message

`MessageReceiver` of `felicia/core/channel/message_receiver.h`, on a channel that receives the
header and the message one after the other, with the default header. Each handler ends in one of
two ways: it waits for the channel, or it runs `receive_callback_`. An operation that the channel
ends at once is no different from one that it ends later: no handler does anything after starting
one.

How a message is parsed is the message library's.
-/

set_option autoImplicit false
set_option relaxedAutoImplicit false

namespace Felicia

/-- `errors::Aborted`. -/
def aborted (message : String) : Status := ⟨.aborted, message⟩

/-- What `Channel::ReceiveInternalBuffer` was called for. -/
inductive Receiving
  | header
  | message (size : ℕ)
  deriving DecidableEq

/-- How many bytes the channel is to receive. -/
def Receiving.size : Receiving → ℕ
  | .header => headerSize
  | .message size => size

/-- How a handler ends. -/
inductive Receipt (T : Type)
  | waits (receiving : Receiving) (buffer : ChannelBuffer)
  | runs (result : Except Status T)

namespace MessageReceiver

variable {T : Type} (deserialize : List UInt8 → Option T)

/-- `Channel::ReceiveInternalBuffer`. -/
def receiveInternalBuffer (buffer : ChannelBuffer) (receiving : Receiving) : Receipt T :=
  match buffer.reset.setEnoughCapacityIfDynamic receiving.size with
  | none => .runs (.error (aborted MessageIOError.notEnoughBuffer.toString))
  | some buffer => .waits receiving buffer

/-- `MessageReceiver::ReceiveMessage`. -/
def receiveMessage (buffer : ChannelBuffer) : Receipt T :=
  receiveInternalBuffer buffer .header

/-- `MessageReceiver::OnReceiveMessage`. -/
def onReceiveMessage (buffer : ChannelBuffer) (messageSize : ℕ) (status : Status) : Receipt T :=
  if !status.isOk then .runs (.error status)
  else match deserialize (buffer.memory.take messageSize) with
    | none => .runs (.error (aborted MessageIOError.failedToParse.toString))
    | some message => .runs (.ok message)

/-- `MessageReceiver::OnReceiveHeader`. -/
def onReceiveHeader (buffer : ChannelBuffer) (status : Status) : Receipt T :=
  if !status.isOk then .runs (.error status)
  else
    let messageSize := parseHeader buffer.memory
    if messageSize < 0 then .runs (.error (aborted "message_size is negative"))
    else if 0 < messageSize then receiveInternalBuffer buffer (.message messageSize.toNat)
    else onReceiveMessage deserialize buffer 0 .OK

/-- `Channel::OnReceive`: the channel stored bytes in the buffer and runs the handler. -/
def onReceive (buffer : ChannelBuffer) (receiving : Receiving) (status : Status)
    (bytes : List UInt8) : Receipt T :=
  let buffer := buffer.copy (bytes.take receiving.size)
  match receiving with
  | .header => onReceiveHeader deserialize buffer status
  | .message size => onReceiveMessage deserialize buffer size status

end MessageReceiver

end Felicia
