import Felicia.Support.Pieces
import Felicia.Support.Memory
import Mathlib.Algebra.Group.Nat.Defs

/-!
# Typed bytes

`Data` of `felicia/core/lib/containers/data.h`: a string of bytes, with the type of the elements
that they stand for. A type is the number of an element type and that of a channel type, in sixteen
bits each.
-/

set_option autoImplicit false
set_option relaxedAutoImplicit false

namespace Felicia.Containers

/-! ### Types -/

/-- `DataMessage::ElementType`, those that the code tells apart. -/
def elementTypeCustom : UInt32 := 0
def elementType8U : UInt32 := 1
def elementType16U : UInt32 := 3
def elementType32S : UInt32 := 6
def elementType32F : UInt32 := 9
def elementType64F : UInt32 := 10

/-- `DataMessage::ChannelType`. -/
def channelTypeC1 : UInt32 := 1
def channelTypeC2 : UInt32 := 2
def channelTypeC3 : UInt32 := 3
def channelTypeC4 : UInt32 := 4

def makeDataMessageType (elementType channelType : UInt32) : UInt32 :=
  elementType <<< 16 ||| channelType

/-- `GetChannelSize`, where the result for another type is the largest `size_t`. -/
def getChannelSize (channelType : UInt32) : ℕ :=
  if channelType = channelTypeC1 then 1
  else if channelType = channelTypeC2 then 2
  else if channelType = channelTypeC3 then 3
  else if channelType = channelTypeC4 then 4
  else 2 ^ 64 - 1

def dataTypeCustomC1 : UInt32 := makeDataMessageType elementTypeCustom channelTypeC1
def dataType8UC1 : UInt32 := makeDataMessageType elementType8U channelTypeC1
def dataType8UC3 : UInt32 := makeDataMessageType elementType8U channelTypeC3
def dataType8UC4 : UInt32 := makeDataMessageType elementType8U channelTypeC4
def dataType32FC3 : UInt32 := makeDataMessageType elementType32F channelTypeC3

/-! ### Bytes -/

structure Data where
  bytes : List UInt8 := []
  type : UInt32 := dataTypeCustomC1
  deriving DecidableEq

namespace Data

def size (data : Data) : ℕ := data.bytes.length

/-- `GetElementaAndChannelType`, its first result. -/
def elementType (data : Data) : UInt32 := data.type >>> 16

def channelType (data : Data) : UInt32 := data.type &&& 0xFFFF

def channelSize (data : Data) : ℕ := getChannelSize data.channelType

/-- What a `ConstView` of elements of a size goes over. -/
def elements (data : Data) (sizeOf : ℕ) : List (List UInt8) := Support.pieces sizeOf data.bytes

theorem length_elements (data : Data) (sizeOf : ℕ) :
    (data.elements sizeOf).length = data.size / sizeOf :=
  Support.length_pieces

end Data

end Felicia.Containers
