import Mathlib.Data.Fin.Basic
import Mathlib.Data.String.Basic

/-!
# Statuses, channel sources and the messages of the master

`felicia/core/lib/error/status.h`, `felicia/core/protobuf/channel.proto` and
`felicia/core/protobuf/master_data.proto`. Every RPC of the master answers with a `Status`; every
topic and service is announced by the `ChannelSource` where it can be reached.

A protobuf scalar that was not set reads as its default, so scalars are plain fields; a submessage
whose presence the code tests is an `Option`. Strings are compared as a whole and by their first
bytes only (`consumeRosProtocol`), so they are Lean strings. `ShmEndPoint` and the message fields
that no function of the model reads are left out.

`isValidChannelSource` is `felicia/core/channel/channel.cc` and
`felicia/core/channel/socket/uds_endpoint.cc` on Linux. Whether a text is an IP literal, whether a
host name resolves and what `DebugString` prints are the environment's (`ChannelEnv`): they are
parameters of every request, and nothing is assumed of them.
-/

set_option autoImplicit false
set_option relaxedAutoImplicit false

namespace Felicia

/-- `uint32_t`. -/
abbrev Uint32 := Fin (2 ^ 32)

/-! ### Status -/

/-- `felicia::error::Code`. -/
inductive ErrorCode
  | ok | cancelled | unknown | invalidArgument | deadlineExceeded | notFound | alreadyExists
  | permissionDenied | unauthenticated | resourceExhausted | failedPrecondition | aborted
  | outOfRange | unimplemented | internal | unavailable | dataLoss | networkError
  deriving DecidableEq, Repr

/-- `felicia::Status`. -/
structure Status where
  errorCode : ErrorCode
  errorMessage : String
  deriving DecidableEq, Repr

/-- `Status::OK()`. -/
def Status.OK : Status := ⟨.ok, ""⟩

/-- `Status::ok()`. -/
def Status.isOk (s : Status) : Bool := s.errorCode = .ok

@[simp] theorem Status.isOk_OK : Status.OK.isOk = true := rfl

/-- What `%s` prints of `text.c_str()`: the characters before the first NUL. -/
def cStr (text : String) : String := String.ofList (text.toList.takeWhile (· ≠ '\x00'))

/-- The bytes of a text, one for each character. -/
def textBytes (text : String) : List UInt8 := text.toList.map fun c ↦ UInt8.ofNat c.toNat

/-- The characters of a text, one for each byte. -/
def bytesText (bytes : List UInt8) : List Char := bytes.map fun byte ↦ Char.ofNat byte.toNat

/-! ### Channel definitions -/

/-- `ChannelDef::Type`. -/
inductive ChannelType
  | none | shm | uds | udp | tcp | ws
  deriving DecidableEq, Repr

/-- `IPEndPoint`. -/
structure IPEndPoint where
  ip : String := ""
  port : Uint32 := 0
  deriving DecidableEq, Repr, Inhabited

/-- `UDSEndPoint`. -/
structure UDSEndPoint where
  socketPath : String := ""
  useAbstractNamespace : Bool := false
  deriving DecidableEq, Repr

/-- `ChannelDef`. -/
structure ChannelDef where
  type : ChannelType := .none
  ipEndpoint : Option IPEndPoint := none
  udsEndpoint : Option UDSEndPoint := none
  deriving DecidableEq, Repr

/-- `ChannelSource`. -/
structure ChannelSource where
  channelDefs : List ChannelDef := []
  deriving DecidableEq, Repr

/-- `channel_source.channel_defs(0).ip_endpoint()`. An unset endpoint reads as the default one. -/
def ChannelSource.firstIpEndpoint (source : ChannelSource) : IPEndPoint :=
  (source.channelDefs.head?.bind (·.ipEndpoint)).getD default

/-- What the process asks its environment while it checks a channel source. -/
structure ChannelEnv where
  /-- `net::IPAddress::AssignFromIPLiteral`. -/
  assignFromIPLiteral : String → Bool
  /-- `HostResolver::ResolveHost`: `none` for `net::OK`, else the text of the error. -/
  resolveHost : String → Option String
  /-- `ChannelSource::DebugString`. -/
  debugString : ChannelSource → String

/-- The status part of `ToNetAddressList`. -/
def toNetAddressList (env : ChannelEnv) (channelDef : ChannelDef) : Status :=
  match channelDef.ipEndpoint with
  | none => ⟨.invalidArgument, "channel_def doesn't contain an IPEndPoint."⟩
  | some endpoint =>
    if env.assignFromIPLiteral endpoint.ip then .OK
    else match env.resolveHost endpoint.ip with
      | none => .OK
      | some error => ⟨.networkError, error⟩

/-- The room for a path in a `sockaddr_storage`: its 128 bytes less the address family. -/
def maxUDSPathSize : ℕ := 126

/-- The status part of `ToNetUDSEndPoint`. The path needs one byte more than it has characters,
for the terminating NUL or for the leading NUL of an abstract name. -/
def toNetUDSEndPoint (channelDef : ChannelDef) : Status :=
  match channelDef.udsEndpoint with
  | none => ⟨.invalidArgument, "channel_def doesn't contain a UDSEndPoint."⟩
  | some endpoint =>
    if endpoint.socketPath = "" ∨ maxUDSPathSize < endpoint.socketPath.utf8ByteSize + 1 then
      ⟨.invalidArgument, "Failed to convert to SockAddrStorage."⟩
    else .OK

/-- `IsValidChannelDef`. -/
def isValidChannelDef (env : ChannelEnv) (channelDef : ChannelDef) : Bool :=
  match channelDef.type with
  | .tcp | .udp | .ws => (toNetAddressList env channelDef).isOk
  | .uds => (toNetUDSEndPoint channelDef).isOk
  | .shm => true
  | .none => false

/-- `IsValidChannelSource`. -/
def isValidChannelSource (env : ChannelEnv) (source : ChannelSource) : Bool :=
  source.channelDefs.length ≠ 0 && source.channelDefs.all (isValidChannelDef env)

/-! ### The messages of the master -/

/-- `NodeInfo`. -/
structure NodeInfo where
  name : String := ""
  clientId : Uint32 := 0
  watcher : Bool := false
  deriving DecidableEq, Repr

/-- `ClientInfo`. -/
structure ClientInfo where
  id : Uint32 := 0
  heartBeatSignallerSource : ChannelSource := {}
  masterNotificationWatcherSource : ChannelSource := {}
  heartBeatDuration : Uint32 := 0
  deriving DecidableEq, Repr

/-- `TopicInfo::Status` and `ServiceInfo::Status`. -/
inductive InfoStatus
  | registered | unregistered
  deriving DecidableEq, Repr

/-- `TopicInfo::ImplType`. -/
inductive ImplType
  | protobuf | ros
  deriving DecidableEq, Repr

/-- `TopicInfo`. -/
structure TopicInfo where
  topic : String := ""
  typeName : String := ""
  implType : ImplType := .protobuf
  topicSource : ChannelSource := {}
  status : InfoStatus := .registered
  rosNodeName : String := ""
  deriving DecidableEq, Repr

/-- `ServiceInfo`. -/
structure ServiceInfo where
  service : String := ""
  typeName : String := ""
  serviceSource : ChannelSource := {}
  status : InfoStatus := .registered
  rosNodeName : String := ""
  deriving DecidableEq, Repr

/-- `MasterNotification`. -/
structure MasterNotification where
  topicInfo : Option TopicInfo := none
  serviceInfo : Option ServiceInfo := none
  deriving DecidableEq, Repr

/-- `ClientFilter`. -/
structure ClientFilter where
  all : Bool := false
  id : Uint32 := 0
  deriving DecidableEq, Repr

/-- `NodeFilter`. -/
structure NodeFilter where
  all : Bool := false
  publishingTopic : String := ""
  subscribingTopic : String := ""
  requestingService : String := ""
  servingService : String := ""
  name : String := ""
  watcher : Bool := false
  deriving DecidableEq, Repr

/-- `TopicFilter`. -/
structure TopicFilter where
  all : Bool := false
  topic : String := ""
  deriving DecidableEq, Repr

/-- `ServiceFilter`. -/
structure ServiceFilter where
  all : Bool := false
  service : String := ""
  deriving DecidableEq, Repr

/-! ### The ROS protocol mark of a name -/

/-- `kRosProtocol`. -/
def kRosProtocol : String := "ros://"

/-- `ConsumeRosProtocol`: the rest of a text that starts with `kRosProtocol`. -/
def consumeRosProtocol (text : String) : Option String :=
  if kRosProtocol.toList.isPrefixOf text.toList then
    some (String.ofList (text.toList.drop kRosProtocol.toList.length))
  else none

/-- `AttachRosProtocol`. -/
def attachRosProtocol (text : String) : String := kRosProtocol ++ cStr text

/-- `IsUsingRosProtocol`. -/
def isUsingRosProtocol (text : String) : Bool := (consumeRosProtocol text).isSome

/-- A text with the protocol attached uses the protocol. -/
theorem isUsingRosProtocol_attachRosProtocol (text : String) :
    isUsingRosProtocol (attachRosProtocol text) = true := by
  have hstart : kRosProtocol.toList.isPrefixOf (attachRosProtocol text).toList = true := by
    rw [attachRosProtocol, String.toList_append, List.isPrefixOf_iff_prefix]
    exact List.prefix_append _ _
  simp [isUsingRosProtocol, consumeRosProtocol, hstart]

end Felicia
