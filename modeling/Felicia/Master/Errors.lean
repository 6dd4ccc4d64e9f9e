import Felicia.Core.Messages

/-!
# The errors of the master

`felicia/core/master/errors.h`, with the code and the text of each status as the source has them.
Several texts differ from what their names suggest: a topic that is already published is reported
as a service, and the two "isn't serving" and "isn't requesting" errors carry the code of an entry
that already exists.
-/

set_option autoImplicit false
set_option relaxedAutoImplicit false

namespace Felicia.Errors

/-- `errors::ChannelSourceNotValid`. -/
def channelSourceNotValid (env : ChannelEnv) (name : String) (source : ChannelSource) : Status :=
  ⟨.invalidArgument,
    "Invalid channel source " ++ cStr name ++ ": " ++ cStr (env.debugString source) ++ "."⟩

/-- `errors::FailedToRegisterClient`. -/
def failedToRegisterClient : Status := ⟨.outOfRange, "Failed to register client."⟩

/-- `errors::ClientNotRegistered`. -/
def clientNotRegistered : Status := ⟨.notFound, "Client isn't registered yet."⟩

/-- `errors::NodeNotRegistered`. -/
def nodeNotRegistered (nodeInfo : NodeInfo) : Status :=
  ⟨.notFound, "Node '" ++ cStr nodeInfo.name ++ "' isn't registered yet."⟩

/-- `errors::NodeAlreadyRegistered`. -/
def nodeAlreadyRegistered (nodeInfo : NodeInfo) : Status :=
  ⟨.alreadyExists, "Node '" ++ cStr nodeInfo.name ++ "' is already registered."⟩

/-- `errors::WatcherNodeAlreadyRegistered`. -/
def watcherNodeAlreadyRegistered : Status := ⟨.alreadyExists, "Watcher node already exists."⟩

/-- The common shape of the errors that name a node and a topic or service of it. -/
def onNode (code : ErrorCode) (nodeInfo : NodeInfo) (verb subject : String) : Status :=
  ⟨code, "Node '" ++ cStr nodeInfo.name ++ "' " ++ verb ++ " '" ++ cStr subject ++ "'."⟩

/-- The common shape of the errors of a request whose node was not found any more. -/
def failedTo (action subject : String) : Status :=
  ⟨.unknown, "Failed to " ++ action ++ " '" ++ cStr subject ++ "'."⟩

/-- `errors::TopicAlreadyPublishingOnNode`. -/
def topicAlreadyPublishingOnNode (nodeInfo : NodeInfo) (topicInfo : TopicInfo) : Status :=
  onNode .alreadyExists nodeInfo "is already publish service" topicInfo.topic

/-- `errors::FailedToPublishTopic`. -/
def failedToPublishTopic (topicInfo : TopicInfo) : Status :=
  failedTo "publish topic" topicInfo.topic

/-- `errors::TopicNotPublishingOnNode`. -/
def topicNotPublishingOnNode (nodeInfo : NodeInfo) (topic : String) : Status :=
  onNode .notFound nodeInfo "isn't publishing topic" topic

/-- `errors::FailedToUnpublishTopic`. -/
def failedToUnpublishTopic (topic : String) : Status := failedTo "unpublish topic" topic

/-- `errors::TopicAlreadySubscribingOnNode`. -/
def topicAlreadySubscribingOnNode (nodeInfo : NodeInfo) (topic : String) : Status :=
  onNode .alreadyExists nodeInfo "is already subscribing topic" topic

/-- `errors::FailedToSubscribeTopic`. -/
def failedToSubscribeTopic (topic : String) : Status := failedTo "subscribe topic" topic

/-- `errors::TopicNotSubscribingOnNode`. -/
def topicNotSubscribingOnNode (nodeInfo : NodeInfo) (topic : String) : Status :=
  onNode .notFound nodeInfo "isn't subscribing topic" topic

/-- `errors::FailedToUnsubscribeTopic`. -/
def failedToUnsubscribeTopic (topic : String) : Status := failedTo "unsubscribe topic" topic

/-- `errors::ServiceAlreadyRequestingOnNode`. -/
def serviceAlreadyRequestingOnNode (nodeInfo : NodeInfo) (service : String) : Status :=
  onNode .alreadyExists nodeInfo "is already requesting service" service

/-- `errors::FailedToRegisterServiceClient`. -/
def failedToRegisterServiceClient (service : String) : Status :=
  failedTo "register service client" service

/-- `errors::ServiceNotRequestingOnNode`. -/
def serviceNotRequestingOnNode (nodeInfo : NodeInfo) (service : String) : Status :=
  onNode .alreadyExists nodeInfo "isn't requesting service" service

/-- `errors::FailedToUnregisterServiceClient`. -/
def failedToUnregisterServiceClient (service : String) : Status :=
  failedTo "unregister service client" service

/-- `errors::ServiceAlreadyServingOnNode`. -/
def serviceAlreadyServingOnNode (nodeInfo : NodeInfo) (serviceInfo : ServiceInfo) : Status :=
  onNode .alreadyExists nodeInfo "is already serving service" serviceInfo.service

/-- `errors::FailedToRegisterServiceServer`. -/
def failedToRegisterServiceServer (serviceInfo : ServiceInfo) : Status :=
  failedTo "register service server" serviceInfo.service

/-- `errors::ServiceNotServingOnNode`. -/
def serviceNotServingOnNode (nodeInfo : NodeInfo) (service : String) : Status :=
  onNode .alreadyExists nodeInfo "isn't serving service" service

/-- `errors::FailedToUnregisterServiceServer`. -/
def failedToUnregisterServiceServer (service : String) : Status :=
  failedTo "unregister service server" service

/-- The error of `DoPublishTopic` for a ROS topic without a TCP channel. -/
def rosTopicNeedsTcp : Status :=
  ⟨.aborted, "You should set CHANNEL_TYPE_TCP on to publish ROS topic."⟩

end Felicia.Errors
