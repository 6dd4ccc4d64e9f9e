import Felicia.Channel.MessageReceiver
import Felicia.Message.RosHeader

/-!
# The ROS handshakes

`RosTopicRequest`, `RosTopicResponse`, `RosServiceRequest` and `RosServiceResponse` of
`felicia/core/channel/`. The requesting side sends its header; the responding side validates it and
sends back either a header of its own or an error text, and hands the channel over in the first
case; the requesting side validates what it received, unless that has an error text, and reports
how it went.

Three slips meet here. An error text in the reply is never looked at, so a refused request is
reported as OK. The headers that are sent back have no caller id, which `RosHeader::Validate` asks
for, so an accepted request is reported as an error. And the receiver of the requesting side, which
outlives a handshake, keeps the error text of an earlier reply, as a reply without an error does not
have that field: then the validation is skipped. `topic_handshake_agrees_iff` and
`service_handshake_agrees_iff` say that the two sides agree exactly in this last case.

`ros::Header` is a third-party library: how it writes and parses a map is a parameter. Delivery is
reliable, as for `MessageSender` and `MessageReceiver` over a TCP connection that does not fail.
-/

set_option autoImplicit false
set_option relaxedAutoImplicit false

namespace Felicia

open Support

/-! ### Messages -/

/-- `ros::Header::write` and `ros::Header::parse`. -/
structure RosHeaderCodec where
  write : HeaderMap → List UInt8
  parse : List UInt8 → Except String HeaderMap

/-- What is written is parsed back. -/
def RosHeaderCodec.RoundTrips (codec : RosHeaderCodec) (map : HeaderMap) : Prop :=
  codec.parse (codec.write map) = .ok map

instance (codec : RosHeaderCodec) (map : HeaderMap) : Decidable (codec.RoundTrips map) :=
  inferInstanceAs (Decidable (_ = _))

/-- A message with a header map arrives at a `MessageReceiver`, whose message is changed by reading
the map. -/
def RosHeaderCodec.receive {T : Type} (codec : RosHeaderCodec)
    (readFromRosHeader : T → HeaderMap → T) (message : T) (bytes : List UInt8) : T × Status :=
  match codec.parse bytes with
  | .ok map => (readFromRosHeader message map, .OK)
  | .error _ => (message, aborted MessageIOError.failedToParse.toString)

theorem RosHeaderCodec.receive_write {T : Type} {codec : RosHeaderCodec} {map : HeaderMap}
    (h : codec.RoundTrips map) (readFromRosHeader : T → HeaderMap → T) (message : T) :
    codec.receive readFromRosHeader message (codec.write map) =
      (readFromRosHeader message map, .OK) := by
  rw [receive, h]

/-! ### Topics -/

/-- What a publisher or a subscriber of a ROS topic tells of itself. -/
structure RosTopicPeer where
  /-- `topic_info_.topic()`. -/
  topic : String
  /-- `GetMessageTypeName()`. -/
  typeName : String
  /-- `GetMessageMD5Sum()`. -/
  md5sum : String
  deriving DecidableEq

/-- The publisher of a ROS topic. -/
structure RosPublisher extends RosTopicPeer where
  /-- `GetMessageDefinition()`. -/
  definition : String
  deriving DecidableEq

/-- The subscriber of a ROS topic. -/
structure RosSubscriber extends RosTopicPeer where
  rosNodeName : String
  deriving DecidableEq

/-- The header of `RosTopicRequest::Request`. -/
def RosSubscriber.header (subscriber : RosSubscriber) : RosTopicRequestHeader where
  topic := (consumeRosProtocol subscriber.topic).getD ""
  md5sum := subscriber.md5sum
  callerid := subscriber.rosNodeName
  type := subscriber.typeName
  tcpNodelay := "1"

/-- The header of `RosTopicResponse::ReceiveRequest`. -/
def RosPublisher.header (publisher : RosPublisher) : RosTopicResponseHeader where
  topic := (consumeRosProtocol publisher.topic).getD ""
  md5sum := publisher.md5sum
  type := publisher.typeName
  messageDefinition := publisher.definition
  latching := "0"

namespace RosTopicResponse

/-- `RosTopicResponse::OnReceiveRequest`: what is sent back, and whether it is an error. -/
def onReceiveRequest (header : RosTopicResponseHeader) (message : RosTopicRequestHeader)
    (s : Status) : RosTopicResponseHeader × Bool :=
  let expected : RosTopicHeader :=
    { topic := header.topic, md5sum := header.md5sum, type := header.type }
  let s := if s.isOk then message.validate expected else s
  if !s.isOk then ({ error := s.errorMessage }, true) else (header, false)

/-- `RosTopicResponse::OnResponse`: whether the channel is handed over. -/
def onResponse (sentError : Bool) (s : Status) : Bool := s.isOk && !sentError

end RosTopicResponse

/-- `RosTopicRequest::OnReceiveResponse`: what is reported. -/
def RosTopicRequest.onReceiveResponse (header : RosTopicRequestHeader)
    (message : RosTopicResponseHeader) (s : Status) : Status :=
  if s.isOk ∧ message.error = "" then
    message.validate { md5sum := header.md5sum, topic := header.topic, type := header.type }
  else s

/-- How a handshake ends. -/
structure HandshakeOutcome where
  /-- The error text of the reply. -/
  replyError : String
  /-- Whether the responding side hands the channel over. -/
  handed : Bool
  /-- What the requesting side reports. -/
  reported : Status
  deriving DecidableEq

namespace RosPublisher

variable (codec : RosHeaderCodec) (publisher : RosPublisher) (subscriber : RosSubscriber)

/-- What the publisher receives of the subscriber. -/
def requestMap : HeaderMap := subscriber.header.writeToHeaderMap FlatMap.empty

/-- What the publisher sends back, and whether it is an error. -/
def reply : RosTopicResponseHeader × Bool :=
  let received := codec.receive RosTopicRequestHeader.readFromRosHeader {}
    (codec.write (requestMap subscriber))
  RosTopicResponse.onReceiveRequest publisher.header received.1 received.2

/-- A handshake, with a subscriber whose receiver holds the message of an earlier one. -/
def handshake (held : RosTopicResponseHeader) : HandshakeOutcome :=
  let reply := publisher.reply codec subscriber
  let received := codec.receive RosTopicResponseHeader.readFromRosHeader held
    (codec.write (reply.1.writeToHeaderMap FlatMap.empty))
  { replyError := reply.1.error
    handed := RosTopicResponse.onResponse reply.2 .OK
    reported := RosTopicRequest.onReceiveResponse subscriber.header received.1 received.2 }

end RosPublisher

/-! ### Services -/

/-- The ROS `rpc::Server`, as far as it tells of itself. -/
structure RosServicePeer where
  md5sum : String
  requestType : String
  responseType : String
  type : String
  deriving DecidableEq

/-- The ROS `rpc::Client`, as far as it tells of itself. -/
structure RosServiceCaller where
  /-- `service_info_.service()`. -/
  service : String
  md5sum : String
  rosNodeName : String
  deriving DecidableEq

/-- The header of `RosServiceRequest::Request`. -/
def RosServiceCaller.header (caller : RosServiceCaller) : RosServiceRequestHeader where
  service := (consumeRosProtocol caller.service).getD ""
  md5sum := caller.md5sum
  callerid := caller.rosNodeName
  persistent := "1"

/-- The header of `RosServiceResponse::ReceiveRequest`. -/
def RosServicePeer.header (server : RosServicePeer) : RosServiceResponseHeader where
  md5sum := server.md5sum
  requestType := server.requestType
  responseType := server.responseType
  type := server.type

namespace RosServiceResponse

/-- `RosServiceResponse::OnReceiveRequest`: what is sent back, and whether it is an error. -/
def onReceiveRequest (header : RosServiceResponseHeader) (message : RosServiceRequestHeader)
    (s : Status) : RosServiceResponseHeader × Bool :=
  let expected : RosServiceRequestHeader := { md5sum := header.md5sum }
  let s := if s.isOk then message.validate expected else s
  if !s.isOk then ({ error := s.errorMessage }, true) else (header, false)

/-- `RosServiceResponse::OnResponse`: whether the channel is handed over, and if so whether the
connection is persistent. -/
def onResponse (message : RosServiceRequestHeader) (sentError : Bool) (s : Status) : Option Bool :=
  if s.isOk && !sentError then some (message.persistent == "1") else none

end RosServiceResponse

/-- `RosServiceRequest::OnReceiveResponse`: what is reported. -/
def RosServiceRequest.onReceiveResponse (header : RosServiceRequestHeader)
    (message : RosServiceResponseHeader) (s : Status) : Status :=
  if s.isOk ∧ message.error = "" then message.validate { md5sum := header.md5sum } else s

namespace RosServicePeer

variable (codec : RosHeaderCodec) (server : RosServicePeer) (caller : RosServiceCaller)

/-- What the server receives of the client. -/
def requestMap : HeaderMap := caller.header.writeToHeaderMap FlatMap.empty

/-- What the server reads of it. -/
def received : RosServiceRequestHeader × Status :=
  codec.receive RosServiceRequestHeader.readFromRosHeader {} (codec.write (requestMap caller))

/-- What the server sends back, and whether it is an error. -/
def reply : RosServiceResponseHeader × Bool :=
  let received := received codec caller
  RosServiceResponse.onReceiveRequest server.header received.1 received.2

/-- A handshake, with a client whose receiver holds the message of an earlier one. -/
def handshake (held : RosServiceResponseHeader) : HandshakeOutcome :=
  let reply := server.reply codec caller
  let response := codec.receive RosServiceResponseHeader.readFromRosHeader held
    (codec.write (reply.1.writeToHeaderMap FlatMap.empty))
  { replyError := reply.1.error
    handed :=
      (RosServiceResponse.onResponse (received codec caller).1 reply.2 .OK).isSome
    reported := RosServiceRequest.onReceiveResponse caller.header response.1 response.2 }

end RosServicePeer

/-! ### Agreement -/

/-- Both sides come to the same end, which is the right one, and an error is not reported as OK. -/
structure HandshakeOutcome.Agrees (outcome : HandshakeOutcome) (isRight : Prop) : Prop where
  handed_iff_reported : outcome.handed = true ↔ outcome.reported.isOk = true
  handed_iff_right : outcome.handed = true ↔ isRight
  not_reported_of_error : outcome.replyError ≠ "" → outcome.reported.isOk = false

/-- Assumes: an accepted request that was right. -/
theorem HandshakeOutcome.agrees_accepted_iff {isRight : Prop} (hright : isRight)
    (reported : Status) :
    HandshakeOutcome.Agrees ⟨"", true, reported⟩ isRight ↔ reported.isOk = true := by
  constructor
  · exact fun h ↦ h.handed_iff_reported.mp rfl
  · exact fun h ↦ ⟨iff_of_true rfl h, iff_of_true rfl hright, fun hempty ↦ absurd rfl hempty⟩

theorem HandshakeOutcome.not_agrees_refused (error : String) (isRight : Prop) :
    ¬ HandshakeOutcome.Agrees ⟨error, false, .OK⟩ isRight := by
  intro h
  cases h.handed_iff_reported.mpr rfl

/-- Assumes: how the handshake ends when the responding side accepts, and when it refuses. -/
theorem HandshakeOutcome.agrees_iff {outcome : HandshakeOutcome} {isRight accepts holds : Prop}
    (hright : accepts → isRight)
    (haccepted : accepts → ∃ reported, outcome = ⟨"", true, reported⟩ ∧
      (reported.isOk = true ↔ holds))
    (hrefused : ¬ accepts → ∃ error, outcome = ⟨error, false, .OK⟩) :
    outcome.Agrees isRight ↔ accepts ∧ holds := by
  by_cases haccepts : accepts
  · obtain ⟨reported, rfl, hreported⟩ := haccepted haccepts
    rw [HandshakeOutcome.agrees_accepted_iff (hright haccepts), hreported]
    exact (and_iff_right haccepts).symm
  · obtain ⟨error, rfl⟩ := hrefused haccepts
    exact iff_of_false (HandshakeOutcome.not_agrees_refused _ _) fun h ↦ haccepts h.1

/-! ### What is read back -/

section

-- Maps whose keys are known are computed.
attribute [local simp] HeaderMap.getValue FlatMap.find_insertOrAssign RosHeader.writeToHeaderMap
  RosHeader.readFromRosHeader RosTopicHeader.writeToHeaderMap RosTopicHeader.readFromRosHeader

theorem RosTopicRequestHeader.read_write (h : RosTopicRequestHeader) :
    readFromRosHeader {} (h.writeToHeaderMap FlatMap.empty) = h := by
  simp [readFromRosHeader, writeToHeaderMap]

theorem RosServiceRequestHeader.read_write (h : RosServiceRequestHeader) :
    readFromRosHeader {} (h.writeToHeaderMap FlatMap.empty) = h := by
  simp [readFromRosHeader, writeToHeaderMap]

/-- A reply without an error leaves the error text of an earlier one. -/
theorem RosTopicResponseHeader.read_write {h : RosTopicResponseHeader} (herror : h.error = "")
    (held : RosTopicResponseHeader) :
    held.readFromRosHeader (h.writeToHeaderMap FlatMap.empty) = { h with error := held.error } := by
  simp [readFromRosHeader, writeToHeaderMap, herror]

theorem RosTopicResponseHeader.error_read_write {h : RosTopicResponseHeader}
    (herror : h.error ≠ "") (held : RosTopicResponseHeader) :
    (held.readFromRosHeader (h.writeToHeaderMap FlatMap.empty)).error = h.error := by
  simp [readFromRosHeader, writeToHeaderMap, herror]

/-- A reply without an error leaves the error text of an earlier one. -/
theorem RosServiceResponseHeader.read_write {h : RosServiceResponseHeader} (herror : h.error = "")
    (held : RosServiceResponseHeader) :
    held.readFromRosHeader (h.writeToHeaderMap FlatMap.empty) = { h with error := held.error } := by
  simp [readFromRosHeader, writeToHeaderMap, herror]

theorem RosServiceResponseHeader.error_read_write {h : RosServiceResponseHeader}
    (herror : h.error ≠ "") (held : RosServiceResponseHeader) :
    (held.readFromRosHeader (h.writeToHeaderMap FlatMap.empty)).error = h.error := by
  simp [readFromRosHeader, writeToHeaderMap, herror]

end

/-! ### The two sides of a topic -/

namespace RosPublisher

variable {codec : RosHeaderCodec} {publisher : RosPublisher} {subscriber : RosSubscriber}

/-- The two are about the same topic and the same messages. -/
def Matches (publisher : RosPublisher) (subscriber : RosSubscriber) : Prop :=
  publisher.topic = subscriber.topic ∧ publisher.typeName = subscriber.typeName ∧
    RosHeader.SumsMatch subscriber.md5sum publisher.md5sum

/-- The publisher finds nothing to refuse: the request names a caller and sum, and a ROS topic and a
type, which are the publisher's own. -/
def Accepts (publisher : RosPublisher) (subscriber : RosSubscriber) : Prop :=
  subscriber.header.topic ≠ "" ∧ subscriber.typeName ≠ "" ∧
    subscriber.header.topic = publisher.header.topic ∧
    subscriber.typeName = publisher.typeName ∧ subscriber.rosNodeName ≠ "" ∧
    subscriber.md5sum ≠ "" ∧ RosHeader.SumsMatch subscriber.md5sum publisher.md5sum

instance (publisher : RosPublisher) (subscriber : RosSubscriber) :
    Decidable (publisher.Accepts subscriber) :=
  inferInstanceAs (Decidable (_ ∧ _))

theorem validate_isOk_iff_accepts : (subscriber.header.validate
    { topic := publisher.header.topic, md5sum := publisher.header.md5sum,
      type := publisher.header.type }).isOk = true ↔ publisher.Accepts subscriber := by
  simp only [RosTopicRequestHeader.validate, Status.andThen_isOk, Bool.and_eq_true,
    expectNotEmpty_isOk, expectBool_isOk, RosTopicHeader.validate_isOk_iff,
    RosHeader.validate_isOk_iff]
  simp [Accepts, RosSubscriber.header, header]

/-- A name that uses the protocol is the protocol and what follows it. -/
theorem toList_eq_of_consumeRosProtocol {text rest : String}
    (h : consumeRosProtocol text = some rest) :
    text.toList = kRosProtocol.toList ++ rest.toList := by
  unfold consumeRosProtocol at h
  split_ifs at h with hstart
  cases h
  obtain ⟨rest, hrest⟩ := List.isPrefixOf_iff_prefix.mp hstart
  rw [← hrest, List.drop_left, String.toList_ofList]

theorem eq_of_consumeRosProtocol {a b : String} (h : (consumeRosProtocol a).getD "" ≠ "")
    (heq : (consumeRosProtocol a).getD "" = (consumeRosProtocol b).getD "") : a = b := by
  cases ha : consumeRosProtocol a with
  | none => simp [ha] at h
  | some rest =>
    cases hb : consumeRosProtocol b with
    | none =>
      rw [hb] at heq
      exact absurd heq h
    | some rest' =>
      have hrest : rest = rest' := by simpa [ha, hb] using heq
      rw [← String.toList_inj, toList_eq_of_consumeRosProtocol ha,
        toList_eq_of_consumeRosProtocol hb, hrest]

theorem Accepts.matches (h : publisher.Accepts subscriber) : publisher.Matches subscriber := by
  obtain ⟨htopic, -, heq, htype, -, -, hsums⟩ := h
  exact ⟨(eq_of_consumeRosProtocol htopic heq).symm, htype.symm, hsums⟩

/-- Assumes: a request that arrives as it was written. -/
theorem reply_eq (hround : codec.RoundTrips (requestMap subscriber)) :
    publisher.reply codec subscriber =
      RosTopicResponse.onReceiveRequest publisher.header subscriber.header .OK := by
  rw [reply, RosHeaderCodec.receive_write hround, requestMap, RosTopicRequestHeader.read_write]

theorem reply_of_accepts (hround : codec.RoundTrips (requestMap subscriber))
    (haccepts : publisher.Accepts subscriber) :
    publisher.reply codec subscriber = (publisher.header, false) := by
  have hok := validate_isOk_iff_accepts.mpr haccepts
  rw [reply_eq hround]
  simp [RosTopicResponse.onReceiveRequest, hok]

theorem reply_of_not_accepts (hround : codec.RoundTrips (requestMap subscriber))
    (hrefused : ¬ publisher.Accepts subscriber) :
    ∃ error, error ≠ "" ∧ publisher.reply codec subscriber = ({ error := error }, true) := by
  have hfailed := mt validate_isOk_iff_accepts.mp hrefused
  refine ⟨_, (RosTopicRequestHeader.told_validate subscriber.header _).resolve_left hfailed, ?_⟩
  rw [reply_eq hround]
  simp [RosTopicResponse.onReceiveRequest, hfailed]

/-- The reply has no caller id, so it does not pass. -/
theorem not_validate_header (error : String) (expected : RosTopicHeader) :
    (RosTopicResponseHeader.validate { publisher.header with error := error } expected).isOk =
      false := by
  rw [Bool.eq_false_iff]
  intro hok
  simp only [RosTopicResponseHeader.validate, Status.andThen_isOk, Bool.and_eq_true,
    RosTopicHeader.validate_isOk_iff, RosHeader.validate_isOk_iff] at hok
  exact hok.2.2.2.2.2.2.2.1 rfl

/-- Assumes: a request and a reply that arrive as they were written. -/
theorem handshake_of_accepts (haccepts : publisher.Accepts subscriber)
    (held : RosTopicResponseHeader) (hrequest : codec.RoundTrips (requestMap subscriber))
    (hreply : codec.RoundTrips
      ((publisher.reply codec subscriber).1.writeToHeaderMap FlatMap.empty)) :
    ∃ reported, publisher.handshake codec subscriber held = ⟨"", true, reported⟩ ∧
      (reported.isOk = true ↔ held.error ≠ "") := by
  have hsent := reply_of_accepts hrequest haccepts
  rw [hsent] at hreply
  have hread := RosTopicResponseHeader.read_write (show publisher.header.error = "" from rfl) held
  refine ⟨RosTopicRequest.onReceiveResponse subscriber.header
    { publisher.header with error := held.error } .OK, ?_, ?_⟩
  · simp only [handshake, hsent, RosHeaderCodec.receive_write hreply, hread]
    rfl
  · by_cases hheld : held.error = ""
    · simp [RosTopicRequest.onReceiveResponse, hheld, not_validate_header]
    · simp [RosTopicRequest.onReceiveResponse, hheld]

/-- Assumes: a request and a reply that arrive as they were written. -/
theorem handshake_of_not_accepts (hrefused : ¬ publisher.Accepts subscriber)
    (held : RosTopicResponseHeader) (hrequest : codec.RoundTrips (requestMap subscriber))
    (hreply : codec.RoundTrips
      ((publisher.reply codec subscriber).1.writeToHeaderMap FlatMap.empty)) :
    ∃ error, publisher.handshake codec subscriber held = ⟨error, false, .OK⟩ := by
  obtain ⟨error, herror, hsent⟩ := reply_of_not_accepts hrequest hrefused
  rw [hsent] at hreply
  have hread := RosTopicResponseHeader.error_read_write (h := { error := error }) herror held
  refine ⟨error, ?_⟩
  simp only [handshake, hsent, RosHeaderCodec.receive_write hreply,
    RosTopicRequest.onReceiveResponse, RosTopicResponse.onResponse, hread]
  simp [herror]

/-- Assumes: a request and a reply that arrive as they were written. The two sides agree exactly
when the publisher accepts and the subscriber still holds the error text of an earlier reply. -/
theorem topic_handshake_agrees_iff (held : RosTopicResponseHeader)
    (hrequest : codec.RoundTrips (requestMap subscriber))
    (hreply : codec.RoundTrips
      ((publisher.reply codec subscriber).1.writeToHeaderMap FlatMap.empty)) :
    (publisher.handshake codec subscriber held).Agrees (publisher.Matches subscriber) ↔
      publisher.Accepts subscriber ∧ held.error ≠ "" :=
  HandshakeOutcome.agrees_iff (fun haccepts ↦ haccepts.matches)
    (fun haccepts ↦ handshake_of_accepts haccepts held hrequest hreply)
    fun hrefused ↦ handshake_of_not_accepts hrefused held hrequest hreply

end RosPublisher

/-! ### The two sides of a service -/

namespace RosServicePeer

variable {codec : RosHeaderCodec} {server : RosServicePeer} {caller : RosServiceCaller}

/-- The two are about the same messages. The server is not told which service it serves. -/
def Matches (server : RosServicePeer) (caller : RosServiceCaller) : Prop :=
  RosHeader.SumsMatch caller.md5sum server.md5sum

/-- The server finds nothing to refuse: the request names a caller, a ROS service and a sum, which
may go with the server's own. -/
def Accepts (server : RosServicePeer) (caller : RosServiceCaller) : Prop :=
  caller.header.service ≠ "" ∧ caller.rosNodeName ≠ "" ∧ caller.md5sum ≠ "" ∧
    RosHeader.SumsMatch caller.md5sum server.md5sum

instance (server : RosServicePeer) (caller : RosServiceCaller) :
    Decidable (server.Accepts caller) :=
  inferInstanceAs (Decidable (_ ∧ _))

theorem Accepts.matches (h : server.Accepts caller) : server.Matches caller := h.2.2.2

theorem validate_isOk_iff_accepts :
    (caller.header.validate { md5sum := server.header.md5sum }).isOk = true ↔
      server.Accepts caller := by
  simp only [RosServiceRequestHeader.validate, Status.andThen_isOk, Bool.and_eq_true,
    expectNotEmpty_isOk, expectBool_isOk, RosHeader.validate_isOk_iff]
  simp [Accepts, RosServiceCaller.header, header]

/-- Assumes: a request that arrives as it was written. -/
theorem received_eq (hround : codec.RoundTrips (requestMap caller)) :
    received codec caller = (caller.header, .OK) := by
  rw [received, RosHeaderCodec.receive_write hround, requestMap,
    RosServiceRequestHeader.read_write]

theorem reply_of_accepts (hround : codec.RoundTrips (requestMap caller))
    (haccepts : server.Accepts caller) : server.reply codec caller = (server.header, false) := by
  have hok := validate_isOk_iff_accepts.mpr haccepts
  simp [reply, received_eq hround, RosServiceResponse.onReceiveRequest, hok]

theorem reply_of_not_accepts (hround : codec.RoundTrips (requestMap caller))
    (hrefused : ¬ server.Accepts caller) :
    ∃ error, error ≠ "" ∧ server.reply codec caller = ({ error := error }, true) := by
  have hfailed := mt validate_isOk_iff_accepts.mp hrefused
  refine ⟨_, (RosServiceRequestHeader.told_validate caller.header _).resolve_left hfailed, ?_⟩
  simp [reply, received_eq hround, RosServiceResponse.onReceiveRequest, hfailed]

/-- The reply has no caller id, so it does not pass. -/
theorem not_validate_header (error : String) (expected : RosServiceResponseHeader) :
    (RosServiceResponseHeader.validate { server.header with error := error } expected).isOk =
      false := by
  rw [Bool.eq_false_iff]
  intro hok
  simp only [RosServiceResponseHeader.validate, Status.andThen_isOk, Bool.and_eq_true,
    RosHeader.validate_isOk_iff] at hok
  exact hok.2.2.2.1 rfl

/-- Assumes: a request and a reply that arrive as they were written. -/
theorem handshake_of_accepts (haccepts : server.Accepts caller)
    (held : RosServiceResponseHeader) (hrequest : codec.RoundTrips (requestMap caller))
    (hreply : codec.RoundTrips ((server.reply codec caller).1.writeToHeaderMap FlatMap.empty)) :
    ∃ reported, server.handshake codec caller held = ⟨"", true, reported⟩ ∧
      (reported.isOk = true ↔ held.error ≠ "") := by
  have hsent := reply_of_accepts hrequest haccepts
  rw [hsent] at hreply
  have hread := RosServiceResponseHeader.read_write (show server.header.error = "" from rfl) held
  refine ⟨RosServiceRequest.onReceiveResponse caller.header
    { server.header with error := held.error } .OK, ?_, ?_⟩
  · simp only [handshake, hsent, RosHeaderCodec.receive_write hreply, hread]
    rfl
  · by_cases hheld : held.error = ""
    · simp [RosServiceRequest.onReceiveResponse, hheld, not_validate_header]
    · simp [RosServiceRequest.onReceiveResponse, hheld]

/-- Assumes: a request and a reply that arrive as they were written. -/
theorem handshake_of_not_accepts (hrefused : ¬ server.Accepts caller)
    (held : RosServiceResponseHeader) (hrequest : codec.RoundTrips (requestMap caller))
    (hreply : codec.RoundTrips ((server.reply codec caller).1.writeToHeaderMap FlatMap.empty)) :
    ∃ error, server.handshake codec caller held = ⟨error, false, .OK⟩ := by
  obtain ⟨error, herror, hsent⟩ := reply_of_not_accepts hrequest hrefused
  rw [hsent] at hreply
  have hread := RosServiceResponseHeader.error_read_write (h := { error := error }) herror held
  refine ⟨error, ?_⟩
  simp only [handshake, hsent, RosHeaderCodec.receive_write hreply,
    RosServiceRequest.onReceiveResponse, RosServiceResponse.onResponse, hread]
  simp [herror]

/-- Assumes: a request and a reply that arrive as they were written. The two sides agree exactly
when the server accepts and the client still holds the error text of an earlier reply. -/
theorem service_handshake_agrees_iff (held : RosServiceResponseHeader)
    (hrequest : codec.RoundTrips (requestMap caller))
    (hreply : codec.RoundTrips ((server.reply codec caller).1.writeToHeaderMap FlatMap.empty)) :
    (server.handshake codec caller held).Agrees (server.Matches caller) ↔
      server.Accepts caller ∧ held.error ≠ "" :=
  HandshakeOutcome.agrees_iff (fun haccepts ↦ haccepts.matches)
    (fun haccepts ↦ handshake_of_accepts haccepts held hrequest hreply)
    fun hrefused ↦ handshake_of_not_accepts hrefused held hrequest hreply

end RosServicePeer

/-! ### Both -/

namespace HandshakeOutcome

/-- Assumes: requests and replies that arrive as they were written. The two sides of a topic, and
those of a service, agree exactly when the responding side accepts the request and the requesting
side still holds the error text of an earlier reply. -/
theorem handshake_agrees_iff (codec : RosHeaderCodec) :
    (∀ (publisher : RosPublisher) (subscriber : RosSubscriber) (held : RosTopicResponseHeader),
      codec.RoundTrips (RosPublisher.requestMap subscriber) →
      codec.RoundTrips ((publisher.reply codec subscriber).1.writeToHeaderMap FlatMap.empty) →
      ((publisher.handshake codec subscriber held).Agrees (publisher.Matches subscriber) ↔
        publisher.Accepts subscriber ∧ held.error ≠ "")) ∧
    ∀ (server : RosServicePeer) (caller : RosServiceCaller) (held : RosServiceResponseHeader),
      codec.RoundTrips (RosServicePeer.requestMap caller) →
      codec.RoundTrips ((server.reply codec caller).1.writeToHeaderMap FlatMap.empty) →
      ((server.handshake codec caller held).Agrees (server.Matches caller) ↔
        server.Accepts caller ∧ held.error ≠ "") :=
  ⟨fun _ _ ↦ RosPublisher.topic_handshake_agrees_iff,
    fun _ _ ↦ RosServicePeer.service_handshake_agrees_iff⟩

end HandshakeOutcome

namespace Scenario

/-- The fields of a ROS header: a size, and so many bytes with an equals sign after the key. -/
def parseFields : ℕ → List UInt8 → Except String (List (String × String))
  | _, [] => .ok []
  | 0, _ => .error "too many fields"
  | fuel + 1, bytes =>
    let size := (parseHeader bytes).toNat
    let field := (bytes.drop headerSize).take size
    if bytes.length < headerSize + size then .error "a field is cut off"
    else if field.contains 61 then
      (parseFields fuel (bytes.drop (headerSize + size))).map fun fields ↦
        (String.ofList (bytesText (field.takeWhile (· ≠ 61))),
          String.ofList (bytesText ((field.dropWhile (· ≠ 61)).drop 1))) :: fields
    else .error "no equals sign"

/-- The format of ROS headers. -/
def rosFormat : RosHeaderCodec where
  write map := map.entries.flatMap fun entry ↦
    attachHeader (textBytes (entry.1 ++ "=" ++ entry.2))
  parse bytes := (parseFields bytes.length bytes).map fun fields ↦
    fields.foldl (fun map field ↦ map.insertOrAssign field.1 field.2) FlatMap.empty

def talker : RosPublisher := ⟨⟨"ros:///a", "std_msgs/String", "992c"⟩, "string data"⟩

def listener : RosSubscriber := ⟨⟨"ros:///a", "std_msgs/String", "*"⟩, "/listener"⟩

/-- A subscriber of other messages. -/
def wrongListener : RosSubscriber := ⟨⟨"ros:///a", "std_msgs/String", "d41d"⟩, "/listener"⟩

def adder : RosServicePeer := ⟨"6a2e", "AddRequest", "AddResponse", "Add"⟩

def addCaller : RosServiceCaller := ⟨"ros:///add", "6a2e", "/caller"⟩

def wrongCaller : RosServiceCaller := ⟨"ros:///add", "d41d", "/caller"⟩

end Scenario

namespace HandshakeOutcome

/-- A subscriber that was refused before, and a publisher that accepts. -/
theorem handshake_agrees_after_refusal :
    (Scenario.talker.handshake Scenario.rosFormat Scenario.listener { error := "refused" }).Agrees
      (Scenario.talker.Matches Scenario.listener) ∧
    (Scenario.adder.handshake Scenario.rosFormat Scenario.addCaller { error := "refused" }).Agrees
      (Scenario.adder.Matches Scenario.addCaller) := by
  have htopic := (handshake_agrees_iff Scenario.rosFormat).1 Scenario.talker Scenario.listener
    { error := "refused" } (by decide +kernel) (by decide +kernel)
  have hservice := (handshake_agrees_iff Scenario.rosFormat).2 Scenario.adder Scenario.addCaller
    { error := "refused" } (by decide +kernel) (by decide +kernel)
  exact ⟨htopic.mpr ⟨by decide +kernel, by decide⟩, hservice.mpr ⟨by decide +kernel, by decide⟩⟩

/-- In a first handshake, what the publisher accepts is reported as an error and what it refuses is
reported as OK; and the same for a service. -/
theorem handshake_not_agrees :
    Scenario.talker.handshake Scenario.rosFormat Scenario.listener {} =
        ⟨"", true, invalidArgument "callerid is empty"⟩ ∧
    Scenario.talker.handshake Scenario.rosFormat Scenario.wrongListener {} =
        ⟨"md5sum is not matched :d41d vs 992c.", false, .OK⟩ ∧
    Scenario.adder.handshake Scenario.rosFormat Scenario.addCaller {} =
        ⟨"", true, invalidArgument "callerid is empty"⟩ ∧
    Scenario.adder.handshake Scenario.rosFormat Scenario.wrongCaller {} =
        ⟨"md5sum is not matched :d41d vs 6a2e.", false, .OK⟩ ∧
    (¬ ∀ (publisher : RosPublisher) (subscriber : RosSubscriber), subscriber.rosNodeName ≠ "" →
      Scenario.rosFormat.RoundTrips (RosPublisher.requestMap subscriber) →
      Scenario.rosFormat.RoundTrips
        ((publisher.reply Scenario.rosFormat subscriber).1.writeToHeaderMap FlatMap.empty) →
      (publisher.handshake Scenario.rosFormat subscriber {}).Agrees
        (publisher.Matches subscriber)) ∧
    ¬ ∀ (server : RosServicePeer) (caller : RosServiceCaller), caller.rosNodeName ≠ "" →
      Scenario.rosFormat.RoundTrips (RosServicePeer.requestMap caller) →
      Scenario.rosFormat.RoundTrips
        ((server.reply Scenario.rosFormat caller).1.writeToHeaderMap FlatMap.empty) →
      (server.handshake Scenario.rosFormat caller {}).Agrees (server.Matches caller) := by
  have htopic : Scenario.talker.handshake Scenario.rosFormat Scenario.wrongListener {} =
      ⟨"md5sum is not matched :d41d vs 992c.", false, .OK⟩ := by
    decide +kernel
  have hservice : Scenario.adder.handshake Scenario.rosFormat Scenario.wrongCaller {} =
      ⟨"md5sum is not matched :d41d vs 6a2e.", false, .OK⟩ := by
    decide +kernel
  refine ⟨by decide +kernel, htopic, by decide +kernel, hservice, fun hall ↦ ?_, fun hall ↦ ?_⟩
  · have hagrees := hall Scenario.talker Scenario.wrongListener (by decide) (by decide +kernel)
      (by decide +kernel)
    rw [htopic] at hagrees
    exact not_agrees_refused _ _ hagrees
  · have hagrees := hall Scenario.adder Scenario.wrongCaller (by decide) (by decide +kernel)
      (by decide +kernel)
    rw [hservice] at hagrees
    exact not_agrees_refused _ _ hagrees

end HandshakeOutcome

end Felicia
