import Felicia.Core.Messages
import Felicia.Support.FlatMap

/-!
# Headers of the ROS handshakes

`felicia/core/message/ros_header.cc`: the headers that the two sides of a ROS topic or service
exchange, how each is written to a header map and read from one, and how a received one is
validated against what is expected. Reading leaves a field as it is when the map does not have it,
so a header that is read into an object that was used before keeps what the map leaves out.

Each `Validate` returns the first error it finds. `told_validate` and its like say that an error is
never without a text: the text is what is sent back. The lemmas that end in `_isOk_iff` say what a
valid header is.
-/

set_option autoImplicit false
set_option relaxedAutoImplicit false

namespace Felicia

open Support

/-! ### Checks -/

/-- `errors::InvalidArgument`. -/
def invalidArgument (message : String) : Status := ⟨.invalidArgument, message⟩

/-- The second check is made if the first one passes. -/
def Status.andThen (s next : Status) : Status := if s.isOk then next else s

/-- `EXPECT_NOT_EMPTY`. -/
def expectNotEmpty (property value : String) : Status :=
  if value = "" then invalidArgument (property ++ " is empty") else .OK

/-- `EXPECT_BOOL`. -/
def expectBool (property value : String) : Status :=
  if value ≠ "1" ∧ value ≠ "0" then
    invalidArgument (property ++ " has a value(" ++ cStr value ++ ") other than 1 or 0")
  else .OK

/-- `EXPECT_MATCH`. -/
def expectMatch (property value expected : String) : Status :=
  if value ≠ expected then
    invalidArgument
      (property ++ " is not matched : " ++ cStr value ++ " vs " ++ cStr expected ++ ".")
  else .OK

/-- A status that is not OK has a text. -/
def Status.Told (s : Status) : Prop := s.isOk = true ∨ s.errorMessage ≠ ""

theorem not_isOk_invalidArgument (message : String) : (invalidArgument message).isOk = false := rfl

@[simp] theorem Status.andThen_isOk (s next : Status) :
    (s.andThen next).isOk = (s.isOk && next.isOk) := by
  unfold andThen
  cases hs : s.isOk <;> simp [hs]

theorem Status.Told.andThen {s next : Status} (hs : s.Told) (hnext : next.Told) :
    (s.andThen next).Told := by
  unfold Status.andThen
  split_ifs
  · exact hnext
  · exact hs

@[simp] theorem expectNotEmpty_isOk (property value : String) :
    (expectNotEmpty property value).isOk = true ↔ value ≠ "" := by
  unfold expectNotEmpty
  split_ifs with h <;> simp [h, not_isOk_invalidArgument]

@[simp] theorem expectBool_isOk (property value : String) :
    (expectBool property value).isOk = true ↔ value = "1" ∨ value = "0" := by
  unfold expectBool
  split_ifs with h
  · simp [h, not_isOk_invalidArgument]
  · simpa [or_iff_not_imp_left] using h

@[simp] theorem expectMatch_isOk (property value expected : String) :
    (expectMatch property value expected).isOk = true ↔ value = expected := by
  unfold expectMatch
  split_ifs with h
  · simpa [not_isOk_invalidArgument] using h
  · simpa using h

theorem append_ne_empty {a b : String} (h : b ≠ "") : a ++ b ≠ "" := by
  intro happend
  have hlist : a.toList ++ b.toList = [] := by rw [← String.toList_append, happend]; rfl
  exact h (String.toList_inj.mp (List.append_eq_nil_iff.mp hlist).2)

theorem told_expectNotEmpty (property value : String) : (expectNotEmpty property value).Told := by
  unfold expectNotEmpty
  split_ifs
  · exact Or.inr (append_ne_empty (by decide))
  · exact Or.inl rfl

theorem told_expectBool (property value : String) : (expectBool property value).Told := by
  unfold expectBool
  split_ifs
  · exact Or.inr (append_ne_empty (by decide))
  · exact Or.inl rfl

theorem told_expectMatch (property value expected : String) :
    (expectMatch property value expected).Told := by
  unfold expectMatch
  split_ifs
  · exact Or.inr (append_ne_empty (by decide))
  · exact Or.inl rfl

/-! ### Header maps -/

/-- `ros::M_string`. -/
abbrev HeaderMap := FlatMap String String

/-- `ros::Header::getValue`, into a variable that holds a value. -/
def HeaderMap.getValue (map : HeaderMap) (key value : String) : String := (map.find key).getD value

/-- `RosHeader`. -/
structure RosHeader where
  callerid : String := ""
  md5sum : String := ""
  deriving DecidableEq

namespace RosHeader

/-- `RosHeader::WriteToHeaderMap`. -/
def writeToHeaderMap (h : RosHeader) (map : HeaderMap) : HeaderMap :=
  (map.insertOrAssign "callerid" h.callerid).insertOrAssign "md5sum" h.md5sum

/-- `RosHeader::ReadFromRosHeader`. -/
def readFromRosHeader (h : RosHeader) (map : HeaderMap) : RosHeader where
  md5sum := map.getValue "md5sum" h.md5sum
  callerid := map.getValue "callerid" h.callerid

/-- `RosHeader::Validate`. -/
def validate (h expected : RosHeader) : Status :=
  (expectNotEmpty "callerid" h.callerid).andThen <|
  (expectNotEmpty "md5sum" h.md5sum).andThen <|
  if h.md5sum ≠ expected.md5sum ∧ h.md5sum ≠ "*" ∧ expected.md5sum ≠ "*" then
    invalidArgument
      ("md5sum is not matched :" ++ cStr h.md5sum ++ " vs " ++ cStr expected.md5sum ++ ".")
  else .OK

/-- Sums that may go together. -/
def SumsMatch (md5sum expected : String) : Prop :=
  md5sum = expected ∨ md5sum = "*" ∨ expected = "*"

instance (md5sum expected : String) : Decidable (SumsMatch md5sum expected) :=
  inferInstanceAs (Decidable (_ ∨ _))

theorem validate_isOk_iff (h expected : RosHeader) : (h.validate expected).isOk = true ↔
    h.callerid ≠ "" ∧ h.md5sum ≠ "" ∧ SumsMatch h.md5sum expected.md5sum := by
  rw [validate, Status.andThen_isOk, Status.andThen_isOk, Bool.and_eq_true, Bool.and_eq_true,
    expectNotEmpty_isOk, expectNotEmpty_isOk]
  refine and_congr_right fun _ ↦ and_congr_right fun _ ↦ ?_
  split_ifs with hsums
  · simpa [SumsMatch, not_isOk_invalidArgument] using hsums
  · refine iff_of_true rfl ?_
    by_contra hnot
    exact hsums (by simpa [SumsMatch] using hnot)

theorem told_validate (h expected : RosHeader) : (h.validate expected).Told := by
  refine (told_expectNotEmpty _ _).andThen ((told_expectNotEmpty _ _).andThen ?_)
  split_ifs
  · exact Or.inr (append_ne_empty (by decide))
  · exact Or.inl rfl

end RosHeader

/-! ### Topics -/

/-- `RosTopicHeader`. -/
structure RosTopicHeader extends RosHeader where
  topic : String := ""
  type : String := ""
  deriving DecidableEq

namespace RosTopicHeader

/-- `RosTopicHeader::WriteToHeaderMap`. -/
def writeToHeaderMap (h : RosTopicHeader) (map : HeaderMap) : HeaderMap :=
  ((h.toRosHeader.writeToHeaderMap map).insertOrAssign "topic" h.topic).insertOrAssign
    "type" h.type

/-- `RosTopicHeader::ReadFromRosHeader`. -/
def readFromRosHeader (h : RosTopicHeader) (map : HeaderMap) : RosTopicHeader where
  toRosHeader := h.toRosHeader.readFromRosHeader map
  topic := map.getValue "topic" h.topic
  type := map.getValue "type" h.type

/-- `RosTopicHeader::Validate`. -/
def validate (h expected : RosTopicHeader) : Status :=
  (expectNotEmpty "topic" h.topic).andThen <|
  (expectNotEmpty "type" h.type).andThen <|
  (expectMatch "topic" h.topic expected.topic).andThen <|
  (expectMatch "type" h.type expected.type).andThen <|
  h.toRosHeader.validate expected.toRosHeader

theorem validate_isOk_iff (h expected : RosTopicHeader) : (h.validate expected).isOk = true ↔
    h.topic ≠ "" ∧ h.type ≠ "" ∧ h.topic = expected.topic ∧ h.type = expected.type ∧
      (h.toRosHeader.validate expected.toRosHeader).isOk = true := by
  simp only [validate, Status.andThen_isOk, Bool.and_eq_true, expectNotEmpty_isOk,
    expectMatch_isOk]

theorem told_validate (h expected : RosTopicHeader) : (h.validate expected).Told :=
  (told_expectNotEmpty _ _).andThen <| (told_expectNotEmpty _ _).andThen <|
    (told_expectMatch _ _ _).andThen <| (told_expectMatch _ _ _).andThen <|
      RosHeader.told_validate _ _

end RosTopicHeader

/-- `RosTopicRequestHeader`. -/
structure RosTopicRequestHeader extends RosTopicHeader where
  tcpNodelay : String := ""
  deriving DecidableEq

namespace RosTopicRequestHeader

/-- `RosTopicRequestHeader::WriteToHeaderMap`. -/
def writeToHeaderMap (h : RosTopicRequestHeader) (map : HeaderMap) : HeaderMap :=
  (h.toRosTopicHeader.writeToHeaderMap map).insertOrAssign "tcp_nodelay" h.tcpNodelay

/-- `RosTopicRequestHeader::ReadFromRosHeader`. -/
def readFromRosHeader (h : RosTopicRequestHeader) (map : HeaderMap) : RosTopicRequestHeader where
  toRosTopicHeader := h.toRosTopicHeader.readFromRosHeader map
  tcpNodelay := map.getValue "tcp_nodelay" h.tcpNodelay

/-- `RosTopicRequestHeader::Validate`. -/
def validate (h : RosTopicRequestHeader) (expected : RosTopicHeader) : Status :=
  (expectNotEmpty "tcp_nodelay" h.tcpNodelay).andThen <|
  (expectBool "tcp_nodelay" h.tcpNodelay).andThen <|
  h.toRosTopicHeader.validate expected

theorem told_validate (h : RosTopicRequestHeader) (expected : RosTopicHeader) :
    (h.validate expected).Told :=
  (told_expectNotEmpty _ _).andThen <| (told_expectBool _ _).andThen <|
    RosTopicHeader.told_validate _ _

end RosTopicRequestHeader

/-- `RosTopicResponseHeader`. -/
structure RosTopicResponseHeader extends RosTopicHeader where
  error : String := ""
  latching : String := ""
  messageDefinition : String := ""
  deriving DecidableEq

namespace RosTopicResponseHeader

/-- `RosTopicResponseHeader::WriteToHeaderMap`. -/
def writeToHeaderMap (h : RosTopicResponseHeader) (map : HeaderMap) : HeaderMap :=
  let map := h.toRosTopicHeader.writeToHeaderMap map
  if h.error = "" then
    (map.insertOrAssign "message_definition" h.messageDefinition).insertOrAssign
      "latching" h.latching
  else map.insertOrAssign "error" h.error

/-- `RosTopicResponseHeader::ReadFromRosHeader`. -/
def readFromRosHeader (h : RosTopicResponseHeader) (map : HeaderMap) :
    RosTopicResponseHeader where
  toRosTopicHeader := h.toRosTopicHeader.readFromRosHeader map
  error := map.getValue "error" h.error
  messageDefinition := map.getValue "message_definition" h.messageDefinition
  latching := map.getValue "latching" h.latching

/-- `RosTopicResponseHeader::Validate`. -/
def validate (h : RosTopicResponseHeader) (expected : RosTopicHeader) : Status :=
  (expectNotEmpty "latching" h.latching).andThen <|
  (expectNotEmpty "message_definition" h.messageDefinition).andThen <|
  (expectBool "latching" h.latching).andThen <|
  h.toRosTopicHeader.validate expected

end RosTopicResponseHeader

/-! ### Services -/

/-- `RosServiceRequestHeader`. -/
structure RosServiceRequestHeader extends RosHeader where
  persistent : String := ""
  service : String := ""
  deriving DecidableEq

namespace RosServiceRequestHeader

/-- `RosServiceRequestHeader::WriteToHeaderMap`. -/
def writeToHeaderMap (h : RosServiceRequestHeader) (map : HeaderMap) : HeaderMap :=
  ((h.toRosHeader.writeToHeaderMap map).insertOrAssign "persistent" h.persistent).insertOrAssign
    "service" h.service

/-- `RosServiceRequestHeader::ReadFromRosHeader`. -/
def readFromRosHeader (h : RosServiceRequestHeader) (map : HeaderMap) :
    RosServiceRequestHeader where
  toRosHeader := h.toRosHeader.readFromRosHeader map
  persistent := map.getValue "persistent" h.persistent
  service := map.getValue "service" h.service

/-- `RosServiceRequestHeader::Validate`. The service is not compared. -/
def validate (h expected : RosServiceRequestHeader) : Status :=
  (expectNotEmpty "persistent" h.persistent).andThen <|
  (expectNotEmpty "service" h.service).andThen <|
  (expectBool "persistent" h.persistent).andThen <|
  h.toRosHeader.validate expected.toRosHeader

theorem told_validate (h expected : RosServiceRequestHeader) : (h.validate expected).Told :=
  (told_expectNotEmpty _ _).andThen <| (told_expectNotEmpty _ _).andThen <|
    (told_expectBool _ _).andThen <| RosHeader.told_validate _ _

end RosServiceRequestHeader

/-- `RosServiceResponseHeader`. -/
structure RosServiceResponseHeader extends RosHeader where
  error : String := ""
  requestType : String := ""
  responseType : String := ""
  type : String := ""
  deriving DecidableEq

namespace RosServiceResponseHeader

/-- `RosServiceResponseHeader::WriteToHeaderMap`. -/
def writeToHeaderMap (h : RosServiceResponseHeader) (map : HeaderMap) : HeaderMap :=
  let map := h.toRosHeader.writeToHeaderMap map
  if h.error = "" then
    ((map.insertOrAssign "request_type" h.requestType).insertOrAssign
      "response_type" h.responseType).insertOrAssign "type" h.type
  else map.insertOrAssign "error" h.error

/-- `RosServiceResponseHeader::ReadFromRosHeader`. -/
def readFromRosHeader (h : RosServiceResponseHeader) (map : HeaderMap) :
    RosServiceResponseHeader where
  toRosHeader := h.toRosHeader.readFromRosHeader map
  error := map.getValue "error" h.error
  requestType := map.getValue "request_type" h.requestType
  responseType := map.getValue "response_type" h.responseType
  type := map.getValue "type" h.type

/-- `RosServiceResponseHeader::Validate`. -/
def validate (h expected : RosServiceResponseHeader) : Status :=
  (expectNotEmpty "request_type" h.requestType).andThen <|
  (expectNotEmpty "response_type" h.responseType).andThen <|
  (expectNotEmpty "type" h.type).andThen <|
  h.toRosHeader.validate expected.toRosHeader

end RosServiceResponseHeader

end Felicia
