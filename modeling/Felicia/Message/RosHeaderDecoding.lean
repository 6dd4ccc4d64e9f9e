import Felicia.Channel.RosHandshake

/-!
# Reading a ROS header into a header that was used before

`RosHeader::WriteToBuffer` and `RosHeader::ReadFromBuffer` of `felicia/core/message/ros_header.cc`,
for the four kinds of header that are sent. What is written depends on the error text: a response
without one has its other fields and no error, a response with one has the error and no other field
of its own. What is read replaces only the fields that the buffer has.

So a header that is read is the header that was written exactly when the fields that were not
written were empty before (`readFromBuffer_readsBack_iff`): `ReadFromBuffer` clears nothing, where
the messages of the other formats are replaced as a whole. The two requests write all they have,
and their old values never matter.

A `RosHeaderKind` is what the four kinds have in common: the fields under their keys, and that the
encoder and the decoder go by the same keys.
-/

set_option autoImplicit false
set_option relaxedAutoImplicit false

namespace Felicia

open Support

/-! ### Kinds of header -/

/-- A field of a header: its key, and its value. -/
abbrev RosHeaderField (H : Type) := String × (H → String)

/-- The fields that a header has of the one it extends. -/
def inheritedFields {B H : Type} (toBase : H → B) (fields : List (RosHeaderField B)) :
    List (RosHeaderField H) :=
  fields.map fun field ↦ (field.1, field.2 ∘ toBase)

/-- A class of headers with its encoder and its decoder. -/
structure RosHeaderKind (H : Type) where
  writeToHeaderMap : H → HeaderMap → HeaderMap
  readFromRosHeader : H → HeaderMap → H
  fields : List (RosHeaderField H)
  /-- Reading changes each field as `getValue` does under its key. -/
  get_read : ∀ (r : H) (map : HeaderMap), ∀ field ∈ fields,
    field.2 (readFromRosHeader r map) = map.getValue field.1 (field.2 r)
  /-- What is written under the key of a field is its value. -/
  find_write : ∀ h : H, ∀ field ∈ fields, ∀ value : String,
    (writeToHeaderMap h FlatMap.empty).find field.1 = some value → value = field.2 h
  /-- The list has all the fields. -/
  eq_of_fields : ∀ g h : H, (∀ field ∈ fields, field.2 g = field.2 h) → g = h

namespace RosHeaderKind

variable {H : Type} (kind : RosHeaderKind H) (codec : RosHeaderCodec)

/-- The header map that is written for a header. -/
def headerMap (h : H) : HeaderMap := kind.writeToHeaderMap h FlatMap.empty

/-- Whether the encoder writes a field. -/
def Writes (h : H) (field : RosHeaderField H) : Prop :=
  (kind.headerMap h).contains field.1 = true

instance (h : H) (field : RosHeaderField H) : Decidable (kind.Writes h field) :=
  inferInstanceAs (Decidable (_ = _))

/-- `RosHeader::WriteToBuffer`. -/
def writeToBuffer (h : H) : List UInt8 := codec.write (kind.headerMap h)

/-- `RosHeader::ReadFromBuffer`. -/
def readFromBuffer (r : H) (buffer : List UInt8) : H × Status :=
  match codec.parse buffer with
  | .error errorMessage =>
    (r, aborted ("Failed to parse ROS Header: " ++ cStr errorMessage ++ "."))
  | .ok map => (kind.readFromRosHeader r map, .OK)

/-- The header that was written comes back, whatever was held before, and a failure leaves what was
held. -/
structure ReadsBack (h r : H) : Prop where
  fields_eq : ∀ result : H,
    kind.readFromBuffer codec r (kind.writeToBuffer codec h) = (result, .OK) →
      ∀ field ∈ kind.fields, field.2 result = if kind.Writes h field then field.2 h else ""
  unchanged_of_failed : ∀ buffer : List UInt8,
    (kind.readFromBuffer codec r buffer).2.isOk = false →
      (kind.readFromBuffer codec r buffer).1 = r

variable {codec} {h r : H}

/-- `MessageIO<T>::Deserialize` reads with `ReadFromBuffer`, and has its own error. -/
theorem receive_eq_readFromBuffer (buffer : List UInt8) :
    codec.receive kind.readFromRosHeader r buffer =
      ((kind.readFromBuffer codec r buffer).1,
        if (kind.readFromBuffer codec r buffer).2.isOk then .OK
        else aborted MessageIOError.failedToParse.toString) := by
  rw [RosHeaderCodec.receive, readFromBuffer]
  cases codec.parse buffer <;> rfl

theorem eq_of_readFromBuffer_failed {buffer : List UInt8}
    (hfailed : (kind.readFromBuffer codec r buffer).2.isOk = false) :
    (kind.readFromBuffer codec r buffer).1 = r := by
  unfold readFromBuffer at hfailed ⊢
  cases hparse : codec.parse buffer with
  | error errorMessage => rfl
  | ok map =>
    rw [hparse] at hfailed
    cases hfailed

theorem readFromBuffer_writeToBuffer (hround : codec.RoundTrips (kind.headerMap h)) :
    kind.readFromBuffer codec r (kind.writeToBuffer codec h) =
      (kind.readFromRosHeader r (kind.headerMap h), .OK) := by
  rw [readFromBuffer, writeToBuffer, hround]

/-- A field is replaced if it was written, and kept if not. -/
theorem get_readFromRosHeader {field : RosHeaderField H} (hfield : field ∈ kind.fields) :
    field.2 (kind.readFromRosHeader r (kind.headerMap h)) =
      if kind.Writes h field then field.2 h else field.2 r := by
  rw [kind.get_read r _ field hfield, HeaderMap.getValue]
  by_cases hwrites : kind.Writes h field
  · obtain ⟨value, hfind⟩ := Option.isSome_iff_exists.mp hwrites
    rw [if_pos hwrites, hfind]
    exact kind.find_write h field hfield value hfind
  · have hfind : (kind.headerMap h).find field.1 = none :=
      Option.not_isSome_iff_eq_none.mp hwrites
    rw [if_neg hwrites, hfind]
    rfl

/-- Assumes: a map that arrives as it was written. -/
theorem readsBack_iff (hround : codec.RoundTrips (kind.headerMap h)) :
    kind.ReadsBack codec h r ↔
      ∀ field ∈ kind.fields, ¬ kind.Writes h field → field.2 r = "" := by
  constructor
  · intro hreads field hfield hkept
    have hget := hreads.fields_eq _ (kind.readFromBuffer_writeToBuffer hround) field hfield
    rw [kind.get_readFromRosHeader hfield, if_neg hkept, if_neg hkept] at hget
    exact hget
  · intro hempty
    refine ⟨fun result hresult field hfield ↦ ?_, fun buffer ↦ kind.eq_of_readFromBuffer_failed⟩
    rw [kind.readFromBuffer_writeToBuffer hround] at hresult
    rw [← (Prod.mk.inj hresult).1, kind.get_readFromRosHeader hfield]
    by_cases hwrites : kind.Writes h field
    · rw [if_pos hwrites, if_pos hwrites]
    · rw [if_neg hwrites, if_neg hwrites, hempty field hfield hwrites]

/-- Assumes: a map that arrives as it was written. A header whose fields are all written is read as
it is. -/
theorem readFromBuffer_eq_of_writes_all (hround : codec.RoundTrips (kind.headerMap h))
    (hall : ∀ field ∈ kind.fields, kind.Writes h field) :
    kind.readFromBuffer codec r (kind.writeToBuffer codec h) = (h, .OK) := by
  rw [kind.readFromBuffer_writeToBuffer hround]
  refine congrArg (·, Status.OK) (kind.eq_of_fields _ _ fun field hfield ↦ ?_)
  rw [kind.get_readFromRosHeader hfield, if_pos (hall field hfield)]

end RosHeaderKind

/-! ### Topics -/

/-- The fields of a `RosHeader`. -/
def RosHeader.fields : List (RosHeaderField RosHeader) :=
  [("callerid", callerid), ("md5sum", md5sum)]

/-- The fields of a `RosTopicHeader`. -/
def RosTopicHeader.fields : List (RosHeaderField RosTopicHeader) :=
  inheritedFields toRosHeader RosHeader.fields ++ [("topic", topic), ("type", type)]

section

-- Maps whose keys are known are computed.
attribute [local simp] HeaderMap.getValue FlatMap.find_insertOrAssign FlatMap.contains
  RosHeader.writeToHeaderMap RosHeader.readFromRosHeader RosTopicHeader.writeToHeaderMap
  RosTopicHeader.readFromRosHeader RosHeader.fields RosTopicHeader.fields inheritedFields

namespace RosTopicRequestHeader

/-- The fields of a `RosTopicRequestHeader`. -/
def fields : List (RosHeaderField RosTopicRequestHeader) :=
  inheritedFields toRosTopicHeader RosTopicHeader.fields ++ [("tcp_nodelay", tcpNodelay)]

theorem get_read (r : RosTopicRequestHeader) (map : HeaderMap) : ∀ field ∈ fields,
    field.2 (r.readFromRosHeader map) = map.getValue field.1 (field.2 r) := by
  simp [fields, readFromRosHeader]

theorem find_write (h : RosTopicRequestHeader) : ∀ field ∈ fields, ∀ value : String,
    (h.writeToHeaderMap FlatMap.empty).find field.1 = some value → value = field.2 h := by
  simp [fields, writeToHeaderMap]

theorem eq_of_fields (g h : RosTopicRequestHeader)
    (hfields : ∀ field ∈ fields, field.2 g = field.2 h) : g = h := by
  obtain ⟨⟨⟨_, _⟩, _, _⟩, _⟩ := g
  obtain ⟨⟨⟨_, _⟩, _, _⟩, _⟩ := h
  simpa [fields, and_assoc] using hfields

/-- A `RosTopicRequestHeader` as a kind of header. -/
def kind : RosHeaderKind RosTopicRequestHeader where
  writeToHeaderMap := writeToHeaderMap
  readFromRosHeader := readFromRosHeader
  fields := fields
  get_read := get_read
  find_write := find_write
  eq_of_fields := eq_of_fields

theorem writes_all (h : RosTopicRequestHeader) : ∀ field ∈ kind.fields, kind.Writes h field := by
  simp [kind, fields, RosHeaderKind.Writes, RosHeaderKind.headerMap, writeToHeaderMap]

end RosTopicRequestHeader

namespace RosTopicResponseHeader

/-- The fields of a `RosTopicResponseHeader`. -/
def fields : List (RosHeaderField RosTopicResponseHeader) :=
  inheritedFields toRosTopicHeader RosTopicHeader.fields ++
    [("error", error), ("latching", latching), ("message_definition", messageDefinition)]

theorem get_read (r : RosTopicResponseHeader) (map : HeaderMap) : ∀ field ∈ fields,
    field.2 (r.readFromRosHeader map) = map.getValue field.1 (field.2 r) := by
  simp [fields, readFromRosHeader]

theorem find_write (h : RosTopicResponseHeader) : ∀ field ∈ fields, ∀ value : String,
    (h.writeToHeaderMap FlatMap.empty).find field.1 = some value → value = field.2 h := by
  by_cases herror : h.error = "" <;> simp [fields, writeToHeaderMap, herror]

theorem eq_of_fields (g h : RosTopicResponseHeader)
    (hfields : ∀ field ∈ fields, field.2 g = field.2 h) : g = h := by
  obtain ⟨⟨⟨_, _⟩, _, _⟩, _, _, _⟩ := g
  obtain ⟨⟨⟨_, _⟩, _, _⟩, _, _, _⟩ := h
  simpa [fields, and_assoc] using hfields

/-- A `RosTopicResponseHeader` as a kind of header. -/
def kind : RosHeaderKind RosTopicResponseHeader where
  writeToHeaderMap := writeToHeaderMap
  readFromRosHeader := readFromRosHeader
  fields := fields
  get_read := get_read
  find_write := find_write
  eq_of_fields := eq_of_fields

/-- The fields that a response does not write are its error, or all its own others. -/
theorem unwritten_empty_iff (h r : RosTopicResponseHeader) :
    (∀ field ∈ kind.fields, ¬ kind.Writes h field → field.2 r = "") ↔
      (h.error = "" → r.error = "") ∧
      (h.error ≠ "" → r.latching = "" ∧ r.messageDefinition = "") := by
  by_cases herror : h.error = "" <;>
    simp [kind, fields, RosHeaderKind.Writes, RosHeaderKind.headerMap, writeToHeaderMap, herror]

end RosTopicResponseHeader

/-! ### Services -/

namespace RosServiceRequestHeader

/-- The fields of a `RosServiceRequestHeader`. -/
def fields : List (RosHeaderField RosServiceRequestHeader) :=
  inheritedFields toRosHeader RosHeader.fields ++ [("persistent", persistent), ("service", service)]

theorem get_read (r : RosServiceRequestHeader) (map : HeaderMap) : ∀ field ∈ fields,
    field.2 (r.readFromRosHeader map) = map.getValue field.1 (field.2 r) := by
  simp [fields, readFromRosHeader]

theorem find_write (h : RosServiceRequestHeader) : ∀ field ∈ fields, ∀ value : String,
    (h.writeToHeaderMap FlatMap.empty).find field.1 = some value → value = field.2 h := by
  simp [fields, writeToHeaderMap]

theorem eq_of_fields (g h : RosServiceRequestHeader)
    (hfields : ∀ field ∈ fields, field.2 g = field.2 h) : g = h := by
  obtain ⟨⟨_, _⟩, _, _⟩ := g
  obtain ⟨⟨_, _⟩, _, _⟩ := h
  simpa [fields, and_assoc] using hfields

/-- A `RosServiceRequestHeader` as a kind of header. -/
def kind : RosHeaderKind RosServiceRequestHeader where
  writeToHeaderMap := writeToHeaderMap
  readFromRosHeader := readFromRosHeader
  fields := fields
  get_read := get_read
  find_write := find_write
  eq_of_fields := eq_of_fields

theorem writes_all (h : RosServiceRequestHeader) :
    ∀ field ∈ kind.fields, kind.Writes h field := by
  simp [kind, fields, RosHeaderKind.Writes, RosHeaderKind.headerMap, writeToHeaderMap]

end RosServiceRequestHeader

namespace RosServiceResponseHeader

/-- The fields of a `RosServiceResponseHeader`. -/
def fields : List (RosHeaderField RosServiceResponseHeader) :=
  inheritedFields toRosHeader RosHeader.fields ++
    [("error", error), ("request_type", requestType), ("response_type", responseType),
      ("type", type)]

theorem get_read (r : RosServiceResponseHeader) (map : HeaderMap) : ∀ field ∈ fields,
    field.2 (r.readFromRosHeader map) = map.getValue field.1 (field.2 r) := by
  simp [fields, readFromRosHeader]

theorem find_write (h : RosServiceResponseHeader) : ∀ field ∈ fields, ∀ value : String,
    (h.writeToHeaderMap FlatMap.empty).find field.1 = some value → value = field.2 h := by
  by_cases herror : h.error = "" <;> simp [fields, writeToHeaderMap, herror]

theorem eq_of_fields (g h : RosServiceResponseHeader)
    (hfields : ∀ field ∈ fields, field.2 g = field.2 h) : g = h := by
  obtain ⟨⟨_, _⟩, _, _, _, _⟩ := g
  obtain ⟨⟨_, _⟩, _, _, _, _⟩ := h
  simpa [fields, and_assoc] using hfields

/-- A `RosServiceResponseHeader` as a kind of header. -/
def kind : RosHeaderKind RosServiceResponseHeader where
  writeToHeaderMap := writeToHeaderMap
  readFromRosHeader := readFromRosHeader
  fields := fields
  get_read := get_read
  find_write := find_write
  eq_of_fields := eq_of_fields

/-- The fields that a response does not write are its error, or all its own others. -/
theorem unwritten_empty_iff (h r : RosServiceResponseHeader) :
    (∀ field ∈ kind.fields, ¬ kind.Writes h field → field.2 r = "") ↔
      (h.error = "" → r.error = "") ∧
      (h.error ≠ "" → r.requestType = "" ∧ r.responseType = "" ∧ r.type = "") := by
  by_cases herror : h.error = "" <;>
    simp [kind, fields, RosHeaderKind.Writes, RosHeaderKind.headerMap, writeToHeaderMap, herror]

end RosServiceResponseHeader

end

/-! ### All kinds -/

/-- Assumes: maps that arrive as they were written. A request that is read comes back whatever was
held before. A response comes back exactly when the fields that it does not write were empty. -/
theorem readFromBuffer_readsBack_iff (codec : RosHeaderCodec) :
    (∀ h r : RosTopicRequestHeader,
      codec.RoundTrips (RosTopicRequestHeader.kind.headerMap h) →
      RosTopicRequestHeader.kind.ReadsBack codec h r) ∧
    (∀ h r : RosTopicResponseHeader,
      codec.RoundTrips (RosTopicResponseHeader.kind.headerMap h) →
      (RosTopicResponseHeader.kind.ReadsBack codec h r ↔
        (h.error = "" → r.error = "") ∧
        (h.error ≠ "" → r.latching = "" ∧ r.messageDefinition = ""))) ∧
    (∀ h r : RosServiceRequestHeader,
      codec.RoundTrips (RosServiceRequestHeader.kind.headerMap h) →
      RosServiceRequestHeader.kind.ReadsBack codec h r) ∧
    ∀ h r : RosServiceResponseHeader,
      codec.RoundTrips (RosServiceResponseHeader.kind.headerMap h) →
      (RosServiceResponseHeader.kind.ReadsBack codec h r ↔
        (h.error = "" → r.error = "") ∧
        (h.error ≠ "" → r.requestType = "" ∧ r.responseType = "" ∧ r.type = "")) := by
  refine ⟨fun h r hround ↦ ?_, fun h r hround ↦ ?_, fun h r hround ↦ ?_, fun h r hround ↦ ?_⟩
  · refine (RosHeaderKind.readsBack_iff _ hround).mpr fun field hfield hkept ↦ ?_
    exact absurd (RosTopicRequestHeader.writes_all h field hfield) hkept
  · exact (RosHeaderKind.readsBack_iff _ hround).trans
      (RosTopicResponseHeader.unwritten_empty_iff h r)
  · refine (RosHeaderKind.readsBack_iff _ hround).mpr fun field hfield hkept ↦ ?_
    exact absurd (RosServiceRequestHeader.writes_all h field hfield) hkept
  · exact (RosHeaderKind.readsBack_iff _ hround).trans
      (RosServiceResponseHeader.unwritten_empty_iff h r)

namespace Scenario

/-- What a publisher sends to a subscriber that it refuses. -/
def refusal : RosTopicResponseHeader where
  topic := "/a"
  error := "md5sum is not matched"

/-- What it sends to one that it accepts. -/
def acceptance : RosTopicResponseHeader where
  topic := "/a"
  messageDefinition := "string data"
  latching := "0"

/-- What a service sends to a client that it refuses. -/
def serviceRefusal : RosServiceResponseHeader where
  error := "md5sum is not matched"

/-- What it sends to one that it accepts. -/
def serviceAcceptance : RosServiceResponseHeader where
  requestType := "AddRequest"
  responseType := "AddResponse"
  type := "Add"

end Scenario

/-- The headers of a new connection are read into headers that are new, or that were refused before
and are refused again. -/
theorem readFromBuffer_readsBack_of_refused :
    RosTopicRequestHeader.kind.ReadsBack Scenario.rosFormat Scenario.listener.header
        { tcpNodelay := "0" } ∧
      RosTopicResponseHeader.kind.ReadsBack Scenario.rosFormat Scenario.refusal
        Scenario.refusal ∧
      RosServiceRequestHeader.kind.ReadsBack Scenario.rosFormat Scenario.addCaller.header
        { persistent := "1" } ∧
      RosServiceResponseHeader.kind.ReadsBack Scenario.rosFormat Scenario.serviceAcceptance {} := by
  obtain ⟨htopic, hreply, hservice, hanswer⟩ := readFromBuffer_readsBack_iff Scenario.rosFormat
  refine ⟨htopic _ _ (by decide +kernel), (hreply _ _ (by decide +kernel)).mpr (by decide),
    hservice _ _ (by decide +kernel), (hanswer _ _ (by decide +kernel)).mpr (by decide)⟩

/-- The error text of a refusal survives an acceptance, on topics and on services; and what an
acceptance told survives a refusal. -/
theorem readFromBuffer_keeps_error :
    (RosTopicResponseHeader.kind.readFromBuffer Scenario.rosFormat Scenario.refusal
        (RosTopicResponseHeader.kind.writeToBuffer Scenario.rosFormat Scenario.acceptance)) =
      ({ Scenario.acceptance with error := "md5sum is not matched" }, .OK) ∧
    (RosServiceResponseHeader.kind.readFromBuffer Scenario.rosFormat Scenario.serviceAcceptance
        (RosServiceResponseHeader.kind.writeToBuffer Scenario.rosFormat
          Scenario.serviceRefusal)) =
      ({ Scenario.serviceAcceptance with error := "md5sum is not matched" }, .OK) ∧
    ¬ (∀ h r : RosTopicResponseHeader,
      Scenario.rosFormat.RoundTrips (RosTopicResponseHeader.kind.headerMap h) →
      RosTopicResponseHeader.kind.ReadsBack Scenario.rosFormat h r) ∧
    ¬ ∀ h r : RosServiceResponseHeader,
      Scenario.rosFormat.RoundTrips (RosServiceResponseHeader.kind.headerMap h) →
      RosServiceResponseHeader.kind.ReadsBack Scenario.rosFormat h r := by
  have htopic : Scenario.rosFormat.RoundTrips
      (RosTopicResponseHeader.kind.headerMap Scenario.acceptance) := by decide +kernel
  have hservice : Scenario.rosFormat.RoundTrips
      (RosServiceResponseHeader.kind.headerMap Scenario.serviceRefusal) := by decide +kernel
  refine ⟨by decide +kernel, by decide +kernel, fun hall ↦ ?_, fun hall ↦ ?_⟩
  · have hreads := hall Scenario.acceptance Scenario.refusal htopic
    rw [RosHeaderKind.readsBack_iff _ htopic, RosTopicResponseHeader.unwritten_empty_iff] at hreads
    exact absurd (hreads.1 rfl) (by decide)
  · have hreads := hall Scenario.serviceRefusal Scenario.serviceAcceptance hservice
    rw [RosHeaderKind.readsBack_iff _ hservice,
      RosServiceResponseHeader.unwritten_empty_iff] at hreads
    exact absurd (hreads.2 (by decide)).1 (by decide)

end Felicia
