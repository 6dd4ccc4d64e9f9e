import Felicia.Support.Fuelled

/-!
# Printing a message

`ProtobufMessageToString` of `felicia/core/message/protobuf_util.cc`. It goes over the fields of a
message by reflection, a branch for each type of field, and calls itself for the messages in it.
Reflection ends the process when an accessor is called for a field of another type or cardinality.

Two things go wrong. The branch for repeated fields of truth values gets each element with the
accessor for a single value. And a single message is printed whether it is set or not: what is read
of an unset one is an empty message of its type, in which the messages are unset again, so that a
type that contains itself is printed without end.

`faithful_iff_printable` says that these are the only ways: the messages without such fields are
printed to the end, each repeated field with all its elements.

How deep the recursion goes is bounded in `messageToString`; what it comes to does not depend on the
bound. Reflection is a third-party library, modelled here by what it is documented to do, and how a
floating-point number is written is a parameter.
-/

set_option autoImplicit false
set_option relaxedAutoImplicit false

namespace Felicia.ProtobufUtil

open Support

/-! ### Messages -/

/-- `FieldDescriptor::Type`, over the types of messages. -/
inductive FieldType (T : Type)
  | double | float | int64 | uint64 | int32 | fixed64 | fixed32 | bool | string
  | group (type : T)
  | message (type : T)
  | bytes | uint32 | enum | sfixed32 | sfixed64 | sint32 | sint64
  deriving DecidableEq

/-- `FieldDescriptor::CppType`. -/
inductive CppType
  | int32 | int64 | uint32 | uint64 | double | float | bool | enum | string | message
  deriving DecidableEq

/-- `FieldDescriptor::cpp_type`. -/
def FieldType.cppType {T : Type} : FieldType T → CppType
  | .double => .double
  | .float => .float
  | .int64 | .sfixed64 | .sint64 => .int64
  | .uint64 | .fixed64 => .uint64
  | .int32 | .sfixed32 | .sint32 => .int32
  | .uint32 | .fixed32 => .uint32
  | .bool => .bool
  | .string | .bytes => .string
  | .group _ | .message _ => .message
  | .enum => .enum

/-- A value that is not a message. The characters of a string are its bytes. -/
inductive Scalar (D : Type)
  | number (value : ℤ)
  | floating (value : D)
  | bool (value : Bool)
  | string (value : String)
  /-- A value of an enumeration, by its name. -/
  | enum (name : String)
  deriving DecidableEq

/-- A value in a message. A message has for each of its fields the values that are set. -/
inductive Value (D : Type)
  | scalar (value : Scalar D)
  | message (contents : List (List (Value D)))

/-- `google::protobuf::Message`. -/
abbrev Message (D : Type) := List (List (Value D))

/-- What an unset field is read as, if it is a message. -/
def unset {D : Type} : Value D := .message []

def Value.toMessage {D : Type} : Value D → Message D
  | .scalar _ => []
  | .message contents => contents

def Value.toScalar {D : Type} (defaultValue : Scalar D) : Value D → Scalar D
  | .scalar value => value
  | .message _ => defaultValue

/-- `FieldDescriptor`. -/
structure FieldDescriptor (T D : Type) where
  name : String
  type : FieldType T
  isRepeated : Bool
  /-- What the field is read as if it is not set. -/
  defaultValue : Scalar D

/-- A field of a message. -/
structure MessageField (T D : Type) where
  descriptor : FieldDescriptor T D
  values : List (Value D)

/-- The fields of a message by the descriptor of its type. -/
def contents {T D : Type} (descriptor : T → List (FieldDescriptor T D)) (type : T)
    (message : Message D) : List (MessageField T D) :=
  (descriptor type).mapIdx fun i field ↦ ⟨field, message[i]?.getD []⟩

/-! ### Reflection -/

/-- Why nothing is printed. -/
inductive PrintError
  /-- The process is ended by a check of `Reflection`. -/
  | fatal
  /-- The recursion is deeper than its bound. -/
  | unfinished
  deriving DecidableEq

namespace MessageField

variable {T D : Type} (f : MessageField T D)

/-- The check that the accessors make. -/
def checkUsage (isRepeated : Bool) (cppTypes : List CppType) : Except PrintError Unit :=
  if f.descriptor.isRepeated = isRepeated ∧ f.descriptor.type.cppType ∈ cppTypes then .ok ()
  else .error .fatal

/-- `Reflection::GetRepeatedFieldRef<T>`. A reference to numbers is also one to the values of an
enumeration. -/
def getRepeatedFieldRef (refType : CppType) : Except PrintError (List (Value D)) := do
  f.checkUsage true (if refType = .int32 then [.int32, .enum] else [refType])
  return f.values

/-- `Reflection::GetDouble` and its like, for the type of value that they return. -/
def get (cppType : CppType) : Except PrintError (Scalar D) := do
  f.checkUsage false [cppType]
  return (f.values.head?.getD unset).toScalar f.descriptor.defaultValue

/-- `Reflection::GetMessage`. -/
def getMessage : Except PrintError (Message D) := do
  f.checkUsage false [.message]
  return (f.values.head?.getD unset).toMessage

/-- `Reflection::GetRepeatedEnum`. -/
def getRepeatedEnum (i : ℕ) : Except PrintError (Scalar D) := do
  f.checkUsage true [.enum]
  return (f.values[i]?.getD unset).toScalar f.descriptor.defaultValue

end MessageField

/-! ### Printing -/

/-- `BoolToString`. -/
def boolToString (b : Bool) : String := if b then "true" else "false"

/-- `TextStyle::Blue`. -/
def blue (text : String) : String := "\x1b[34m" ++ text ++ "\x1b[0m"

/-- `kMaximumContentLength`. -/
def maximumContentLength : ℕ := 100

/-- What is pushed for a field of bytes. -/
def bytesToString (data : String) : String :=
  if maximumContentLength < data.length then "[BYTES(" ++ toString data.length ++ ")]" else data

/-- As many times two spaces as the depth. -/
def indent (depth : ℕ) : List String := List.replicate depth "  "

section

variable {T D : Type} (numberToString : D → String)

/-- `base::NumberToString` of a number, and other values as they are. -/
def Scalar.text : Scalar D → String
  | .number value => toString value
  | .floating value => numberToString value
  | .bool value => boolToString value
  | .string value => value
  | .enum name => name

/-- The loop over the elements of a repeated field. -/
def printRepeated (size : ℕ) (element : ℕ → Except PrintError (List String)) :
    Except PrintError (List String) := do
  let elements ← (List.range size).mapM element
  return ["[ "] ++ (elements.mapIdx fun i entities ↦
    if i ≠ elements.length - 1 then entities ++ [", "] else entities).flatten ++ [" ]"]

namespace MessageField

variable (f : MessageField T D)

/-- The branches whose two accessors go by one type of value. -/
def printScalar (cppType : CppType) (text : Scalar D → String) :
    Except PrintError (List String) :=
  if f.descriptor.isRepeated then do
    let values ← f.getRepeatedFieldRef cppType
    printRepeated values.length fun i ↦
      .ok [text ((values[i]?.getD unset).toScalar f.descriptor.defaultValue)]
  else do
    let value ← f.get cppType
    return [text value]

/-- The branch of `TYPE_BOOL`, whose loop does not use the reference to the elements. -/
def printBool : Except PrintError (List String) :=
  if f.descriptor.isRepeated then do
    let values ← f.getRepeatedFieldRef .bool
    printRepeated values.length fun _ ↦ do
      let value ← f.get .bool
      return [value.text numberToString]
  else do
    let value ← f.get .bool
    return [value.text numberToString]

/-- The branch of `TYPE_ENUM`. -/
def printEnum : Except PrintError (List String) :=
  if f.descriptor.isRepeated then do
    let values ← f.getRepeatedFieldRef .int32
    printRepeated values.length fun i ↦ do
      let value ← f.getRepeatedEnum i
      return [value.text numberToString]
  else do
    let value ← f.get .enum
    return [value.text numberToString]

/-- What is pushed for a message that was printed. -/
def braced (depth : ℕ) (str : String) : List String :=
  ["\x7b\n" ++ str] ++ indent depth ++ ["\x7d"]

/-- The branch of `TYPE_MESSAGE`. -/
def printMessage (nested : Message D → ℕ → Except PrintError String) (depth : ℕ) :
    Except PrintError (List String) :=
  if f.descriptor.isRepeated then do
    let values ← f.getRepeatedFieldRef .message
    printRepeated values.length fun i ↦ do
      let str ← nested (values[i]?.getD unset).toMessage (depth + 1)
      return braced depth str
  else do
    let message ← f.getMessage
    let str ← nested message (depth + 1)
    return braced depth str

/-- `ProtobufMessageToString` of a field. A group is not supported. -/
def toEntities (nested : T → Message D → ℕ → Except PrintError String) (depth : ℕ) :
    Except PrintError (List String) :=
  match f.descriptor.type with
  | .double => f.printScalar .double (Scalar.text numberToString)
  | .float => f.printScalar .float (Scalar.text numberToString)
  | .int64 | .sfixed64 | .sint64 => f.printScalar .int64 (Scalar.text numberToString)
  | .uint64 | .fixed64 => f.printScalar .uint64 (Scalar.text numberToString)
  | .int32 | .sfixed32 | .sint32 => f.printScalar .int32 (Scalar.text numberToString)
  | .fixed32 | .uint32 => f.printScalar .uint32 (Scalar.text numberToString)
  | .bool => f.printBool numberToString
  | .string => f.printScalar .string (Scalar.text numberToString)
  | .message type => f.printMessage (nested type) depth
  | .bytes => f.printScalar .string fun value ↦ bytesToString (value.text numberToString)
  | .enum => f.printEnum numberToString
  | .group _ => .ok []

/-- One round of the loop over the fields. -/
def toLine (nested : T → Message D → ℕ → Except PrintError String) (depth : ℕ) :
    Except PrintError (List String) := do
  let entities ← f.toEntities numberToString nested depth
  return indent depth ++ [blue (f.descriptor.name ++ ": ")] ++ entities ++ ["\n"]

end MessageField

/-- `ProtobufMessageToString` of a message, to a depth of recursion. -/
def messageToString (descriptor : T → List (FieldDescriptor T D)) :
    ℕ → T → Message D → ℕ → Except PrintError String
  | 0, _, _, _ => .error .unfinished
  | fuel + 1, type, message, depth => do
    let lines ← (contents descriptor type message).mapM fun f ↦
      f.toLine numberToString (messageToString descriptor fuel) depth
    return String.join lines.flatten

/-! ### What is to be printed -/

/-- How a single value is rendered; `nested` tells how a message is printed at a depth. -/
def ShownValue (nested : T → Message D → ℕ → String → Prop) (depth : ℕ)
    (field : FieldDescriptor T D) (value : Value D) (text : String) : Prop :=
  match field.type with
  | .message type => ∃ str, nested type value.toMessage (depth + 1) str ∧
      text = String.join (MessageField.braced depth str)
  | .bytes => text = bytesToString ((value.toScalar field.defaultValue).text numberToString)
  | _ => text = (value.toScalar field.defaultValue).text numberToString

namespace MessageField

/-- How the values of a field are rendered: those of a repeated one all and in order, and of a
single one its value, or what it is read as if it is not set. -/
def ShownValues (nested : T → Message D → ℕ → String → Prop) (depth : ℕ) (f : MessageField T D)
    (text : String) : Prop :=
  if f.descriptor.isRepeated then ∃ texts,
    List.Forall₂ (ShownValue numberToString nested depth f.descriptor) f.values texts ∧
      text = "[ " ++ ", ".intercalate texts ++ " ]"
  else ShownValue numberToString nested depth f.descriptor (f.values.head?.getD unset) text

/-- How a field is rendered. -/
def Shown (nested : T → Message D → ℕ → String → Prop) (depth : ℕ) (f : MessageField T D)
    (text : String) : Prop :=
  match f.descriptor.type with
  | .group _ => text = ""
  | _ => f.ShownValues numberToString nested depth text

/-- The line of a field. -/
def LineShown (nested : T → Message D → ℕ → String → Prop) (depth : ℕ) (f : MessageField T D)
    (line : String) : Prop :=
  ∃ text, f.Shown numberToString nested depth text ∧
    line = String.join (indent depth) ++ blue (f.descriptor.name ++ ": ") ++ text ++ "\n"

/-- A repeated field of truth values has no elements. -/
def NoTruthValues (f : MessageField T D) : Prop :=
  f.descriptor.type = .bool → f.descriptor.isRepeated = true → f.values = []

end MessageField

/-- How a message is rendered: the lines of its fields. -/
def MessageShown (descriptor : T → List (FieldDescriptor T D))
    (nested : T → Message D → ℕ → String → Prop) (type : T) (message : Message D) (depth : ℕ)
    (text : String) : Prop :=
  ∃ lines, List.Forall₂ (MessageField.LineShown numberToString nested depth)
    (contents descriptor type message) lines ∧ text = String.join lines

/-! ### Fields -/

section Fields

variable {numberToString} {nested : T → Message D → ℕ → Except PrintError String} {depth : ℕ}
  {f : MessageField T D} {text : String}

/-- What a computation pushes, as one text. -/
def Pushes (result : Except PrintError (List String)) (text : String) : Prop :=
  ∃ entities, result = .ok entities ∧ String.join entities = text

theorem pushes_ok_iff {entities : List String} :
    Pushes (.ok entities) text ↔ text = String.join entities := by
  constructor
  · rintro ⟨_, ⟨⟩, rfl⟩
    rfl
  · rintro rfl
    exact ⟨entities, rfl, rfl⟩

theorem not_pushes_error (e : PrintError) : ¬ Pushes (.error e) text := by
  rintro ⟨entities, h, -⟩
  cases h

theorem pushes_bind_iff {α : Type} {x : Except PrintError α}
    {next : α → Except PrintError (List String)} :
    Pushes (x >>= next) text ↔ ∃ a, x = .ok a ∧ Pushes (next a) text := by
  cases x with
  | error e =>
    refine iff_of_false (not_pushes_error e) ?_
    rintro ⟨a, h, -⟩
    cases h
  | ok a =>
    constructor
    · exact fun h ↦ ⟨a, rfl, h⟩
    · rintro ⟨_, ⟨⟩, h⟩
      exact h

/-- Assumes: what each element pushes. The loop writes them with commas, in brackets. -/
theorem pushes_printRepeated_iff {values : List (Value D)}
    {element : ℕ → Except PrintError (List String)} {R : Value D → String → Prop}
    (h : ∀ i value, values[i]? = some value → ∀ text, Pushes (element i) text ↔ R value text) :
    Pushes (printRepeated values.length element) text ↔
      ∃ texts, List.Forall₂ R values texts ∧ text = "[ " ++ ", ".intercalate texts ++ " ]" := by
  have hjoin : ∀ elements : List (List String), String.join (["[ "] ++
      (elements.mapIdx fun i entities ↦
        if i ≠ elements.length - 1 then entities ++ [", "] else entities).flatten ++ [" ]"]) =
      "[ " ++ ", ".intercalate (elements.map String.join) ++ " ]" := by
    intro elements
    rw [String.join_append, String.join_append, join_flatten_mapIdx]
    simp
  rw [printRepeated, pushes_bind_iff]
  constructor
  · rintro ⟨elements, helements, hpushes⟩
    refine ⟨elements.map String.join, ?_, ?_⟩
    · rw [← forall₂_range_iff h]
      exact forall₂_map_iff.mp ⟨elements, mapM_eq_ok_iff.mp helements, rfl⟩
    · rw [← hjoin]
      exact pushes_ok_iff.mp hpushes
  · rintro ⟨texts, htexts, rfl⟩
    rw [← forall₂_range_iff h] at htexts
    obtain ⟨elements, helements, rfl⟩ := forall₂_map_iff.mpr htexts
    exact ⟨elements, mapM_eq_ok_iff.mpr helements, pushes_ok_iff.mpr (hjoin elements).symm⟩

theorem getRepeatedFieldRef_eq (hrepeated : f.descriptor.isRepeated = true) {refType : CppType}
    (htype : f.descriptor.type.cppType = refType ∨
      refType = .int32 ∧ f.descriptor.type.cppType = .enum) :
    f.getRepeatedFieldRef refType = .ok f.values := by
  have hmem : f.descriptor.type.cppType ∈
      (if refType = .int32 then [CppType.int32, CppType.enum] else [refType]) := by
    rcases htype with rfl | ⟨rfl, henum⟩
    · split_ifs with h <;> simp [h]
    · simp [henum]
  rw [MessageField.getRepeatedFieldRef, MessageField.checkUsage, if_pos ⟨hrepeated, hmem⟩]
  rfl

theorem get_eq (hsingle : f.descriptor.isRepeated = false) {cppType : CppType}
    (htype : f.descriptor.type.cppType = cppType) :
    f.get cppType = .ok ((f.values.head?.getD unset).toScalar f.descriptor.defaultValue) := by
  rw [MessageField.get, MessageField.checkUsage, if_pos ⟨hsingle, by rw [htype]; simp⟩]
  rfl

/-- Assumes: a type of field that is rendered value by value, and an accessor for it. -/
theorem pushes_printScalar_iff {cppType : CppType} (htype : f.descriptor.type.cppType = cppType)
    {render : Scalar D → String} {shown : T → Message D → ℕ → String → Prop}
    (hrender : ∀ value text, ShownValue numberToString shown depth f.descriptor value text ↔
      text = render (value.toScalar f.descriptor.defaultValue)) :
    Pushes (f.printScalar cppType render) text ↔
      f.ShownValues numberToString shown depth text := by
  rw [MessageField.printScalar, MessageField.ShownValues]
  by_cases hrepeated : f.descriptor.isRepeated = true
  · rw [if_pos hrepeated, if_pos hrepeated, getRepeatedFieldRef_eq hrepeated (Or.inl htype)]
    refine pushes_printRepeated_iff fun i value hvalue text ↦ ?_
    rw [pushes_ok_iff, hvalue, hrender, String.join_cons, String.join_nil, String.append_empty]
    rfl
  · have hsingle := Bool.not_eq_true _ ▸ hrepeated
    rw [if_neg hrepeated, if_neg hrepeated, get_eq hsingle htype, hrender]
    exact pushes_ok_iff.trans (by simp)

/-- Assumes: a field of truth values. It is printed if it is not repeated, or has no elements. -/
theorem pushes_printBool_iff (htype : f.descriptor.type = .bool)
    {shown : T → Message D → ℕ → String → Prop} :
    Pushes (f.printBool numberToString) text ↔
      f.ShownValues numberToString shown depth text ∧ f.NoTruthValues := by
  have hcpp : f.descriptor.type.cppType = .bool := by
    rw [htype]
    rfl
  rw [MessageField.printBool, MessageField.ShownValues]
  by_cases hrepeated : f.descriptor.isRepeated = true
  · rw [if_pos hrepeated, if_pos hrepeated, getRepeatedFieldRef_eq hrepeated (Or.inl hcpp)]
    have hfatal : f.get .bool = .error .fatal := by
      rw [MessageField.get, MessageField.checkUsage, if_neg (by simp [hrepeated])]
      rfl
    change Pushes (printRepeated f.values.length _) text ↔ _
    rw [pushes_printRepeated_iff (R := fun _ _ ↦ False)]
    · constructor
      · rintro ⟨texts, htexts, rfl⟩
        cases hvalues : f.values with
        | nil =>
          rw [hvalues, List.forall₂_nil_left_iff] at htexts
          exact ⟨⟨texts, htexts ▸ List.Forall₂.nil, rfl⟩, fun _ _ ↦ hvalues⟩
        | cons value values =>
          rw [hvalues, List.forall₂_cons_left_iff] at htexts
          obtain ⟨_, _, hfalse, -⟩ := htexts
          exact hfalse.elim
      · rintro ⟨⟨texts, htexts, rfl⟩, hempty⟩
        rw [hempty htype hrepeated, List.forall₂_nil_left_iff] at htexts
        exact ⟨texts, by rw [hempty htype hrepeated, htexts]; exact List.Forall₂.nil, rfl⟩
    · intro i value hvalue text
      rw [hfatal]
      exact iff_of_false (not_pushes_error _) id
  · have hsingle := Bool.not_eq_true _ ▸ hrepeated
    have hnone : f.NoTruthValues := fun _ hrep ↦ absurd hrep hrepeated
    rw [if_neg hrepeated, if_neg hrepeated, get_eq hsingle hcpp, and_iff_left hnone, ShownValue,
      htype]
    exact pushes_ok_iff.trans (by simp)

/-- Assumes: a field of values of an enumeration. -/
theorem pushes_printEnum_iff (htype : f.descriptor.type = .enum)
    {shown : T → Message D → ℕ → String → Prop} :
    Pushes (f.printEnum numberToString) text ↔ f.ShownValues numberToString shown depth text := by
  have hcpp : f.descriptor.type.cppType = .enum := by
    rw [htype]
    rfl
  have hrender : ∀ value text, ShownValue numberToString shown depth f.descriptor value text ↔
      text = (value.toScalar f.descriptor.defaultValue).text numberToString := by
    intro value text
    rw [ShownValue, htype]
  rw [MessageField.printEnum, MessageField.ShownValues]
  by_cases hrepeated : f.descriptor.isRepeated = true
  · rw [if_pos hrepeated, if_pos hrepeated, getRepeatedFieldRef_eq hrepeated (Or.inr ⟨rfl, hcpp⟩)]
    refine pushes_printRepeated_iff fun i value hvalue text ↦ ?_
    have hget : f.getRepeatedEnum i = .ok (value.toScalar f.descriptor.defaultValue) := by
      rw [MessageField.getRepeatedEnum, MessageField.checkUsage,
        if_pos ⟨hrepeated, by rw [hcpp]; simp⟩, hvalue]
      rfl
    rw [hget, hrender]
    exact pushes_ok_iff.trans (by simp)
  · have hsingle := Bool.not_eq_true _ ▸ hrepeated
    rw [if_neg hrepeated, if_neg hrepeated, get_eq hsingle hcpp, hrender]
    exact pushes_ok_iff.trans (by simp)

/-- Assumes: a field of messages. -/
theorem pushes_printMessage_iff {type : T} (htype : f.descriptor.type = .message type) :
    Pushes (f.printMessage (nested type) depth) text ↔ f.ShownValues numberToString
      (fun type message depth str ↦ nested type message depth = .ok str) depth text := by
  have hcpp : f.descriptor.type.cppType = .message := by
    rw [htype]
    rfl
  -- What one nested message pushes.
  have hnested : ∀ value text, Pushes (do
      let str ← nested type (Value.toMessage value) (depth + 1)
      return MessageField.braced depth str) text ↔
      ShownValue numberToString (fun type message depth str ↦ nested type message depth = .ok str)
        depth f.descriptor value text := by
    intro value text
    rw [ShownValue, htype, pushes_bind_iff]
    exact exists_congr fun str ↦ and_congr_right fun _ ↦ pushes_ok_iff
  rw [MessageField.printMessage, MessageField.ShownValues]
  by_cases hrepeated : f.descriptor.isRepeated = true
  · rw [if_pos hrepeated, if_pos hrepeated, getRepeatedFieldRef_eq hrepeated (Or.inl hcpp)]
    refine pushes_printRepeated_iff fun i value hvalue text ↦ ?_
    rw [hvalue]
    exact hnested value text
  · have hsingle := Bool.not_eq_true _ ▸ hrepeated
    have hget : f.getMessage = .ok (f.values.head?.getD unset).toMessage := by
      rw [MessageField.getMessage, MessageField.checkUsage,
        if_pos ⟨hsingle, by rw [hcpp]; simp⟩]
      rfl
    rw [if_neg hrepeated, if_neg hrepeated, hget]
    exact hnested _ text

/-- What a field pushes: all that is to be printed, unless it has truth values. -/
theorem pushes_toEntities_iff : Pushes (f.toEntities numberToString nested depth) text ↔
    f.Shown numberToString (fun type message depth str ↦ nested type message depth = .ok str)
      depth text ∧ f.NoTruthValues := by
  have hother (hbool : f.descriptor.type ≠ .bool) : f.NoTruthValues :=
    fun htype ↦ absurd htype hbool
  rw [MessageField.toEntities, MessageField.Shown]
  cases htype : f.descriptor.type with
  | bool => exact pushes_printBool_iff htype
  | enum =>
    rw [and_iff_left (hother (by simp [htype]))]
    exact pushes_printEnum_iff htype
  | message type =>
    rw [and_iff_left (hother (by simp [htype]))]
    exact pushes_printMessage_iff htype
  | group type =>
    rw [and_iff_left (hother (by simp [htype]))]
    exact pushes_ok_iff
  | bytes | string | double | float | int64 | uint64 | int32 | fixed64 | fixed32 | uint32
  | sfixed32 | sfixed64 | sint32 | sint64 =>
    rw [and_iff_left (hother (by simp [htype]))]
    refine pushes_printScalar_iff (by rw [htype]; rfl) fun value text ↦ ?_
    rw [ShownValue, htype]

end Fields

/-! ### Messages at any depth of recursion -/

section Recursion

variable {descriptor : T → List (FieldDescriptor T D)} {numberToString} {type : T}
  {message : Message D} {depth : ℕ} {text : String}

/-- How a message is printed by a recursion that is deep enough. -/
def Prints (numberToString : D → String) (descriptor : T → List (FieldDescriptor T D)) (type : T)
    (message : Message D) (depth : ℕ) (text : String) : Prop :=
  ∃ fuel, messageToString numberToString descriptor fuel type message depth = .ok text

/-- What is pushed for a field, its name included. -/
theorem pushes_line_iff {f : MessageField T D}
    {nested : T → Message D → ℕ → Except PrintError String} :
    Pushes (f.toLine numberToString nested depth) text ↔
      f.NoTruthValues ∧ f.LineShown numberToString
        (fun type message depth str ↦ nested type message depth = .ok str) depth text := by
  rw [MessageField.toLine, pushes_bind_iff]
  constructor
  · rintro ⟨entities, hentities, hline⟩
    obtain ⟨hshown, hnone⟩ := pushes_toEntities_iff.mp ⟨entities, hentities, rfl⟩
    refine ⟨hnone, String.join entities, hshown, (pushes_ok_iff.mp hline).trans ?_⟩
    simp [String.append_assoc]
  · rintro ⟨hnone, str, hshown, rfl⟩
    obtain ⟨entities, hentities, rfl⟩ := pushes_toEntities_iff.mpr ⟨hshown, hnone⟩
    exact ⟨entities, hentities, pushes_ok_iff.mpr (by simp [String.append_assoc])⟩

/-- The step lemma. -/
theorem messageToString_succ_iff (fuel : ℕ) :
    messageToString numberToString descriptor (fuel + 1) type message depth = .ok text ↔
      (∀ f ∈ contents descriptor type message, f.NoTruthValues) ∧
      MessageShown numberToString descriptor (fun type message depth str ↦
        messageToString numberToString descriptor fuel type message depth = .ok str)
        type message depth text := by
  rw [messageToString]
  constructor
  · intro h
    cases hlines : (contents descriptor type message).mapM fun f ↦
        f.toLine numberToString (messageToString numberToString descriptor fuel) depth with
    | error e =>
      rw [hlines] at h
      cases h
    | ok lines =>
      rw [hlines] at h
      have hpushed := (forall₂_map_iff (g := String.join)).mp ⟨lines, mapM_eq_ok_iff.mp hlines, rfl⟩
      obtain ⟨hnone, hshown⟩ := (List.forall₂_and_left _ _).mp
        (hpushed.imp fun f line hline ↦ pushes_line_iff.mp hline)
      exact ⟨hnone, lines.map String.join, hshown, by rw [← join_flatten, ← Except.ok.inj h]⟩
  · rintro ⟨hnone, texts, htexts, rfl⟩
    have hpushed := ((List.forall₂_and_left _ _).mpr ⟨hnone, htexts⟩).imp
      fun f line hline ↦ pushes_line_iff.mpr hline
    obtain ⟨lines, hlines, rfl⟩ := forall₂_map_iff.mpr hpushed
    rw [mapM_eq_ok_iff.mpr hlines, ← join_flatten]
    rfl

section Mono

variable {nested nested' : T → Message D → ℕ → String → Prop}
  (hnested : ∀ type message depth str, nested type message depth str →
    nested' type message depth str)

include hnested

theorem ShownValue.mono {field : FieldDescriptor T D} {value : Value D}
    (h : ShownValue numberToString nested depth field value text) :
    ShownValue numberToString nested' depth field value text := by
  unfold ShownValue at h ⊢
  cases htype : field.type with
  | message type =>
    rw [htype] at h
    obtain ⟨str, hstr, heq⟩ := h
    exact ⟨str, hnested _ _ _ _ hstr, heq⟩
  | _ => simpa only [htype] using h

theorem MessageField.ShownValues.mono {f : MessageField T D}
    (h : f.ShownValues numberToString nested depth text) :
    f.ShownValues numberToString nested' depth text := by
  unfold ShownValues at h ⊢
  split_ifs at h ⊢
  · obtain ⟨texts, htexts, heq⟩ := h
    exact ⟨texts, htexts.imp fun value text ↦ ShownValue.mono hnested, heq⟩
  · exact ShownValue.mono hnested h

theorem MessageField.Shown.mono {f : MessageField T D}
    (h : f.Shown numberToString nested depth text) :
    f.Shown numberToString nested' depth text := by
  unfold Shown at h ⊢
  cases htype : f.descriptor.type with
  | group type => simpa only [htype] using h
  | _ =>
    rw [htype] at h
    exact ShownValues.mono hnested h

theorem MessageField.LineShown.mono {f : MessageField T D}
    (h : f.LineShown numberToString nested depth text) :
    f.LineShown numberToString nested' depth text := by
  obtain ⟨str, hshown, heq⟩ := h
  exact ⟨str, hshown.mono hnested, heq⟩

theorem MessageShown.mono
    (h : MessageShown numberToString descriptor nested type message depth text) :
    MessageShown numberToString descriptor nested' type message depth text := by
  obtain ⟨lines, hlines, heq⟩ := h
  exact ⟨lines, hlines.imp fun f line ↦ MessageField.LineShown.mono hnested, heq⟩

end Mono

/-- A deeper recursion prints the same. -/
theorem grows_messageToString (fuel : ℕ) :
    ∀ type message depth text,
      messageToString numberToString descriptor fuel type message depth = .ok text →
      messageToString numberToString descriptor (fuel + 1) type message depth = .ok text := by
  induction fuel with
  | zero =>
    intro type message depth text h
    cases h
  | succ fuel ih =>
    intro type message depth text h
    obtain ⟨hnone, hshown⟩ := (messageToString_succ_iff fuel).mp h
    exact (messageToString_succ_iff (fuel + 1)).mpr ⟨hnone, hshown.mono ih⟩

section Continuity

variable {nested : ℕ → T → Message D → ℕ → String → Prop}
  (hgrows : ∀ n type message depth str, nested n type message depth str →
    nested (n + 1) type message depth str)

theorem ShownValue.exists_fuel {field : FieldDescriptor T D} {value : Value D}
    (h : ShownValue numberToString (fun type message depth str ↦
      ∃ n, nested n type message depth str) depth field value text) :
    ∃ n, ShownValue numberToString (nested n) depth field value text := by
  unfold ShownValue at h ⊢
  cases htype : field.type with
  | message type =>
    rw [htype] at h
    obtain ⟨str, ⟨n, hn⟩, heq⟩ := h
    exact ⟨n, str, hn, heq⟩
  | _ => exact ⟨0, by simpa only [htype] using h⟩

include hgrows

theorem MessageField.ShownValues.exists_fuel {f : MessageField T D}
    (h : f.ShownValues numberToString (fun type message depth str ↦
      ∃ n, nested n type message depth str) depth text) :
    ∃ n, f.ShownValues numberToString (nested n) depth text := by
  have hvalue : Grows fun n ↦ ShownValue numberToString (nested n) depth f.descriptor :=
    fun n value text ↦ ShownValue.mono (hgrows n)
  unfold ShownValues at h ⊢
  by_cases hrepeated : f.descriptor.isRepeated = true
  · rw [if_pos hrepeated] at h
    obtain ⟨texts, htexts, heq⟩ := h
    obtain ⟨n, hn⟩ := hvalue.forall₂ (htexts.imp fun value text ↦ ShownValue.exists_fuel)
    exact ⟨n, by rw [if_pos hrepeated]; exact ⟨texts, hn, heq⟩⟩
  · rw [if_neg hrepeated] at h
    obtain ⟨n, hn⟩ := ShownValue.exists_fuel h
    exact ⟨n, by rw [if_neg hrepeated]; exact hn⟩

theorem MessageField.LineShown.exists_fuel {f : MessageField T D}
    (h : f.LineShown numberToString (fun type message depth str ↦
      ∃ n, nested n type message depth str) depth text) :
    ∃ n, f.LineShown numberToString (nested n) depth text := by
  obtain ⟨str, hshown, heq⟩ := h
  have hbounded : ∃ n, f.Shown numberToString (nested n) depth str := by
    unfold Shown at hshown ⊢
    cases htype : f.descriptor.type with
    | group type => exact ⟨0, by simpa only [htype] using hshown⟩
    | _ =>
      rw [htype] at hshown
      exact ShownValues.exists_fuel hgrows hshown
  obtain ⟨n, hn⟩ := hbounded
  exact ⟨n, str, hn, heq⟩

/-- A message needs its nested messages to some depth only. -/
theorem MessageShown.exists_fuel
    (h : MessageShown numberToString descriptor (fun type message depth str ↦
      ∃ n, nested n type message depth str) type message depth text) :
    ∃ n, MessageShown numberToString descriptor (nested n) type message depth text := by
  have hline : Grows fun n ↦ MessageField.LineShown numberToString (nested n) depth :=
    fun n f line ↦ MessageField.LineShown.mono (hgrows n)
  obtain ⟨lines, hlines, heq⟩ := h
  obtain ⟨n, hn⟩ := hline.forall₂ (hlines.imp fun f line ↦
    MessageField.LineShown.exists_fuel hgrows)
  exact ⟨n, lines, hn, heq⟩

end Continuity

/-- What is printed for a message in terms of what is printed for the messages in it. -/
theorem prints_iff : Prints numberToString descriptor type message depth text ↔
    (∀ f ∈ contents descriptor type message, f.NoTruthValues) ∧
    MessageShown numberToString descriptor (Prints numberToString descriptor) type message depth
      text := by
  constructor
  · rintro ⟨fuel, h⟩
    cases fuel with
    | zero => cases h
    | succ fuel =>
      obtain ⟨hnone, hshown⟩ := (messageToString_succ_iff fuel).mp h
      exact ⟨hnone, hshown.mono fun _ _ _ _ hstr ↦ ⟨fuel, hstr⟩⟩
  · rintro ⟨hnone, hshown⟩
    obtain ⟨fuel, hfuel⟩ := MessageShown.exists_fuel grows_messageToString hshown
    exact ⟨fuel + 1, (messageToString_succ_iff fuel).mpr ⟨hnone, hfuel⟩⟩

/-! ### Which messages are printed -/

/-- The type has no endless chain of single messages. -/
def Ends (descriptor : T → List (FieldDescriptor T D)) : T → Prop :=
  Acc fun inner outer ↦ ∃ field ∈ descriptor outer,
    field.isRepeated = false ∧ field.type = .message inner

/-- No repeated truth values in the message or in one that is set in it, and where a single message
is not set, its type has no endless chain of single messages. -/
inductive Printable (descriptor : T → List (FieldDescriptor T D)) : T → Message D → Prop
  | intro {type : T} {message : Message D}
    (noTruthValues : ∀ f ∈ contents descriptor type message, f.NoTruthValues)
    (elements : ∀ f ∈ contents descriptor type message, ∀ inner,
      f.descriptor.type = .message inner → f.descriptor.isRepeated = true →
      ∀ value ∈ f.values, Printable descriptor inner value.toMessage)
    (set : ∀ f ∈ contents descriptor type message, ∀ inner,
      f.descriptor.type = .message inner → f.descriptor.isRepeated = false →
      ∀ value ∈ f.values.head?, Printable descriptor inner value.toMessage)
    (unset : ∀ f ∈ contents descriptor type message, ∀ inner,
      f.descriptor.type = .message inner → f.descriptor.isRepeated = false →
      f.values = [] → Ends descriptor inner) :
    Printable descriptor type message

/-- The message is printed to the end without a fatal error, field by field, and the messages in it
in the same way one level deeper. -/
def Faithful (numberToString : D → String) (descriptor : T → List (FieldDescriptor T D)) (type : T)
    (message : Message D) (depth : ℕ) : Prop :=
  ∃ text, Prints numberToString descriptor type message depth text ∧
    MessageShown numberToString descriptor (Prints numberToString descriptor) type message depth
      text

theorem descriptor_mem_of_mem_contents {f : MessageField T D}
    (h : f ∈ contents descriptor type message) : f.descriptor ∈ descriptor type := by
  obtain ⟨i, hi, rfl⟩ := List.mem_mapIdx.mp h
  exact List.getElem_mem hi

theorem exists_field_of_empty {field : FieldDescriptor T D} (h : field ∈ descriptor type) :
    (⟨field, []⟩ : MessageField T D) ∈ contents descriptor type [] := by
  obtain ⟨i, hi, rfl⟩ := List.getElem_of_mem h
  exact List.mem_mapIdx.mpr ⟨i, hi, rfl⟩

theorem values_eq_nil_of_mem_contents_nil {f : MessageField T D}
    (h : f ∈ contents descriptor type []) : f.values = [] := by
  obtain ⟨i, hi, rfl⟩ := List.mem_mapIdx.mp h
  rfl

section Shown

variable {f : MessageField T D} {inner : T} {nested : T → Message D → ℕ → String → Prop}

/-- A nested message is shown exactly when it is printed one level deeper. -/
theorem exists_shownValue_iff (htype : f.descriptor.type = .message inner) {value : Value D} :
    (∃ text, ShownValue numberToString nested depth f.descriptor value text) ↔
      ∃ str, nested inner value.toMessage (depth + 1) str := by
  constructor
  · rintro ⟨text, hshown⟩
    rw [ShownValue, htype] at hshown
    obtain ⟨str, hstr, -⟩ := hshown
    exact ⟨str, hstr⟩
  · rintro ⟨str, hstr⟩
    refine ⟨String.join (MessageField.braced depth str), ?_⟩
    rw [ShownValue, htype]
    exact ⟨str, hstr, rfl⟩

/-- A field of messages is shown exactly when they all are, or what is read as the one is. -/
theorem exists_shown_iff (htype : f.descriptor.type = .message inner) :
    (∃ text, f.Shown numberToString nested depth text) ↔
      (f.descriptor.isRepeated = true → ∀ value ∈ f.values,
        ∃ str, nested inner value.toMessage (depth + 1) str) ∧
      (f.descriptor.isRepeated = false →
        ∃ str, nested inner (f.values.head?.getD unset).toMessage (depth + 1) str) := by
  have hvalues : ∀ text, f.Shown numberToString nested depth text ↔
      f.ShownValues numberToString nested depth text := by
    intro text
    rw [MessageField.Shown, htype]
  simp only [hvalues, MessageField.ShownValues]
  by_cases hrepeated : f.descriptor.isRepeated = true
  · simp only [hrepeated, forall_true_left, Bool.true_eq_false, IsEmpty.forall_iff, and_true]
    constructor
    · rintro ⟨_, texts, htexts, -⟩ value hvalue
      exact (exists_shownValue_iff htype).mp (exists_of_forall₂ htexts value hvalue)
    · intro hall
      obtain ⟨texts, htexts⟩ := exists_forall₂ fun value hvalue ↦
        (exists_shownValue_iff htype).mpr (hall value hvalue)
      exact ⟨_, texts, htexts, rfl⟩
  · have hsingle := Bool.not_eq_true _ ▸ hrepeated
    simp only [hsingle, Bool.false_eq_true, IsEmpty.forall_iff, true_and, forall_true_left]
    exact exists_shownValue_iff htype

/-- A field of other values is always shown. -/
theorem exists_shown_of_ne (htype : ∀ inner, f.descriptor.type ≠ .message inner) :
    ∃ text, f.Shown numberToString nested depth text := by
  have hvalue : ∀ value, ∃ text,
      ShownValue numberToString nested depth f.descriptor value text := by
    intro value
    unfold ShownValue
    cases hf : f.descriptor.type with
    | message inner => exact absurd hf (htype inner)
    | _ => exact ⟨_, rfl⟩
  have hvalues : ∃ text, f.ShownValues numberToString nested depth text := by
    unfold MessageField.ShownValues
    by_cases hrepeated : f.descriptor.isRepeated = true
    · obtain ⟨texts, htexts⟩ := exists_forall₂ fun value (_ : value ∈ f.values) ↦ hvalue value
      exact ⟨_, by rw [if_pos hrepeated]; exact ⟨texts, htexts, rfl⟩⟩
    · obtain ⟨text, htext⟩ := hvalue (f.values.head?.getD unset)
      exact ⟨text, by rw [if_neg hrepeated]; exact htext⟩
  unfold MessageField.Shown
  cases hf : f.descriptor.type with
  | group type => exact ⟨"", rfl⟩
  | _ => exact hvalues

end Shown

/-- A message is shown exactly when its fields are. -/
theorem exists_messageShown_iff {nested : T → Message D → ℕ → String → Prop} :
    (∃ text, MessageShown numberToString descriptor nested type message depth text) ↔
      ∀ f ∈ contents descriptor type message,
        ∃ text, f.Shown numberToString nested depth text := by
  constructor
  · rintro ⟨_, lines, hlines, -⟩ f hf
    obtain ⟨_, text, hshown, -⟩ := exists_of_forall₂ hlines f hf
    exact ⟨text, hshown⟩
  · intro hall
    obtain ⟨lines, hlines⟩ := exists_forall₂ (R := MessageField.LineShown numberToString nested
      depth) fun f hf ↦ (hall f hf).elim fun text hshown ↦ ⟨_, text, hshown, rfl⟩
    exact ⟨_, lines, hlines, rfl⟩

/-- What a recursion of some depth prints of an empty message ends. -/
theorem ends_of_messageToString (fuel : ℕ) : ∀ type depth text,
    messageToString numberToString descriptor fuel type [] depth = .ok text →
      Ends descriptor type := by
  induction fuel with
  | zero =>
    intro type depth text h
    cases h
  | succ fuel ih =>
    intro type depth text h
    refine Acc.intro type ?_
    rintro inner ⟨field, hfield, hsingle, htype⟩
    have hshown := exists_messageShown_iff.mp ⟨text, ((messageToString_succ_iff fuel).mp h).2⟩
      _ (exists_field_of_empty hfield)
    obtain ⟨str, hstr⟩ := ((exists_shown_iff htype).mp hshown).2 hsingle
    exact ih inner (depth + 1) str hstr

/-- What is printed is printable. -/
theorem printable_of_messageToString (fuel : ℕ) : ∀ type message depth text,
    messageToString numberToString descriptor fuel type message depth = .ok text →
      Printable descriptor type message := by
  induction fuel with
  | zero =>
    intro type message depth text h
    cases h
  | succ fuel ih =>
    intro type message depth text h
    obtain ⟨hnone, hmessage⟩ := (messageToString_succ_iff fuel).mp h
    have hshown := exists_messageShown_iff.mp ⟨text, hmessage⟩
    refine Printable.intro hnone (fun f hf inner htype hrepeated value hvalue ↦ ?_)
      (fun f hf inner htype hsingle value hvalue ↦ ?_) fun f hf inner htype hsingle hempty ↦ ?_
    · obtain ⟨str, hstr⟩ := ((exists_shown_iff htype).mp (hshown f hf)).1 hrepeated value hvalue
      exact ih inner _ _ str hstr
    · obtain ⟨str, hstr⟩ := ((exists_shown_iff htype).mp (hshown f hf)).2 hsingle
      rw [Option.mem_def.mp hvalue] at hstr
      exact ih inner _ _ str hstr
    · obtain ⟨str, hstr⟩ := ((exists_shown_iff htype).mp (hshown f hf)).2 hsingle
      rw [hempty] at hstr
      exact ends_of_messageToString fuel inner _ str hstr

/-- Assumes: no endless chain of single messages. The empty message of the type is printed. -/
theorem Ends.exists_prints (h : Ends descriptor type) :
    ∀ depth, ∃ text, Prints numberToString descriptor type [] depth text := by
  induction h with
  | intro type _ ih =>
    intro depth
    have hshown : ∀ f ∈ contents descriptor type [], ∃ text,
        f.Shown numberToString (Prints numberToString descriptor) depth text := by
      intro f hf
      have hempty := values_eq_nil_of_mem_contents_nil hf
      by_cases hmessage : ∃ inner, f.descriptor.type = .message inner
      · obtain ⟨inner, htype⟩ := hmessage
        refine (exists_shown_iff htype).mpr ⟨fun _ value hvalue ↦ ?_, fun hsingle ↦ ?_⟩
        · rw [hempty] at hvalue
          cases hvalue
        · rw [hempty]
          exact ih inner ⟨f.descriptor, descriptor_mem_of_mem_contents hf, hsingle, htype⟩ _
      · exact exists_shown_of_ne fun inner htype ↦ hmessage ⟨inner, htype⟩
    obtain ⟨text, htext⟩ := exists_messageShown_iff.mpr hshown
    refine ⟨text, prints_iff.mpr ⟨fun f hf _ _ ↦ ?_, htext⟩⟩
    exact values_eq_nil_of_mem_contents_nil hf

/-- What is printable is printed. -/
theorem Printable.exists_prints (h : Printable descriptor type message) :
    ∀ depth, ∃ text, Prints numberToString descriptor type message depth text := by
  induction h with
  | @intro type message hnone _ _ hunset helements hset =>
    intro depth
    have hshown : ∀ f ∈ contents descriptor type message, ∃ text,
        f.Shown numberToString (Prints numberToString descriptor) depth text := by
      intro f hf
      by_cases hmessage : ∃ inner, f.descriptor.type = .message inner
      · obtain ⟨inner, htype⟩ := hmessage
        refine (exists_shown_iff htype).mpr ⟨fun hrepeated value hvalue ↦ ?_, fun hsingle ↦ ?_⟩
        · exact helements f hf inner htype hrepeated value hvalue _
        · cases hvalues : f.values with
          | nil => exact (hunset f hf inner htype hsingle hvalues).exists_prints _
          | cons value values =>
            refine hset f hf inner htype hsingle value ?_ _
            rw [hvalues]
            rfl
      · exact exists_shown_of_ne fun inner htype ↦ hmessage ⟨inner, htype⟩
    obtain ⟨text, htext⟩ := exists_messageShown_iff.mpr hshown
    exact ⟨text, prints_iff.mpr ⟨hnone, htext⟩⟩

end Recursion

/-- A message is printed to the end, without a fatal error and with all its fields, exactly when no
repeated field of truth values in it has elements and no endless chain of single messages follows
where one is not set. -/
theorem faithful_iff_printable (descriptor : T → List (FieldDescriptor T D)) (type : T)
    (message : Message D) (depth : ℕ) :
    Faithful numberToString descriptor type message depth ↔ Printable descriptor type message := by
  constructor
  · rintro ⟨text, ⟨fuel, hfuel⟩, -⟩
    exact printable_of_messageToString fuel type message depth text hfuel
  · intro h
    obtain ⟨text, htext⟩ := h.exists_prints depth
    exact ⟨text, htext, (prints_iff.mp htext).2⟩

end

namespace Scenario

/-- Two types of messages. -/
inductive Kind
  | flags | node

/-- A type with a repeated field of truth values, and one with a single message of its own. -/
def descriptor : Kind → List (FieldDescriptor Kind ℤ)
  | .flags => [⟨"flags", .bool, true, .bool false⟩]
  | .node => [⟨"next", .message .node, false, .bool false⟩]

end Scenario

/-- A list of one truth value ends the process, and an empty list node is printed without end. -/
theorem printing_not_faithful :
    (∀ fuel, messageToString (toString : ℤ → String) Scenario.descriptor (fuel + 1) .flags
      [[.scalar (.bool true)]] 0 = .error .fatal) ∧
    (∀ fuel depth, messageToString (toString : ℤ → String) Scenario.descriptor fuel .node [] depth =
      .error .unfinished) ∧
    (¬ ∀ (numberToString : ℤ → String) (descriptor : Scenario.Kind →
        List (FieldDescriptor Scenario.Kind ℤ)) (type : Scenario.Kind) (message : Message ℤ),
      Faithful numberToString descriptor type message 0) := by
  have hnode : ∀ fuel depth, messageToString (toString : ℤ → String) Scenario.descriptor fuel .node
      [] depth = .error .unfinished := by
    intro fuel
    induction fuel with
    | zero => exact fun _ ↦ rfl
    | succ fuel ih =>
      intro depth
      have hnested : MessageField.printMessage ⟨⟨"next", .message Scenario.Kind.node, false,
          .bool false⟩, []⟩ (messageToString (toString : ℤ → String) Scenario.descriptor fuel
            .node) depth = .error .unfinished := by
        rw [MessageField.printMessage, if_neg Bool.false_ne_true]
        change (messageToString toString Scenario.descriptor fuel .node [] (depth + 1) >>=
          fun str ↦ pure (MessageField.braced depth str)) = _
        rw [ih]
        rfl
      rw [messageToString]
      simp [contents, Scenario.descriptor, MessageField.toLine, MessageField.toEntities, hnested]
  refine ⟨fun fuel ↦ rfl, hnode, fun hall ↦ ?_⟩
  obtain ⟨text, ⟨fuel, hfuel⟩, -⟩ := hall toString Scenario.descriptor .node []
  rw [hnode] at hfuel
  cases hfuel

end Felicia.ProtobufUtil
