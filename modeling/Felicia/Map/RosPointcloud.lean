import Felicia.Containers.Data

/-!
# Point clouds as ROS messages

`ToRosPointcloud` declares the fields of a point from what the cloud has, and then writes the
intensities at an offset that it computes from the option alone. Both agree unless colours are asked
for that the cloud does not have (`safe_iff_fits`). Every store that fits has a place of its own in
its own point (`exists_placed`), so that the iterators of `FromRosPointcloud` read what was written
(`fieldAt_written`, `roundTrips_iff_fits`).
-/

set_option autoImplicit false
set_option relaxedAutoImplicit false

namespace Felicia.RosPointclouds

open Containers Support

/-- `Pointcloud::SerializeOption`. -/
structure SerializeOption where
  withIntensities : Bool
  withColors : Bool

/-- `map::Pointcloud`, with its timestamp in microseconds. -/
structure Pointcloud where
  points : Data := {}
  intensities : Data := {}
  colors : Data := {}
  timestamp : ℤ := 0
  deriving DecidableEq

/-! ### Messages of ROS -/

/-- `sensor_msgs::PointField`. -/
structure PointField where
  name : String
  offset : ℕ
  datatype : ℕ
  count : ℕ

/-- `sensor_msgs::PointCloud2`. -/
structure PointCloud2 where
  /-- The stamp of the header, in nanoseconds. -/
  stamp : ℕ
  height : ℕ
  width : ℕ
  fields : List PointField
  pointStep : ℕ
  rowStep : ℕ
  data : List UInt8

/-- `sensor_msgs::PointField::UINT32` and `FLOAT32`. -/
def datatypeUint32 : ℕ := 6
def datatypeFloat32 : ℕ := 7

/-- `sizeOfPointField`, for the types that are used. -/
def sizeOfPointField (datatype : ℕ) : ℕ :=
  if datatype = datatypeUint32 ∨ datatype = datatypeFloat32 then 4 else 0

/-- How many bytes of each point a field takes. -/
def PointField.size (field : PointField) : ℕ := field.count * sizeOfPointField field.datatype

structure PointFields where
  offset : ℕ := 0
  pointFields : List PointField := []

def PointFields.add (fields : PointFields) (name : String) (count datatype : ℕ) : PointFields where
  offset := fields.offset + count * sizeOfPointField datatype
  pointFields := fields.pointFields ++ [⟨name, fields.offset, datatype, count⟩]

/-- What numbers come to when they are converted. A float is its four bytes. -/
structure Conversions where
  floatOfInt : List UInt8 → List UInt8
  floatOfDouble : List UInt8 → List UInt8
  /-- A float times 255, as a byte. -/
  byteOfFloat : List UInt8 → UInt8
  /-- The nanoseconds of `ToRosTime`. -/
  toRosTime : ℤ → ℕ
  length_floatOfInt (bytes : List UInt8) : (floatOfInt bytes).length = 4
  length_floatOfDouble (bytes : List UInt8) : (floatOfDouble bytes).length = 4

/-! ### Fields -/

namespace Pointcloud

variable (cloud : Pointcloud) (option : SerializeOption)

/-- Colours are asked for, and there are some. -/
def HasColors : Prop := option.withColors ∧ 0 < cloud.colors.size

def HasIntensities : Prop := option.withIntensities ∧ 0 < cloud.intensities.size

instance : Decidable (cloud.HasColors option) :=
  inferInstanceAs (Decidable (_ ∧ _))

instance : Decidable (cloud.HasIntensities option) :=
  inferInstanceAs (Decidable (_ ∧ _))

def xyzFields : PointFields :=
  ((PointFields.add {} "x" 1 datatypeFloat32).add "y" 1 datatypeFloat32).add "z" 1 datatypeFloat32

def coordinateFields : Option PointFields :=
  if cloud.points.elementType ≠ elementType32S ∧ cloud.points.elementType ≠ elementType32F ∧
      cloud.points.elementType ≠ elementType64F then none
  else if cloud.points.channelSize = 2 ∨ cloud.points.channelSize = 3 then some xyzFields
  else none

def addColorField (fields : PointFields) : Option PointFields :=
  if cloud.HasColors option then
    if cloud.colors.elementType ≠ elementType8U ∧ cloud.colors.elementType ≠ elementType32F then
      none
    else if cloud.colors.channelSize = 3 then some (fields.add "rgb" 1 datatypeUint32)
    else if cloud.colors.channelSize = 4 then some (fields.add "rgba" 1 datatypeUint32)
    else none
  else some fields

def addIntensityField (fields : PointFields) : Option PointFields :=
  if cloud.HasIntensities option then
    if cloud.intensities.elementType ≠ elementType8U ∧
        cloud.intensities.elementType ≠ elementType16U then none
    else if cloud.intensities.channelSize = 1 then some (fields.add "intensity" 1 datatypeUint32)
    else none
  else some fields

/-- The fields that `ToRosPointcloud` declares, unless it returns `false`. -/
def declaredFields : Option PointFields := do
  let coordinates ← cloud.coordinateFields
  let colored ← cloud.addColorField option coordinates
  cloud.addIntensityField option colored

/-! ### Stores -/

/-- Bytes that are written, with the field and the point that they are written for. -/
structure FieldStore extends Memory.Store UInt8 where
  field : String
  point : ℕ

variable (conversions : Conversions)

/-- The size of `Pointi`, `Pointf`, `Pointd` and of `Point3i`, `Point3f`, `Point3d`. -/
def coordinateSize : ℕ := if cloud.points.elementType = elementType64F then 8 else 4

def pointSize : ℕ := cloud.points.channelSize * cloud.coordinateSize

def pointElements : List (List UInt8) := cloud.points.elements cloud.pointSize

/-- `static_cast<float>` of the coordinate of a point at an index. -/
def coordinate (p : List UInt8) (i : ℕ) : List UInt8 :=
  let bytes := Memory.read p (i * cloud.coordinateSize) cloud.coordinateSize
  if cloud.points.elementType = elementType32S then conversions.floatOfInt bytes
  else if cloud.points.elementType = elementType32F then bytes
  else conversions.floatOfDouble bytes

/-- What `memcpy` writes for a point, for each float that it copies. -/
def pointStores (k dst : ℕ) (p : List UInt8) : List FieldStore :=
  [⟨⟨dst, cloud.coordinate conversions p 0⟩, "x", k⟩,
    ⟨⟨dst + 4, cloud.coordinate conversions p 1⟩, "y", k⟩] ++
  if cloud.points.channelSize = 2 then []
  else [⟨⟨dst + 8, cloud.coordinate conversions p 2⟩, "z", k⟩]

/-- The size of a component of `Color3f` and `Color4f`, and of `Color3u` and `Color4u`. -/
def componentSize : ℕ := if cloud.colors.elementType = elementType32F then 4 else 1

/-- `Color4f` and `Color4u`, and otherwise `Color3f` and `Color3u`. -/
def componentCount : ℕ := if cloud.colors.channelSize = 4 then 4 else 3

def colorElements : List (List UInt8) :=
  cloud.colors.elements (cloud.componentCount * cloud.componentSize)

def component (c : List UInt8) (i : ℕ) : UInt8 :=
  if cloud.colors.elementType = elementType32F then
    conversions.byteOfFloat (Memory.read c (4 * i) 4)
  else c.getD i 0

def colorField : String := if cloud.colors.channelSize = 4 then "rgba" else "rgb"

def colorStores (k dst : ℕ) (c : List UInt8) : List FieldStore :=
  let bgr := [2, 1, 0].map (cloud.component conversions c)
  [⟨⟨dst, if cloud.colors.channelSize = 4 then bgr ++ [cloud.component conversions c 3] else bgr⟩,
    cloud.colorField, k⟩]

def intensityElements : List (List UInt8) :=
  cloud.intensities.elements (if cloud.intensities.elementType = elementType8U then 1 else 2)

/-- An intensity of sixteen bits is divided by 256. -/
def intensityByte (i : List UInt8) : UInt8 :=
  if cloud.intensities.elementType = elementType8U then i.getD 0 0
  else UInt8.ofNat (((i.getD 0 0).toNat + 256 * (i.getD 1 0).toNat) / 256)

def intensityStores (k dst : ℕ) (i : List UInt8) : List FieldStore :=
  [⟨⟨dst, [cloud.intensityByte i]⟩, "intensity", k⟩]

/-- What the loops of `ToRosPointcloud` write. -/
def stores (pointStep : ℕ) : List FieldStore :=
  Memory.strided pointStep (cloud.pointStores conversions) 0 0 cloud.pointElements ++
  (if cloud.HasColors option then
    Memory.strided pointStep (cloud.colorStores conversions) 0 12 cloud.colorElements
  else []) ++
  if cloud.HasIntensities option then
    Memory.strided pointStep cloud.intensityStores 0 (if option.withColors then 12 + 4 else 12)
      cloud.intensityElements
  else []

/-! ### Conversion to a message -/

/-- `resize` of the bytes of a message. -/
def resize (data : List UInt8) (size : ℕ) : List UInt8 :=
  data.take size ++ List.replicate (size - data.length) 0

/-- A message before the loops write to it. -/
def prepared (msg : PointCloud2) (fields : PointFields) : PointCloud2 :=
  let width := cloud.pointElements.length % 2 ^ 32
  let rowStep := width * fields.offset % 2 ^ 32
  { stamp := conversions.toRosTime cloud.timestamp
    height := 1
    width := width
    fields := fields.pointFields
    pointStep := fields.offset
    rowStep := rowStep
    data := resize msg.data (1 * rowStep) }

end Pointcloud

/-- What `ToRosPointcloud` comes to. -/
inductive Converted
  /-- It returns `false`. -/
  | refused
  /-- It writes outside the data of the message. -/
  | overrun
  | converted (msg : PointCloud2)

namespace Pointcloud

variable (conversions : Conversions) (msg : PointCloud2) (cloud : Pointcloud)
  (option : SerializeOption)

def toRosPointcloud : Converted :=
  match cloud.declaredFields option with
  | none => .refused
  | some fields =>
    let msg := cloud.prepared conversions msg fields
    let stores := (cloud.stores option conversions msg.pointStep).map (·.toStore)
    if ∀ store ∈ stores, store.finish ≤ msg.data.length then
      .converted { msg with data := Memory.writeAll msg.data stores }
    else .overrun

/-! ### Conversion from a message -/

/-- What an iterator over a field points to. It throws where the message has no such field. -/
def fieldAt (msg : PointCloud2) (name : String) (count k : ℕ) : Option (List UInt8) := do
  let field ← msg.fields.find? (·.name = name)
  let address := k * msg.pointStep + field.offset
  if address + count ≤ msg.data.length then some (Memory.read msg.data address count) else none

/-- The bytes of a view that is resized to the width and assigned element by element. -/
def collect (msg : PointCloud2) (element : ℕ → Option (List UInt8)) : Option (List UInt8) :=
  ((List.range msg.width).mapM element).map List.flatten

def hasField (msg : PointCloud2) (name : String) : Bool := msg.fields.any (·.name = name)

/-- A point of three floats. -/
def pointAt (msg : PointCloud2) (k : ℕ) : Option (List UInt8) := do
  let x ← fieldAt msg "x" 4 k
  let y ← fieldAt msg "y" 4 k
  let z ← fieldAt msg "z" 4 k
  return x ++ y ++ z

/-- `set_rgb(c_ptr[2], c_ptr[1], c_ptr[0])`. -/
def rgbAt (msg : PointCloud2) (k : ℕ) : Option (List UInt8) := do
  let c ← fieldAt msg "rgb" 3 k
  return [c.getD 2 0, c.getD 1 0, c.getD 0 0]

/-- `set_rgba(c_ptr[2], c_ptr[1], c_ptr[0], c_ptr[3])`. -/
def rgbaAt (msg : PointCloud2) (k : ℕ) : Option (List UInt8) := do
  let c ← fieldAt msg "rgba" 4 k
  return [c.getD 2 0, c.getD 1 0, c.getD 0 0, c.getD 3 0]

def colorsOf (msg : PointCloud2) (option : SerializeOption) : Option Data :=
  if option.withColors then
    if hasField msg "rgb" then (collect msg (rgbAt msg)).map (⟨·, dataType8UC3⟩)
    else if hasField msg "rgba" then (collect msg (rgbaAt msg)).map (⟨·, dataType8UC4⟩)
    else some {}
  else some {}

def intensitiesOf (msg : PointCloud2) (option : SerializeOption) : Option Data :=
  if option.withIntensities ∧ hasField msg "intensity" then
    (collect msg (fieldAt msg "intensity" 1)).map (⟨·, dataType8UC1⟩)
  else some {}

/-- `FromRosPointcloud`, unless an iterator throws or leaves the data of the message. -/
def fromRosPointcloud (msg : PointCloud2) (option : SerializeOption) : Option Pointcloud := do
  let points ← collect msg (pointAt msg)
  let colors ← colorsOf msg option
  let intensities ← intensitiesOf msg option
  return {
    points := ⟨points, dataType32FC3⟩
    intensities := intensities
    colors := colors
    timestamp := msg.stamp / 1000 }

end Pointcloud

open Pointcloud

variable {conversions : Conversions} {msg : PointCloud2} {cloud : Pointcloud}
  {option : SerializeOption} {fields : PointFields} {store : FieldStore} {k : ℕ}

/-! ### The layout of a point -/

/-- How many bytes the fields of a point take. -/
def stepOf (cloud : Pointcloud) (option : SerializeOption) : ℕ :=
  12 + (if cloud.HasColors option then 4 else 0) + if cloud.HasIntensities option then 4 else 0

theorem stepOf_ge : 12 ≤ stepOf cloud option := by
  rw [stepOf]
  omega

theorem stepOf_le : stepOf cloud option ≤ 20 := by
  rw [stepOf]
  split_ifs <;> decide

theorem stepOf_of_hasColors (h : cloud.HasColors option) : 16 ≤ stepOf cloud option := by
  rw [stepOf, if_pos h]
  exact Nat.le_add_right _ _

/-- Where the intensity of a point is declared. -/
def intensityOffset (cloud : Pointcloud) (option : SerializeOption) : ℕ :=
  if cloud.HasColors option then 16 else 12

theorem stepOf_of_hasIntensities (h : cloud.HasIntensities option) :
    stepOf cloud option = intensityOffset cloud option + 4 := by
  rw [stepOf, if_pos h, intensityOffset]
  split_ifs <;> rfl

theorem coordinateFields_eq (h : cloud.coordinateFields = some fields) :
    (cloud.points.channelSize = 2 ∨ cloud.points.channelSize = 3) ∧ fields = xyzFields := by
  unfold coordinateFields at h
  split_ifs at h with helement hchannel
  exact ⟨hchannel, (Option.some.inj h).symm⟩

theorem addColorField_eq {colored : PointFields}
    (h : cloud.addColorField option fields = some colored) :
    colored = if cloud.HasColors option then fields.add cloud.colorField 1 datatypeUint32
      else fields := by
  unfold addColorField at h
  by_cases hcolors : cloud.HasColors option
  · rw [if_pos hcolors] at h ⊢
    split_ifs at h with helement hthree hfour
    · rw [colorField, if_neg (by rw [hthree]; decide)]
      exact (Option.some.inj h).symm
    · rw [colorField, if_pos hfour]
      exact (Option.some.inj h).symm
  · rw [if_neg hcolors] at h ⊢
    exact (Option.some.inj h).symm

theorem addIntensityField_eq {declared : PointFields}
    (h : cloud.addIntensityField option fields = some declared) :
    declared = if cloud.HasIntensities option then fields.add "intensity" 1 datatypeUint32
      else fields := by
  unfold addIntensityField at h
  by_cases hintensities : cloud.HasIntensities option
  · rw [if_pos hintensities] at h ⊢
    split_ifs at h with helement hone
    exact (Option.some.inj h).symm
  · rw [if_neg hintensities] at h ⊢
    exact (Option.some.inj h).symm

/-- Assumes: the types of the cloud are taken. -/
theorem declaredFields_eq (h : cloud.declaredFields option = some fields) :
    (cloud.points.channelSize = 2 ∨ cloud.points.channelSize = 3) ∧
      fields.offset = stepOf cloud option ∧
      fields.pointFields = xyzFields.pointFields ++
        (if cloud.HasColors option then [⟨cloud.colorField, 12, datatypeUint32, 1⟩] else []) ++
        if cloud.HasIntensities option then
          [⟨"intensity", intensityOffset cloud option, datatypeUint32, 1⟩]
        else [] := by
  simp only [declaredFields, Option.bind_eq_bind, Option.bind_eq_some_iff] at h
  obtain ⟨coordinates, hcoordinates, colored, hcolored, hfields⟩ := h
  obtain ⟨hchannel, rfl⟩ := coordinateFields_eq hcoordinates
  obtain rfl := addColorField_eq hcolored
  obtain rfl := addIntensityField_eq hfields
  refine ⟨hchannel, ?_, ?_⟩
  · rw [stepOf]
    split_ifs <;> rfl
  · rw [intensityOffset]
    split_ifs <;> rfl

/-- What a message is prepared with. Assumes: the types of the cloud are taken. -/
theorem length_data_prepared (h : cloud.declaredFields option = some fields) :
    (cloud.prepared conversions msg fields).data.length =
      cloud.pointElements.length * stepOf cloud option % 2 ^ 32 := by
  obtain ⟨-, hoffset, -⟩ := declaredFields_eq h
  have hlength (data : List UInt8) (size : ℕ) : (resize data size).length = size := by
    rw [resize, List.length_append, List.length_take, List.length_replicate]
    omega
  rw [prepared, hlength, Nat.one_mul, Nat.mod_mul_mod, hoffset]

/-! ### Where the loops write -/

/-- What the cloud has fits a message: no size of the message wraps around, no point is missing for
a colour or an intensity, and no intensities are written behind colours that are asked for and do
not exist. -/
structure Fits (cloud : Pointcloud) (option : SerializeOption) : Prop where
  noOverflow : cloud.pointElements.length * stepOf cloud option < 2 ^ 32
  colors : cloud.HasColors option → cloud.colorElements.length ≤ cloud.pointElements.length
  intensities :
    cloud.HasIntensities option → cloud.intensityElements.length ≤ cloud.pointElements.length
  agree : cloud.HasIntensities option → cloud.intensityElements ≠ [] → option.withColors →
    cloud.HasColors option

/-- The bytes are inside the data of a message, and inside those that a declared field of the same
name has in their point. -/
def Within (msg : PointCloud2) (store : FieldStore) : Prop :=
  store.finish ≤ msg.data.length ∧ ∃ field ∈ msg.fields, field.name = store.field ∧
    store.point * msg.pointStep + field.offset ≤ store.address ∧
    store.finish ≤ store.point * msg.pointStep + field.offset + field.size

/-- Every byte that `ToRosPointcloud` writes is in its place. -/
def Safe (conversions : Conversions) (msg : PointCloud2) (cloud : Pointcloud)
    (option : SerializeOption) : Prop :=
  ∀ fields, cloud.declaredFields option = some fields →
    let msg := cloud.prepared conversions msg fields
    ∀ store ∈ cloud.stores option conversions msg.pointStep, Within msg store

section Stores

variable {step : ℕ}

theorem mem_stores : store ∈ cloud.stores option conversions step ↔
    (∃ k p, cloud.pointElements[k]? = some p ∧
      store ∈ cloud.pointStores conversions k (k * step) p) ∨
    (cloud.HasColors option ∧ ∃ k c, cloud.colorElements[k]? = some c ∧
      store ∈ cloud.colorStores conversions k (12 + k * step) c) ∨
    cloud.HasIntensities option ∧ ∃ k i, cloud.intensityElements[k]? = some i ∧
      store ∈ cloud.intensityStores k ((if option.withColors then 16 else 12) + k * step) i := by
  rw [stores, List.mem_append, List.mem_append, or_assoc]
  apply or_congr
  · simp only [Memory.mem_strided, Nat.zero_add]
  apply or_congr
  · by_cases hcolors : cloud.HasColors option
    · rw [if_pos hcolors]
      simp only [Memory.mem_strided, Nat.zero_add, hcolors, true_and]
    · simp [hcolors]
  · by_cases hintensities : cloud.HasIntensities option
    · rw [if_pos hintensities]
      simp only [Memory.mem_strided, Nat.zero_add, hintensities, true_and]
    · simp [hintensities]

theorem length_coordinate (conversions : Conversions) {p : List UInt8} {i : ℕ}
    (hp : p ∈ cloud.pointElements) (hi : i < cloud.points.channelSize) :
    (cloud.coordinate conversions p i).length = 4 := by
  have hlength : p.length = cloud.points.channelSize * cloud.coordinateSize :=
    length_of_mem_pieces hp
  have hinside : i * cloud.coordinateSize + cloud.coordinateSize ≤ p.length :=
    hlength ▸ Memory.slot_le cloud.coordinateSize hi
  unfold coordinate
  dsimp only
  split_ifs with hint hfloat
  · exact conversions.length_floatOfInt _
  · rw [Memory.length_read hinside, coordinateSize, if_neg (by rw [hfloat]; decide)]
  · exact conversions.length_floatOfDouble _

/-- What is written for a color takes three or four bytes. -/
theorem length_of_mem_colorStores {dst : ℕ} {c : List UInt8}
    (h : store ∈ cloud.colorStores conversions k dst c) :
    3 ≤ store.values.length ∧ store.values.length ≤ 4 := by
  rw [colorStores, List.mem_singleton] at h
  rw [h]
  dsimp only
  split_ifs <;> simp

/-- What is written for a point at a place among its fields, which are of four bytes each. -/
def placed (conversions : Conversions) (cloud : Pointcloud) (option : SerializeOption)
    (step k : ℕ) : ℕ → Option FieldStore
  | 0 => cloud.pointElements[k]?.map fun p ↦ ⟨⟨k * step, cloud.coordinate conversions p 0⟩, "x", k⟩
  | 1 => cloud.pointElements[k]?.map fun p ↦
    ⟨⟨k * step + 4, cloud.coordinate conversions p 1⟩, "y", k⟩
  | 2 => cloud.pointElements[k]?.map fun p ↦
    ⟨⟨k * step + 8, cloud.coordinate conversions p 2⟩, "z", k⟩
  | 3 =>
    if cloud.HasColors option then
      cloud.colorElements[k]?.bind fun c ↦
        (cloud.colorStores conversions k (12 + k * step) c).head?
    else cloud.intensityElements[k]?.bind fun i ↦ (cloud.intensityStores k (12 + k * step) i).head?
  | _ => cloud.intensityElements[k]?.bind fun i ↦ (cloud.intensityStores k (16 + k * step) i).head?

/-- A store is for the place `j` of the point `k`. -/
structure PlacedAt (conversions : Conversions) (cloud : Pointcloud) (option : SerializeOption)
    (step : ℕ) (fields : List PointField) (store : FieldStore) (k j : ℕ) : Prop where
  point : store.point = k
  lt : k < cloud.pointElements.length
  slot : 4 * j + 4 ≤ step
  address : store.address = k * step + 4 * j
  length : store.values.length ≤ 4
  placed : placed conversions cloud option step k j = some store
  declared : ∃ field ∈ fields, field.name = store.field ∧ field.offset = 4 * j ∧ field.size = 4

theorem lt_of_getElem?_eq {element : List UInt8} {elements : List (List UInt8)}
    (h : elements[k]? = some element) : k < elements.length :=
  (List.getElem?_eq_some_iff.mp h).1

theorem mem_declared (hfields : cloud.declaredFields option = some fields) (field : PointField) :
    field ∈ fields.pointFields ↔ field ∈ xyzFields.pointFields ∨
      (cloud.HasColors option ∧ field = ⟨cloud.colorField, 12, datatypeUint32, 1⟩) ∨
      cloud.HasIntensities option ∧
        field = ⟨"intensity", intensityOffset cloud option, datatypeUint32, 1⟩ := by
  obtain ⟨-, -, hdeclared⟩ := declaredFields_eq hfields
  rw [hdeclared, List.mem_append, List.mem_append, or_assoc]
  split_ifs with hcolors hintensities <;> simp [*]

theorem exists_placed_of_points {p : List UInt8}
    (hfields : cloud.declaredFields option = some fields) (hp : cloud.pointElements[k]? = some p)
    (hmem : store ∈ cloud.pointStores conversions k (k * stepOf cloud option) p) :
    ∃ j, PlacedAt conversions cloud option (stepOf cloud option) fields.pointFields store k j := by
  have hstep : 12 ≤ stepOf cloud option := stepOf_ge
  have hlt := lt_of_getElem?_eq hp
  have hpoint : p ∈ cloud.pointElements := List.mem_of_getElem? hp
  have hchannel := (declaredFields_eq hfields).1
  have hdeclared (field : PointField) (h : field ∈ xyzFields.pointFields) :
      field ∈ fields.pointFields := (mem_declared hfields field).mpr (.inl h)
  have hlength (i : ℕ) (hi : i < cloud.points.channelSize) :
      (cloud.coordinate conversions p i).length ≤ 4 :=
    Nat.le_of_eq (length_coordinate conversions hpoint hi)
  rw [pointStores, List.mem_append, List.mem_cons, List.mem_singleton] at hmem
  obtain (rfl | rfl) | hz := hmem
  · refine ⟨0, rfl, hlt, by omega, rfl, hlength 0 (by omega), by rw [placed, hp]; rfl,
      ⟨"x", 0, datatypeFloat32, 1⟩, hdeclared _ ?_, rfl, rfl, rfl⟩
    simp [xyzFields, PointFields.add]
  · refine ⟨1, rfl, hlt, by omega, rfl, hlength 1 (by omega), by rw [placed, hp]; rfl,
      ⟨"y", 4, datatypeFloat32, 1⟩, hdeclared _ ?_, rfl, rfl, rfl⟩
    simp [xyzFields, PointFields.add, sizeOfPointField]
  · split_ifs at hz with htwo
    · exact absurd hz List.not_mem_nil
    · obtain rfl := List.mem_singleton.mp hz
      refine ⟨2, rfl, hlt, by omega, rfl, hlength 2 (by omega), by rw [placed, hp]; rfl,
        ⟨"z", 8, datatypeFloat32, 1⟩, hdeclared _ ?_, rfl, rfl, rfl⟩
      simp [xyzFields, PointFields.add, sizeOfPointField]

theorem exists_placed_of_colors {c : List UInt8} (hfits : Fits cloud option)
    (hfields : cloud.declaredFields option = some fields) (hcolors : cloud.HasColors option)
    (hc : cloud.colorElements[k]? = some c)
    (hmem : store ∈ cloud.colorStores conversions k (12 + k * stepOf cloud option) c) :
    PlacedAt conversions cloud option (stepOf cloud option) fields.pointFields store k 3 := by
  have hlength := (length_of_mem_colorStores hmem).2
  have hdeclared := (mem_declared hfields _).mpr (.inr (.inl ⟨hcolors, rfl⟩))
  rw [colorStores, List.mem_singleton] at hmem
  have hplaced : placed conversions cloud option (stepOf cloud option) k 3 = some store := by
    rw [placed, if_pos hcolors, hc, hmem]
    rfl
  subst hmem
  exact {
    point := rfl
    lt := Nat.lt_of_lt_of_le (lt_of_getElem?_eq hc) (hfits.colors hcolors)
    slot := stepOf_of_hasColors hcolors
    address := Nat.add_comm _ _
    length := hlength
    placed := hplaced
    declared := ⟨_, hdeclared, rfl, rfl, rfl⟩ }

theorem exists_placed_of_intensities {i : List UInt8} (hfits : Fits cloud option)
    (hfields : cloud.declaredFields option = some fields)
    (hintensities : cloud.HasIntensities option) (hi : cloud.intensityElements[k]? = some i)
    (hmem : store ∈ cloud.intensityStores k
      ((if option.withColors then 16 else 12) + k * stepOf cloud option) i) :
    ∃ j, PlacedAt conversions cloud option (stepOf cloud option) fields.pointFields store k j := by
  have hne : cloud.intensityElements ≠ [] := by
    intro hnil
    rw [hnil] at hi
    cases hi
  have hwith : (option.withColors : Prop) ↔ cloud.HasColors option :=
    ⟨hfits.agree hintensities hne, fun h ↦ h.1⟩
  have hlt := Nat.lt_of_lt_of_le (lt_of_getElem?_eq hi) (hfits.intensities hintensities)
  have hdeclared := (mem_declared hfields _).mpr (.inr (.inr ⟨hintensities, rfl⟩))
  have hstep := stepOf_of_hasIntensities hintensities
  have hlength : [cloud.intensityByte i].length ≤ 4 := by simp
  obtain rfl := List.mem_singleton.mp hmem
  by_cases hcolors : cloud.HasColors option
  · have hoffset : intensityOffset cloud option = 16 := if_pos hcolors
    rw [if_pos (hwith.mpr hcolors)]
    refine ⟨4, rfl, hlt, by omega, Nat.add_comm _ _, hlength, ?_, _, hdeclared, rfl, hoffset, rfl⟩
    simp only [placed, hi]
    rfl
  · have hoffset : intensityOffset cloud option = 12 := if_neg hcolors
    rw [if_neg (mt hwith.mp hcolors)]
    refine ⟨3, rfl, hlt, by omega, Nat.add_comm _ _, hlength, ?_, _, hdeclared, rfl, hoffset, rfl⟩
    rw [placed, if_neg hcolors, hi]
    rfl

/-- Assumes: what the cloud has fits, and its types are taken. Every store is for a place of its own
point. -/
theorem exists_placed (hfits : Fits cloud option)
    (hfields : cloud.declaredFields option = some fields)
    (hmem : store ∈ cloud.stores option conversions (stepOf cloud option)) :
    ∃ k j,
      PlacedAt conversions cloud option (stepOf cloud option) fields.pointFields store k j := by
  obtain ⟨k, p, hp, hmem⟩ | ⟨hcolors, k, c, hc, hmem⟩ | ⟨hintensities, k, i, hi, hmem⟩ :=
    mem_stores.mp hmem
  · exact ⟨k, exists_placed_of_points hfields hp hmem⟩
  · exact ⟨k, 3, exists_placed_of_colors hfits hfields hcolors hc hmem⟩
  · exact ⟨k, exists_placed_of_intensities hfits hfields hintensities hi hmem⟩

/-- Two stores are the same one, or are in different places. -/
theorem eq_or_apart {declared : List PointField} {other : FieldStore} {j k' j' : ℕ}
    (h : PlacedAt conversions cloud option step declared store k j)
    (h' : PlacedAt conversions cloud option step declared other k' j') :
    other = store ∨ other.Apart store.toStore := by
  have haddress := h.address
  have haddress' := h'.address
  have hlength := h.length
  have hlength' := h'.length
  have hslot := h.slot
  have hslot' := h'.slot
  rw [Memory.Store.Apart, Memory.Store.finish, Memory.Store.finish]
  by_cases hpoint : k' = k
  · subst hpoint
    by_cases hplace : j' = j
    · subst hplace
      exact .inl (Option.some.inj (h'.placed.symm.trans h.placed))
    · exact .inr (by omega)
  · have hapart := Memory.slots_apart step hpoint
    exact .inr (by omega)

/-- What the loops write when everything fits is inside the data of the message. -/
theorem finish_le_of_placed {declared : List PointField} {j : ℕ}
    (h : PlacedAt conversions cloud option step declared store k j) :
    store.finish ≤ cloud.pointElements.length * step := by
  have haddress := h.address
  have hlength := h.length
  have hslot := h.slot
  have hpoint := Memory.slot_le step h.lt
  rw [Memory.Store.finish]
  omega

end Stores

/-! ### Every store is in its place -/

theorem pointStep_prepared (h : cloud.declaredFields option = some fields) :
    (cloud.prepared conversions msg fields).pointStep = stepOf cloud option :=
  (declaredFields_eq h).2.1

theorem within_of_fits (hfits : Fits cloud option) : Safe conversions msg cloud option := by
  intro fields hfields
  dsimp only
  rw [pointStep_prepared hfields]
  intro store hmem
  obtain ⟨k, j, hplaced⟩ := exists_placed hfits hfields hmem
  obtain ⟨field, hfield, hname, hoffset, hsize⟩ := hplaced.declared
  have hfinish := finish_le_of_placed hplaced
  have haddress := hplaced.address
  have hlength := hplaced.length
  have hpoint := hplaced.point
  refine ⟨?_, field, hfield, hname, ?_, ?_⟩
  · rw [length_data_prepared hfields, Nat.mod_eq_of_lt hfits.noOverflow]
    exact hfinish
  · rw [pointStep_prepared hfields, hpoint, hoffset, haddress]
  · rw [pointStep_prepared hfields, hpoint, hoffset, hsize, Memory.Store.finish, haddress]
    omega

/-- The stores are inside the data of the message, whatever their fields are. -/
def Inside (conversions : Conversions) (msg : PointCloud2) (cloud : Pointcloud)
    (option : SerializeOption) (fields : PointFields) : Prop :=
  ∀ store ∈ cloud.stores option conversions (stepOf cloud option),
    store.finish ≤ (cloud.prepared conversions msg fields).data.length

theorem noOverflow_of_inside (hfields : cloud.declaredFields option = some fields)
    (h : Inside conversions msg cloud option fields) :
    cloud.pointElements.length * stepOf cloud option < 2 ^ 32 := by
  by_contra hlarge
  have hstep : stepOf cloud option ≤ 20 := stepOf_le
  have hpos : 0 < cloud.pointElements.length := by
    rw [Nat.pos_iff_ne_zero]
    intro hzero
    rw [hzero, Nat.zero_mul] at hlarge
    exact hlarge (by decide)
  -- The last point is written behind what is left of the size.
  obtain ⟨n, hn⟩ := Nat.exists_eq_succ_of_ne_zero (Nat.ne_of_gt hpos)
  obtain ⟨p, hp⟩ : ∃ p, cloud.pointElements[n]? = some p :=
    ⟨_, List.getElem?_eq_getElem (by omega)⟩
  have hchannel := (declaredFields_eq hfields).1
  have hlength := length_coordinate conversions (i := 0) (List.mem_of_getElem? hp) (by omega)
  have hfinish := h ⟨⟨n * stepOf cloud option, cloud.coordinate conversions p 0⟩, "x", n⟩
    (mem_stores.mpr (.inl ⟨n, p, hp, List.mem_cons_self⟩))
  rw [Memory.Store.finish, length_data_prepared hfields, hlength, hn] at hfinish
  rw [hn] at hlarge
  rw [Nat.succ_mul] at hfinish hlarge
  dsimp only at hfinish
  omega

theorem length_data_of_inside (hfields : cloud.declaredFields option = some fields)
    (h : Inside conversions msg cloud option fields) :
    (cloud.prepared conversions msg fields).data.length =
      cloud.pointElements.length * stepOf cloud option := by
  rw [length_data_prepared hfields, Nat.mod_eq_of_lt (noOverflow_of_inside hfields h)]

/-- A loop that writes for more elements than there are points leaves the data. -/
theorem length_le_of_finish_le {elements : List (List UInt8)} {count dst : ℕ} (step : ℕ)
    (hdst : 0 < dst)
    (h : ∀ k element, elements[k]? = some element → dst + k * step ≤ count * step) :
    elements.length ≤ count := by
  by_contra hlt
  have hfinish := h count _ (List.getElem?_eq_getElem (by omega))
  omega

theorem colors_of_inside (hfields : cloud.declaredFields option = some fields)
    (h : Inside conversions msg cloud option fields) (hcolors : cloud.HasColors option) :
    cloud.colorElements.length ≤ cloud.pointElements.length := by
  refine length_le_of_finish_le (stepOf cloud option) (Nat.succ_pos 11) fun k c hc ↦ ?_
  have hfinish := h _ (mem_stores.mpr (.inr (.inl ⟨hcolors, k, c, hc, List.mem_cons_self⟩)))
  rw [length_data_of_inside hfields h] at hfinish
  exact Nat.le_trans (Nat.le_add_right _ _) hfinish

theorem intensities_of_inside (hfields : cloud.declaredFields option = some fields)
    (h : Inside conversions msg cloud option fields) (hintensities : cloud.HasIntensities option) :
    ∀ k i, cloud.intensityElements[k]? = some i →
      (if option.withColors then 16 else 12) + k * stepOf cloud option + 1 ≤
        cloud.pointElements.length * stepOf cloud option := by
  intro k i hi
  have hfinish := h _ (mem_stores.mpr (.inr (.inr ⟨hintensities, k, i, hi, List.mem_cons_self⟩)))
  rw [length_data_of_inside hfields h] at hfinish
  exact hfinish

theorem inside_of_safe (hfields : cloud.declaredFields option = some fields)
    (h : Safe conversions msg cloud option) : Inside conversions msg cloud option fields := by
  intro store hmem
  have hsafe := h fields hfields
  dsimp only at hsafe
  rw [pointStep_prepared hfields] at hsafe
  exact (hsafe store hmem).1

/-- Where colours are asked for and there are none, the first intensity is behind its field. -/
theorem agree_of_safe (hfields : cloud.declaredFields option = some fields)
    (h : Safe conversions msg cloud option) (hintensities : cloud.HasIntensities option)
    (hne : cloud.intensityElements ≠ []) (hwith : option.withColors) : cloud.HasColors option := by
  by_contra hcolors
  obtain ⟨i, rest, hi⟩ := List.exists_cons_of_ne_nil hne
  have hfirst : cloud.intensityElements[0]? = some i := by rw [hi]; rfl
  have hmem : (⟨⟨16, [cloud.intensityByte i]⟩, "intensity", 0⟩ : FieldStore) ∈
      cloud.stores option conversions (stepOf cloud option) := by
    refine mem_stores.mpr (.inr (.inr ⟨hintensities, 0, i, hfirst, ?_⟩))
    rw [intensityStores, if_pos hwith, Nat.zero_mul]
    exact List.mem_cons_self
  have hsafe := h fields hfields
  dsimp only at hsafe
  rw [pointStep_prepared hfields] at hsafe
  obtain ⟨-, field, hfield, hname, -, hfinish⟩ := hsafe _ hmem
  have hoffset : field.offset = 12 ∧ field.size = 4 := by
    obtain hxyz | ⟨hcolors', -⟩ | ⟨-, rfl⟩ := (mem_declared hfields field).mp hfield
    · simp only [xyzFields, PointFields.add, List.nil_append, List.cons_append, List.mem_cons,
        List.not_mem_nil, or_false] at hxyz
      obtain rfl | rfl | rfl := hxyz <;> simp at hname
    · exact absurd hcolors' hcolors
    · exact ⟨if_neg hcolors, rfl⟩
  rw [hoffset.1, hoffset.2, Nat.zero_mul, Memory.Store.finish, List.length_singleton] at hfinish
  exact absurd (show 16 + 1 ≤ 0 + 12 + 4 from hfinish) (by decide)

theorem fits_of_inside (hfields : cloud.declaredFields option = some fields)
    (h : Inside conversions msg cloud option fields)
    (hagree : cloud.HasIntensities option → cloud.intensityElements ≠ [] → option.withColors →
      cloud.HasColors option) : Fits cloud option where
  noOverflow := noOverflow_of_inside hfields h
  colors := colors_of_inside hfields h
  intensities hintensities := by
    refine length_le_of_finish_le (stepOf cloud option) Nat.one_pos fun k i hi ↦ ?_
    have hfinish := intensities_of_inside hfields h hintensities k i hi
    omega
  agree := hagree

theorem safe_iff_fits (hfields : cloud.declaredFields option = some fields) :
    Safe conversions msg cloud option ↔ Fits cloud option :=
  ⟨fun h ↦ fits_of_inside hfields (inside_of_safe hfields h) (agree_of_safe hfields h),
    within_of_fits⟩

/-! ### Reading the fields of a message -/

section Reading

variable {j : ℕ} {name : String} {field : PointField}

/-- The message that `ToRosPointcloud` makes when everything fits. -/
def written (conversions : Conversions) (msg : PointCloud2) (cloud : Pointcloud)
    (option : SerializeOption) (fields : PointFields) : PointCloud2 :=
  let msg := cloud.prepared conversions msg fields
  let stores := (cloud.stores option conversions msg.pointStep).map (·.toStore)
  { msg with data := Memory.writeAll msg.data stores }

theorem toRosPointcloud_eq_converted_iff {converted : PointCloud2}
    (hfields : cloud.declaredFields option = some fields) :
    toRosPointcloud conversions msg cloud option = .converted converted ↔
      Inside conversions msg cloud option fields ∧
        written conversions msg cloud option fields = converted := by
  unfold toRosPointcloud Inside written
  rw [hfields]
  dsimp only
  rw [pointStep_prepared hfields]
  simp only [List.forall_mem_map]
  split_ifs with hinside
  · simp only [Converted.converted.injEq]
    exact (and_iff_right hinside).symm
  · simp [hinside]

theorem length_data_of_fits (hfields : cloud.declaredFields option = some fields)
    (hfits : Fits cloud option) :
    (cloud.prepared conversions msg fields).data.length =
      cloud.pointElements.length * stepOf cloud option := by
  rw [length_data_prepared hfields, Nat.mod_eq_of_lt hfits.noOverflow]

theorem inside_of_fits (hfields : cloud.declaredFields option = some fields)
    (hfits : Fits cloud option) : Inside conversions msg cloud option fields := by
  intro store hmem
  obtain ⟨k, j, hplaced⟩ := exists_placed hfits hfields hmem
  rw [length_data_of_fits hfields hfits]
  exact finish_le_of_placed hplaced

theorem length_data_written (hfields : cloud.declaredFields option = some fields)
    (hfits : Fits cloud option) :
    (written conversions msg cloud option fields).data.length =
      cloud.pointElements.length * stepOf cloud option := by
  rw [written]
  dsimp only
  rw [pointStep_prepared hfields, Memory.length_writeAll, length_data_of_fits hfields hfits]
  rw [List.forall_mem_map]
  exact inside_of_fits hfields hfits

/-- Assumes: everything fits. What is read where a store wrote is what it wrote. -/
theorem read_written (hfields : cloud.declaredFields option = some fields)
    (hfits : Fits cloud option)
    (hmem : store ∈ cloud.stores option conversions (stepOf cloud option)) :
    Memory.read (written conversions msg cloud option fields).data store.address
      store.values.length = store.values := by
  obtain ⟨k, j, hplaced⟩ := exists_placed hfits hfields hmem
  rw [written]
  dsimp only
  rw [pointStep_prepared hfields]
  refine Memory.read_writeAll ?_ ?_ (List.mem_map_of_mem hmem)
  · rw [List.forall_mem_map]
    exact inside_of_fits hfields hfits
  · rw [List.forall_mem_map]
    intro other hother
    obtain ⟨k', j', hplaced'⟩ := exists_placed hfits hfields hother
    obtain rfl | hapart := eq_or_apart hplaced hplaced'
    · exact .inl rfl
    · exact .inr hapart

/-- Assumes: everything fits. A field is read as what was written for it. -/
theorem fieldAt_written (msg : PointCloud2) (hfields : cloud.declaredFields option = some fields)
    (hfits : Fits cloud option)
    (hmem : store ∈ cloud.stores option conversions (stepOf cloud option))
    (hfind : fields.pointFields.find? (·.name = store.field) = some field)
    (hoffset : store.address = store.point * stepOf cloud option + field.offset) :
    fieldAt (written conversions msg cloud option fields) store.field store.values.length
      store.point = some store.values := by
  obtain ⟨k, j, hplaced⟩ := exists_placed hfits hfields hmem
  have hfinish := finish_le_of_placed hplaced
  rw [Memory.Store.finish] at hfinish
  have hfind' : (written conversions msg cloud option fields).fields.find?
      (·.name = store.field) = some field := hfind
  have hstep : (written conversions msg cloud option fields).pointStep = stepOf cloud option :=
    (declaredFields_eq hfields).2.1
  simp only [fieldAt, hfind', Option.bind_eq_bind, Option.bind_some, hstep, ← hoffset]
  rw [length_data_written hfields hfits, if_pos hfinish, read_written hfields hfits hmem]

theorem mapM_eq_some_map {α β : Type} {f : α → Option β} {g : α → β} {as : List α}
    (h : ∀ a ∈ as, f a = some (g a)) : as.mapM f = some (as.map g) := by
  induction as with
  | nil => rfl
  | cons a rest ih =>
    rw [List.mapM_cons, h a List.mem_cons_self,
      ih fun b hmem ↦ h b (List.mem_cons_of_mem a hmem)]
    rfl

/-- Assumes: as many pieces as the message is wide, each read where it is. -/
theorem collect_eq {element : ℕ → Option (List UInt8)} {as : List UInt8} {size : ℕ}
    (hpos : 0 < size) (hlength : as.length = msg.width * size)
    (h : ∀ k piece, (pieces size as)[k]? = some piece → element k = some piece) :
    collect msg element = some as := by
  have hcount : as.length / size = msg.width := by
    rw [hlength, Nat.mul_div_cancel _ hpos]
  have helement (k : ℕ) (hk : k ∈ List.range msg.width) :
      element k = some ((as.drop (k * size)).take size) := by
    apply h
    rw [pieces, List.getElem?_map, hcount, List.getElem?_range (List.mem_range.mp hk)]
    rfl
  have hpieces : (List.range msg.width).map (fun k ↦ (as.drop (k * size)).take size) =
      pieces size as := by rw [pieces, hcount]
  rw [collect, mapM_eq_some_map helement, hpieces, Option.map_some, flatten_pieces hpos hlength]

end Reading

/-! ### Clouds that come back -/

/-- Points of three floats, with colours and intensities of bytes that are absent or one for each
point. -/
structure Regular (cloud : Pointcloud) (n : ℕ) : Prop where
  pointsType : cloud.points.type = dataType32FC3
  points : cloud.points.size = n * 12
  colors : cloud.colors.size = 0 ∨
    cloud.colors.type = dataType8UC3 ∧ cloud.colors.size = n * 3 ∨
    cloud.colors.type = dataType8UC4 ∧ cloud.colors.size = n * 4
  intensities : cloud.intensities.size = 0 ∨
    cloud.intensities.type = dataType8UC1 ∧ cloud.intensities.size = n

/-- The same elements, and where there are any the same type. -/
def SameElements (data restored : Data) : Prop :=
  restored.bytes = data.bytes ∧ (data.bytes ≠ [] → restored.type = data.type)

/-- What `ToRosPointcloud` makes is taken back by `FromRosPointcloud`. -/
def RoundTrips (conversions : Conversions) (msg : PointCloud2) (cloud : Pointcloud)
    (option : SerializeOption) : Prop :=
  ∃ converted restored, toRosPointcloud conversions msg cloud option = .converted converted ∧
    fromRosPointcloud converted option = some restored ∧
    SameElements cloud.points restored.points ∧ SameElements cloud.colors restored.colors ∧
    SameElements cloud.intensities restored.intensities

variable {n : ℕ}

theorem points_of_regular (h : Regular cloud n) :
    cloud.points.elementType = elementType32F ∧ cloud.points.channelSize = 3 := by
  rw [Data.elementType, Data.channelSize, Data.channelType, h.pointsType]
  decide

theorem pointElements_of_regular (h : Regular cloud n) :
    cloud.pointElements = pieces 12 cloud.points.bytes ∧ cloud.pointElements.length = n := by
  obtain ⟨helement, hchannel⟩ := points_of_regular h
  have hsize : cloud.pointSize = 12 := by
    rw [pointSize, coordinateSize, helement, hchannel]
    decide
  rw [pointElements, hsize, Data.length_elements, h.points]
  exact ⟨rfl, Nat.mul_div_cancel n (Nat.succ_pos 11)⟩

theorem coordinate_of_regular (h : Regular cloud n) (p : List UInt8) (i : ℕ) :
    cloud.coordinate conversions p i = Memory.read p (i * 4) 4 := by
  obtain ⟨helement, -⟩ := points_of_regular h
  have hsize : cloud.coordinateSize = 4 := by
    rw [coordinateSize, helement]
    decide
  rw [coordinate, helement, hsize, if_neg (by decide), if_pos rfl]

theorem colors_of_regular (h : Regular cloud n) (hcolors : cloud.HasColors option) :
    cloud.colors.elementType = elementType8U ∧
      (cloud.colors.channelSize = 3 ∧ cloud.colors.type = dataType8UC3 ∧
          cloud.colors.size = n * 3 ∨
        cloud.colors.channelSize = 4 ∧ cloud.colors.type = dataType8UC4 ∧
          cloud.colors.size = n * 4) := by
  rw [Data.elementType, Data.channelSize, Data.channelType]
  obtain hzero | ⟨htype, hsize⟩ | ⟨htype, hsize⟩ := h.colors
  · exact absurd hcolors.2 (Nat.not_lt.mpr (Nat.le_of_eq hzero))
  · rw [htype]
    exact ⟨by decide, .inl ⟨by decide, rfl, hsize⟩⟩
  · rw [htype]
    exact ⟨by decide, .inr ⟨by decide, rfl, hsize⟩⟩

theorem intensities_of_regular (h : Regular cloud n) (hintensities : cloud.HasIntensities option) :
    cloud.intensities.type = dataType8UC1 ∧ cloud.intensities.elementType = elementType8U ∧
      cloud.intensities.channelSize = 1 ∧ cloud.intensities.size = n := by
  obtain hzero | ⟨htype, hsize⟩ := h.intensities
  · exact absurd hintensities.2 (Nat.not_lt.mpr (Nat.le_of_eq hzero))
  · rw [Data.elementType, Data.channelSize, Data.channelType, htype]
    exact ⟨rfl, by decide, by decide, hsize⟩

/-- The types of a regular cloud are taken. -/
theorem declaredFields_of_regular (h : Regular cloud n) (option : SerializeOption) :
    ∃ fields, cloud.declaredFields option = some fields := by
  obtain ⟨helement, hchannel⟩ := points_of_regular h
  have hcoordinates : cloud.coordinateFields = some xyzFields := by
    rw [coordinateFields, helement, hchannel]
    rfl
  have hcolored (fields : PointFields) :
      ∃ colored, cloud.addColorField option fields = some colored := by
    by_cases hcolors : cloud.HasColors option
    · obtain ⟨hbyte, ⟨hthree, -⟩ | ⟨hfour, -⟩⟩ := colors_of_regular h hcolors
      · rw [addColorField, if_pos hcolors, hbyte, hthree]
        exact ⟨_, rfl⟩
      · rw [addColorField, if_pos hcolors, hbyte, hfour]
        exact ⟨_, rfl⟩
    · exact ⟨fields, if_neg hcolors⟩
  have hdeclared (fields : PointFields) :
      ∃ declared, cloud.addIntensityField option fields = some declared := by
    by_cases hintensities : cloud.HasIntensities option
    · obtain ⟨-, hbyte, hone, -⟩ := intensities_of_regular h hintensities
      rw [addIntensityField, if_pos hintensities, hbyte, hone]
      exact ⟨_, rfl⟩
    · exact ⟨fields, if_neg hintensities⟩
  obtain ⟨colored, hcolored⟩ := hcolored xyzFields
  obtain ⟨declared, hdeclared⟩ := hdeclared colored
  refine ⟨declared, ?_⟩
  rw [declaredFields, hcoordinates]
  simp [hcolored, hdeclared]

/-! ### What comes back -/

section Restoring

variable (conversions msg)

theorem colorField_cases (cloud : Pointcloud) :
    cloud.colorField = "rgb" ∧ cloud.colors.channelSize ≠ 4 ∨
      cloud.colorField = "rgba" ∧ cloud.colors.channelSize = 4 := by
  rw [colorField]
  by_cases hfour : cloud.colors.channelSize = 4
  · exact .inr ⟨if_pos hfour, hfour⟩
  · exact .inl ⟨if_neg hfour, hfour⟩

theorem find?_xyz (hfields : cloud.declaredFields option = some fields) :
    fields.pointFields.find? (·.name = "x") = some ⟨"x", 0, datatypeFloat32, 1⟩ ∧
    fields.pointFields.find? (·.name = "y") = some ⟨"y", 4, datatypeFloat32, 1⟩ ∧
    fields.pointFields.find? (·.name = "z") = some ⟨"z", 8, datatypeFloat32, 1⟩ := by
  rw [(declaredFields_eq hfields).2.2]
  exact ⟨rfl, rfl, rfl⟩

theorem find?_color (hfields : cloud.declaredFields option = some fields)
    (hcolors : cloud.HasColors option) :
    fields.pointFields.find? (·.name = cloud.colorField) =
      some ⟨cloud.colorField, 12, datatypeUint32, 1⟩ := by
  rw [(declaredFields_eq hfields).2.2, if_pos hcolors]
  obtain ⟨hname, -⟩ | ⟨hname, -⟩ := colorField_cases cloud <;>
    · rw [hname]
      rfl

theorem find?_intensity (hfields : cloud.declaredFields option = some fields)
    (hintensities : cloud.HasIntensities option) :
    fields.pointFields.find? (·.name = "intensity") =
      some ⟨"intensity", intensityOffset cloud option, datatypeUint32, 1⟩ := by
  rw [(declaredFields_eq hfields).2.2, if_pos hintensities]
  by_cases hcolors : cloud.HasColors option
  · rw [if_pos hcolors]
    obtain ⟨hname, -⟩ | ⟨hname, -⟩ := colorField_cases cloud <;>
      · rw [hname]
        rfl
  · rw [if_neg hcolors]
    rfl

/-- A message has a field for colours exactly under the name that it is declared with. -/
theorem hasField_written (hfields : cloud.declaredFields option = some fields) (name : String)
    (hxyz : hasField { msg with fields := xyzFields.pointFields } name = false) :
    hasField (written conversions msg cloud option fields) name =
      (decide (cloud.HasColors option ∧ cloud.colorField = name) ||
        decide (cloud.HasIntensities option ∧ "intensity" = name)) := by
  have hfields' : (written conversions msg cloud option fields).fields = fields.pointFields := rfl
  rw [hasField] at hxyz ⊢
  rw [hfields', (declaredFields_eq hfields).2.2, List.any_append, List.any_append, hxyz]
  split_ifs with hcolors hintensities hintensities <;> simp [hcolors, hintensities]

theorem width_written (hregular : Regular cloud n) (hfits : Fits cloud option) :
    (written conversions msg cloud option fields).width = n := by
  have hoverflow := hfits.noOverflow
  have hstep : 12 ≤ stepOf cloud option := stepOf_ge
  have hle : cloud.pointElements.length * 12 ≤ cloud.pointElements.length * stepOf cloud option :=
    Nat.mul_le_mul_left _ hstep
  have hlength := (pointElements_of_regular hregular).2
  rw [hlength] at hle hoverflow
  rw [written]
  dsimp only [prepared]
  rw [hlength, Nat.mod_eq_of_lt (by omega)]

theorem mem_stores_of_point (option : SerializeOption) {p : List UInt8} (hregular : Regular cloud n)
    (hp : cloud.pointElements[k]? = some p) (i : ℕ) (hi : i < 3) :
    (⟨⟨k * stepOf cloud option + i * 4, Memory.read p (i * 4) 4⟩, ["x", "y", "z"][i], k⟩ :
      FieldStore) ∈ cloud.stores option conversions (stepOf cloud option) := by
  obtain ⟨-, hchannel⟩ := points_of_regular hregular
  refine mem_stores.mpr (.inl ⟨k, p, hp, ?_⟩)
  rw [pointStores, hchannel, if_neg (by decide)]
  simp only [coordinate_of_regular hregular]
  obtain rfl | rfl | rfl : i = 0 ∨ i = 1 ∨ i = 2 := by omega
  all_goals simp

theorem collect_points (hregular : Regular cloud n)
    (hfields : cloud.declaredFields option = some fields) (hfits : Fits cloud option) :
    collect (written conversions msg cloud option fields)
      (pointAt (written conversions msg cloud option fields)) = some cloud.points.bytes := by
  obtain ⟨helements, hlength⟩ := pointElements_of_regular hregular
  obtain ⟨hx, hy, hz⟩ := find?_xyz hfields
  refine collect_eq (Nat.succ_pos 11) ?_ fun k p hp ↦ ?_
  · rw [width_written conversions msg hregular hfits]
    exact hregular.points
  · have hpoint : cloud.pointElements[k]? = some p := helements ▸ hp
    have hsize : p.length = 12 := length_of_mem_pieces (List.mem_of_getElem? hp)
    have hread (i : ℕ) (hi : i < 3) : (Memory.read p (i * 4) 4).length = 4 :=
      Memory.length_read (by omega)
    have hstore := mem_stores_of_point conversions option hregular hpoint
    have hatx := fieldAt_written msg hfields hfits (hstore 0 (by decide)) hx rfl
    have haty := fieldAt_written msg hfields hfits (hstore 1 (by decide)) hy rfl
    have hatz := fieldAt_written msg hfields hfits (hstore 2 (by decide)) hz rfl
    rw [hread 0 (by decide)] at hatx
    rw [hread 1 (by decide)] at haty
    rw [hread 2 (by decide)] at hatz
    have hwhole : Memory.read p (0 * 4) 4 ++ Memory.read p (1 * 4) 4 ++ Memory.read p (2 * 4) 4 =
        p := by
      calc Memory.read p 0 4 ++ Memory.read p 4 4 ++ Memory.read p 8 4
          = Memory.read p 0 12 := by rw [Memory.read_append p 0 4 4, Memory.read_append p 0 8 4]
        _ = p := by rw [Memory.read, List.drop_zero, ← hsize, List.take_length]
    calc pointAt (written conversions msg cloud option fields) k
        = some (Memory.read p (0 * 4) 4 ++ Memory.read p (1 * 4) 4 ++ Memory.read p (2 * 4) 4) := by
          rw [pointAt, show fieldAt _ "x" 4 k = _ from hatx, show fieldAt _ "y" 4 k = _ from haty,
            show fieldAt _ "z" 4 k = _ from hatz]
          rfl
      _ = some p := by rw [hwhole]

theorem component_of_byte (hbyte : cloud.colors.elementType = elementType8U) (c : List UInt8)
    (i : ℕ) : cloud.component conversions c i = c.getD i 0 := by
  rw [component, hbyte, if_neg (by decide)]

/-- Assumes: colors of a byte for each component. They are read as they were written, the blue one
first. -/
theorem fieldAt_color (msg : PointCloud2) (hfields : cloud.declaredFields option = some fields)
    (hfits : Fits cloud option) (hcolors : cloud.HasColors option)
    (hbyte : cloud.colors.elementType = elementType8U) {c values : List UInt8}
    (hc : cloud.colorElements[k]? = some c)
    (hvalues : (if cloud.colors.channelSize = 4 then
      [c.getD 2 0, c.getD 1 0, c.getD 0 0] ++ [c.getD 3 0]
      else [c.getD 2 0, c.getD 1 0, c.getD 0 0]) = values) :
    fieldAt (written conversions msg cloud option fields) cloud.colorField values.length k =
      some values := by
  have hstore : (⟨⟨12 + k * stepOf cloud option, values⟩, cloud.colorField, k⟩ : FieldStore) ∈
      cloud.stores option conversions (stepOf cloud option) := by
    refine mem_stores.mpr (.inr (.inl ⟨hcolors, k, c, hc, ?_⟩))
    rw [← hvalues, colorStores]
    simp only [List.map_cons, List.map_nil, component_of_byte conversions hbyte]
    exact List.mem_singleton_self _
  exact fieldAt_written msg hfields hfits hstore (find?_color hfields hcolors) (Nat.add_comm _ _)

theorem collect_rgb (hregular : Regular cloud n)
    (hfields : cloud.declaredFields option = some fields) (hfits : Fits cloud option)
    (hcolors : cloud.HasColors option) (hbyte : cloud.colors.elementType = elementType8U)
    (hthree : cloud.colors.channelSize = 3) (hsize : cloud.colors.size = n * 3) :
    collect (written conversions msg cloud option fields)
      (rgbAt (written conversions msg cloud option fields)) = some cloud.colors.bytes := by
  have hname : cloud.colorField = "rgb" := by rw [colorField, hthree, if_neg (by decide)]
  have helements : cloud.colorElements = pieces 3 cloud.colors.bytes := by
    rw [colorElements, componentCount, componentSize, hthree, hbyte]
    rfl
  refine collect_eq (Nat.succ_pos 2) ?_ fun k c hc ↦ ?_
  · rw [width_written conversions msg hregular hfits]
    exact hsize
  · have hlength : c.length = 3 := length_of_mem_pieces (List.mem_of_getElem? hc)
    have hat := fieldAt_color conversions msg hfields hfits hcolors hbyte (helements ▸ hc)
      (if_neg (by omega))
    rw [hname] at hat
    obtain ⟨r, g, b, rfl⟩ := List.length_eq_three.mp hlength
    rw [rgbAt, show fieldAt _ "rgb" 3 k = _ from hat]
    rfl

theorem collect_rgba (hregular : Regular cloud n)
    (hfields : cloud.declaredFields option = some fields) (hfits : Fits cloud option)
    (hcolors : cloud.HasColors option) (hbyte : cloud.colors.elementType = elementType8U)
    (hfour : cloud.colors.channelSize = 4) (hsize : cloud.colors.size = n * 4) :
    collect (written conversions msg cloud option fields)
      (rgbaAt (written conversions msg cloud option fields)) = some cloud.colors.bytes := by
  have hname : cloud.colorField = "rgba" := by rw [colorField, if_pos hfour]
  have helements : cloud.colorElements = pieces 4 cloud.colors.bytes := by
    rw [colorElements, componentCount, componentSize, hfour, hbyte]
    rfl
  refine collect_eq (Nat.succ_pos 3) ?_ fun k c hc ↦ ?_
  · rw [width_written conversions msg hregular hfits]
    exact hsize
  · have hlength : c.length = 4 := length_of_mem_pieces (List.mem_of_getElem? hc)
    have hat := fieldAt_color conversions msg hfields hfits hcolors hbyte (helements ▸ hc)
      (if_pos hfour)
    rw [hname] at hat
    obtain ⟨r, rest, rfl⟩ := List.exists_cons_of_length_eq_add_one hlength
    obtain ⟨g, b, a, rfl⟩ := List.length_eq_three.mp (Nat.succ.inj hlength)
    rw [rgbaAt, show fieldAt _ "rgba" 4 k = _ from hat]
    rfl

theorem collect_intensities (hregular : Regular cloud n)
    (hfields : cloud.declaredFields option = some fields) (hfits : Fits cloud option)
    (hintensities : cloud.HasIntensities option) :
    collect (written conversions msg cloud option fields)
      (fieldAt (written conversions msg cloud option fields) "intensity" 1) =
        some cloud.intensities.bytes := by
  obtain ⟨-, hbyte, -, hsize⟩ := intensities_of_regular hregular hintensities
  have helements : cloud.intensityElements = pieces 1 cloud.intensities.bytes := by
    rw [intensityElements, if_pos hbyte]
    rfl
  refine collect_eq Nat.one_pos ?_ fun k i hi ↦ ?_
  · rw [width_written conversions msg hregular hfits, Nat.mul_one]
    exact hsize
  · have hlength : i.length = 1 := length_of_mem_pieces (List.mem_of_getElem? hi)
    have hmem : cloud.intensityElements[k]? = some i := helements ▸ hi
    have hne : cloud.intensityElements ≠ [] := by
      intro hnil
      rw [hnil] at hmem
      cases hmem
    have hwith : (if option.withColors then 16 else 12) = intensityOffset cloud option := by
      by_cases hcolors : cloud.HasColors option
      · rw [intensityOffset, if_pos hcolors, if_pos hcolors.1]
      · rw [intensityOffset, if_neg hcolors,
          if_neg fun h ↦ hcolors (hfits.agree hintensities hne h)]
    have hstore : (⟨⟨intensityOffset cloud option + k * stepOf cloud option, [i.getD 0 0]⟩,
        "intensity", k⟩ : FieldStore) ∈ cloud.stores option conversions (stepOf cloud option) := by
      refine mem_stores.mpr (.inr (.inr ⟨hintensities, k, i, hmem, ?_⟩))
      rw [intensityStores, hwith, intensityByte, if_pos hbyte]
      exact List.mem_cons_self
    have hat := fieldAt_written msg hfields hfits hstore (find?_intensity hfields hintensities)
      (Nat.add_comm _ _)
    obtain ⟨byte, rfl⟩ := List.length_eq_one_iff.mp hlength
    exact hat

theorem sameElements_default {data : Data} (h : data.size = 0) : SameElements data {} := by
  have hnil : data.bytes = [] := List.eq_nil_of_length_eq_zero h
  exact ⟨hnil.symm, fun hne ↦ absurd hnil hne⟩

/-- Assumes: everything fits. Colours that are asked for come back. -/
theorem colorsOf_written (hregular : Regular cloud n)
    (hfields : cloud.declaredFields option = some fields) (hfits : Fits cloud option)
    (hwith : option.withColors) :
    ∃ colors, colorsOf (written conversions msg cloud option fields) option = some colors ∧
      SameElements cloud.colors colors := by
  have hrgb := hasField_written conversions msg hfields "rgb" rfl
  have hrgba := hasField_written conversions msg hfields "rgba" rfl
  rw [colorsOf, if_pos hwith, hrgb, hrgba]
  by_cases hcolors : cloud.HasColors option
  · obtain ⟨hbyte, ⟨hthree, htype, hsize⟩ | ⟨hfour, htype, hsize⟩⟩ :=
      colors_of_regular hregular hcolors
    · have hname : cloud.colorField = "rgb" := by rw [colorField, hthree, if_neg (by decide)]
      rw [if_pos (by simp [hcolors, hname]),
        collect_rgb conversions msg hregular hfields hfits hcolors hbyte hthree hsize]
      exact ⟨_, rfl, rfl, fun _ ↦ htype.symm⟩
    · have hname : cloud.colorField = "rgba" := by rw [colorField, if_pos hfour]
      rw [if_neg (by simp [hname]), if_pos (by simp [hcolors, hname]),
        collect_rgba conversions msg hregular hfields hfits hcolors hbyte hfour hsize]
      exact ⟨_, rfl, rfl, fun _ ↦ htype.symm⟩
  · have hzero : cloud.colors.size = 0 := by
      by_contra hne
      exact hcolors ⟨hwith, Nat.pos_of_ne_zero hne⟩
    rw [if_neg (by simp [hcolors]), if_neg (by simp [hcolors])]
    exact ⟨{}, rfl, sameElements_default hzero⟩

/-- Assumes: everything fits. Intensities that are asked for come back. -/
theorem intensitiesOf_written (hregular : Regular cloud n)
    (hfields : cloud.declaredFields option = some fields) (hfits : Fits cloud option)
    (hwith : option.withIntensities) :
    ∃ intensities,
      intensitiesOf (written conversions msg cloud option fields) option = some intensities ∧
      SameElements cloud.intensities intensities := by
  have hfield := hasField_written conversions msg hfields "intensity" rfl
  have hname : cloud.colorField ≠ "intensity" := by
    obtain ⟨hname, -⟩ | ⟨hname, -⟩ := colorField_cases cloud <;>
      · rw [hname]
        decide
  rw [intensitiesOf, hfield]
  by_cases hintensities : cloud.HasIntensities option
  · obtain ⟨htype, -, -, -⟩ := intensities_of_regular hregular hintensities
    rw [if_pos ⟨hwith, by simp [hintensities]⟩,
      collect_intensities conversions msg hregular hfields hfits hintensities]
    exact ⟨_, rfl, rfl, fun _ ↦ htype.symm⟩
  · have hzero : cloud.intensities.size = 0 := by
      by_contra hne
      exact hintensities ⟨hwith, Nat.pos_of_ne_zero hne⟩
    rw [if_neg (by simp [hintensities, hname])]
    exact ⟨{}, rfl, sameElements_default hzero⟩

end Restoring

theorem size_of_sameElements {data : Data} (h : SameElements data {}) : data.size = 0 := by
  rw [Data.size, ← h.1]
  rfl

/-- Colours or intensities that are not asked for are not in what comes back. -/
theorem sizes_of_fromRosPointcloud {restored : Pointcloud}
    (h : fromRosPointcloud msg option = some restored) :
    (¬option.withColors → restored.colors = {}) ∧
      (¬option.withIntensities → restored.intensities = {}) := by
  simp only [fromRosPointcloud, Option.bind_eq_bind, Option.bind_eq_some_iff] at h
  obtain ⟨points, -, colors, hcolors, intensities, hintensities, hrestored⟩ := h
  obtain rfl := Option.some.inj hrestored
  refine ⟨fun hwith ↦ ?_, fun hwith ↦ ?_⟩
  · rw [colorsOf, if_neg hwith] at hcolors
    exact (Option.some.inj hcolors).symm
  · rw [intensitiesOf, if_neg fun h ↦ hwith h.1] at hintensities
    exact (Option.some.inj hintensities).symm

/-- Intensities behind colours that do not exist leave the data of a regular cloud. -/
theorem agree_of_inside (hregular : Regular cloud n)
    (hfields : cloud.declaredFields option = some fields)
    (h : Inside conversions msg cloud option fields) (hintensities : cloud.HasIntensities option)
    (hwith : option.withColors) : cloud.HasColors option := by
  by_contra hcolors
  obtain ⟨-, hbyte, -, hsize⟩ := intensities_of_regular hregular hintensities
  have hlength : cloud.intensityElements.length = n := by
    rw [intensityElements, if_pos hbyte, Data.length_elements, Nat.div_one, hsize]
  have hpos : 0 < n := hsize ▸ hintensities.2
  have hstep : stepOf cloud option = 16 := by
    rw [stepOf_of_hasIntensities hintensities, intensityOffset, if_neg hcolors]
  have hlast := intensities_of_inside hfields h hintensities (n - 1) _
    (List.getElem?_eq_getElem (by omega))
  rw [if_pos hwith, hstep, (pointElements_of_regular hregular).2] at hlast
  omega

theorem roundTrips_iff_fits (hregular : Regular cloud n) :
    RoundTrips conversions msg cloud option ↔
      Fits cloud option ∧ (option.withColors ∨ cloud.colors.size = 0) ∧
        (option.withIntensities ∨ cloud.intensities.size = 0) := by
  obtain ⟨fields, hfields⟩ := declaredFields_of_regular hregular option
  constructor
  · rintro ⟨converted, restored, hto, hfrom, -, hcolors, hintensities⟩
    obtain ⟨hinside, -⟩ := (toRosPointcloud_eq_converted_iff hfields).mp hto
    obtain ⟨hnoColors, hnoIntensities⟩ := sizes_of_fromRosPointcloud hfrom
    refine ⟨fits_of_inside hfields hinside fun hhas _ hwith ↦
      agree_of_inside hregular hfields hinside hhas hwith, ?_, ?_⟩
    · by_cases hwith : option.withColors
      · exact .inl hwith
      · rw [hnoColors hwith] at hcolors
        exact .inr (size_of_sameElements hcolors)
    · by_cases hwith : option.withIntensities
      · exact .inl hwith
      · rw [hnoIntensities hwith] at hintensities
        exact .inr (size_of_sameElements hintensities)
  · rintro ⟨hfits, hcolors, hintensities⟩
    have hpoints := collect_points conversions msg hregular hfields hfits
    obtain ⟨colors, hcolorsOf, hsameColors⟩ :
        ∃ colors, colorsOf (written conversions msg cloud option fields) option = some colors ∧
          SameElements cloud.colors colors := by
      by_cases hwith : option.withColors
      · exact colorsOf_written conversions msg hregular hfields hfits hwith
      · exact ⟨{}, if_neg hwith, sameElements_default (hcolors.resolve_left hwith)⟩
    obtain ⟨intensities, hintensitiesOf, hsameIntensities⟩ :
        ∃ intensities,
          intensitiesOf (written conversions msg cloud option fields) option = some intensities ∧
          SameElements cloud.intensities intensities := by
      by_cases hwith : option.withIntensities
      · exact intensitiesOf_written conversions msg hregular hfields hfits hwith
      · exact ⟨{}, if_neg fun h ↦ hwith h.1,
          sameElements_default (hintensities.resolve_left hwith)⟩
    have hto : toRosPointcloud conversions msg cloud option =
        .converted (written conversions msg cloud option fields) :=
      (toRosPointcloud_eq_converted_iff hfields).mpr ⟨inside_of_fits hfields hfits, rfl⟩
    have hfrom : fromRosPointcloud (written conversions msg cloud option fields) option = some {
        points := ⟨cloud.points.bytes, dataType32FC3⟩
        intensities := intensities
        colors := colors
        timestamp := (written conversions msg cloud option fields).stamp / 1000 } := by
      rw [fromRosPointcloud, hpoints, hcolorsOf, hintensitiesOf]
      rfl
    exact ⟨_, _, hto, hfrom, ⟨rfl, fun _ ↦ hregular.pointsType.symm⟩, hsameColors,
      hsameIntensities⟩

/-- Every byte that is written is in its place exactly when everything fits, and a regular cloud
comes back exactly when, besides, nothing that it has is left out. -/
theorem toRosPointcloud_iff_fits (conversions : Conversions) (msg : PointCloud2) :
    (∀ cloud option, (cloud.declaredFields option).isSome →
      (Safe conversions msg cloud option ↔ Fits cloud option)) ∧
    ∀ cloud option n, Regular cloud n →
      (RoundTrips conversions msg cloud option ↔
        Fits cloud option ∧ (option.withColors ∨ cloud.colors.size = 0) ∧
          (option.withIntensities ∨ cloud.intensities.size = 0)) := by
  refine ⟨fun cloud option haccepted ↦ ?_,
    fun cloud option n hregular ↦ roundTrips_iff_fits hregular⟩
  obtain ⟨fields, hfields⟩ := Option.isSome_iff_exists.mp haccepted
  exact safe_iff_fits hfields

namespace Scenario

/-- Numbers that are converted to zero. -/
def zeros : Conversions where
  floatOfInt _ := [0, 0, 0, 0]
  floatOfDouble _ := [0, 0, 0, 0]
  byteOfFloat _ := 0
  toRosTime time := time.toNat * 1000
  length_floatOfInt _ := rfl
  length_floatOfDouble _ := rfl

/-- A message as its constructor leaves it. -/
def emptyMessage : PointCloud2 := ⟨0, 0, 0, [], 0, 0, []⟩

/-- The default of both calls. -/
def withBoth : SerializeOption := ⟨true, true⟩

/-- The origin, with its intensity. -/
def onePoint : Pointcloud where
  points := ⟨List.replicate 12 0, dataType32FC3⟩
  intensities := ⟨[200], dataType8UC1⟩

/-- The origin, with its colour and its intensity. -/
def coloredPoint : Pointcloud where
  points := ⟨List.replicate 12 0, dataType32FC3⟩
  colors := ⟨[1, 2, 3], dataType8UC3⟩
  intensities := ⟨[200], dataType8UC1⟩

end Scenario

open Scenario in
theorem coloredPoint_roundTrips :
    Regular coloredPoint 1 ∧ RoundTrips zeros emptyMessage coloredPoint withBoth := by
  have hregular : Regular coloredPoint 1 :=
    ⟨rfl, rfl, .inr (.inl ⟨rfl, rfl⟩), .inr ⟨rfl, rfl⟩⟩
  have hfits : Fits coloredPoint withBoth :=
    ⟨by decide, by decide, by decide, fun _ _ _ ↦ by decide⟩
  refine ⟨hregular, ?_⟩
  exact ((toRosPointcloud_iff_fits zeros emptyMessage).2 coloredPoint withBoth 1 hregular).mpr
    ⟨hfits, .inl rfl, .inl rfl⟩

open Scenario in
/-- An intensity and no colour: the byte is written behind the data of the message. -/
theorem toRosPointcloud_overruns :
    (onePoint.declaredFields withBoth).isSome ∧ ¬Safe zeros emptyMessage onePoint withBoth ∧
      Regular onePoint 1 ∧ ¬RoundTrips zeros emptyMessage onePoint withBoth := by
  have hregular : Regular onePoint 1 := ⟨rfl, rfl, .inl rfl, .inr ⟨rfl, rfl⟩⟩
  have hnot : ¬Fits onePoint withBoth := fun h ↦ absurd
    (h.agree (by decide) (by decide) rfl).2 (by decide)
  obtain ⟨fields, hfields⟩ := declaredFields_of_regular hregular withBoth
  refine ⟨?_, fun h ↦ hnot ((safe_iff_fits hfields).mp h), hregular,
    fun h ↦ hnot ((roundTrips_iff_fits hregular).mp h).1⟩
  rw [hfields]
  rfl

end Felicia.RosPointclouds
