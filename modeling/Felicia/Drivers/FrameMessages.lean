import Felicia.Core.Messages
import Felicia.Drivers.CameraFormat
import Felicia.Map.RosPointcloud

/-!
# Decoding the messages of frames

`FromDataMessage`, `FromPointcloudMessage`, `FromCameraFrameMessage` and `FromLidarFrameMessage`
each copy a message or take it apart. A message that is taken apart gives up a field by `release`,
which is null where the field is not set, and all four go on without looking (`take_eq_from_iff`).
-/

set_option autoImplicit false
set_option relaxedAutoImplicit false

namespace Felicia.FrameMessages

open Containers RosPointclouds Cameras

/-- What a decoder comes to. -/
inductive Decoded (α : Type)
  /-- A null pointer is dereferenced. -/
  | crashed
  | failed (status : Status)
  | ok (value : α)

namespace Decoded

variable {α β : Type}

/-- `if (!s.ok()) return s;`, and then the rest. -/
def bind : Decoded α → (α → Decoded β) → Decoded β
  | crashed, _ => crashed
  | failed status, _ => failed status
  | ok value, rest => rest value

/-- What a pointer points to. -/
def deref : Option α → Decoded α
  | none => crashed
  | some value => ok value

@[simp] theorem bind_ok (value : α) (rest : α → Decoded β) : (ok value).bind rest = rest value :=
  rfl

@[simp] theorem bind_crashed (rest : α → Decoded β) : crashed.bind rest = crashed := rfl

@[simp] theorem deref_some (value : α) : deref (some value) = ok value := rfl

end Decoded

open Decoded

/-! ### Messages -/

/-- `DataMessage`. -/
structure DataMessage where
  type : UInt32 := 0
  data : Option (List UInt8) := none

/-- `map::PointcloudMessage`. -/
structure PointcloudMessage where
  points : Option DataMessage := none
  intensities : Option DataMessage := none
  colors : Option DataMessage := none
  timestamp : ℤ := 0

/-- `drivers::CameraFrameMessage`. -/
structure CameraFrameMessage where
  data : Option (List UInt8) := none
  cameraFormat : Option CameraFormatMessage := none
  timestamp : ℤ := 0

/-- `drivers::LidarFrameMessage`. A float is its bits. -/
structure LidarFrameMessage where
  angleStart : UInt32 := 0
  angleEnd : UInt32 := 0
  angleDelta : UInt32 := 0
  timeDelta : UInt32 := 0
  scanTime : UInt32 := 0
  rangeMin : UInt32 := 0
  rangeMax : UInt32 := 0
  ranges : Option (List UInt8) := none
  intensities : Option (List UInt8) := none
  timestamp : ℤ := 0

/-! ### Frames -/

structure CameraFrame where
  data : Data
  cameraFormat : CameraFormat
  timestamp : ℤ

structure LidarFrame where
  angleStart : UInt32
  angleEnd : UInt32
  angleDelta : UInt32
  timeDelta : UInt32
  scanTime : UInt32
  rangeMin : UInt32
  rangeMax : UInt32
  ranges : Data
  intensities : Data
  timestamp : ℤ

/-! ### Copying -/

/-- `FromDataMessage(const DataMessage&)`. -/
def fromDataMessage (message : DataMessage) : Decoded Data :=
  .ok ⟨message.data.getD [], message.type⟩

/-- `FromPointcloudMessage(const PointcloudMessage&, int)`. -/
def fromPointcloudMessage (message : PointcloudMessage) (option : SerializeOption) :
    Decoded Pointcloud :=
  (fromDataMessage (message.points.getD {})).bind fun points ↦
  (if option.withIntensities then fromDataMessage (message.intensities.getD {})
    else .ok {}).bind fun intensities ↦
  (if option.withColors then fromDataMessage (message.colors.getD {})
    else .ok {}).bind fun colors ↦
  .ok ⟨points, intensities, colors, message.timestamp⟩

/-- `FromCameraFrameMessage(const CameraFrameMessage&)`. -/
def fromCameraFrameMessage (message : CameraFrameMessage) : Decoded CameraFrame :=
  let cameraFormat := CameraFormat.fromCameraFormatMessage (message.cameraFormat.getD {})
  .ok ⟨{ bytes := message.data.getD [] }, cameraFormat, message.timestamp⟩

/-- What both overloads of `FromLidarFrameMessage` make, with the bytes that they have taken. -/
def lidarFrame (message : LidarFrameMessage) (ranges intensities : List UInt8) : LidarFrame where
  angleStart := message.angleStart
  angleEnd := message.angleEnd
  angleDelta := message.angleDelta
  timeDelta := message.timeDelta
  scanTime := message.scanTime
  rangeMin := message.rangeMin
  rangeMax := message.rangeMax
  ranges := { bytes := ranges }
  intensities := { bytes := intensities }
  timestamp := message.timestamp

/-- `FromLidarFrameMessage(const LidarFrameMessage&)`. -/
def fromLidarFrameMessage (message : LidarFrameMessage) : Decoded LidarFrame :=
  .ok (lidarFrame message (message.ranges.getD []) (message.intensities.getD []))

/-! ### Taking apart -/

/-- `FromDataMessage(DataMessage&&)`. `release_data` leaves the field unset. -/
def takeDataMessage (message : DataMessage) : Decoded Data :=
  let data := message.data
  let message := { message with data := none }
  (deref data).bind fun data ↦ .ok ⟨data, message.type⟩

/-- `FromPointcloudMessage(PointcloudMessage&&, int)`. -/
def takePointcloudMessage (message : PointcloudMessage) (option : SerializeOption) :
    Decoded Pointcloud :=
  let pointsMessage := message.points
  let message := { message with points := none }
  ((deref pointsMessage).bind takeDataMessage).bind fun points ↦
  (if option.withIntensities then (deref message.intensities).bind takeDataMessage
    else .ok {}).bind fun intensities ↦
  let message := if option.withIntensities then { message with intensities := none } else message
  (if option.withColors then (deref message.colors).bind takeDataMessage
    else .ok {}).bind fun colors ↦
  let message := if option.withColors then { message with colors := none } else message
  .ok ⟨points, intensities, colors, message.timestamp⟩

/-- `FromCameraFrameMessage(CameraFrameMessage&&)`. -/
def takeCameraFrameMessage (message : CameraFrameMessage) : Decoded CameraFrame :=
  let cameraFormat := CameraFormat.fromCameraFormatMessage (message.cameraFormat.getD {})
  let data := message.data
  let message := { message with data := none }
  (deref data).bind fun data ↦ .ok ⟨{ bytes := data }, cameraFormat, message.timestamp⟩

/-- `FromLidarFrameMessage(LidarFrameMessage&&)`. -/
def takeLidarFrameMessage (message : LidarFrameMessage) : Decoded LidarFrame :=
  let ranges := message.ranges
  let message := { message with ranges := none }
  let intensities := message.intensities
  let message := { message with intensities := none }
  (deref ranges).bind fun ranges ↦
  (deref intensities).bind fun intensities ↦ .ok (lidarFrame message ranges intensities)

/-! ### Both agree when everything that is taken is set -/

/-- A data message that is set, with its bytes. -/
def HasData (message : Option DataMessage) : Prop := ∃ data, message = some data ∧ data.data.isSome

variable {option : SerializeOption}

/-- What is taken is what is copied, or a null pointer is dereferenced. -/
theorem takeDataMessage_cases (message : DataMessage) :
    message.data.isSome ∧ takeDataMessage message = fromDataMessage message ∨
      ¬message.data.isSome ∧ takeDataMessage message = .crashed := by
  cases hdata : message.data with
  | none => exact .inr ⟨by simp, by rw [takeDataMessage, hdata]; rfl⟩
  | some data => exact .inl ⟨by simp, by rw [takeDataMessage, fromDataMessage, hdata]; rfl⟩

theorem deref_takeDataMessage_cases (message : Option DataMessage) :
    HasData message ∧
        (deref message).bind takeDataMessage = fromDataMessage (message.getD {}) ∨
      ¬HasData message ∧ (deref message).bind takeDataMessage = .crashed := by
  cases message with
  | none => exact .inr ⟨by simp [HasData], rfl⟩
  | some data => simpa [HasData] using takeDataMessage_cases data

/-- The same for a field that is taken only when the option asks for it. -/
theorem take_if_cases (asked : Bool) (message : Option DataMessage) :
    (asked → HasData message) ∧
        (if asked then (deref message).bind takeDataMessage else .ok {}) =
          (if asked then fromDataMessage (message.getD {}) else .ok {}) ∨
      ¬(asked → HasData message) ∧
        (if asked then (deref message).bind takeDataMessage else .ok {}) = .crashed := by
  cases asked with
  | false => simp
  | true => simpa using deref_takeDataMessage_cases message

/-- A copy never fails. -/
theorem exists_fromPointcloudMessage (message : PointcloudMessage) (option : SerializeOption) :
    ∃ cloud, fromPointcloudMessage message option = .ok cloud := by
  cases option with
  | mk withIntensities withColors =>
    cases withIntensities <;> cases withColors <;> exact ⟨_, rfl⟩

/-- Fields that are released do not change those that are read later. -/
theorem takePointcloudMessage_eq (message : PointcloudMessage) (option : SerializeOption) :
    takePointcloudMessage message option =
      ((deref message.points).bind takeDataMessage).bind fun points ↦
      (if option.withIntensities then (deref message.intensities).bind takeDataMessage
        else .ok {}).bind fun intensities ↦
      (if option.withColors then (deref message.colors).bind takeDataMessage
        else .ok {}).bind fun colors ↦
      .ok ⟨points, intensities, colors, message.timestamp⟩ := by
  rw [takePointcloudMessage]
  simp only [apply_ite PointcloudMessage.colors, apply_ite PointcloudMessage.timestamp, ite_self]

theorem takePointcloudMessage_eq_iff (message : PointcloudMessage) (option : SerializeOption) :
    takePointcloudMessage message option = fromPointcloudMessage message option ↔
      HasData message.points ∧ (option.withIntensities → HasData message.intensities) ∧
        (option.withColors → HasData message.colors) := by
  obtain ⟨cloud, hcopied⟩ := exists_fromPointcloudMessage message option
  have hcrashed (h : takePointcloudMessage message option = .crashed) :
      takePointcloudMessage message option ≠ fromPointcloudMessage message option := by
    rw [h, hcopied]
    simp
  rw [takePointcloudMessage_eq] at hcrashed ⊢
  obtain ⟨hpoints, htake⟩ | ⟨hpoints, htake⟩ := deref_takeDataMessage_cases message.points
  · rw [htake] at hcrashed ⊢
    obtain ⟨hintensities, htake'⟩ | ⟨hintensities, htake'⟩ :=
      take_if_cases option.withIntensities message.intensities
    · rw [htake'] at hcrashed ⊢
      obtain ⟨hcolors, htake''⟩ | ⟨hcolors, htake''⟩ :=
        take_if_cases option.withColors message.colors
      · rw [htake'']
        exact iff_of_true rfl ⟨hpoints, hintensities, hcolors⟩
      · refine iff_of_false (hcrashed ?_) fun h ↦ hcolors h.2.2
        rw [htake'']
        cases option.withIntensities <;> rfl
    · refine iff_of_false (hcrashed ?_) fun h ↦ hintensities h.2.1
      rw [htake']
      rfl
  · refine iff_of_false (hcrashed ?_) fun h ↦ hpoints h.1
    rw [htake]
    rfl

theorem takeDataMessage_eq_iff (message : DataMessage) :
    takeDataMessage message = fromDataMessage message ↔ message.data.isSome := by
  obtain ⟨hdata, htake⟩ | ⟨hdata, htake⟩ := takeDataMessage_cases message
  · exact iff_of_true htake hdata
  · refine iff_of_false ?_ hdata
    rw [htake]
    simp [fromDataMessage]

theorem takeCameraFrameMessage_eq_iff (message : CameraFrameMessage) :
    takeCameraFrameMessage message = fromCameraFrameMessage message ↔ message.data.isSome := by
  rw [takeCameraFrameMessage, fromCameraFrameMessage]
  cases message.data <;> simp [deref]

theorem takeLidarFrameMessage_eq_iff (message : LidarFrameMessage) :
    takeLidarFrameMessage message = fromLidarFrameMessage message ↔
      message.ranges.isSome ∧ message.intensities.isSome := by
  rw [takeLidarFrameMessage, fromLidarFrameMessage]
  cases message.ranges <;> cases message.intensities <;> simp [deref, lidarFrame]

/-- Taking a message apart gives what copying it gives exactly when everything that is released is
set. -/
theorem take_eq_from_iff (data : DataMessage) (pointcloud : PointcloudMessage)
    (option : SerializeOption) (cameraFrame : CameraFrameMessage)
    (lidarFrame : LidarFrameMessage) :
    (takeDataMessage data = fromDataMessage data ↔ data.data.isSome) ∧
    (takePointcloudMessage pointcloud option = fromPointcloudMessage pointcloud option ↔
      HasData pointcloud.points ∧ (option.withIntensities → HasData pointcloud.intensities) ∧
        (option.withColors → HasData pointcloud.colors)) ∧
    (takeCameraFrameMessage cameraFrame = fromCameraFrameMessage cameraFrame ↔
      cameraFrame.data.isSome) ∧
    (takeLidarFrameMessage lidarFrame = fromLidarFrameMessage lidarFrame ↔
      lidarFrame.ranges.isSome ∧ lidarFrame.intensities.isSome) :=
  ⟨takeDataMessage_eq_iff data, takePointcloudMessage_eq_iff pointcloud option,
    takeCameraFrameMessage_eq_iff cameraFrame, takeLidarFrameMessage_eq_iff lidarFrame⟩

namespace Scenario

/-- A point, from a publisher that leaves intensities and colors out. -/
def pointsOnly : PointcloudMessage where
  points := some { data := some (List.replicate 12 0) }

end Scenario

open Scenario in
/-- A subscriber that asks for everything copies the message, and crashes when it takes it apart. -/
theorem takePointcloudMessage_crashes :
    takePointcloudMessage pointsOnly ⟨true, true⟩ = .crashed ∧
      fromPointcloudMessage pointsOnly ⟨true, true⟩ =
        .ok { points := ⟨List.replicate 12 0, 0⟩, intensities := ⟨[], 0⟩, colors := ⟨[], 0⟩ } :=
  ⟨rfl, rfl⟩

end Felicia.FrameMessages
