import Felicia.Support.Pieces
import Mathlib.Logic.Function.Basic

/-!
# Files of point clouds

`save` writes the floats of a cloud as a stream writes them, as text; `load` reads records of four
floats of four bytes each (`load_of_records`). `Data` counts bytes while its views count elements,
and `save` goes over the bytes: the first index behind the elements fails a check of the view's
iterator (`save_of_pos`). Only clouds without points come back (`roundTrips_iff`).
-/

set_option autoImplicit false
set_option relaxedAutoImplicit false

namespace Felicia.Pointclouds

/-- Bytes, of which a view reads elements of a size. -/
structure Data where
  bytes : List UInt8

def Data.size (data : Data) : ℕ := data.bytes.length

/-- An element of a view, unless the check of its iterator fails. -/
def Data.viewAt (data : Data) (sizeOf i : ℕ) : Option (List UInt8) :=
  if i < data.size / sizeOf then some ((data.bytes.drop (i * sizeOf)).take sizeOf) else none

structure Pointcloud where
  points : Data
  intensities : Data
  colors : Data

structure SerializeOption where
  withIntensities : Bool
  withColors : Bool

/-- A path, with the extension that it has. -/
structure FilePath where
  value : String
  extension : String
  deriving DecidableEq

structure Disk where
  content : FilePath → Option (List UInt8)
  /-- A file can be created at a path. -/
  writable : FilePath → Bool

namespace Disk

def readFile (disk : Disk) (path : FilePath) : Option (List UInt8) := disk.content path

def writeFile (disk : Disk) (path : FilePath) (content : List UInt8) : Option Disk :=
  if disk.writable path then
    some { disk with content := Function.update disk.content path (some content) }
  else none

end Disk

/-- What a call comes to. A check that fails ends the process. -/
inductive Outcome (α : Type)
  | aborted
  | invalidArgument (message : String)
  | ok (value : α)

namespace Pointcloud

/-- What is written for the elements at an index. `text` is what a stream writes for a float. -/
def record (text : List UInt8 → List UInt8) (withIntensities : Bool) (cloud : Pointcloud)
    (i : ℕ) : Option (List UInt8) := do
  let p ← cloud.points.viewAt 12 i
  let point := text (p.take 4) ++ text ((p.drop 4).take 4) ++ text (p.drop 8)
  if withIntensities then
    let intensity ← cloud.intensities.viewAt 4 i
    return point ++ text intensity
  else return point

/-- What is written for the elements at some indices. -/
def records (text : List UInt8 → List UInt8) (withIntensities : Bool) (cloud : Pointcloud) :
    List ℕ → Option (List UInt8)
  | [] => some []
  | i :: rest => do
    let first ← cloud.record text withIntensities i
    let others ← cloud.records text withIntensities rest
    return first ++ others

def save (text : List UInt8 → List UInt8) (disk : Disk) (cloud : Pointcloud) (path : FilePath)
    (option : SerializeOption) : Outcome Disk :=
  if option.withIntensities ∧ cloud.points.size ≠ cloud.intensities.size then .aborted
  else if option.withColors ∧ cloud.points.size ≠ cloud.colors.size then .aborted
  else if path.extension ≠ ".bin" then
    .invalidArgument ("Don't know how to handle with extension " ++ path.extension)
  else
    match cloud.records text option.withIntensities (List.range cloud.points.size) with
    | none => .aborted
    | some content =>
      match disk.writeFile path content with
      | some disk => .ok disk
      | none => .invalidArgument ("Failed to write the file " ++ path.value)

/-- The bytes at every offset that is a multiple of 16. -/
def fileRecords (content : List UInt8) : List (List UInt8) :=
  (List.range (content.length / 16)).map fun i ↦ (content.drop (16 * i)).take 16

def load (disk : Disk) (path : FilePath) (option : SerializeOption) : Outcome Pointcloud :=
  match disk.readFile path with
  | none => .invalidArgument ("Failed to read the file " ++ path.value)
  | some content =>
    if content.length % 16 ≠ 0 then .invalidArgument "length is not a multiple of 16."
    else if path.extension ≠ ".bin" then
      .invalidArgument ("Don't know how to handle with extension " ++ path.extension)
    else
      .ok {
        points := ⟨(fileRecords content).flatMap (·.take 12)⟩
        intensities :=
          if option.withIntensities then ⟨(fileRecords content).flatMap (·.drop 12)⟩ else ⟨[]⟩
        colors := ⟨[]⟩ }

end Pointcloud

open Pointcloud Support

variable {text : List UInt8 → List UInt8} {disk : Disk} {cloud : Pointcloud} {path : FilePath}
  {option : SerializeOption} {n : ℕ}

/-! ### Loading -/

theorem fileRecords_eq_pieces (content : List UInt8) :
    fileRecords content = pieces 16 content := by
  simp only [fileRecords, pieces, Nat.mul_comm]

theorem length_flatten_mod {parts : List (List UInt8)} (h : ∀ part ∈ parts, part.length = 16) :
    parts.flatten.length % 16 = 0 := by
  rw [length_flatten_of_length h, Nat.mul_mod_left]

theorem fileRecords_flatten {parts : List (List UInt8)} (h : ∀ part ∈ parts, part.length = 16) :
    fileRecords parts.flatten = parts := by
  rw [fileRecords_eq_pieces, pieces_flatten (Nat.zero_lt_succ 15) h]

/-- Assumes: a file made of records of 16 bytes. The first twelve of each are a point. -/
theorem load_of_records {parts : List (List UInt8)} (h : ∀ part ∈ parts, part.length = 16)
    (hread : disk.readFile path = some parts.flatten) (hextension : path.extension = ".bin") :
    load disk path option = .ok {
      points := ⟨parts.flatMap (·.take 12)⟩
      intensities := if option.withIntensities then ⟨parts.flatMap (·.drop 12)⟩ else ⟨[]⟩
      colors := ⟨[]⟩ } := by
  unfold load
  rw [hread]
  dsimp only
  rw [if_neg (not_not_intro (length_flatten_mod h)), if_neg (not_not_intro hextension),
    fileRecords_flatten h]

/-! ### Saving -/

theorem viewAt_size {data : Data} {sizeOf : ℕ} (hsize : data.size = sizeOf * n)
    (hpos : 0 < sizeOf) : data.viewAt sizeOf n = none := by
  rw [Data.viewAt, hsize, Nat.mul_div_cancel_left n hpos, if_neg (Nat.lt_irrefl n)]

theorem records_of_mem {withIntensities : Bool} {indices : List ℕ} {i : ℕ} (hmem : i ∈ indices)
    (hfails : cloud.record text withIntensities i = none) :
    cloud.records text withIntensities indices = none := by
  induction indices with
  | nil => simp at hmem
  | cons j rest ih =>
    rw [records]
    obtain rfl | hmem := List.mem_cons.mp hmem
    · rw [hfails]
      rfl
    · rw [ih hmem]
      cases cloud.record text withIntensities j <;> rfl

/-- Assumes: a cloud with points. A check fails, one of the sizes or one of a view. -/
theorem save_of_pos (hpoints : cloud.points.size = 12 * n) (hpos : 0 < n)
    (hextension : path.extension = ".bin") : save text disk cloud path option = .aborted := by
  have hview : cloud.record text option.withIntensities n = none := by
    rw [record, viewAt_size hpoints (by omega)]
    rfl
  have hrecords := records_of_mem (List.mem_range.mpr (show n < cloud.points.size by omega)) hview
  unfold save
  split_ifs with hintensities hcolors hother
  · rfl
  · rfl
  · exact absurd hextension hother
  · rw [hrecords]

/-- Assumes: as many intensities as points, where they are asked for. -/
theorem save_eq_ok_iff {saved : Disk} (hpoints : cloud.points.size = 12 * n)
    (hintensities : option.withIntensities → cloud.intensities.size = 4 * n)
    (hextension : path.extension = ".bin") :
    save text disk cloud path option = .ok saved ↔
      n = 0 ∧ (option.withColors → cloud.colors.size = 0) ∧
        disk.writeFile path [] = some saved := by
  obtain rfl | hpos := Nat.eq_zero_or_pos n
  · have hequal : ¬(option.withIntensities ∧ cloud.points.size ≠ cloud.intensities.size) :=
      fun h ↦ h.2 (hpoints.trans (hintensities h.1).symm)
    unfold save
    rw [if_neg hequal]
    by_cases hcolors : option.withColors ∧ cloud.points.size ≠ cloud.colors.size
    · have hsize : ¬(option.withColors → cloud.colors.size = 0) :=
        fun h ↦ hcolors.2 (hpoints.trans (h hcolors.1).symm)
      simp [if_pos hcolors, hsize]
    · have hsize (hwith : option.withColors) : cloud.colors.size = 0 := by
        by_contra hne
        exact hcolors ⟨hwith, fun heq ↦ hne (heq.symm.trans hpoints)⟩
      have hrecords :
          cloud.records text option.withIntensities (List.range (12 * 0)) = some [] := rfl
      rw [if_neg hcolors, if_neg (not_not_intro hextension), hpoints, hrecords]
      dsimp only
      cases disk.writeFile path [] with
      | none => simp
      | some written => simpa using fun _ ↦ hsize
  · rw [save_of_pos hpoints hpos hextension]
    exact ⟨fun h ↦ (by cases h), fun h ↦ absurd h.1 (Nat.ne_of_gt hpos)⟩

/-! ### Round trips -/

/-- Saving succeeds, and loading what was saved gives the points and the intensities back. -/
def RoundTrips (text : List UInt8 → List UInt8) (disk : Disk) (cloud : Pointcloud)
    (path : FilePath) (option : SerializeOption) : Prop :=
  ∃ saved loaded, save text disk cloud path option = .ok saved ∧
    load saved path option = .ok loaded ∧ loaded.points = cloud.points ∧
    (option.withIntensities → loaded.intensities = cloud.intensities)

theorem eq_of_size {data : Data} (h : data.size = 0) : data = ⟨[]⟩ := by
  cases data with
  | mk bytes => rw [List.eq_nil_of_length_eq_zero (show bytes.length = 0 from h)]

theorem readFile_writeFile (content : List UInt8) (h : disk.writable path) :
    ∃ saved, disk.writeFile path content = some saved ∧ saved.readFile path = some content := by
  refine ⟨_, if_pos h, ?_⟩
  simp [Disk.readFile]

/-- Assumes: `n` points of three floats, as many intensities where they are asked for, and a path
that ends in `.bin`. -/
theorem roundTrips_iff (hpoints : cloud.points.size = 12 * n)
    (hintensities : option.withIntensities → cloud.intensities.size = 4 * n)
    (hextension : path.extension = ".bin") :
    RoundTrips text disk cloud path option ↔
      disk.writable path ∧ n = 0 ∧ (option.withColors → cloud.colors.size = 0) := by
  constructor
  · rintro ⟨saved, loaded, hsave, -⟩
    obtain ⟨hzero, hcolors, hwrite⟩ :=
      (save_eq_ok_iff hpoints hintensities hextension).mp hsave
    refine ⟨?_, hzero, hcolors⟩
    by_contra hwritable
    rw [Disk.writeFile, if_neg hwritable] at hwrite
    cases hwrite
  · rintro ⟨hwritable, rfl, hcolors⟩
    obtain ⟨saved, hwrite, hread⟩ := readFile_writeFile [] hwritable
    have hsave : save text disk cloud path option = .ok saved :=
      (save_eq_ok_iff hpoints hintensities hextension).mpr ⟨rfl, hcolors, hwrite⟩
    refine ⟨saved, _, hsave, load_of_records (List.forall_mem_nil _) hread hextension,
      (eq_of_size hpoints).symm, fun hwith ↦ ?_⟩
    rw [eq_of_size (hintensities hwith)]
    exact if_pos hwith

namespace Scenario

/-- A disk without files, on which any can be created. -/
def emptyDisk : Disk where
  content _ := none
  writable _ := true

def cloudBin : FilePath := ⟨"cloud.bin", ".bin"⟩

/-- The default of both calls. -/
def withBoth : SerializeOption := ⟨true, true⟩

def withoutPoints : Pointcloud := ⟨⟨[]⟩, ⟨[]⟩, ⟨[]⟩⟩

/-- The origin. -/
def onePoint : Pointcloud := ⟨⟨List.replicate 12 0⟩, ⟨List.replicate 4 0⟩, ⟨[]⟩⟩

/-- A stream writes the float zero as `0`. -/
def zeroText (_ : List UInt8) : List UInt8 := [48]

end Scenario

open Scenario in
theorem roundTrips_withoutPoints :
    RoundTrips zeroText emptyDisk withoutPoints cloudBin withBoth :=
  (roundTrips_iff (n := 0) rfl (fun _ ↦ rfl) rfl).mpr ⟨rfl, rfl, fun _ ↦ rfl⟩

open Scenario in
/-- A single point does not come back, though a file can be created. -/
theorem roundTrips_wrong :
    ¬∀ (disk : Disk) (cloud : Pointcloud) (path : FilePath) (option : SerializeOption) (n : ℕ),
      cloud.points.size = 12 * n → (option.withIntensities → cloud.intensities.size = 4 * n) →
        path.extension = ".bin" → disk.writable path → option.withColors = false →
          RoundTrips zeroText disk cloud path option := by
  intro h
  obtain ⟨saved, loaded, hsave, -⟩ :=
    h emptyDisk onePoint cloudBin ⟨false, false⟩ 1 rfl (fun _ ↦ rfl) rfl rfl rfl
  have habort : save zeroText emptyDisk onePoint cloudBin ⟨false, false⟩ = .aborted :=
    save_of_pos (n := 1) rfl Nat.one_pos rfl
  rw [habort] at hsave
  cases hsave

end Felicia.Pointclouds
