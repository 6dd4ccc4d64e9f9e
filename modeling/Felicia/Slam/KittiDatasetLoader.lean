import Felicia.Slam.DatasetLoader

/-!
# Dataset loader of KITTI

`KittiDatasetLoader::State` of `felicia/slam/dataset/kitti_dataset_loader.cc`. Timestamps are lines
of `times.txt`, images and point clouds are files with a number for a name, and poses are the rows
of a list. `End` looks at the timestamps alone, and a row of a list of poses may be too short.

`dataset_iff` says when the loop over a loader ends after its data, and when no row is indexed
beyond its length, for the loaders of all three datasets.
-/

set_option autoImplicit false
set_option relaxedAutoImplicit false

namespace Felicia

open Support BufferedReader

/-! ### State and functions -/

/-- The data types of `KittiDatasetLoader`. -/
inductive KittiType
  | leftCamera | rightCamera | leftCameraGrayScale | rightCameraGrayScale | pointcloud
  | groundTruthPose
  deriving DecidableEq

def KittiType.isCamera : KittiType → Bool
  | .leftCamera | .rightCamera | .leftCameraGrayScale | .rightCameraGrayScale => true
  | .pointcloud | .groundTruthPose => false

/-- `KittiDatasetLoader::State`. -/
structure KittiState where
  type : KittiType
  /-- `times.txt`, if it can be opened. -/
  times : Option (List UInt8)
  /-- The list of poses, if it can be opened. -/
  poses : Option (List UInt8)
  poseReader : Option CsvReader := none
  timesReader : Option BufferedReader := none
  shouldReadTimes : Bool := true
  current : ℕ := 0

/-- A number with six digits or more, and an extension. -/
def kittiName (current : ℕ) (extension : String) : List UInt8 :=
  let digits := Nat.toDigits 10 current
  (List.replicate (6 - digits.length) '0' ++ digits ++ extension.toList).map (·.toNat.toUInt8)

variable {Double Float Time Image Cloud : Type}
  (env : DatasetEnv Double Float Time Image Cloud)

/-- The image or point cloud of a number. -/
def loadKitti (current : ℕ) : KittiType → Option (SensorValue Float Image Cloud)
  | .leftCamera =>
    (env.loadImage (kittiName current ".png") .bgr).map (.leftCameraFrame · env.zero)
  | .rightCamera =>
    (env.loadImage (kittiName current ".png") .bgr).map (.rightCameraFrame · env.zero)
  | .leftCameraGrayScale =>
    (env.loadImage (kittiName current ".png") .y8).map (.leftCameraFrame · env.zero)
  | .rightCameraGrayScale =>
    (env.loadImage (kittiName current ".png") .y8).map (.rightCameraFrame · env.zero)
  | .pointcloud => (env.loadPointcloud (kittiName current ".bin")).map .pointcloud
  | .groundTruthPose => none

/-- The pose of a matrix of three rows and four columns. -/
def matrixPose (v : List Float) : SensorValue Float Image Cloud :=
  .matrixPose (v.take 3 ++ (v.drop 4).take 3 ++ (v.drop 8).take 3)
    ((v.drop 3).take 1 ++ (v.drop 7).take 1 ++ (v.drop 11).take 1)

namespace KittiState

variable (s : KittiState)

/-- The reader of poses, which is opened first if it is not. -/
def openPoses : LoopEnd (Option CsvReader) :=
  match s.poseReader, s.poses with
  | some reader, _ => .finished (some reader)
  | none, none => .finished none
  | none, some content =>
    (CsvReader.openFile content [32] 0).bind fun reader ↦ .finished (some reader)

/-- The reader of timestamps, which is opened first if it is not. -/
def openTimes : Option BufferedReader :=
  match s.timesReader, s.times with
  | some reader, _ => some reader
  | none, none => none
  | none, some content => some (BufferedReader.openFile .removeCrOrLf 256 content)

/-- What `Next` does after it has the timestamp. -/
def readValue (current : ℕ) (timestamp : Option Time) :
    LoopEnd (Except NextFailure (SensorData Float Time Image Cloud) × KittiState) :=
  if s.type = .groundTruthPose then
    s.openPoses.bind fun
    | none => .finished (.error .notOpened, s)
    | some reader =>
      (reader.readRows []).bind fun read ↦
        let v :=
          if read.returned then readFloats env read.rows current 0 12
          else .ok (List.replicate 12 env.zero)
        .finished (v.map fun v ↦ ⟨timestamp, matrixPose v⟩,
          { s with poseReader := some read.reader })
  else
    match loadKitti env current s.type with
    | none => .finished (.error .notLoaded, s)
    | some value => .finished (.ok ⟨timestamp, value⟩, s)

/-- `Next`. If there is no `times.txt`, it is called once more, and does not read it. -/
def next : LoopEnd (Except NextFailure (SensorData Float Time Image Cloud) × KittiState) :=
  if s.shouldReadTimes then
    match s.openTimes with
    | none =>
      if s.type.isCamera then
        .finished (.error .notOpened, { s with current := s.current + 1 })
      else
        { s with shouldReadTimes := false, current := s.current + 1 }.readValue env s.current none
    | some reader =>
      (reader.readLine (some [])).bind fun read ↦
        let later := { s with timesReader := some read.reader, current := s.current + 1 }
        if read.returned then
          match env.stringToDouble (read.line.getD []) with
          | none => .finished (.error (.notDouble (read.line.getD []) s.current), later)
          | some seconds => later.readValue env s.current (some (env.fromSecondsD seconds))
        else later.readValue env s.current none
  else { s with current := s.current + 1 }.readValue env s.current none

/-- `End`. -/
def isEnd : Bool := s.timesReader.any (·.eof)

end KittiState

def kittiLoader : DatasetLoader KittiState (SensorData Float Time Image Cloud) where
  next := KittiState.next env
  isEnd := KittiState.isEnd

/-! ### Values -/

namespace KittiState

variable {env} {s : KittiState} {lines : List (List UInt8)} {current : ℕ} {timestamp : Option Time}

/-- The poses that are left. -/
def PosesLeft (s : KittiState) (lines : List (List UInt8)) : Prop :=
  (∃ reader, s.poseReader = some reader ∧ reader.delimiter = [32] ∧ Reads reader.reader lines) ∨
  ∃ content, s.poseReader = none ∧ s.poses = some content ∧
    Reads (BufferedReader.openFile .removeCrOrLf 256 content) lines

/-- A state apart from what it has of poses. -/
def SameTimes (s next : KittiState) : Prop :=
  next.type = s.type ∧ next.times = s.times ∧ next.timesReader = s.timesReader ∧
    next.shouldReadTimes = s.shouldReadTimes ∧ next.current = s.current

theorem openPoses_of_posesLeft (h : s.PosesLeft lines) :
    ∃ reader, s.openPoses = .finished (some reader) ∧ reader.delimiter = [32] ∧
      Reads reader.reader lines := by
  obtain ⟨reader, hreader, hdelimiter, hreads⟩ | ⟨content, hreader, hposes, hreads⟩ := h
  · exact ⟨reader, by rw [openPoses, hreader], hdelimiter, hreads⟩
  · obtain ⟨next, hopen, hnext⟩ := CsvReader.openFile_of_reads hreads [32] 0
    refine ⟨⟨next, [32]⟩, ?_, rfl, hnext⟩
    rw [openPoses, hreader, hposes]
    show (CsvReader.openFile content [32] 0).bind _ = _
    rw [hopen, LoopEnd.bind_finished]

variable (env) in
/-- The next row of poses is read, or an empty one at the end. -/
theorem readValue_of_posesLeft (htype : s.type = .groundTruthPose) (h : s.PosesLeft lines)
    (current : ℕ) (timestamp : Option Time) :
    ∃ next, s.readValue env current timestamp =
        .finished ((readFloats env (byteTokens [32] (lines.headD [])) current 0 12).map fun v ↦
          ⟨timestamp, matrixPose v⟩, next) ∧
      next.PosesLeft lines.tail ∧ s.SameTimes next := by
  obtain ⟨reader, hopen, hdelimiter, hreads⟩ := openPoses_of_posesLeft h
  obtain ⟨next, hread, hrest⟩ := CsvReader.readRows_of_reads_headD hreads
  refine ⟨{ s with poseReader := some ⟨next, reader.delimiter⟩ }, ?_,
    Or.inl ⟨_, rfl, hdelimiter, hrest⟩, rfl, rfl, rfl, rfl, rfl⟩
  rw [readValue, if_pos htype, hopen, LoopEnd.bind_finished]
  dsimp only
  rw [hread, LoopEnd.bind_finished, hdelimiter]
  rfl

theorem readValue_of_notOpened (htype : s.type = .groundTruthPose) (hposes : s.poses = none)
    (hreader : s.poseReader = none) (current : ℕ) (timestamp : Option Time) :
    s.readValue env current timestamp = .finished (.error .notOpened, s) := by
  rw [readValue, if_pos htype, openPoses, hreader, hposes]
  rfl

variable (env) in
theorem readValue_of_load (htype : s.type ≠ .groundTruthPose) (current : ℕ)
    (timestamp : Option Time) :
    ∃ outcome, s.readValue env current timestamp = .finished (outcome, s) ∧
      outcome ≠ .error .outOfRange ∧
      ∀ value, loadKitti env current s.type = some value → outcome = .ok ⟨timestamp, value⟩ := by
  rw [readValue, if_neg htype]
  cases hload : loadKitti env current s.type with
  | none => exact ⟨_, rfl, by simp, fun value hvalue ↦ nomatch hvalue⟩
  | some value =>
    refine ⟨_, rfl, by simp, fun value' hvalue' ↦ ?_⟩
    rw [Option.some.inj hvalue']

/-! ### Timestamps -/

/-- The timestamps that are left, if there are any. -/
def TimesLeft (s : KittiState) : Option (List (List UInt8)) → Prop
  | none => s.times = none ∧ s.timesReader = none
  | some lines => s.shouldReadTimes = true ∧
    ((∃ reader, s.timesReader = some reader ∧ Reads reader lines) ∨
      ∃ content, s.timesReader = none ∧ s.times = some content ∧
        Reads (BufferedReader.openFile .removeCrOrLf 256 content) lines)

/-- The timestamp of `Next`. -/
def stampOf (env : DatasetEnv Double Float Time Image Cloud) (s : KittiState) :
    Option (List (List UInt8)) → Except NextFailure (Option Time)
  | none => if s.shouldReadTimes && s.type.isCamera then .error .notOpened else .ok none
  | some [] => .ok none
  | some (line :: _) =>
    match env.stringToDouble line with
    | none => .error (.notDouble line s.current)
    | some seconds => .ok (some (env.fromSecondsD seconds))

/-- A state apart from what it has of timestamps. -/
def SamePoses (s next : KittiState) : Prop :=
  next.type = s.type ∧ next.poses = s.poses ∧ next.poseReader = s.poseReader ∧
    next.current = s.current + 1

theorem openTimes_of_timesLeft (h : s.TimesLeft (some lines)) :
    ∃ reader, s.openTimes = some reader ∧ Reads reader lines := by
  obtain ⟨-, ⟨reader, hreader, hreads⟩ | ⟨content, hreader, htimes, hreads⟩⟩ := h
  · exact ⟨reader, by rw [openTimes, hreader], hreads⟩
  · exact ⟨_, by rw [openTimes, hreader, htimes], hreads⟩

/-- `Next` without timestamps. -/
theorem next_of_noTimes (env : DatasetEnv Double Float Time Image Cloud) (h : s.TimesLeft none) :
    ∃ later, s.SamePoses later ∧ later.TimesLeft none ∧ s.next env =
      match stampOf env s none with
      | .error failure => .finished (.error failure, later)
      | .ok timestamp => later.readValue env s.current timestamp := by
  obtain ⟨htimes, hreader⟩ := h
  have hopen : s.openTimes = none := by rw [openTimes, hreader, htimes]
  by_cases hshould : s.shouldReadTimes = true
  · by_cases hcamera : s.type.isCamera = true
    · refine ⟨{ s with current := s.current + 1 }, ⟨rfl, rfl, rfl, rfl⟩, ⟨htimes, hreader⟩, ?_⟩
      have hstamp : stampOf env s none = .error .notOpened := by
        rw [stampOf, if_pos (by simp [hshould, hcamera])]
      rw [hstamp, next, if_pos hshould, hopen]
      dsimp only
      rw [if_pos hcamera]
    · refine ⟨{ s with shouldReadTimes := false, current := s.current + 1 },
        ⟨rfl, rfl, rfl, rfl⟩, ⟨htimes, hreader⟩, ?_⟩
      have hstamp : stampOf env s none = .ok none := by
        rw [stampOf, if_neg (by simp [hcamera])]
      rw [hstamp, next, if_pos hshould, hopen]
      dsimp only
      rw [if_neg hcamera]
  · refine ⟨{ s with current := s.current + 1 }, ⟨rfl, rfl, rfl, rfl⟩, ⟨htimes, hreader⟩, ?_⟩
    have hstamp : stampOf env s none = .ok none := by
      rw [stampOf, if_neg (by simp [hshould])]
    rw [hstamp, next, if_neg hshould]

/-- `Next` with timestamps, or at their end. -/
theorem next_of_times (env : DatasetEnv Double Float Time Image Cloud)
    (h : s.TimesLeft (some lines)) :
    ∃ later, s.SamePoses later ∧ later.TimesLeft (some lines.tail) ∧
      later.timesReader ≠ none ∧ s.next env =
        match stampOf env s (some lines) with
        | .error failure => .finished (.error failure, later)
        | .ok timestamp => later.readValue env s.current timestamp := by
  obtain ⟨reader, hopen, hreads⟩ := openTimes_of_timesLeft h
  have hshould := h.1
  cases lines with
  | nil =>
    have hread : reader.readLine (some []) = .finished ⟨false, reader, some []⟩ := by
      rw [BufferedReader.readLine, if_neg (by simp), if_pos (show reader.eof = true from hreads)]
    refine ⟨{ s with timesReader := some reader, current := s.current + 1 },
      ⟨rfl, rfl, rfl, rfl⟩, ⟨hshould, Or.inl ⟨reader, rfl, hreads⟩⟩, Option.some_ne_none _, ?_⟩
    rw [next, if_pos hshould, hopen]
    dsimp only
    rw [hread, LoopEnd.bind_finished]
    rfl
  | cons line lines =>
    obtain ⟨-, next, hread, -, hrest⟩ := hreads
    refine ⟨{ s with timesReader := some next, current := s.current + 1 },
      ⟨rfl, rfl, rfl, rfl⟩, ⟨hshould, Or.inl ⟨next, rfl, hrest⟩⟩, Option.some_ne_none _, ?_⟩
    rw [KittiState.next, if_pos hshould, hopen]
    dsimp only
    rw [hread, LoopEnd.bind_finished, stampOf, Option.getD_some]
    dsimp only
    cases env.stringToDouble line <;> rfl

/-- `Next` reads a timestamp, and then a value. -/
theorem next_of_timesLeft (env : DatasetEnv Double Float Time Image Cloud)
    {left : Option (List (List UInt8))} (h : s.TimesLeft left) :
    ∃ later, s.SamePoses later ∧ later.TimesLeft (left.map List.tail) ∧ s.next env =
      match stampOf env s left with
      | .error failure => .finished (.error failure, later)
      | .ok timestamp => later.readValue env s.current timestamp := by
  cases left with
  | none => exact next_of_noTimes env h
  | some lines =>
    obtain ⟨later, hsame, hlater, -, hnext⟩ := next_of_times env h
    exact ⟨later, hsame, hlater, hnext⟩

theorem TimesLeft.sameTimes {left : Option (List (List UInt8))} (h : s.TimesLeft left)
    {next : KittiState} (hsame : s.SameTimes next) : next.TimesLeft left := by
  obtain ⟨-, htimes, hreader, hshould, -⟩ := hsame
  cases left with
  | none => exact ⟨htimes.trans h.1, hreader.trans h.2⟩
  | some lines =>
    refine ⟨hshould.trans h.1, ?_⟩
    rw [hreader, htimes]
    exact h.2

theorem PosesLeft.samePoses (h : s.PosesLeft lines) {later : KittiState}
    (hsame : s.SamePoses later) : later.PosesLeft lines := by
  obtain ⟨-, hposes, hreader, -⟩ := hsame
  unfold PosesLeft
  rw [hreader, hposes]
  exact h

/-! ### Iterating -/

/-- A line of `times.txt`, and its timestamp. -/
def IsStamp (env : DatasetEnv Double Float Time Image Cloud) (line : List UInt8)
    (stamp : Option Time) : Prop :=
  ∃ seconds, env.stringToDouble line = some seconds ∧ stamp = some (env.fromSecondsD seconds)

/-- A row of a list of poses, and its pose. -/
def IsPose (env : DatasetEnv Double Float Time Image Cloud) (rows : List (List UInt8))
    (value : SensorValue Float Image Cloud) : Prop :=
  ∃ values : List Double, rows.length = 12 ∧ rows.map env.stringToDouble = values.map some ∧
    value = matrixPose (values.map env.toFloat)

/-- The values that are left, from a number on. -/
def ValuesLeft (env : DatasetEnv Double Float Time Image Cloud) (s : KittiState) (start : ℕ)
    (values : List (SensorValue Float Image Cloud)) : Prop :=
  if s.type = .groundTruthPose then
    ∃ lines, s.PosesLeft lines ∧ List.Forall₂ (IsPose env) (lines.map (byteTokens [32])) values
  else ∀ k value, values[k]? = some value → loadKitti env (start + k) s.type = some value

/-- The data that are left. -/
structure Yields (env : DatasetEnv Double Float Time Image Cloud) (s : KittiState)
    (data : List (SensorData Float Time Image Cloud)) : Prop where
  times : ∃ lines, s.TimesLeft (some lines) ∧
    List.Forall₂ (IsStamp env) lines (data.map (·.timestamp))
  values : ValuesLeft env s s.current (data.map (·.value))
  opened : s.timesReader = none → data ≠ []

variable {value : SensorValue Float Image Cloud} {values : List (SensorValue Float Image Cloud)}
  {data : List (SensorData Float Time Image Cloud)}

theorem readFloats_of_isPose {rows : List (List UInt8)} (h : IsPose env rows value) (line : ℕ) :
    (readFloats env rows line 0 12).map (fun v ↦ (⟨timestamp, matrixPose v⟩ :
      SensorData Float Time Image Cloud)) = .ok ⟨timestamp, value⟩ := by
  obtain ⟨values, hlength, hvalues, rfl⟩ := h
  have hread := readFloats_append line hvalues []
  rw [List.nil_append, List.length_nil, hlength] at hread
  rw [hread]
  rfl

theorem ValuesLeft.samePoses {start : ℕ} (h : ValuesLeft env s start values) {later : KittiState}
    (hsame : s.SamePoses later) : ValuesLeft env later start values := by
  unfold ValuesLeft at h ⊢
  rw [hsame.1]
  split_ifs at h ⊢
  · obtain ⟨lines, hleft, hall⟩ := h
    exact ⟨lines, hleft.samePoses hsame, hall⟩
  · exact h

/-- The next value is read. -/
theorem ValuesLeft.readValue {start : ℕ} (h : ValuesLeft env s start (value :: values))
    (timestamp : Option Time) :
    ∃ next, s.readValue env start timestamp = .finished (.ok ⟨timestamp, value⟩, next) ∧
      ValuesLeft env next (start + 1) values ∧ s.SameTimes next := by
  unfold ValuesLeft at h
  split_ifs at h with htype
  · obtain ⟨lines, hleft, hall⟩ := h
    obtain ⟨next, hread, hrest, hsame⟩ :=
      readValue_of_posesLeft env htype hleft start timestamp
    cases lines with
    | nil => cases hall
    | cons line lines =>
      obtain ⟨hfirst, htail⟩ := List.forall₂_cons.mp hall
      rw [List.headD_cons, readFloats_of_isPose hfirst] at hread
      refine ⟨next, hread, ?_, hsame⟩
      rw [ValuesLeft, if_pos (hsame.1.trans htype)]
      exact ⟨lines, hrest, htail⟩
  · obtain ⟨outcome, hread, -, hload⟩ := readValue_of_load env htype start timestamp
    have hvalue : loadKitti env start s.type = some value := h 0 value rfl
    rw [hload value hvalue] at hread
    refine ⟨s, hread, ?_, rfl, rfl, rfl, rfl, rfl⟩
    rw [ValuesLeft, if_neg htype]
    intro k other hother
    rw [Nat.add_assoc, Nat.add_comm 1]
    exact h (k + 1) other hother

/-- Timestamps and values that are left are read, one after another. -/
theorem Yields.iterates (h : Yields env s data) : (kittiLoader env).Iterates s data := by
  refine DatasetLoader.iterates_of_yields (Yields env) ?_ ?_ h
  · rintro s ⟨⟨lines, ⟨-, ⟨reader, hreader, hreads⟩ | ⟨_, hreader, -⟩⟩, hstamps⟩, -, hopened⟩
    · cases lines with
      | nil =>
        show s.timesReader.any (·.eof) = true
        rw [hreader]
        exact hreads
      | cons => cases hstamps
    · exact absurd rfl (hopened hreader)
  · rintro s first rest ⟨⟨lines, hleft, hstamps⟩, hvalues, -⟩
    cases lines with
    | nil => cases hstamps
    | cons line lines =>
      obtain ⟨⟨seconds, hseconds, hstamp⟩, hrest⟩ := List.forall₂_cons.mp hstamps
      have hnot_end : s.isEnd = false := by
        obtain ⟨-, ⟨reader, hreader, hreads⟩ | ⟨_, hreader, -⟩⟩ := hleft
        · rw [isEnd, hreader]
          exact hreads.1
        · rw [isEnd, hreader]
          rfl
      obtain ⟨later, hposes, htimes, hopened, hnext⟩ := next_of_times env hleft
      obtain ⟨next, hread, hlast, hsame⟩ :=
        (hvalues.samePoses hposes).readValue first.timestamp
      have hcurrent : next.current = s.current + 1 := hsame.2.2.2.2.trans hposes.2.2.2
      have hleft_next := htimes.sameTimes hsame
      refine ⟨hnot_end, next, ?_, ⟨lines, hleft_next, hrest⟩, ?_, fun hclosed ↦ ?_⟩
      · show s.next env = _
        rw [hnext, stampOf, hseconds]
        dsimp only
        rw [← hstamp, hread]
      · rw [hcurrent]
        exact hlast
      · exact absurd (hsame.2.2.1.symm.trans hclosed) hopened

theorem sameTimes_of_readValue
    {outcome : Except NextFailure (SensorData Float Time Image Cloud)} {next : KittiState}
    (h : s.readValue env current timestamp = .finished (outcome, next)) : s.SameTimes next := by
  unfold readValue at h
  split_ifs at h with htype
  · obtain ⟨reader, -, hreader⟩ := LoopEnd.bind_eq_finished_iff.mp h
    cases reader with
    | none =>
      cases hreader
      exact ⟨rfl, rfl, rfl, rfl, rfl⟩
    | some reader =>
      obtain ⟨read, -, hread⟩ := LoopEnd.bind_eq_finished_iff.mp hreader
      cases hread
      exact ⟨rfl, rfl, rfl, rfl, rfl⟩
  · cases hload : loadKitti env current s.type with
    | none =>
      rw [hload] at h
      cases h
      exact ⟨rfl, rfl, rfl, rfl, rfl⟩
    | some value =>
      rw [hload] at h
      cases h
      exact ⟨rfl, rfl, rfl, rfl, rfl⟩

/-- Without timestamps the loop never ends. -/
theorem not_iterates (h : s.TimesLeft none) : ¬ (kittiLoader env).Iterates s data := by
  refine DatasetLoader.not_iterates_of_invariant (·.TimesLeft none) (fun s hs ↦ ?_)
    (fun s outcome next hs hnext ↦ ?_) h
  · show s.timesReader.any (·.eof) = false
    rw [hs.2]
    rfl
  · obtain ⟨later, -, hlater, hstep⟩ := next_of_noTimes env hs
    replace hnext : s.next env = .finished (outcome, next) := hnext
    rw [hstep] at hnext
    cases hstamp : stampOf env s none with
    | error failure =>
      rw [hstamp] at hnext
      cases hnext
      exact hlater
    | ok timestamp =>
      rw [hstamp] at hnext
      exact hlater.sameTimes (sameTimes_of_readValue hnext)

/-! ### Rows of poses -/

theorem stampOf_ne_outOfRange (env : DatasetEnv Double Float Time Image Cloud) (s : KittiState)
    (left : Option (List (List UInt8))) : stampOf env s left ≠ .error .outOfRange := by
  unfold stampOf
  split
  · split_ifs <;> simp
  · simp
  · split <;> simp

/-- A loader that has no list of poses to read does not index a row beyond its length. -/
theorem safe (left : Option (List (List UInt8))) (h : s.TimesLeft left)
    (hposes : s.type ≠ .groundTruthPose ∨ s.poses = none ∧ s.poseReader = none) :
    (kittiLoader env).Safe s := by
  refine DatasetLoader.safe_of_invariant (fun s ↦ (∃ left, s.TimesLeft left) ∧
    (s.type ≠ .groundTruthPose ∨ s.poses = none ∧ s.poseReader = none)) ?_ ⟨⟨left, h⟩, hposes⟩
  rintro s ⟨⟨left, hleft⟩, hposes⟩
  obtain ⟨later, hsame, hlater, hnext⟩ := next_of_timesLeft env hleft
  rw [← hsame.1, ← hsame.2.1, ← hsame.2.2.1] at hposes
  have hstamp := stampOf_ne_outOfRange env s left
  cases hresult : stampOf env s left with
  | error failure =>
    rw [hresult] at hnext hstamp
    refine ⟨.error failure, later, hnext, fun heq ↦ hstamp ?_, ⟨_, hlater⟩, hposes⟩
    rw [Except.error.inj heq]
  | ok timestamp =>
    rw [hresult] at hnext
    by_cases htype : later.type = .groundTruthPose
    · obtain hnot | ⟨hnone, hreader⟩ := hposes
      · exact absurd htype hnot
      · refine ⟨_, later, hnext.trans (readValue_of_notOpened htype hnone hreader _ _), by simp,
          ⟨_, hlater⟩, Or.inr ⟨hnone, hreader⟩⟩
    · obtain ⟨outcome, hread, hne, -⟩ :=
        readValue_of_load env htype s.current timestamp
      exact ⟨outcome, later, hnext.trans hread, hne, ⟨_, hlater⟩, Or.inl htype⟩

theorem readFloats_nil (line count : ℕ) :
    readFloats env [] line 0 (count + 1) = .error .outOfRange := rfl

/-- A safe loader reaches no state with poses: each call reads a timestamp or a row, until the row
behind the last one is indexed. -/
theorem not_posesLeft_of_safe (hsafe : (kittiLoader env).Safe s) {later : KittiState}
    (hreachable : DatasetLoader.Reachable (kittiLoader env) s later)
    (htype : later.type = .groundTruthPose) {left : Option (List (List UInt8))}
    (hleft : later.TimesLeft left) : ¬ later.PosesLeft lines := by
  induction hn : (left.getD []).length + lines.length using Nat.strong_induction_on
    generalizing later left lines with
  | _ n ih =>
    intro hposes
    obtain ⟨outcome, next, hstep, hne⟩ := hsafe later hreachable
    have hnext : later.next env = .finished (outcome, next) := hstep
    obtain ⟨opened, hsame, hopened, hopened_next⟩ := next_of_timesLeft env hleft
    rw [hopened_next] at hnext
    have htype_opened := hsame.1.trans htype
    have htail : ((left.map List.tail).getD []).length ≤ (left.getD []).length := by
      cases left <;> simp
    cases hstamp : stampOf env later left with
    | error failure =>
      rw [hstamp] at hnext
      cases hnext
      have hlt : ((left.map List.tail).getD []).length < (left.getD []).length := by
        cases left with
        | none => simp [stampOf, htype, KittiType.isCamera] at hstamp
        | some times =>
          cases times with
          | nil => cases hstamp
          | cons time times => simp
      exact ih (((left.map List.tail).getD []).length + lines.length) (by omega)
        (hreachable.next hstep) htype_opened hopened rfl (hposes.samePoses hsame)
    | ok timestamp =>
      rw [hstamp] at hnext
      obtain ⟨last, hread, hrest, hsame_last⟩ := readValue_of_posesLeft env htype_opened
        (hposes.samePoses hsame) later.current timestamp
      cases hread.symm.trans hnext
      cases lines with
      | nil => exact hne (by rw [List.headD_nil, CsvReader.byteTokens_nil, readFloats_nil]; rfl)
      | cons line lines =>
        rw [List.length_cons] at hn
        exact ih (((left.map List.tail).getD []).length + lines.length) (by omega)
          (hreachable.next hstep) (hsame_last.1.trans htype_opened)
          (hopened.sameTimes hsame_last) rfl hrest

end KittiState

/-! ### Datasets -/

/-- A dataset: which loader reads it, and what is in its files, if they can be opened. -/
inductive Dataset
  | tum (type : TumType) (list : Option (List UInt8))
  | euroc (type : EurocType) (list : Option (List UInt8))
  | kitti (type : KittiType) (times poses : Option (List UInt8))

namespace Dataset

/-- The timestamps of a file, or none without it. -/
def HasStamps (env : DatasetEnv Double Float Time Image Cloud) (times : Option (List UInt8))
    (stamps : List (Option Time)) : Prop :=
  match times with
  | none => ∀ stamp ∈ stamps, stamp = none
  | some content =>
    ∃ lines, HasLines content lines ∧ List.Forall₂ (KittiState.IsStamp env) lines stamps

/-- The values of the files of a type. -/
def HasValues (env : DatasetEnv Double Float Time Image Cloud) (type : KittiType)
    (poses : Option (List UInt8)) (values : List (SensorValue Float Image Cloud)) : Prop :=
  if type = .groundTruthPose then
    ∃ content lines, poses = some content ∧ HasLines content lines ∧
      List.Forall₂ (KittiState.IsPose env) (lines.map (byteTokens [32])) values
  else ∀ k value, values[k]? = some value → loadKitti env k type = some value

/-- The data that well-formed files stand for. Cameras of KITTI have timestamps. -/
def HasData (env : DatasetEnv Double Float Time Image Cloud) :
    Dataset → List (SensorData Float Time Image Cloud) → Prop
  | tum type list, data => ∃ content, list = some content ∧
      (tumFormat env type).HasData env content data
  | euroc type list, data => ∃ content, list = some content ∧
      (eurocFormat env type).HasData env content data
  | kitti type times poses, data =>
    (type.isCamera = true → times ≠ none) ∧ HasStamps env times (data.map (·.timestamp)) ∧
      HasValues env type poses (data.map (·.value))

/-- `while (!End()) Next()` of a new loader ends after these data and no other. -/
def Iterates (env : DatasetEnv Double Float Time Image Cloud) :
    Dataset → List (SensorData Float Time Image Cloud) → Prop
  | tum type list, data =>
    (listLoader env (tumFormat env type)).Iterates { file := list } data
  | euroc type list, data =>
    (listLoader env (eurocFormat env type)).Iterates { file := list } data
  | kitti type times poses, data => (kittiLoader env).Iterates { type, times, poses } data

/-- No call of `Next` of a loader indexes a row beyond its length. -/
def Safe (env : DatasetEnv Double Float Time Image Cloud) : Dataset → Prop
  | tum type list => (listLoader env (tumFormat env type)).Safe { file := list }
  | euroc type list => (listLoader env (eurocFormat env type)).Safe { file := list }
  | kitti type times poses => (kittiLoader env).Safe { type, times, poses }

/-- KITTI without timestamps. -/
def LacksTimes : Dataset → Prop
  | kitti _ times _ => times = none
  | _ => False

/-- Poses of KITTI that can be opened. -/
def HasPoses : Dataset → Prop
  | kitti type _ poses => type = .groundTruthPose ∧ poses ≠ none
  | _ => False

end Dataset

/-- What a new loader of KITTI has of timestamps. -/
theorem KittiState.exists_timesLeft (type : KittiType) (times poses : Option (List UInt8)) :
    ∃ left, KittiState.TimesLeft { type, times, poses } left := by
  cases times with
  | none => exact ⟨none, rfl, rfl⟩
  | some content =>
    obtain ⟨lines, hreads, -⟩ := exists_reads content
    exact ⟨some lines, rfl, Or.inr ⟨content, rfl, rfl, hreads⟩⟩

theorem Dataset.iterates_kitti {type : KittiType} {content : List UInt8}
    {poses : Option (List UInt8)} {data : List (SensorData Float Time Image Cloud)}
    (hne : data ≠ []) (h : (Dataset.kitti type (some content) poses).HasData env data) :
    (Dataset.kitti type (some content) poses).Iterates env data := by
  obtain ⟨-, ⟨lines, hlines, hstamps⟩, hvalues⟩ := h
  have hyields : KittiState.Yields env { type, times := some content, poses } data := by
    refine ⟨⟨lines, ⟨rfl, Or.inr ⟨content, rfl, rfl, hlines.reads⟩⟩, hstamps⟩, ?_, fun _ ↦ hne⟩
    unfold HasValues at hvalues
    unfold KittiState.ValuesLeft
    split_ifs at hvalues ⊢
    · obtain ⟨list, rows, hposes, hrows, hall⟩ := hvalues
      exact ⟨rows, Or.inr ⟨list, rfl, hposes, hrows.reads⟩, hall⟩
    · intro k value hvalue
      rw [Nat.zero_add]
      exact hvalues k value hvalue
  exact hyields.iterates

/-- For every dataset, the loop over its loader ends after its data, if there are any, if and only
if it is not one of KITTI without timestamps. Whatever is in its files, no row is indexed beyond its
length if and only if they are not poses of KITTI. -/
theorem dataset_iff (env : DatasetEnv Double Float Time Image Cloud) (dataset : Dataset) :
    (∀ data, data ≠ [] → dataset.HasData env data →
      (dataset.Iterates env data ↔ ¬ dataset.LacksTimes)) ∧
    (dataset.Safe env ↔ ¬ dataset.HasPoses) := by
  cases dataset with
  | tum type list =>
    have hfits := tumFormat_fits env type
    refine ⟨?_, iff_of_true (ListState.safe hfits list) not_false⟩
    rintro data hne ⟨content, rfl, hdata⟩
    exact iff_of_true (hdata.iterates hfits hne) not_false
  | euroc type list =>
    have hfits := eurocFormat_fits env type
    refine ⟨?_, iff_of_true (ListState.safe hfits list) not_false⟩
    rintro data hne ⟨content, rfl, hdata⟩
    exact iff_of_true (hdata.iterates hfits hne) not_false
  | kitti type times poses =>
    obtain ⟨left, hleft⟩ := KittiState.exists_timesLeft type times poses
    refine ⟨fun data hne hdata ↦ ?_, ?_⟩
    · cases times with
      | none => exact iff_of_false (KittiState.not_iterates ⟨rfl, rfl⟩) fun hnot ↦ hnot rfl
      | some content => exact iff_of_true (Dataset.iterates_kitti env hne hdata) fun hnone ↦
        Option.some_ne_none content hnone
    · cases poses with
      | none => exact iff_of_true (KittiState.safe left hleft (Or.inr ⟨rfl, rfl⟩)) fun h ↦ h.2 rfl
      | some list =>
        by_cases htype : type = .groundTruthPose
        · obtain ⟨lines, hreads, -⟩ := exists_reads list
          refine iff_of_false (fun hsafe ↦ ?_) fun hnot ↦ hnot ⟨htype, Option.some_ne_none list⟩
          exact KittiState.not_posesLeft_of_safe hsafe .start htype hleft
            (Or.inr ⟨list, rfl, rfl, hreads⟩)
        · exact iff_of_true (KittiState.safe left hleft (Or.inl htype)) fun h ↦ htype h.1

namespace Scenario

/-- One text is a number, and every image and point cloud can be loaded. -/
def datasetEnv : DatasetEnv ℕ ℕ ℕ Unit Unit where
  stringToDouble text := if text = [49] then some 1 else none
  toFloat := id
  fromSecondsD := id
  fromNanosecondsD := id
  loadImage _ _ := some ()
  loadPointcloud _ := some ()
  zero := 0
  loadFrameRate := 0

/-- One point cloud. -/
def pointclouds (timestamp : Option ℕ) : List (SensorData ℕ ℕ Unit Unit) :=
  [⟨timestamp, .pointcloud ()⟩]

theorem hasValues_pointclouds (timestamp : Option ℕ) :
    Dataset.HasValues datasetEnv .pointcloud none
      ((pointclouds timestamp).map (·.value)) := by
  intro k value hvalue
  cases k with
  | zero =>
    cases hvalue
    rfl
  | succ k => cases hvalue

end Scenario

open Scenario

/-- A point cloud with a timestamp. -/
theorem dataset_pointcloud :
    (Dataset.kitti .pointcloud (some [49, 10]) none).Iterates datasetEnv (pointclouds (some 1)) ∧
      (Dataset.kitti .pointcloud (some [49, 10]) none).Safe datasetEnv := by
  have hlines : HasLines [49, 10] [[49]] := by
    refine ⟨fun i hi ↦ ?_, by decide⟩
    have hnot : carriageReturn ∉ [(49 : UInt8), 10] := by decide
    exact absurd (List.mem_of_getElem? hi) hnot
  have hstamps : Dataset.HasStamps datasetEnv (some [49, 10])
      ((pointclouds (some 1)).map (·.timestamp)) :=
    ⟨[[49]], hlines, List.Forall₂.cons ⟨1, rfl, rfl⟩ List.Forall₂.nil⟩
  obtain ⟨hiterates, hsafe⟩ :=
    dataset_iff datasetEnv (Dataset.kitti .pointcloud (some [49, 10]) none)
  refine ⟨(hiterates (pointclouds (some 1)) (List.cons_ne_nil _ _) ?_).mpr ?_, hsafe.mpr ?_⟩
  · exact ⟨fun _ ↦ Option.some_ne_none _, hstamps, hasValues_pointclouds _⟩
  · exact Option.some_ne_none _
  · exact fun hposes ↦ KittiType.noConfusion hposes.1

/-- A point cloud without a timestamp. -/
theorem dataset_wrong :
    ¬ ∀ (dataset : Dataset) (data : List (SensorData ℕ ℕ Unit Unit)), data ≠ [] →
      dataset.HasData datasetEnv data →
        dataset.Iterates datasetEnv data ∧ dataset.Safe datasetEnv := by
  intro hall
  have hdata : (Dataset.kitti .pointcloud none none).HasData datasetEnv (pointclouds none) :=
    ⟨fun hcamera ↦ Bool.noConfusion hcamera, fun stamp hstamp ↦ List.mem_singleton.mp hstamp,
      hasValues_pointclouds none⟩
  have hleft : KittiState.TimesLeft { type := .pointcloud, times := none, poses := none } none :=
    ⟨rfl, rfl⟩
  exact KittiState.not_iterates hleft (hall _ _ (List.cons_ne_nil _ _) hdata).1

end Felicia
