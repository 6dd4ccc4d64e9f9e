import Felicia.Util.Csv

/-!
# Dataset loaders of TUM and EuRoC

`TumDatasetLoader::State` and `EurocDatasetLoader::State` of `felicia/slam/dataset`, which read a
list of rows: each row is a timestamp, and the name of an image or some numbers. A loader skips the
head of its file when `Next` is called first, and looks how many columns a row has before it takes
any of them.

The orientation that a filter computes for `ImuFrame` is left out, and so is `Init`.
-/

set_option autoImplicit false
set_option relaxedAutoImplicit false

namespace Felicia

open Support BufferedReader

/-! ### Data -/

/-- `PixelFormat`, as far as loaders use it. -/
inductive PixelFormat
  | bgr | y8 | z16
  deriving DecidableEq

/-- What loaders use of other libraries, and of the files beside their lists. -/
structure DatasetEnv (Double Float Time Image Cloud : Type) where
  stringToDouble : List UInt8 → Option Double
  toFloat : Double → Float
  fromSecondsD : Double → Time
  fromNanosecondsD : Double → Time
  /-- `Image::Load` of a file in the directory of the data. -/
  loadImage : List UInt8 → PixelFormat → Option Image
  /-- `Pointcloud::Load` of a file in the directory of the data. -/
  loadPointcloud : List UInt8 → Option Cloud
  zero : Float
  /-- `LoadFrameRate`. -/
  loadFrameRate : Float

/-- What is set in a `SensorData`, apart from its timestamp. -/
inductive SensorValue (Float Image Cloud : Type)
  | leftCameraFrame (image : Image) (frameRate : Float)
  | rightCameraFrame (image : Image) (frameRate : Float)
  | depthCameraFrame (image : Image) (frameRate : Float)
  | imuFrame (angularVelocity linearAcceleration : List Float)
  | pointcloud (cloud : Cloud)
  | acceleration (value : List Float)
  | position (value : List Float)
  | pose (position orientation : List Float)
  /-- A pose whose orientation is given by a matrix. -/
  | matrixPose (rotation position : List Float)
  | groundTruth (position orientation velocity angularVelocity acceleration : List Float)

/-- `SensorData`. -/
structure SensorData (Float Time Image Cloud : Type) where
  timestamp : Option Time
  value : SensorValue Float Image Cloud

/-- Why `Next` has no data. -/
inductive NextFailure
  /-- A row is indexed beyond its length. -/
  | outOfRange
  | notOpened
  | columns (line : ℕ)
  | notDouble (text : List UInt8) (line : ℕ)
  | notLoaded
  deriving DecidableEq

variable {Double Float Time Image Cloud : Type}
  (env : DatasetEnv Double Float Time Image Cloud)

/-- `TryConvertToDouble` of a column. -/
def tryConvertToDouble (rows : List (List UInt8)) (i line : ℕ) : Except NextFailure Double :=
  match rows[i]? with
  | none => .error .outOfRange
  | some text =>
    match env.stringToDouble text with
    | none => .error (.notDouble text line)
    | some value => .ok value

/-- The loops that fill `v` from a column on. -/
def readFloats (rows : List (List UInt8)) (line first : ℕ) : ℕ → Except NextFailure (List Float)
  | 0 => .ok []
  | count + 1 => do
    let value ← tryConvertToDouble env rows first line
    let rest ← readFloats rows line (first + 1) count
    return env.toFloat value :: rest

/-! ### Iterating -/

/-- A loader of `Data`. -/
structure DatasetLoader (σ Data : Type) where
  next : σ → LoopEnd (Except NextFailure Data × σ)
  isEnd : σ → Bool

namespace DatasetLoader

variable {σ Data : Type} (loader : DatasetLoader σ Data)

/-- A state, and what calls of `Next` returned. -/
structure Iterating (σ Data : Type) where
  state : σ
  outcomes : List (Except NextFailure Data) := []

/-- A round of `while (!End()) Next()`, which fails where a row is indexed beyond its length. -/
def round (s : Iterating σ Data) : LoopRound (Iterating σ Data) (Iterating σ Data) :=
  if loader.isEnd s.state then .done s
  else
    match loader.next s.state with
    | .finished (.error .outOfRange, _) => .failed
    | .finished (outcome, state) => .again ⟨state, s.outcomes ++ [outcome]⟩
    | .failed | .unfinished => .failed

/-- The loop ends after these data and no other. -/
def Iterates (start : σ) (data : List Data) : Prop :=
  ∃ rounds last, runLoop loader.round rounds ⟨start, []⟩ = .finished last ∧
    last.outcomes = data.map .ok

/-- A state after any calls of `Next`. -/
inductive Reachable (start : σ) : σ → Prop
  | start : Reachable start start
  | next {s next : σ} {outcome : Except NextFailure Data} (h : Reachable start s)
      (hnext : loader.next s = .finished (outcome, next)) : Reachable start next

/-- No call of `Next` indexes a row beyond its length. -/
def Safe (start : σ) : Prop :=
  ∀ s, Reachable loader start s →
    ∃ outcome next, loader.next s = .finished (outcome, next) ∧ outcome ≠ .error .outOfRange

variable {loader} {start : σ} {data : List Data}

/-- Assumes: states that yield some data, one by one, and then are at their end. -/
theorem iterates_of_yields (Yields : σ → List Data → Prop)
    (hend : ∀ s, Yields s [] → loader.isEnd s = true)
    (hnext : ∀ s first rest, Yields s (first :: rest) → loader.isEnd s = false ∧
      ∃ next, loader.next s = .finished (.ok first, next) ∧ Yields next rest)
    (h : Yields start data) : loader.Iterates start data := by
  have hloop (s : σ) (outcomes : List (Except NextFailure Data)) (hs : Yields s data) :
      ∃ last, runLoop loader.round (data.length + 1) ⟨s, outcomes⟩ =
        .finished ⟨last, outcomes ++ data.map .ok⟩ := by
    clear h
    induction data generalizing s outcomes with
    | nil =>
      refine ⟨s, ?_⟩
      rw [runLoop, round, if_pos (hend s hs), List.map_nil, List.append_nil]
    | cons first rest ih =>
      obtain ⟨hnot, next, hstep, hrest⟩ := hnext s first rest hs
      obtain ⟨last, hlast⟩ := ih next (outcomes ++ [.ok first]) hrest
      have hround : loader.round ⟨s, outcomes⟩ = .again ⟨next, outcomes ++ [.ok first]⟩ := by
        rw [round, if_neg (by simp [hnot]), hstep]
      refine ⟨last, ?_⟩
      rw [List.length_cons, runLoop, hround]
      simpa using hlast
  obtain ⟨last, hlast⟩ := hloop start [] h
  exact ⟨_, _, hlast, rfl⟩

/-- Assumes: an invariant under which it is never the end. The loop does not end. -/
theorem not_iterates_of_invariant (Inv : σ → Prop)
    (hend : ∀ s, Inv s → loader.isEnd s = false)
    (hnext : ∀ s outcome next, Inv s → loader.next s = .finished (outcome, next) → Inv next)
    (h : Inv start) : ¬ loader.Iterates start data := by
  rintro ⟨rounds, last, hloop, -⟩
  have hround (s : Iterating σ Data) (hs : Inv s.state) :
      (loader.round s).Meets True (fun next ↦ Inv next.state) (fun _ ↦ False) := by
    rw [round, if_neg (by simp [hend s.state hs])]
    split
    · trivial
    · exact hnext s.state _ _ hs (by assumption)
    · trivial
    · trivial
  exact runLoop_keeps hround h hloop

/-- Assumes: an invariant under which `Next` does not index beyond a row, and that it keeps. -/
theorem safe_of_invariant (Inv : σ → Prop)
    (hnext : ∀ s, Inv s → ∃ outcome next, loader.next s = .finished (outcome, next) ∧
      outcome ≠ .error .outOfRange ∧ Inv next)
    (h : Inv start) : loader.Safe start := by
  have hreachable {s : σ} (hs : Reachable loader start s) : Inv s := by
    induction hs with
    | start => exact h
    | next _ hstep ih =>
      obtain ⟨outcome, next, hstep', -, hinv⟩ := hnext _ ih
      cases hstep.symm.trans hstep'
      exact hinv
  intro s hs
  obtain ⟨outcome, next, hstep, hne, -⟩ := hnext s (hreachable hs)
  exact ⟨outcome, next, hstep, hne⟩

end DatasetLoader

/-! ### Lists of rows -/

/-- What a row has after its timestamp. -/
inductive RowFormat (Float Image Cloud : Type)
  | image (pixelFormat : PixelFormat) (value : Image → SensorValue Float Image Cloud)
  | numbers (count : ℕ) (value : List Float → SensorValue Float Image Cloud)

/-- How a loader reads its list. -/
structure ListFormat (Double Float Time Image Cloud : Type) where
  delimiter : List UInt8
  skipHead : ℕ
  /-- `ColumnsForData`. -/
  columns : ℕ
  toTime : Double → Time
  row : RowFormat Float Image Cloud

variable (format : ListFormat Double Float Time Image Cloud)

/-- The value of a row. -/
def RowFormat.read (row : RowFormat Float Image Cloud) (rows : List (List UInt8)) (line : ℕ) :
    Except NextFailure (SensorValue Float Image Cloud) :=
  match row with
  | .image pixelFormat value =>
    match rows[1]? with
    | none => .error .outOfRange
    | some name =>
      match env.loadImage name pixelFormat with
      | none => .error .notLoaded
      | some loaded => .ok (value loaded)
  | .numbers count value => do
    let floats ← readFloats env rows line 1 count
    return value floats

/-- The data of a row. -/
def ListFormat.read (rows : List (List UInt8)) (line : ℕ) :
    Except NextFailure (SensorData Float Time Image Cloud) :=
  if rows.length ≠ format.columns then .error (.columns line)
  else do
    let seconds ← tryConvertToDouble env rows 0 line
    let value ← format.row.read env rows line
    return ⟨some (format.toTime seconds), value⟩

/-- `State` of a loader of rows. -/
structure ListState where
  /-- The file of the list, if it can be opened. -/
  file : Option (List UInt8)
  reader : Option CsvReader := none
  current : ℕ := 0

namespace ListState

/-- The reader, which is opened first if it is not. -/
def openReader (s : ListState) : LoopEnd (Option CsvReader) :=
  match s.reader, s.file with
  | some reader, _ => .finished (some reader)
  | none, none => .finished none
  | none, some content =>
    (CsvReader.openFile content format.delimiter format.skipHead).bind fun reader ↦
      .finished (some reader)

/-- `Next`. -/
def next (s : ListState) :
    LoopEnd (Except NextFailure (SensorData Float Time Image Cloud) × ListState) :=
  (s.openReader format).bind fun
  | none => .finished (.error .notOpened, s)
  | some reader =>
    let current := s.current + 1
    (reader.readRows []).bind fun read ↦
      .finished (format.read env read.rows (current + format.skipHead),
        { s with reader := some read.reader, current })

/-- `End`. -/
def isEnd (s : ListState) : Bool := s.reader.any (·.eof)

end ListState

/-- A loader of rows. -/
def listLoader : DatasetLoader ListState (SensorData Float Time Image Cloud) where
  next := ListState.next env format
  isEnd := ListState.isEnd

/-- The data types of `TumDatasetLoader`. -/
inductive TumType
  | leftCamera | depthCamera | acceleration | groundTruthPose
  deriving DecidableEq

/-- `TumDatasetLoader::State`. -/
def tumFormat (type : TumType) : ListFormat Double Float Time Image Cloud where
  delimiter := [32]
  skipHead := 3
  columns :=
    match type with
    | .leftCamera => 2
    | .depthCamera => 2
    | .acceleration => 4
    | .groundTruthPose => 8
  toTime := env.fromSecondsD
  row :=
    match type with
    | .leftCamera => .image .bgr fun image ↦ .leftCameraFrame image env.zero
    | .depthCamera => .image .z16 fun image ↦ .depthCameraFrame image env.zero
    | .acceleration => .numbers 3 .acceleration
    | .groundTruthPose => .numbers 7 fun v ↦ .pose (v.take 3) (v.drop 3)

/-- The data types of `EurocDatasetLoader`. -/
inductive EurocType
  | leftCameraGrayScale | rightCameraGrayScale | imu | groundTruthPosition | groundTruthPose
  deriving DecidableEq

/-- `EurocDatasetLoader::State`. The orientation in a row of ground truth begins with `w`. -/
def eurocFormat (type : EurocType) : ListFormat Double Float Time Image Cloud where
  delimiter := [44]
  skipHead := 1
  columns :=
    match type with
    | .leftCameraGrayScale => 2
    | .rightCameraGrayScale => 2
    | .imu => 7
    | .groundTruthPosition => 4
    | .groundTruthPose => 17
  toTime := env.fromNanosecondsD
  row :=
    match type with
    | .leftCameraGrayScale => .image .y8 fun image ↦ .leftCameraFrame image env.loadFrameRate
    | .rightCameraGrayScale => .image .y8 fun image ↦ .rightCameraFrame image env.loadFrameRate
    | .imu => .numbers 6 fun v ↦ .imuFrame (v.take 3) (v.drop 3)
    | .groundTruthPosition => .numbers 3 .position
    | .groundTruthPose => .numbers 16 fun v ↦
        .groundTruth (v.take 3) (((v.drop 4).take 3) ++ ((v.drop 3).take 1)) ((v.drop 7).take 3)
          ((v.drop 10).take 3) (v.drop 13)

/-! ### Rows -/

/-- What a row of a list stands for. -/
inductive RowDenotes : List (List UInt8) → SensorData Float Time Image Cloud → Prop
  | image {pixelFormat : PixelFormat} {value : Image → SensorValue Float Image Cloud}
      {time name : List UInt8} {seconds : Double} {loaded : Image}
      (hrow : format.row = .image pixelFormat value)
      (htime : env.stringToDouble time = some seconds)
      (hload : env.loadImage name pixelFormat = some loaded) :
      RowDenotes [time, name] ⟨some (format.toTime seconds), value loaded⟩
  | numbers {value : List Float → SensorValue Float Image Cloud} {time : List UInt8}
      {texts : List (List UInt8)} {seconds : Double} {values : List Double}
      (hrow : format.row = .numbers texts.length value)
      (htime : env.stringToDouble time = some seconds)
      (hvalues : texts.map env.stringToDouble = values.map some) :
      RowDenotes (time :: texts) ⟨some (format.toTime seconds), value (values.map env.toFloat)⟩

/-- How many columns are taken. -/
def RowFormat.columns : RowFormat Float Image Cloud → ℕ
  | .image _ _ => 2
  | .numbers count _ => count + 1

/-- As many columns are asked for as are taken. -/
def ListFormat.Fits : Prop := format.columns = format.row.columns

theorem tumFormat_fits (type : TumType) : (tumFormat env type).Fits := by
  cases type <;> rfl

theorem eurocFormat_fits (type : EurocType) : (eurocFormat env type).Fits := by
  cases type <;> rfl

variable {env format} {rows texts : List (List UInt8)} {line : ℕ}
  {data : SensorData Float Time Image Cloud}

theorem bind_of_ok {ε α β : Type} {first : Except ε α} {a : α} (h : first = .ok a)
    (next : α → Except ε β) : (first >>= next) = next a := by
  rw [h]
  rfl

theorem tryConvertToDouble_of_some (line : ℕ) {i : ℕ} {text : List UInt8} {value : Double}
    (htext : rows[i]? = some text) (hvalue : env.stringToDouble text = some value) :
    tryConvertToDouble env rows i line = .ok value := by
  rw [tryConvertToDouble, htext]
  show (match env.stringToDouble text with
    | none => _
    | some value => _) = _
  rw [hvalue]

theorem tryConvertToDouble_ne_outOfRange {i : ℕ} (h : i < rows.length) :
    tryConvertToDouble env rows i line ≠ .error .outOfRange := by
  rw [tryConvertToDouble, List.getElem?_eq_getElem h]
  dsimp only
  split <;> simp

/-- The numbers at the end of a row are read. -/
theorem readFloats_append (line : ℕ) {values : List Double}
    (hvalues : texts.map env.stringToDouble = values.map some) (before : List (List UInt8)) :
    readFloats env (before ++ texts) line before.length texts.length =
      .ok (values.map env.toFloat) := by
  induction texts generalizing values before with
  | nil =>
    obtain rfl := List.map_eq_nil_iff.mp hvalues.symm
    rfl
  | cons text texts ih =>
    cases values with
    | nil => simp at hvalues
    | cons value values =>
      rw [List.map_cons, List.map_cons, List.cons.injEq] at hvalues
      have htext : (before ++ text :: texts)[before.length]? = some text := by simp
      have hrest := ih hvalues.2 (before ++ [text])
      rw [List.length_append, List.append_assoc] at hrest
      rw [List.length_cons, readFloats,
        bind_of_ok (tryConvertToDouble_of_some line htext hvalues.1)]
      exact bind_of_ok hrest _

/-- Assumes: two computations without some error. Neither has it one after the other. -/
theorem bind_ne_error {ε α β : Type} {first : Except ε α} {next : α → Except ε β} {failure : ε}
    (hfirst : first ≠ .error failure) (hnext : ∀ a, next a ≠ .error failure) :
    (first >>= next) ≠ .error failure := by
  cases first with
  | error other => exact fun heq ↦ hfirst (congrArg Except.error (Except.error.inj heq))
  | ok a => exact hnext a

theorem readFloats_ne_outOfRange {first count : ℕ} (h : first + count ≤ rows.length) :
    readFloats env rows line first count ≠ .error .outOfRange := by
  induction count generalizing first with
  | zero => simp [readFloats]
  | succ count ih =>
    rw [readFloats]
    refine bind_ne_error (tryConvertToDouble_ne_outOfRange (by omega)) fun value ↦ ?_
    refine bind_ne_error (ih (by omega)) fun rest ↦ ?_
    exact fun heq ↦ nomatch heq

/-- A row that is long enough is not indexed beyond its length. -/
theorem ListFormat.Fits.read_ne_outOfRange (h : format.Fits) :
    format.read env rows line ≠ .error .outOfRange := by
  unfold ListFormat.read
  split_ifs with hcolumns
  · simp
  · rw [not_not, h] at hcolumns
    refine bind_ne_error (tryConvertToDouble_ne_outOfRange ?_) fun seconds ↦ ?_
    · cases hrow : format.row <;> rw [hrow, RowFormat.columns] at hcolumns <;> omega
    · refine bind_ne_error ?_ fun value ↦ fun heq ↦ nomatch heq
      cases hrow : format.row with
      | image pixelFormat value =>
        rw [hrow, RowFormat.columns] at hcolumns
        rw [RowFormat.read, List.getElem?_eq_getElem (show 1 < rows.length by omega)]
        dsimp only
        split <;> simp
      | numbers count value =>
        rw [hrow, RowFormat.columns] at hcolumns
        exact bind_ne_error (readFloats_ne_outOfRange (by omega)) fun floats heq ↦ nomatch heq

/-- A row is read as what it stands for. -/
theorem ListFormat.Fits.read_of_rowDenotes (h : format.Fits)
    (hdenotes : RowDenotes env format rows data) (line : ℕ) :
    format.read env rows line = .ok data := by
  unfold ListFormat.Fits at h
  cases hdenotes with
  | @image pixelFormat value time name seconds loaded hrow htime hload =>
    rw [hrow] at h
    have hseconds := tryConvertToDouble_of_some line
      (show [time, name][0]? = some time from rfl) htime
    have hread : (RowFormat.image pixelFormat value).read env [time, name] line =
        .ok (value loaded) := by
      simp [RowFormat.read, hload]
    rw [ListFormat.read, if_neg (by rw [h]; simp [RowFormat.columns]), bind_of_ok hseconds, hrow]
    exact bind_of_ok hread _
  | @numbers value time texts seconds values hrow htime hvalues =>
    rw [hrow] at h
    have hseconds := tryConvertToDouble_of_some line
      (show (time :: texts)[0]? = some time from rfl) htime
    have hread : (RowFormat.numbers texts.length value).read env (time :: texts) line =
        .ok (value (values.map env.toFloat)) :=
      bind_of_ok (readFloats_append line hvalues [time]) _
    rw [ListFormat.read, if_neg (by rw [h]; simp [RowFormat.columns]), bind_of_ok hseconds, hrow]
    exact bind_of_ok hread _

/-! ### Loaders of rows -/

namespace ListState

variable {s : ListState} {lines : List (List UInt8)}

/-- A loader that has these lines left to read. -/
def Opened (format : ListFormat Double Float Time Image Cloud) (s : ListState)
    (lines : List (List UInt8)) : Prop :=
  ∃ reader, s.reader = some reader ∧ reader.delimiter = format.delimiter ∧
    Reads reader.reader lines

/-- A loader that did not open its file, whose lines are these after the head. -/
def Closed (format : ListFormat Double Float Time Image Cloud) (s : ListState)
    (lines : List (List UInt8)) : Prop :=
  ∃ content all, s.reader = none ∧ s.file = some content ∧
    Reads (BufferedReader.openFile .removeCrOrLf 256 content) all ∧
    lines = all.drop format.skipHead

theorem openReader_of_opened_or_closed (h : Opened format s lines ∨ Closed format s lines) :
    ∃ reader, s.openReader format = .finished (some reader) ∧
      reader.delimiter = format.delimiter ∧ Reads reader.reader lines := by
  obtain ⟨reader, hreader, hdelimiter, hreads⟩ | ⟨content, all, hreader, hfile, hreads, rfl⟩ := h
  · exact ⟨reader, by rw [openReader, hreader], hdelimiter, hreads⟩
  · obtain ⟨next, hopen, hnext⟩ :=
      CsvReader.openFile_of_reads hreads format.delimiter format.skipHead
    refine ⟨⟨next, format.delimiter⟩, ?_, rfl, hnext⟩
    rw [openReader, hreader, hfile]
    show (CsvReader.openFile content format.delimiter format.skipHead).bind _ = _
    rw [hopen, LoopEnd.bind_finished]

/-- `Next` reads the next line, or an empty one at the end. -/
theorem next_of_opened_or_closed (env : DatasetEnv Double Float Time Image Cloud)
    (h : Opened format s lines ∨ Closed format s lines) :
    ∃ next line, s.next env format =
        .finished (format.read env (byteTokens format.delimiter (lines.headD [])) line, next) ∧
      Opened format next lines.tail := by
  obtain ⟨reader, hopen, hdelimiter, hreads⟩ := openReader_of_opened_or_closed h
  obtain ⟨next, hread, hrest⟩ := CsvReader.readRows_of_reads_headD hreads
  refine ⟨{ s with reader := some ⟨next, reader.delimiter⟩, current := s.current + 1 },
    s.current + 1 + format.skipHead, ?_, ⟨next, reader.delimiter⟩, rfl, hdelimiter, hrest⟩
  rw [ListState.next, hopen, LoopEnd.bind_finished]
  dsimp only
  rw [hread, LoopEnd.bind_finished, hdelimiter]

theorem Opened.isEnd_eq (h : Opened format s lines) : s.isEnd = lines.isEmpty := by
  obtain ⟨reader, hreader, -, hreads⟩ := h
  rw [isEnd, hreader]
  exact hreads.eof_eq

/-- Lines that stand for some data are read as these data. -/
theorem Closed.iterates (hfits : format.Fits) (h : Closed format s lines)
    {data : List (SensorData Float Time Image Cloud)} (hne : data ≠ [])
    (hlines : List.Forall₂ (RowDenotes env format) (lines.map (byteTokens format.delimiter)) data) :
    (listLoader env format).Iterates s data := by
  have hnext (s : ListState) (lines : List (List UInt8))
      (hs : Opened format s lines ∨ Closed format s lines)
      {first : SensorData Float Time Image Cloud} {rest : List (SensorData Float Time Image Cloud)}
      (hall : List.Forall₂ (RowDenotes env format) (lines.map (byteTokens format.delimiter))
        (first :: rest)) :
      ∃ next, s.next env format = .finished (.ok first, next) ∧ Opened format next lines.tail ∧
        List.Forall₂ (RowDenotes env format) (lines.tail.map (byteTokens format.delimiter))
          rest := by
    obtain ⟨next, line, hstep, hopened⟩ := next_of_opened_or_closed env hs
    cases lines with
    | nil => cases hall
    | cons head tail =>
      obtain ⟨hfirst, hrest⟩ := List.forall₂_cons.mp hall
      rw [List.headD_cons, hfits.read_of_rowDenotes hfirst] at hstep
      exact ⟨next, hstep, hopened, hrest⟩
  refine DatasetLoader.iterates_of_yields (fun s data ↦ ∃ lines,
    (Opened format s lines ∨ Closed format s lines ∧ data ≠ []) ∧
    List.Forall₂ (RowDenotes env format) (lines.map (byteTokens format.delimiter)) data)
    ?_ ?_ ⟨lines, Or.inr ⟨h, hne⟩, hlines⟩
  · rintro s ⟨lines, hopened | ⟨-, hnot⟩, hall⟩
    · cases lines with
      | nil => exact hopened.isEnd_eq
      | cons => cases hall
    · exact absurd rfl hnot
  · rintro s first rest ⟨lines, hs, hall⟩
    have hnot_end : s.isEnd = false := by
      obtain hopened | ⟨⟨_, _, hreader, -⟩, -⟩ := hs
      · rw [hopened.isEnd_eq]
        cases lines with
        | nil => cases hall
        | cons => rfl
      · rw [isEnd, hreader]
        rfl
    obtain ⟨next, hstep, hopened, hrest⟩ := hnext s lines (hs.imp_right (·.1)) hall
    exact ⟨hnot_end, next, hstep, lines.tail, Or.inl hopened, hrest⟩

/-- `Next` does not index a row beyond its length, whatever is in the file. -/
theorem safe (hfits : format.Fits) (file : Option (List UInt8)) :
    (listLoader env format).Safe { file } := by
  refine DatasetLoader.safe_of_invariant (fun s ↦ (s.reader = none ∧ s.file = none) ∨
    ∃ lines, Opened format s lines ∨ Closed format s lines) ?_ ?_
  · rintro s (⟨hreader, hfile⟩ | ⟨lines, hs⟩)
    · refine ⟨.error .notOpened, s, ?_, by simp, Or.inl ⟨hreader, hfile⟩⟩
      show s.next env format = _
      rw [next, openReader, hreader, hfile]
      rfl
    · obtain ⟨next, line, hstep, hopened⟩ := next_of_opened_or_closed env hs
      exact ⟨_, next, hstep, hfits.read_ne_outOfRange, Or.inr ⟨lines.tail, Or.inl hopened⟩⟩
  · cases file with
    | none => exact Or.inl ⟨rfl, rfl⟩
    | some content =>
      obtain ⟨lines, hreads, -⟩ := exists_reads content
      exact Or.inr ⟨_, Or.inr ⟨content, lines, rfl, rfl, hreads, rfl⟩⟩

end ListState

/-- Lines of a file, without their ends, where carriage returns are at their ends alone. -/
def HasLines (content : List UInt8) (lines : List (List UInt8)) : Prop :=
  EndsLines content ∧ (linesOf content).map removeLineEnd = lines

theorem HasLines.reads {content : List UInt8} {lines : List (List UInt8)}
    (h : HasLines content lines) :
    Reads (BufferedReader.openFile .removeCrOrLf 256 content) lines := by
  obtain ⟨read, hreads, -, hright⟩ := exists_reads content
  rw [hright (h.1.unbrokenFrom 256 0), h.2] at hreads
  exact hreads

/-- A file whose lines after the head stand for some data. -/
def ListFormat.HasData (env : DatasetEnv Double Float Time Image Cloud)
    (format : ListFormat Double Float Time Image Cloud) (content : List UInt8)
    (data : List (SensorData Float Time Image Cloud)) : Prop :=
  ∃ head lines, head.length = format.skipHead ∧ HasLines content (head ++ lines) ∧
    List.Forall₂ (RowDenotes env format) (lines.map (byteTokens format.delimiter)) data

/-- The loop over a list of rows ends after its data. -/
theorem ListFormat.HasData.iterates (hfits : format.Fits) {content : List UInt8}
    {data : List (SensorData Float Time Image Cloud)} (h : format.HasData env content data)
    (hne : data ≠ []) : (listLoader env format).Iterates { file := some content } data := by
  obtain ⟨head, lines, hhead, hlines, hall⟩ := h
  have hclosed : ListState.Closed format { file := some content } lines := by
    refine ⟨content, head ++ lines, rfl, rfl, hlines.reads, ?_⟩
    rw [← hhead, List.drop_left]
  exact hclosed.iterates hfits hne hall

end Felicia
