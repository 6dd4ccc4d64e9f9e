import Felicia.Support.Lists
import Felicia.Support.Loops
import Felicia.Util.BufferedReader

/-!
# Buffered writer

`BufferedWriter` of `felicia/core/lib/file/buffered_writer.cc`, which collects lines in a buffer and
writes the buffer to a file whenever it is full, and at the end. A line is appended piece by piece,
until all of it is; the newline that follows it is appended once. `writeFile_iff` says that a file
holds its lines if and only if no newline was cut, and every write wrote all it was given.

Sizes are natural numbers: that a piece fits in an `int` is not checked.
-/

set_option autoImplicit false
set_option relaxedAutoImplicit false

namespace Felicia

open Support

/-- `BufferedWriter::Option`. -/
inductive WriterOption
  | none | newlineCrLf
  deriving DecidableEq

/-! ### State and functions -/

/-- `BufferedWriter`. -/
structure BufferedWriter where
  option : WriterOption
  /-- Whether `file_` is valid. -/
  isOpened : Bool := false
  bufferCapacity : ℕ := 256
  /-- The first `written_` bytes of the buffer. -/
  buffer : List UInt8 := []
  /-- The content of the file. -/
  file : List UInt8 := []
  /-- How often the file was written to. -/
  writes : ℕ := 0

namespace BufferedWriter

/-- How many bytes `WriteAtCurrentPos` writes at most, each time it is called. It fails where there
is no number. -/
abbrev Limits := ℕ → Option ℕ

variable (limit : Limits) (w : BufferedWriter)

def capacity : ℕ := w.bufferCapacity - w.buffer.length

/-- `Open` of a file that is created, after the capacity was set. -/
def openFile (option : WriterOption) (capacity : ℕ) : BufferedWriter :=
  { option, isOpened := true, bufferCapacity := capacity }

/-- What a function of the writer returns, where -1 is nothing, and leaves. -/
structure Appended where
  returned : Option ℕ
  writer : BufferedWriter

def flush : Appended :=
  if !w.isOpened then ⟨none, w⟩
  else
    match limit w.writes with
    -- The buffer is kept if it could not be written.
    | none => ⟨none, { w with writes := w.writes + 1 }⟩
    | some most =>
      ⟨some (min most w.buffer.length), { w with
        file := w.file ++ w.buffer.take most
        buffer := []
        writes := w.writes + 1 }⟩

/-- `AppendToBuffer`. -/
def appendToBuffer (data : List UInt8) : BufferedWriter := { w with buffer := w.buffer ++ data }

/-- `AppendToBufferOrFlush`. -/
def appendToBufferOrFlush (data : List UInt8) : Appended :=
  let len := min data.length w.capacity
  let w := w.appendToBuffer (data.take len)
  if w.capacity = 0 then
    match w.flush limit with
    | ⟨none, w⟩ => ⟨none, w⟩
    | ⟨some _, w⟩ => ⟨some len, w⟩
  else ⟨some len, w⟩

/-- A writer, and what of a line is left to write. -/
structure WritingLine where
  writer : BufferedWriter
  left : List UInt8

/-- What `WriteLine` returns, and leaves. -/
structure LineWritten where
  returned : Bool
  writer : BufferedWriter

/-- An iteration of the loop of `WriteLine`. -/
def writePiece (s : WritingLine) : LoopRound WritingLine LineWritten :=
  if s.left = [] then .done ⟨true, s.writer⟩
  else
    match s.writer.appendToBufferOrFlush limit s.left with
    | ⟨none, w⟩ => .done ⟨false, w⟩
    | ⟨some result, w⟩ => .again ⟨w, s.left.drop result⟩

def newline : WriterOption → List UInt8
  | .none => [lineFeed]
  | .newlineCrLf => [carriageReturn, lineFeed]

/-- The newline that `WriteLine` appends. -/
def writeNewline : LineWritten :=
  match w.appendToBufferOrFlush limit (newline w.option) with
  | ⟨none, w⟩ => ⟨false, w⟩
  | ⟨some _, w⟩ => ⟨true, w⟩

/-- `WriteLine`, whose loop needs no more rounds than the line is long, and two. -/
def writeLine (line : List UInt8) : LoopEnd LineWritten :=
  (runLoop (writePiece limit) (line.length + 2) ⟨w, line⟩).bind fun result ↦
    if result.returned then .finished (result.writer.writeNewline limit) else .finished result

/-- `Close`, and what its `Flush` returns. -/
def close : Appended :=
  ⟨(w.flush limit).returned, { (w.flush limit).writer with isOpened := false }⟩

/-- What some calls of `WriteLine` returned, and left. -/
structure LinesWritten where
  returned : List Bool
  writer : BufferedWriter

/-- `WriteLine` for each line. -/
def writeLines : List (List UInt8) → BufferedWriter → LoopEnd LinesWritten
  | [], w => .finished ⟨[], w⟩
  | line :: lines, w =>
    (w.writeLine limit line).bind fun first ↦
      (writeLines lines first.writer).bind fun rest ↦
        .finished ⟨first.returned :: rest.returned, rest.writer⟩

/-- What the calls of `WriteLine` and the last `Flush` returned, and the content of the file. -/
structure FileWritten where
  returned : List Bool
  flushed : Option ℕ
  file : List UInt8

/-- `Open`, `WriteLine` for each line, and `Close`. -/
def writeFile (option : WriterOption) (capacity : ℕ) (lines : List (List UInt8)) :
    LoopEnd FileWritten :=
  (writeLines limit lines (openFile option capacity)).bind fun result ↦
    .finished ⟨result.returned, (result.writer.close limit).returned,
      (result.writer.close limit).writer.file⟩

/-! ### What a file should hold -/

def FileWritten.Succeeded (result : FileWritten) : Prop :=
  (∀ returned ∈ result.returned, returned = true) ∧ result.flushed.isSome

/-- Lines, each with the newline that follows it. -/
def fileText (option : WriterOption) (lines : List (List UInt8)) : List UInt8 :=
  lines.flatMap fun line ↦ line ++ newline option

/-- A newline that begins at some position begins in the last byte of a buffer, but is longer. -/
def IsCut (option : WriterOption) (capacity position : ℕ) : Prop :=
  option = .newlineCrLf ∧ capacity ∣ position + 1

/-- No newline of some lines that begin at a position is cut. -/
def UncutFrom (option : WriterOption) (capacity start : ℕ) (lines : List (List UInt8)) : Prop :=
  EachAfter (fun before line ↦
    ¬ IsCut option capacity (start + (fileText option before).length + line.length)) lines

/-- As many writes as come first write a whole buffer. -/
def WritesBuffers (capacity : ℕ) (limit : Limits) (writes : ℕ) : Prop :=
  ∀ i < writes, ∃ most, limit i = some most ∧ capacity ≤ most

/-- The writes that some text takes, buffer by buffer, write all of it. -/
def WritesAll (capacity : ℕ) (limit : Limits) (length : ℕ) : Prop :=
  WritesBuffers capacity limit (length / capacity) ∧
    ∃ most, limit (length / capacity) = some most ∧ length % capacity ≤ most

/-- Every write writes a whole buffer. -/
def AlwaysWrites (capacity : ℕ) (limit : Limits) : Prop :=
  ∀ i, ∃ most, limit i = some most ∧ capacity ≤ most

/-! ### Appending -/

variable {limit} {w} {option : WriterOption} {capacity : ℕ+} {text data line : List UInt8}
  {lines : List (List UInt8)}

/-- A writer that appended some text, and whose writes did not fail: the buffer is not full, and the
file has all that left it if and only if all writes wrote a whole buffer. -/
structure Wrote (option : WriterOption) (capacity : ℕ+) (limit : Limits) (text : List UInt8)
    (w : BufferedWriter) : Prop where
  option_eq : w.option = option
  isOpened : w.isOpened = true
  bufferCapacity : w.bufferCapacity = capacity
  length_lt : w.buffer.length < capacity
  position : text.length = w.writes * capacity + w.buffer.length
  exact : WritesBuffers capacity limit w.writes → w.file ++ w.buffer = text
  short : ¬ WritesBuffers capacity limit w.writes →
    w.file.length + w.buffer.length < text.length

theorem wrote_openFile (option : WriterOption) (capacity : ℕ+) (limit : Limits) :
    Wrote option capacity limit [] (openFile option capacity) := by
  refine ⟨rfl, rfl, rfl, capacity.pos, (Nat.zero_mul _).symm, fun _ ↦ rfl, fun hnot ↦ ?_⟩
  exact absurd (fun i hi ↦ absurd hi (Nat.not_lt_zero i)) hnot

theorem writesBuffers_succ {capacity writes : ℕ} :
    WritesBuffers capacity limit (writes + 1) ↔
      WritesBuffers capacity limit writes ∧ ∃ most, limit writes = some most ∧ capacity ≤ most := by
  constructor
  · exact fun h ↦ ⟨fun i hi ↦ h i (hi.trans (Nat.lt_succ_self _)), h writes (Nat.lt_succ_self _)⟩
  · rintro ⟨hbefore, hlast⟩ i hi
    obtain hlt | rfl := Nat.lt_succ_iff_lt_or_eq.mp hi
    · exact hbefore i hlt
    · exact hlast

theorem Wrote.capacity_eq (h : Wrote option capacity limit text w) :
    w.capacity = capacity - text.length % capacity := by
  have hmod : text.length % capacity = w.buffer.length := by
    rw [h.position, Nat.mul_add_mod_self_right, Nat.mod_eq_of_lt h.length_lt]
  rw [BufferedWriter.capacity, h.bufferCapacity, hmod]

theorem flush_of_limit (hopened : w.isOpened = true) {most : ℕ}
    (hlimit : limit w.writes = some most) :
    w.flush limit = ⟨some (min most w.buffer.length), { w with
      file := w.file ++ w.buffer.take most
      buffer := []
      writes := w.writes + 1 }⟩ := by
  rw [flush, if_neg (by simp [hopened]), hlimit]

theorem flush_of_failed (hopened : w.isOpened = true) (hlimit : limit w.writes = none) :
    w.flush limit = ⟨none, { w with writes := w.writes + 1 }⟩ := by
  rw [flush, if_neg (by simp [hopened]), hlimit]

/-- A buffer that is full is written. -/
theorem Wrote.flush (h : Wrote option capacity limit text w) {piece : List UInt8}
    (hfull : w.buffer.length + piece.length = capacity) {result : ℕ} {next : BufferedWriter}
    (hflush : (w.appendToBuffer piece).flush limit = ⟨some result, next⟩) :
    Wrote option capacity limit (text ++ piece) next := by
  have hopened : (w.appendToBuffer piece).isOpened = true := h.isOpened
  cases hlimit : limit w.writes with
  | none =>
    rw [flush_of_failed hopened hlimit] at hflush
    cases hflush
  | some most =>
    rw [flush_of_limit hopened hlimit] at hflush
    cases hflush
    have hlength : (w.buffer ++ piece).length = capacity := by
      rw [List.length_append, hfull]
    have hposition := h.position
    refine ⟨h.option_eq, h.isOpened, h.bufferCapacity, capacity.pos, ?_, fun hall ↦ ?_,
      fun hnot ↦ ?_⟩
    · show (text ++ piece).length = (w.writes + 1) * capacity + 0
      rw [List.length_append, Nat.succ_mul]
      omega
    · obtain ⟨hbefore, most', hmost', hle⟩ := writesBuffers_succ.mp hall
      obtain rfl : most = most' := Option.some.inj (hlimit.symm.trans hmost')
      show (w.file ++ (w.buffer ++ piece).take most) ++ [] = text ++ piece
      rw [List.take_of_length_le (hlength.trans_le hle), List.append_nil, ← List.append_assoc,
        h.exact hbefore]
    · show (w.file ++ (w.buffer ++ piece).take most).length + 0 < (text ++ piece).length
      rw [List.length_append, List.length_take, hlength, List.length_append]
      by_cases hbefore : WritesBuffers capacity limit w.writes
      · have hexact := congrArg List.length (h.exact hbefore)
        rw [List.length_append] at hexact
        have hlt : most < capacity := by
          by_contra hle
          exact hnot (writesBuffers_succ.mpr ⟨hbefore, most, hlimit, not_lt.mp hle⟩)
        omega
      · have hshort := h.short hbefore
        omega

/-- As much as fits is appended, and a full buffer is written. -/
theorem Wrote.appendToBufferOrFlush (h : Wrote option capacity limit text w) {result : ℕ}
    {next : BufferedWriter}
    (happend : w.appendToBufferOrFlush limit data = ⟨some result, next⟩) :
    result = min data.length (capacity - text.length % capacity) ∧
      Wrote option capacity limit (text ++ data.take result) next := by
  have hlt := h.length_lt
  have hlength : (data.take (min data.length w.capacity)).length =
      min data.length w.capacity := by
    rw [List.length_take, min_comm, ← min_assoc, min_self]
  have hroom : (w.appendToBuffer (data.take (min data.length w.capacity))).capacity =
      w.capacity - min data.length w.capacity := by
    show w.bufferCapacity - (w.buffer ++ data.take (min data.length w.capacity)).length = _
    rw [List.length_append, hlength, BufferedWriter.capacity]
    omega
  have hcapacity : w.capacity = capacity - w.buffer.length := by
    rw [BufferedWriter.capacity, h.bufferCapacity]
  rw [← h.capacity_eq]
  unfold BufferedWriter.appendToBufferOrFlush at happend
  simp only [hroom] at happend
  split_ifs at happend with hfull
  · have hall : w.buffer.length + (data.take (min data.length w.capacity)).length = capacity := by
      rw [hlength]
      omega
    cases hflush : (w.appendToBuffer (data.take (min data.length w.capacity))).flush limit with
    | mk returned writer =>
      rw [hflush] at happend
      cases returned with
      | none => cases happend
      | some _ =>
        cases happend
        exact ⟨rfl, h.flush hall hflush⟩
  · cases happend
    refine ⟨rfl, h.option_eq, h.isOpened, h.bufferCapacity, ?_, ?_, fun hall ↦ ?_, fun hnot ↦ ?_⟩
    · show (w.buffer ++ data.take (min data.length w.capacity)).length < capacity
      rw [List.length_append, hlength]
      omega
    · show (text ++ data.take (min data.length w.capacity)).length =
        w.writes * capacity + (w.buffer ++ data.take (min data.length w.capacity)).length
      rw [List.length_append, List.length_append, h.position]
      omega
    · show w.file ++ (w.buffer ++ data.take (min data.length w.capacity)) = _
      rw [← List.append_assoc, h.exact hall]
    · show w.file.length + (w.buffer ++ data.take (min data.length w.capacity)).length <
        (text ++ data.take (min data.length w.capacity)).length
      have hshort := h.short hnot
      rw [List.length_append, List.length_append]
      omega

/-! ### Writing lines -/

/-- `WriteLine` that returns true appended the line, and as much of the newline as fitted. -/
theorem Wrote.writeLine (h : Wrote option capacity limit text w) {result : LineWritten}
    (hwrite : w.writeLine limit line = .finished result) (htrue : result.returned = true) :
    Wrote option capacity limit (text ++ line ++ (newline option).take
      (capacity - (text.length + line.length) % capacity)) result.writer := by
  obtain ⟨body, hloop, hnewline⟩ := LoopEnd.bind_eq_finished_iff.mp hwrite
  have hround (s : WritingLine)
      (hs : ∃ done, Wrote option capacity limit (text ++ done) s.writer ∧ done ++ s.left = line) :
      (writePiece limit s).Meets True
        (fun next ↦ ∃ done, Wrote option capacity limit (text ++ done) next.writer ∧
          done ++ next.left = line)
        (fun ending ↦ ending.returned = true →
          Wrote option capacity limit (text ++ line) ending.writer) := by
    obtain ⟨done, hwrote, hline⟩ := hs
    unfold writePiece
    split_ifs with hleft
    · rw [hleft, List.append_nil] at hline
      rw [← hline]
      exact fun _ ↦ hwrote
    · cases happend : s.writer.appendToBufferOrFlush limit s.left with
      | mk returned writer =>
        cases returned with
        | none => exact fun hfalse ↦ absurd hfalse Bool.false_ne_true
        | some n =>
          refine ⟨done ++ s.left.take n, ?_, ?_⟩
          · rw [← List.append_assoc]
            exact (hwrote.appendToBufferOrFlush happend).2
          · rw [List.append_assoc, List.take_append_drop, hline]
  have hbody := runLoop_keeps hround ⟨[], by rwa [List.append_nil], rfl⟩ hloop
  split_ifs at hnewline with hreturned
  · have hwrote := hbody hreturned
    cases hnewline
    unfold writeNewline at htrue ⊢
    rw [hwrote.option_eq] at htrue ⊢
    cases happend : body.writer.appendToBufferOrFlush limit (newline option) with
    | mk returned writer =>
      rw [happend] at htrue
      cases returned with
      | none => cases htrue
      | some n =>
        obtain ⟨hn, hnext⟩ := hwrote.appendToBufferOrFlush happend
        rw [hn, List.length_append, ← List.take_take,
          List.take_of_length_le (List.length_take_le' _ _)] at hnext
        exact hnext
  · cases hnewline
    exact absurd htrue hreturned

/-- There is one byte of room if and only if the next position is that of a new buffer. -/
theorem dvd_succ_iff (capacity : ℕ+) (position : ℕ) :
    (capacity : ℕ) ∣ position + 1 ↔ capacity - position % capacity = 1 := by
  have hlt := Nat.mod_lt position capacity.pos
  have hmod : (capacity : ℕ) ∣ position + 1 ↔ (capacity : ℕ) ∣ position % capacity + 1 := by
    calc (capacity : ℕ) ∣ position + 1
        ↔ (capacity : ℕ) ∣ capacity * (position / capacity) + (position % capacity + 1) := by
          rw [← Nat.add_assoc, Nat.div_add_mod]
      _ ↔ (capacity : ℕ) ∣ position % capacity + 1 :=
          Nat.dvd_add_right (Nat.dvd_mul_right _ _)
  rw [hmod]
  constructor
  · intro hdvd
    have hle := Nat.le_of_dvd (Nat.succ_pos _) hdvd
    omega
  · intro hroom
    have heq : position % capacity + 1 = capacity := by omega
    rw [heq]

/-- What fits of a newline is all of it, unless it is cut. -/
theorem take_newline_cases (option : WriterOption) (capacity : ℕ+) (position : ℕ) :
    (¬ IsCut option capacity position ∧
      (newline option).take (capacity - position % capacity) = newline option) ∨
    (IsCut option capacity position ∧
      ((newline option).take (capacity - position % capacity)).length <
        (newline option).length) := by
  have hlt := Nat.mod_lt position capacity.pos
  have hcut := dvd_succ_iff capacity position
  cases option with
  | none =>
    refine Or.inl ⟨fun h ↦ WriterOption.noConfusion h.1, List.take_of_length_le ?_⟩
    show 1 ≤ _
    omega
  | newlineCrLf =>
    by_cases hdvd : (capacity : ℕ) ∣ position + 1
    · refine Or.inr ⟨⟨rfl, hdvd⟩, ?_⟩
      rw [hcut.mp hdvd]
      exact Nat.lt_succ_self 1
    · refine Or.inl ⟨fun h ↦ hdvd h.2, List.take_of_length_le ?_⟩
      have hroom := mt hcut.mpr hdvd
      show 2 ≤ _
      omega

theorem fileText_cons (option : WriterOption) (line : List UInt8) (lines : List (List UInt8)) :
    fileText option (line :: lines) = line ++ newline option ++ fileText option lines :=
  List.flatMap_cons

@[simp] theorem uncutFrom_nil {capacity start : ℕ} : UncutFrom option capacity start [] :=
  eachAfter_nil

theorem uncutFrom_cons {capacity start : ℕ} :
    UncutFrom option capacity start (line :: lines) ↔
      ¬ IsCut option capacity (start + line.length) ∧
        UncutFrom option capacity (start + (line ++ newline option).length) lines := by
  have hrest (before : List (List UInt8)) : start + (fileText option (line :: before)).length =
      start + (line ++ newline option).length + (fileText option before).length := by
    rw [fileText_cons, List.length_append, ← Nat.add_assoc]
  rw [UncutFrom, eachAfter_cons]
  simp only [hrest]
  rfl

/-- If all calls of `WriteLine` return true, the lines were appended if and only if no newline was
cut; and else less was appended. -/
theorem Wrote.writeLines (h : Wrote option capacity limit text w) {result : LinesWritten}
    (hwrite : writeLines limit lines w = .finished result)
    (htrue : ∀ returned ∈ result.returned, returned = true) :
    ∃ appended, Wrote option capacity limit (text ++ appended) result.writer ∧
      (UncutFrom option capacity text.length lines → appended = fileText option lines) ∧
      (¬ UncutFrom option capacity text.length lines →
        appended.length < (fileText option lines).length) := by
  induction lines generalizing text w result with
  | nil =>
    cases hwrite
    exact ⟨[], by rwa [List.append_nil], fun _ ↦ rfl, fun hcut ↦ absurd uncutFrom_nil hcut⟩
  | cons line lines ih =>
    obtain ⟨first, hfirst, hlines⟩ := LoopEnd.bind_eq_finished_iff.mp hwrite
    obtain ⟨rest, hrest, hresult⟩ := LoopEnd.bind_eq_finished_iff.mp hlines
    cases hresult
    have hwrote := h.writeLine hfirst (htrue _ List.mem_cons_self)
    obtain ⟨appended, happended, hall, hless⟩ :=
      ih hwrote hrest fun returned hmem ↦ htrue _ (List.mem_cons_of_mem _ hmem)
    obtain ⟨huncut, hkept⟩ | ⟨hcut, hlost⟩ :=
      take_newline_cases option capacity (text.length + line.length)
    · have hposition : (text ++ line ++ newline option).length =
          text.length + (line ++ newline option).length := by
        rw [List.append_assoc, List.length_append]
      rw [hkept] at happended hall hless
      rw [hposition] at hall hless
      refine ⟨line ++ newline option ++ appended, ?_, ?_, ?_⟩
      · rwa [← List.append_assoc, ← List.append_assoc]
      · rw [uncutFrom_cons, and_iff_right huncut, fileText_cons]
        exact fun hrest ↦ congrArg _ (hall hrest)
      · rw [uncutFrom_cons, and_iff_right huncut, fileText_cons]
        intro hrest
        have hlt := hless hrest
        simp only [List.length_append]
        omega
    · have hle : appended.length ≤ (fileText option lines).length := by
        by_cases hrest : UncutFrom option capacity (text ++ line ++ (newline option).take
            (capacity - (text.length + line.length) % capacity)).length lines
        · exact (congrArg List.length (hall hrest)).le
        · exact (hless hrest).le
      refine ⟨line ++ (newline option).take (capacity - (text.length + line.length) % capacity) ++
        appended, ?_, fun huncut ↦ absurd hcut (uncutFrom_cons.mp huncut).1, fun _ ↦ ?_⟩
      · rwa [← List.append_assoc, ← List.append_assoc]
      · rw [fileText_cons]
        simp only [List.length_append]
        omega

/-! ### Closing -/

/-- What the last `Flush` leaves in the file is the text that was appended if and only if all writes
wrote all they were given; and else it is shorter. -/
theorem Wrote.close (h : Wrote option capacity limit text w) {result : ℕ}
    (hflush : (w.close limit).returned = some result) :
    (WritesAll capacity limit text.length → (w.close limit).writer.file = text) ∧
      (¬ WritesAll capacity limit text.length →
        (w.close limit).writer.file.length < text.length) ∧
      (w.close limit).writer.file.length ≤ text.length := by
  have hwrites : text.length / capacity = w.writes := by
    rw [h.position, Nat.mul_comm, Nat.mul_add_div capacity.pos, Nat.div_eq_of_lt h.length_lt,
      Nat.add_zero]
  have hbuffer : text.length % capacity = w.buffer.length := by
    rw [h.position, Nat.mul_add_mod_self_right, Nat.mod_eq_of_lt h.length_lt]
  cases hlimit : limit w.writes with
  | none =>
    rw [BufferedWriter.close, flush_of_failed h.isOpened hlimit] at hflush
    cases hflush
  | some most =>
    have hfile : (w.close limit).writer.file = w.file ++ w.buffer.take most := by
      rw [BufferedWriter.close, flush_of_limit h.isOpened hlimit]
    have hlength : (w.close limit).writer.file.length =
        w.file.length + min most w.buffer.length := by
      rw [hfile, List.length_append, List.length_take]
    have htext : w.file.length + w.buffer.length ≤ text.length := by
      by_cases hall : WritesBuffers capacity limit w.writes
      · rw [← h.exact hall, List.length_append]
      · exact (h.short hall).le
    rw [WritesAll, hwrites, hbuffer]
    refine ⟨?_, fun hnot ↦ ?_, by omega⟩
    · rintro ⟨hall, most', hmost', hle⟩
      obtain rfl : most = most' := Option.some.inj (hlimit.symm.trans hmost')
      rw [hfile, List.take_of_length_le hle, h.exact hall]
    · by_cases hall : WritesBuffers capacity limit w.writes
      · have hlt : most < w.buffer.length := by
          by_contra hle
          exact hnot ⟨hall, most, hlimit, not_lt.mp hle⟩
        omega
      · have hshort := h.short hall
        omega

/-! ### Calls end -/

/-- A writer whose buffer is no longer than it may be. -/
structure Sane (w : BufferedWriter) : Prop where
  isOpened : w.isOpened = true
  pos : 0 < w.bufferCapacity
  length_le : w.buffer.length ≤ w.bufferCapacity

/-- No write fails. -/
def NeverFails (limit : Limits) : Prop := ∀ i, limit i ≠ none

theorem Sane.flush (h : w.Sane) (limit : Limits) :
    (w.flush limit).writer.Sane ∧
      ((w.flush limit).returned ≠ none → 0 < (w.flush limit).writer.capacity) ∧
      (NeverFails limit → (w.flush limit).returned ≠ none) := by
  cases hlimit : limit w.writes with
  | none =>
    rw [flush_of_failed h.isOpened hlimit]
    exact ⟨⟨h.isOpened, h.pos, h.length_le⟩, fun hne ↦ absurd rfl hne,
      fun hnever ↦ absurd hlimit (hnever _)⟩
  | some most =>
    rw [flush_of_limit h.isOpened hlimit]
    exact ⟨⟨h.isOpened, h.pos, Nat.zero_le _⟩, fun _ ↦ h.pos, fun _ ↦ Option.some_ne_none _⟩

/-- After a piece was appended there is room. -/
theorem Sane.appendToBufferOrFlush (h : w.Sane) (limit : Limits) (data : List UInt8) :
    (w.appendToBufferOrFlush limit data).writer.Sane ∧
      (∀ n, (w.appendToBufferOrFlush limit data).returned = some n →
        n = min data.length w.capacity ∧
          0 < (w.appendToBufferOrFlush limit data).writer.capacity) ∧
      (NeverFails limit → (w.appendToBufferOrFlush limit data).returned ≠ none) := by
  have hsane : (w.appendToBuffer (data.take (min data.length w.capacity))).Sane := by
    refine ⟨h.isOpened, h.pos, ?_⟩
    show (w.buffer ++ data.take (min data.length w.capacity)).length ≤ w.bufferCapacity
    have hle := h.length_le
    rw [List.length_append, List.length_take, capacity]
    omega
  unfold BufferedWriter.appendToBufferOrFlush
  dsimp only
  split_ifs with hfull
  · obtain ⟨hflushed, hroom, hnever⟩ := hsane.flush limit
    cases hflush : (w.appendToBuffer (data.take (min data.length w.capacity))).flush limit with
    | mk returned writer =>
      rw [hflush] at hflushed hroom hnever
      cases returned with
      | none =>
        refine ⟨hflushed, fun n hn ↦ ?_, hnever⟩
        cases hn
      | some result =>
        refine ⟨hflushed, fun n hn ↦ ⟨(Option.some.inj hn).symm, hroom (Option.some_ne_none _)⟩,
          fun _ ↦ Option.some_ne_none _⟩
  · exact ⟨hsane, fun n hn ↦ ⟨(Option.some.inj hn).symm, Nat.pos_of_ne_zero hfull⟩,
      fun _ ↦ Option.some_ne_none _⟩

/-- `WriteLine` ends, and returns true if no write fails. -/
theorem Sane.writeLine (h : w.Sane) (limit : Limits) (line : List UInt8) :
    ∃ result, w.writeLine limit line = .finished result ∧ result.writer.Sane ∧
      (NeverFails limit → result.returned = true) := by
  have hround (s : WritingLine) (hs : s.writer.Sane) :
      (writePiece limit s).Meets False
        (fun next ↦ next.writer.Sane ∧
          next.left.length + (if next.writer.capacity = 0 then 1 else 0) <
            s.left.length + (if s.writer.capacity = 0 then 1 else 0))
        (fun ending ↦ ending.writer.Sane ∧ (NeverFails limit → ending.returned = true)) := by
    unfold writePiece
    by_cases hleft : s.left = []
    · rw [if_pos hleft]
      exact ⟨hs, fun _ ↦ rfl⟩
    · rw [if_neg hleft]
      obtain ⟨hnext, hroom, hnever⟩ := hs.appendToBufferOrFlush limit s.left
      cases happend : s.writer.appendToBufferOrFlush limit s.left with
      | mk returned writer =>
        rw [happend] at hnext hroom hnever
        cases returned with
        | none => exact ⟨hnext, fun hall ↦ absurd rfl (hnever hall)⟩
        | some n =>
          obtain ⟨hn, hpos⟩ := hroom n rfl
          refine ⟨hnext, ?_⟩
          have hlength := List.length_pos_of_ne_nil hleft
          rw [if_neg (Nat.ne_of_gt hpos), List.length_drop, hn]
          split_ifs with hfull
          · omega
          · omega
  have hrounds : line.length + (if w.capacity = 0 then 1 else 0) < line.length + 2 := by
    split_ifs <;> omega
  have hmeets := runLoop_meets (fun s : WritingLine ↦
    s.left.length + (if s.writer.capacity = 0 then 1 else 0)) hround (s := ⟨w, line⟩) h hrounds
  obtain ⟨body, hloop, hsane, hnever⟩ := hmeets.finished
  unfold BufferedWriter.writeLine
  rw [hloop, LoopEnd.bind_finished]
  split_ifs with hreturned
  · obtain ⟨hnext, -, hnewline⟩ :=
      hsane.appendToBufferOrFlush limit (newline body.writer.option)
    refine ⟨_, rfl, ?_⟩
    unfold writeNewline
    cases happend : body.writer.appendToBufferOrFlush limit (newline body.writer.option) with
    | mk returned writer =>
      rw [happend] at hnext hnewline
      cases returned with
      | none => exact ⟨hnext, fun hall ↦ absurd rfl (hnewline hall)⟩
      | some n => exact ⟨hnext, fun _ ↦ rfl⟩
  · exact ⟨body, rfl, hsane, hnever⟩

theorem Sane.writeLines (h : w.Sane) (limit : Limits) (lines : List (List UInt8)) :
    ∃ result, writeLines limit lines w = .finished result ∧ result.writer.Sane ∧
      (NeverFails limit → ∀ returned ∈ result.returned, returned = true) := by
  induction lines generalizing w with
  | nil => exact ⟨_, rfl, h, fun _ _ hmem ↦ absurd hmem List.not_mem_nil⟩
  | cons line lines ih =>
    obtain ⟨first, hfirst, hsane, htrue⟩ := h.writeLine limit line
    obtain ⟨rest, hrest, hlast, hall⟩ := ih hsane
    refine ⟨⟨first.returned :: rest.returned, rest.writer⟩, ?_, hlast, fun hnever ↦ ?_⟩
    · rw [BufferedWriter.writeLines, hfirst, LoopEnd.bind_finished, hrest, LoopEnd.bind_finished]
    · intro returned hmem
      obtain rfl | hmem := List.mem_cons.mp hmem
      · exact htrue hnever
      · exact hall hnever returned hmem

/-! ### Files -/

theorem AlwaysWrites.writesAll {length : ℕ} (h : AlwaysWrites capacity limit) :
    WritesAll capacity limit length := by
  refine ⟨fun i _ ↦ h i, ?_⟩
  obtain ⟨most, hmost, hle⟩ := h (length / capacity)
  exact ⟨most, hmost, (Nat.mod_lt length capacity.pos).le.trans hle⟩

/-- For every option, capacity, lines and writes, all calls return. If they report success, the file
holds the lines if and only if no newline was cut, and every write wrote all it was given; and if
every write does, they report success. -/
theorem writeFile_iff (option : WriterOption) (capacity : ℕ+) (limit : Limits)
    (lines : List (List UInt8)) :
    ∃ result, writeFile limit option capacity lines = .finished result ∧
      (result.Succeeded →
        (result.file = fileText option lines ↔
          UncutFrom option capacity 0 lines ∧
            WritesAll capacity limit (fileText option lines).length)) ∧
      (AlwaysWrites capacity limit →
        (result.file = fileText option lines ↔ UncutFrom option capacity 0 lines)) := by
  have hopened : (openFile option capacity).Sane := ⟨rfl, capacity.pos, Nat.zero_le _⟩
  obtain ⟨written, hwritten, hsane, htrue⟩ := hopened.writeLines limit lines
  obtain ⟨-, -, hflush⟩ := hsane.flush limit
  have hiff (hsucceeded : (∀ returned ∈ written.returned, returned = true) ∧
      (written.writer.close limit).returned ≠ none) :
      (written.writer.close limit).writer.file = fileText option lines ↔
        UncutFrom option capacity 0 lines ∧
          WritesAll capacity limit (fileText option lines).length := by
    obtain ⟨appended, hwrote, hall, hless⟩ :=
      (wrote_openFile option capacity limit).writeLines hwritten hsucceeded.1
    obtain ⟨n, hn⟩ := Option.ne_none_iff_exists'.mp hsucceeded.2
    obtain ⟨hexact, hshort, hle⟩ := hwrote.close hn
    rw [List.nil_append] at hexact hshort hle
    by_cases huncut : UncutFrom option capacity 0 lines
    · rw [and_iff_right huncut, ← hall huncut]
      by_cases hwrites : WritesAll capacity limit appended.length
      · exact iff_of_true (hexact hwrites) hwrites
      · exact iff_of_false (fun heq ↦ absurd (congrArg List.length heq) (hshort hwrites).ne) hwrites
    · refine iff_of_false (fun heq ↦ ?_) fun hboth ↦ huncut hboth.1
      have hlt := hless huncut
      rw [← heq] at hlt
      omega
  refine ⟨_, by rw [writeFile, hwritten, LoopEnd.bind_finished], fun hsucceeded ↦ ?_,
    fun halways ↦ ?_⟩
  · exact hiff ⟨hsucceeded.1, Option.isSome_iff_ne_none.mp hsucceeded.2⟩
  · have hnever : NeverFails limit := by
      intro i hfailed
      obtain ⟨most, hmost, -⟩ := halways i
      exact absurd (hfailed.symm.trans hmost) (Option.some_ne_none most).symm
    rw [hiff ⟨htrue hnever, hflush hnever⟩, and_iff_left halways.writesAll]

/-- Two lines in a buffer of three bytes. -/
theorem writeFile_twoLines :
    ∃ result, writeFile (fun _ ↦ some 3) .newlineCrLf 3 [[97], [98]] = .finished result ∧
      result.Succeeded ∧ result.file = fileText .newlineCrLf [[97], [98]] ∧
      UncutFrom .newlineCrLf ((3 : ℕ+) : ℕ) 0 [[97], [98]] ∧
      WritesAll ((3 : ℕ+) : ℕ) (fun _ ↦ some 3) 6 := by
  obtain ⟨result, hresult, hiff, halways⟩ :=
    writeFile_iff .newlineCrLf 3 (fun _ ↦ some 3) [[97], [98]]
  have hvalue : result = ⟨[true, true], some 0, fileText .newlineCrLf [[97], [98]]⟩ :=
    LoopEnd.finished.inj (hresult.symm.trans rfl)
  have hsucceeded : result.Succeeded := by
    rw [hvalue]
    exact ⟨by simp, rfl⟩
  have huncut : UncutFrom .newlineCrLf ((3 : ℕ+) : ℕ) 0 [[97], [98]] := by
    rw [uncutFrom_cons, uncutFrom_cons]
    exact ⟨fun hcut ↦ absurd hcut.2 (by decide), fun hcut ↦ absurd hcut.2 (by decide),
      uncutFrom_nil⟩
  have hall : AlwaysWrites ((3 : ℕ+) : ℕ) fun _ ↦ some 3 := fun _ ↦ ⟨3, rfl, le_rfl⟩
  have hfile := (halways hall).mpr huncut
  exact ⟨result, hresult, hsucceeded, hfile, (hiff hsucceeded).mp hfile⟩

/-- The newline of a line of one byte is cut by the end of a buffer of two bytes. -/
theorem writeFile_wrong :
    ¬ ∀ (option : WriterOption) (capacity : ℕ+) (limit : Limits) (lines : List (List UInt8))
      (result : FileWritten), writeFile limit option capacity lines = .finished result →
        (AlwaysWrites capacity limit → result.file = fileText option lines) ∧
        (result.Succeeded → result.file = fileText option lines) := by
  intro hall
  have halways : AlwaysWrites ((2 : ℕ+) : ℕ) fun _ ↦ some 2 := fun _ ↦ ⟨2, rfl, le_rfl⟩
  have hfile := (hall .newlineCrLf 2 (fun _ ↦ some 2) [[97]] _ rfl).1 halways
  exact absurd hfile (by decide)

end BufferedWriter

end Felicia
