import Felicia.Support.Loops
import Mathlib.Data.List.Induction
import Mathlib.Data.PNat.Basic

/-!
# Buffered reader

`BufferedReader` of `felicia/core/lib/file/buffered_reader.cc`, which reads a file buffer by buffer,
each but the last as long as the capacity. `ReadLine` copies what it reads up to a line feed, over
as many buffers as it takes.

With `REMOVE_CR_OR_LF` it also removes a carriage return at the end of what was copied from earlier
buffers, but does not look whether the line feed is the first byte that follows. `readAll_iff` says
that the lines are right unless a buffer ends with a carriage return and the next one has a line
feed that is not its first byte; and that `eof` is right in every case.
-/

set_option autoImplicit false
set_option relaxedAutoImplicit false

namespace Felicia

open Support

def carriageReturn : UInt8 := 13

def lineFeed : UInt8 := 10

/-- `BufferedReader::Option`. -/
inductive ReaderOption
  | none | removeCrOrLf
  deriving DecidableEq

/-! ### State and functions -/

/-- `BufferedReader`. -/
structure BufferedReader where
  option : ReaderOption
  /-- What is left of the file after the current position. -/
  file : List UInt8
  bufferCapacity : ℕ := 256
  /-- The first `buffer_size_` bytes of the buffer. -/
  buffer : List UInt8 := []
  read : ℕ := 0

namespace BufferedReader

variable (r : BufferedReader)

def eof : Bool := r.buffer.length = r.read

/-- `ReadInAdvance`, where `ReadAtCurrentPos` reads as much as it can. -/
def readInAdvance : BufferedReader :=
  { r with
    read := 0
    buffer := r.file.take r.bufferCapacity
    file := r.file.drop r.bufferCapacity }

/-- `Open` of a file with some content, after the capacity was set. -/
def openFile (option : ReaderOption) (capacity : ℕ) (content : List UInt8) : BufferedReader :=
  readInAdvance { option, file := content, bufferCapacity := capacity }

/-- The inner loop of `ReadLine`: how many bytes it reads, and whether it met a line feed. -/
def scan : List UInt8 → ℕ × Bool
  | [] => (0, false)
  | c :: rest =>
    if c = lineFeed then (1, true)
    else ((scan rest).1 + 1, (scan rest).2)

/-- `line->substr(0, line->length() - 1)` if the last byte is a carriage return. -/
def dropCarriageReturn (line : List UInt8) : List UInt8 :=
  if line.getLast? = some carriageReturn then line.dropLast else line

def advance (len : ℕ) : BufferedReader := { r with read := r.read + len }

/-- How many of the bytes that were just read are copied. -/
def copyLength (len : ℕ) (met : Bool) : ℕ :=
  if met && r.option = .removeCrOrLf then
    if 2 ≤ len ∧ r.buffer[r.read - 2]? = some carriageReturn then len - 2 else len - 1
  else len

/-- A reader and the line that it reads to, if there is one. -/
structure ReadingLine where
  reader : BufferedReader
  line : Option (List UInt8)

/-- One iteration of the outer loop of `ReadLine`. -/
def readChunk (s : ReadingLine) : LoopRound ReadingLine ReadingLine :=
  let begin := s.reader.buffer.drop s.reader.read
  let (len, met) := scan begin
  let r := s.reader.advance len
  let line := s.line.map fun line ↦
    (if met && r.option = .removeCrOrLf then dropCarriageReturn line else line) ++
      begin.take (r.copyLength len met)
  if !met || r.eof then
    if r.readInAdvance.eof || met then .done ⟨r.readInAdvance, line⟩
    else .again ⟨r.readInAdvance, line⟩
  else .done ⟨r, line⟩

/-- What `ReadLine` returns, and leaves. -/
structure LineRead where
  returned : Bool
  reader : BufferedReader
  line : Option (List UInt8)

/-- `ReadLine`, which needs no more rounds than there are bytes left. -/
def readLine (line : Option (List UInt8)) : LoopEnd LineRead :=
  if line.any (· ≠ []) then .finished ⟨false, r, line⟩
  else if r.eof then .finished ⟨false, r, line⟩
  else
    match runLoop readChunk (r.file.length + 2) ⟨r, line⟩ with
    | .failed => .failed
    | .unfinished => .unfinished
    | .finished s => .finished ⟨true, s.reader, s.line⟩

/-- The lines that were read, and what `eof` returned before each call. -/
structure ReadingAll where
  reader : BufferedReader
  lines : List (List UInt8) := []
  eofs : List Bool := []

/-- A call of `ReadLine` with an empty string, until it returns false. -/
def readNext (s : ReadingAll) : LoopRound ReadingAll ReadingAll :=
  let eofs := s.eofs ++ [s.reader.eof]
  match s.reader.readLine (some []) with
  | .finished ⟨true, reader, some line⟩ => .again ⟨reader, s.lines ++ [line], eofs⟩
  | .finished ⟨false, _, _⟩ => .done { s with eofs }
  | _ => .failed

/-- All lines of a file, for at most as many calls as it has bytes, and one more. -/
def readAll (option : ReaderOption) (capacity : ℕ) (content : List UInt8) : LoopEnd ReadingAll :=
  runLoop readNext (content.length + 1) { reader := openFile option capacity content }

/-! ### Lines -/

/-- The lines of a text, each with the line feed that ends it. -/
def linesOf : List UInt8 → List (List UInt8)
  | [] => []
  | c :: rest =>
    if c = lineFeed then [c] :: linesOf rest
    else
      match linesOf rest with
      | [] => [[c]]
      | line :: lines => (c :: line) :: lines

/-- A line without the carriage return and line feed, or the line feed, that end it. -/
def removeLineEnd (line : List UInt8) : List UInt8 :=
  if [carriageReturn, lineFeed] <:+ line then line.take (line.length - 2)
  else if [lineFeed] <:+ line then line.take (line.length - 1)
  else line

/-- A line as an option has it. -/
def lineFor (option : ReaderOption) (line : List UInt8) : List UInt8 :=
  match option with
  | .none => line
  | .removeCrOrLf => removeLineEnd line

/-- The buffer after some others. -/
def bufferAt (capacity : ℕ) (content : List UInt8) (k : ℕ) : List UInt8 :=
  (content.drop (k * capacity)).take capacity

/-- From some buffer on, a buffer that comes after a carriage return and has a line feed begins with
one. -/
def UnbrokenFrom (capacity : ℕ) (content : List UInt8) (k : ℕ) : Prop :=
  ∀ j, k ≤ j → (bufferAt capacity content j).getLast? = some carriageReturn →
    lineFeed ∈ bufferAt capacity content (j + 1) →
      (bufferAt capacity content (j + 1)).head? = some lineFeed

variable {w rest acc : List UInt8}

theorem linesOf_append (h : lineFeed ∉ w) (rest : List UInt8) :
    linesOf (w ++ lineFeed :: rest) = (w ++ [lineFeed]) :: linesOf rest := by
  induction w with
  | nil => rfl
  | cons c w ih =>
    obtain ⟨hc, hw⟩ := List.ne_and_not_mem_of_not_mem_cons h
    rw [List.cons_append, linesOf, if_neg (Ne.symm hc), ih hw]
    rfl

theorem linesOf_of_not_mem (h : lineFeed ∉ w) (hne : w ≠ []) : linesOf w = [w] := by
  induction w with
  | nil => exact absurd rfl hne
  | cons c w ih =>
    obtain ⟨hc, hw⟩ := List.ne_and_not_mem_of_not_mem_cons h
    rw [linesOf, if_neg (Ne.symm hc)]
    cases w with
    | nil => rfl
    | cons d w => rw [ih hw (by simp)]

theorem scan_append (h : lineFeed ∉ w) (rest : List UInt8) :
    scan (w ++ lineFeed :: rest) = (w.length + 1, true) := by
  induction w with
  | nil => rfl
  | cons c w ih =>
    obtain ⟨hc, hw⟩ := List.ne_and_not_mem_of_not_mem_cons h
    rw [List.cons_append, scan, if_neg (Ne.symm hc), ih hw]
    rfl

theorem scan_of_not_mem (h : lineFeed ∉ w) : scan w = (w.length, false) := by
  induction w with
  | nil => rfl
  | cons c w ih =>
    obtain ⟨hc, hw⟩ := List.ne_and_not_mem_of_not_mem_cons h
    rw [scan, if_neg (Ne.symm hc), ih hw]
    rfl

/-! ### Removing the end of a line -/

theorem removeLineEnd_of_not_mem (h : lineFeed ∉ w) : removeLineEnd w = w := by
  have hsuffix (l : List UInt8) (hl : lineFeed ∈ l) : ¬ l <:+ w := fun hs ↦ h (hs.subset hl)
  rw [removeLineEnd, if_neg (hsuffix _ (by simp)), if_neg (hsuffix _ (by simp))]

theorem removeLineEnd_concat (w : List UInt8) :
    removeLineEnd (w ++ [lineFeed]) = dropCarriageReturn w := by
  have hboth : [carriageReturn, lineFeed] <:+ w ++ [lineFeed] ↔
      w.getLast? = some carriageReturn := by
    rw [List.getLast?_eq_some_iff]
    constructor
    · rintro ⟨v, hv⟩
      refine ⟨v, ?_⟩
      have hcancel : (v ++ [carriageReturn]) ++ [lineFeed] = w ++ [lineFeed] := by
        rw [← hv]
        simp
      exact (List.append_cancel_right hcancel).symm
    · rintro ⟨v, rfl⟩
      exact ⟨v, by simp⟩
  unfold removeLineEnd dropCarriageReturn
  simp only [hboth, List.length_append, List.length_singleton]
  split_ifs with hlast
  · rw [List.dropLast_eq_take, List.take_append_of_le_length (by omega)]
    congr 1
  · rw [Nat.add_sub_cancel, List.take_left]
  · exact absurd (List.suffix_append w [lineFeed]) (by assumption)

/-- Both parts of a line that was cut lose a carriage return at their ends, which is right unless
the second part is not empty. -/
theorem dropCarriageReturn_append_iff (acc w : List UInt8) :
    dropCarriageReturn acc ++ dropCarriageReturn w = dropCarriageReturn (acc ++ w) ↔
      (acc.getLast? = some carriageReturn → w = []) := by
  unfold dropCarriageReturn
  induction w using List.reverseRecOn with
  | nil => simp
  | append_singleton w c _ =>
    rw [← List.append_assoc, List.getLast?_concat, List.getLast?_concat, List.dropLast_concat,
      List.dropLast_concat]
    constructor
    · intro heq hlast
      have hlength := congrArg List.length heq
      obtain ⟨v, rfl⟩ := List.getLast?_eq_some_iff.mp hlast
      rw [if_pos hlast] at hlength
      split_ifs at hlength <;> simp at hlength
    · intro himp
      have hlast : acc.getLast? ≠ some carriageReturn := fun hlast ↦ by simpa using himp hlast
      rw [if_neg hlast]
      split_ifs <;> simp

/-! ### Buffers -/

variable {option : ReaderOption} {capacity : ℕ+} {content text : List UInt8} {k : ℕ}
  {r : BufferedReader}

/-- What is left of the buffer. -/
def unread (r : BufferedReader) : List UInt8 := r.buffer.drop r.read

/-- A reader in some buffer of a file. -/
structure Placed (option : ReaderOption) (capacity : ℕ+) (content : List UInt8) (k : ℕ)
    (r : BufferedReader) : Prop where
  option_eq : r.option = option
  bufferCapacity : r.bufferCapacity = capacity
  buffer : r.buffer = bufferAt capacity content k
  file : r.file = content.drop ((k + 1) * capacity)
  read_le : r.read ≤ r.buffer.length

theorem Placed.readInAdvance (h : Placed option capacity content k r) :
    Placed option capacity content (k + 1) r.readInAdvance := by
  refine ⟨h.option_eq, h.bufferCapacity, ?_, ?_, Nat.zero_le _⟩
  · show r.file.take r.bufferCapacity = _
    rw [h.file, h.bufferCapacity, bufferAt]
  · show r.file.drop r.bufferCapacity = _
    rw [h.file, h.bufferCapacity, List.drop_drop]
    exact congrArg content.drop (Nat.succ_mul (k + 1) _).symm

theorem placed_openFile (option : ReaderOption) (capacity : ℕ+) (content : List UInt8) :
    Placed option capacity content 0 (openFile option capacity content) := by
  refine ⟨rfl, rfl, ?_, ?_, Nat.zero_le _⟩
  · rw [bufferAt, Nat.zero_mul, List.drop_zero]
    rfl
  · rw [Nat.zero_add, Nat.one_mul]
    rfl

theorem Placed.eof_iff (h : Placed option capacity content k r) : r.eof = true ↔ r.unread = [] := by
  have hle := h.read_le
  rw [eof, decide_eq_true_eq, unread, List.drop_eq_nil_iff]
  omega

/-- At the end of the file, reading in advance reads nothing. -/
theorem Placed.eof_readInAdvance_iff (h : Placed option capacity content k r) :
    r.readInAdvance.eof = true ↔ r.file = [] := by
  have hpos := capacity.pos
  show decide ((r.file.take r.bufferCapacity).length = 0) = true ↔ _
  rw [decide_eq_true_eq, h.bufferCapacity, List.length_take, ← List.length_eq_zero_iff]
  omega

theorem unread_append_file_readInAdvance (r : BufferedReader) :
    r.readInAdvance.unread ++ r.readInAdvance.file = r.file :=
  List.take_append_drop r.bufferCapacity r.file

theorem Placed.length_file_readInAdvance (h : Placed option capacity content k r)
    (hne : r.file ≠ []) : r.readInAdvance.file.length < r.file.length := by
  have hpos := capacity.pos
  have hfile := List.length_pos_of_ne_nil hne
  show (r.file.drop r.bufferCapacity).length < _
  rw [h.bufferCapacity, List.length_drop]
  omega

/-- What is left of a buffer, if anything, ends as the buffer does. -/
theorem Placed.getLast_unread (h : Placed option capacity content k r) (hne : r.unread ≠ []) :
    r.unread.getLast? = (bufferAt capacity content k).getLast? := by
  have hlt : r.read < r.buffer.length := by
    by_contra hle
    exact hne (List.drop_eq_nil_iff.mpr (not_lt.mp hle))
  rw [← h.buffer, unread, List.getLast?_drop, if_neg (by omega)]

theorem unbrokenFrom_succ (capacity : ℕ) (content : List UInt8) (k : ℕ) :
    UnbrokenFrom capacity content k ↔
      ((bufferAt capacity content k).getLast? = some carriageReturn →
        lineFeed ∈ bufferAt capacity content (k + 1) →
          (bufferAt capacity content (k + 1)).head? = some lineFeed) ∧
      UnbrokenFrom capacity content (k + 1) := by
  constructor
  · exact fun h ↦ ⟨h k le_rfl, fun j hj ↦ h j (by omega)⟩
  · rintro ⟨hfirst, hrest⟩ j hj
    obtain rfl | hlt := hj.eq_or_lt
    · exact hfirst
    · exact hrest j hlt

/-- Nothing follows the end of the file. -/
theorem Placed.unbrokenFrom (h : Placed option capacity content k r) (hfile : r.file = []) :
    UnbrokenFrom capacity content k := by
  intro j hj _ hmem
  have hnil : bufferAt capacity content (j + 1) = [] := by
    have hdrop := h.file.symm.trans hfile
    rw [List.drop_eq_nil_iff] at hdrop
    rw [bufferAt, List.drop_eq_nil_iff.mpr, List.take_nil]
    exact hdrop.trans (Nat.mul_le_mul_right _ (by omega))
  rw [hnil] at hmem
  cases hmem

/-! ### Reading a line -/

/-- A line feed that ends the line is next, or no carriage return before it was copied. -/
def Continues (line unread : List UInt8) : Prop :=
  line.getLast? = some carriageReturn → lineFeed ∈ unread → unread.head? = some lineFeed

/-- A line is read up to the end of a buffer, and goes on in the next one. The condition is that of
the start of the line. -/
structure Scanning (option : ReaderOption) (capacity : ℕ+) (content text : List UInt8) (C : Prop)
    (k : ℕ) (line : List UInt8) (s : ReadingLine) : Prop where
  placed : Placed option capacity content k s.reader
  line_eq : s.line = some line
  not_mem : lineFeed ∉ line
  ne_nil : s.reader.unread ≠ []
  linesOf_eq : linesOf (line ++ (s.reader.unread ++ s.reader.file)) = linesOf text
  condition : C ↔ Continues line s.reader.unread ∧ UnbrokenFrom capacity content k

/-- The first line of a text is read. With the option it is right, and what follows is unbroken, if
and only if the condition of its start holds. -/
structure EndsLine (option : ReaderOption) (capacity : ℕ+) (content text : List UInt8) (C : Prop)
    (k : ℕ) (line first : List UInt8) (s : ReadingLine) : Prop where
  placed : Placed option capacity content k s.reader
  line_eq : s.line = some line
  settled : s.reader.eof = true → s.reader.file = []
  linesOf_eq : linesOf text = first :: linesOf (s.reader.unread ++ s.reader.file)
  verbatim : option = .none → line = first
  removed : option = .removeCrOrLf →
    (line = removeLineEnd first ∧ UnbrokenFrom capacity content k ↔ C)

variable {C : Prop} {line first : List UInt8} {s : ReadingLine}

/-- What is copied of a line that ends in the buffer. -/
def copied (option : ReaderOption) (line w : List UInt8) : List UInt8 :=
  match option with
  | .none => line ++ (w ++ [lineFeed])
  | .removeCrOrLf => dropCarriageReturn line ++ dropCarriageReturn w

/-- An iteration without a line feed. -/
theorem readChunk_of_not_mem (h : lineFeed ∉ s.reader.unread) (hline : s.line = some line) :
    readChunk s =
      if s.reader.readInAdvance.eof then
        .done ⟨s.reader.readInAdvance, some (line ++ s.reader.unread)⟩
      else .again ⟨s.reader.readInAdvance, some (line ++ s.reader.unread)⟩ := by
  have hscan : scan (s.reader.buffer.drop s.reader.read) = (s.reader.unread.length, false) :=
    scan_of_not_mem h
  have htake : (s.reader.buffer.drop s.reader.read).take s.reader.unread.length =
      s.reader.unread := List.take_length
  simp only [readChunk, hscan, hline, copyLength, Bool.false_and, Bool.false_eq_true, if_false,
    Bool.not_false, Bool.true_or, if_true, Bool.or_false, Option.map_some, htake]
  rfl

/-- The byte before the line feed is a carriage return. -/
theorem getElem_iff (hunread : r.unread = w ++ lineFeed :: rest) :
    (2 ≤ w.length + 1 ∧
      (r.advance (w.length + 1)).buffer[(r.advance (w.length + 1)).read - 2]? =
        some carriageReturn) ↔ w.getLast? = some carriageReturn := by
  show (_ ∧ r.buffer[r.read + (w.length + 1) - 2]? = _) ↔ _
  induction w using List.reverseRecOn with
  | nil => simp
  | append_singleton w c _ =>
    have hget : r.unread[w.length]? = some c := by
      rw [hunread]
      simp
    rw [unread, List.getElem?_drop] at hget
    rw [List.getLast?_concat, List.length_append, List.length_singleton,
      show r.read + (w.length + 1 + 1) - 2 = r.read + w.length by omega, hget]
    simp

/-- What is copied of the buffer. -/
theorem take_copyLength (hunread : r.unread = w ++ lineFeed :: rest) :
    r.unread.take ((r.advance (w.length + 1)).copyLength (w.length + 1) true) =
      if r.option = .removeCrOrLf then dropCarriageReturn w else w ++ [lineFeed] := by
  have hoption : (r.advance (w.length + 1)).option = r.option := rfl
  unfold copyLength dropCarriageReturn
  simp only [getElem_iff hunread, hoption, Bool.true_and, decide_eq_true_eq]
  rw [hunread]
  split_ifs with hoption hlast
  · rw [List.dropLast_eq_take, List.take_append_of_le_length (by omega)]
    congr 1
  · rw [Nat.add_sub_cancel, List.take_left]
  · rw [List.take_append, Nat.add_sub_cancel_left, List.take_of_length_le (by omega)]
    rfl

/-- An iteration that meets a line feed. -/
theorem Placed.readChunk_of_append (h : Placed option capacity content k s.reader)
    (hnot : lineFeed ∉ w) (hunread : s.reader.unread = w ++ lineFeed :: rest)
    (hline : s.line = some line) :
    readChunk s = .done
      ⟨if rest = [] then s.reader.readInAdvance
        else s.reader.advance (w.length + 1), some (copied option line w)⟩ := by
  have hscan : scan (s.reader.buffer.drop s.reader.read) = (w.length + 1, true) := by
    show scan s.reader.unread = _
    rw [hunread, scan_append hnot]
  have htake := take_copyLength hunread
  rw [h.option_eq, unread] at htake
  have hlength := congrArg List.length hunread
  rw [unread, List.length_drop, List.length_append, List.length_cons] at hlength
  have heof : (s.reader.advance (w.length + 1)).eof = decide (rest = []) := by
    rw [eof, decide_eq_decide, ← List.length_eq_zero_iff]
    show s.reader.buffer.length = s.reader.read + (w.length + 1) ↔ _
    omega
  have hadvance : (s.reader.advance (w.length + 1)).readInAdvance = s.reader.readInAdvance := rfl
  simp only [readChunk, hscan, hline, Option.map_some, htake, heof, hadvance, Bool.true_and,
    Bool.not_true, Bool.false_or, Bool.or_true, if_true, decide_eq_true_eq]
  rw [show (s.reader.advance (w.length + 1)).option = option from h.option_eq]
  cases option <;> split_ifs <;> simp_all [copied]

theorem continues_append_iff (line : List UInt8) (hnot : lineFeed ∉ w) (rest : List UInt8) :
    Continues line (w ++ lineFeed :: rest) ↔
      (line.getLast? = some carriageReturn → w = []) := by
  have hhead : (w ++ lineFeed :: rest).head? = some lineFeed ↔ w = [] := by
    cases w with
    | nil => simp
    | cons c w =>
      have hne := List.ne_of_not_mem_cons hnot
      simpa using hne.symm
  rw [Continues, hhead]
  simp

/-- A line that ends in a buffer is right if and only if nothing before it was cut. -/
theorem copied_eq_iff (hnot : lineFeed ∉ w) (rest : List UInt8) :
    copied .removeCrOrLf line w = removeLineEnd (line ++ (w ++ [lineFeed])) ↔
      Continues line (w ++ lineFeed :: rest) := by
  rw [← List.append_assoc, removeLineEnd_concat, continues_append_iff line hnot]
  exact dropCarriageReturn_append_iff line w

/-- A buffer that ends with a line feed, or the end of what was read of it, cuts no line. -/
theorem Placed.unbrokenFrom_iff (h : Placed option capacity content k r)
    (hunread : r.unread = w ++ [lineFeed]) :
    UnbrokenFrom capacity content k ↔ UnbrokenFrom capacity content (k + 1) := by
  have hlast := h.getLast_unread (by simp [hunread])
  rw [hunread, List.getLast?_concat] at hlast
  rw [unbrokenFrom_succ, ← hlast]
  exact and_iff_right (fun heq ↦ absurd (Option.some.inj heq) (by decide))

/-- A line ends in the buffer. -/
theorem Scanning.endsLine (h : Scanning option capacity content text C k line s)
    (hnot : lineFeed ∉ w) (hunread : s.reader.unread = w ++ lineFeed :: rest) :
    ∃ k', EndsLine option capacity content text C k' (copied option line w)
      (line ++ (w ++ [lineFeed]))
      ⟨if rest = [] then s.reader.readInAdvance else s.reader.advance (w.length + 1),
        some (copied option line w)⟩ := by
  have hlines : linesOf text = (line ++ (w ++ [lineFeed])) :: linesOf (rest ++ s.reader.file) := by
    have hnot' : lineFeed ∉ line ++ w := by
      rw [List.mem_append, not_or]
      exact ⟨h.not_mem, hnot⟩
    rw [← h.linesOf_eq, hunread, ← List.append_assoc, ← List.append_assoc, ← List.append_assoc,
      List.append_assoc (line ++ w), List.cons_append, linesOf_append hnot']
  have hverbatim (hoption : option = .none) :
      copied option line w = line ++ (w ++ [lineFeed]) := by
    rw [hoption]
    rfl
  have hcondition (k' : ℕ)
      (hunbroken : UnbrokenFrom capacity content k ↔ UnbrokenFrom capacity content k')
      (hoption : option = .removeCrOrLf) :
      copied option line w = removeLineEnd (line ++ (w ++ [lineFeed])) ∧
        UnbrokenFrom capacity content k' ↔ C := by
    rw [hoption, copied_eq_iff hnot rest, h.condition, hunread, hunbroken]
  by_cases hrest : rest = []
  · subst hrest
    refine ⟨k + 1, h.placed.readInAdvance, rfl, fun heof ↦ ?_, ?_, hverbatim,
      hcondition _ (h.placed.unbrokenFrom_iff hunread)⟩
    · have hfile := h.placed.eof_readInAdvance_iff.mp heof
      show s.reader.file.drop s.reader.bufferCapacity = []
      rw [hfile, List.drop_nil]
    · rw [hlines, if_pos rfl, unread_append_file_readInAdvance, List.nil_append]
  · have hunread' : (s.reader.advance (w.length + 1)).unread = rest := by
      have hdrop : (s.reader.unread).drop (w.length + 1) = rest := by
        rw [hunread, List.drop_append, List.drop_eq_nil_iff.mpr (by omega),
          Nat.add_sub_cancel_left]
        rfl
      rw [unread, List.drop_drop] at hdrop
      exact hdrop
    have hle := congrArg List.length hunread
    rw [unread, List.length_drop, List.length_append, List.length_cons] at hle
    have hplaced : Placed option capacity content k (s.reader.advance (w.length + 1)) :=
      ⟨h.placed.option_eq, h.placed.bufferCapacity, h.placed.buffer, h.placed.file,
        show s.reader.read + (w.length + 1) ≤ s.reader.buffer.length by omega⟩
    rw [if_neg hrest]
    refine ⟨k, hplaced, rfl, fun heof ↦ ?_, ?_, hverbatim, hcondition _ Iff.rfl⟩
    · exact absurd (hunread'.symm.trans (hplaced.eof_iff.mp heof)) hrest
    · rw [hlines]
      show _ = _ :: linesOf ((s.reader.advance (w.length + 1)).unread ++ s.reader.file)
      rw [hunread']

theorem Scanning.not_mem_append (h : Scanning option capacity content text C k line s)
    (hnot : lineFeed ∉ s.reader.unread) : lineFeed ∉ line ++ s.reader.unread := by
  rw [List.mem_append, not_or]
  exact ⟨h.not_mem, hnot⟩

/-- A line ends with the file. -/
theorem Scanning.endsLine_of_eof (h : Scanning option capacity content text C k line s)
    (hnot : lineFeed ∉ s.reader.unread) (hfile : s.reader.file = []) :
    EndsLine option capacity content text C (k + 1) (line ++ s.reader.unread)
      (line ++ s.reader.unread)
      ⟨s.reader.readInAdvance, some (line ++ s.reader.unread)⟩ := by
  have hnot' := h.not_mem_append hnot
  have hdrop : s.reader.readInAdvance.file = [] := by
    show s.reader.file.drop s.reader.bufferCapacity = []
    rw [hfile, List.drop_nil]
  refine ⟨h.placed.readInAdvance, rfl, fun _ ↦ hdrop, ?_, fun _ ↦ rfl, fun _ ↦ ?_⟩
  · have hlines := h.linesOf_eq
    rw [hfile, List.append_nil, linesOf_of_not_mem hnot' (by simp [h.ne_nil])] at hlines
    rw [unread_append_file_readInAdvance, hfile, ← hlines]
    rfl
  · rw [removeLineEnd_of_not_mem hnot', h.condition]
    exact iff_of_true ⟨rfl, h.placed.readInAdvance.unbrokenFrom hdrop⟩
      ⟨fun _ hmem ↦ absurd hmem hnot, h.placed.unbrokenFrom hfile⟩

/-- A line goes on in the next buffer. -/
theorem Scanning.next (h : Scanning option capacity content text C k line s)
    (hnot : lineFeed ∉ s.reader.unread) (hfile : s.reader.file ≠ []) :
    Scanning option capacity content text C (k + 1) (line ++ s.reader.unread)
      ⟨s.reader.readInAdvance, some (line ++ s.reader.unread)⟩ := by
  have hplaced := h.placed.readInAdvance
  have hunread : s.reader.readInAdvance.unread = bufferAt capacity content (k + 1) :=
    hplaced.buffer
  refine ⟨hplaced, rfl, h.not_mem_append hnot, ?_, ?_, ?_⟩
  · rw [ne_eq, ← hplaced.eof_iff, h.placed.eof_readInAdvance_iff]
    exact hfile
  · rw [unread_append_file_readInAdvance, List.append_assoc, h.linesOf_eq]
  · have hcontinues : Continues line s.reader.unread := fun _ hmem ↦ absurd hmem hnot
    rw [h.condition, and_iff_right hcontinues, unbrokenFrom_succ, Continues, hunread,
      List.getLast?_append_of_ne_nil _ h.ne_nil, h.placed.getLast_unread h.ne_nil]

/-- An iteration reads the rest of a line, or goes on to the next buffer. -/
theorem Scanning.readChunk_meets (h : Scanning option capacity content text C k line s) :
    (readChunk s).Meets False
      (fun next ↦ (∃ k' line', Scanning option capacity content text C k' line' next) ∧
        next.reader.file.length < s.reader.file.length)
      (fun result ↦ ∃ k' line' first,
        EndsLine option capacity content text C k' line' first result) := by
  by_cases hmem : lineFeed ∈ s.reader.unread
  · obtain ⟨w, rest, hunread, hnot⟩ := List.eq_append_cons_of_mem hmem
    obtain ⟨k', hends⟩ := h.endsLine hnot hunread
    rw [h.placed.readChunk_of_append hnot hunread h.line_eq]
    exact ⟨k', _, _, hends⟩
  · rw [readChunk_of_not_mem hmem h.line_eq]
    split_ifs with heof
    · exact ⟨_, _, _, h.endsLine_of_eof hmem (h.placed.eof_readInAdvance_iff.mp heof)⟩
    · rw [h.placed.eof_readInAdvance_iff] at heof
      exact ⟨⟨_, _, h.next hmem heof⟩, h.placed.length_file_readInAdvance heof⟩

/-- A reader between two lines. -/
structure Between (option : ReaderOption) (capacity : ℕ+) (content : List UInt8) (k : ℕ)
    (r : BufferedReader) : Prop where
  placed : Placed option capacity content k r
  settled : r.eof = true → r.file = []

/-- What is left to read. -/
def remaining (r : BufferedReader) : List UInt8 := r.unread ++ r.file

theorem Between.remaining_eq_nil_iff (h : Between option capacity content k r) :
    r.remaining = [] ↔ r.eof = true := by
  rw [remaining, List.append_eq_nil_iff, ← h.placed.eof_iff]
  exact and_iff_left_of_imp h.settled

/-- `ReadLine` reads the first line that is left. With the option it is right, and the rest
unbroken, if and only if all was unbroken. -/
theorem Between.readLine (h : Between option capacity content k r) (heof : r.eof = false) :
    ∃ k' reader line first,
      r.readLine (some []) = .finished ⟨true, reader, some line⟩ ∧
      Between option capacity content k' reader ∧
      linesOf r.remaining = first :: linesOf reader.remaining ∧
      (option = .none → line = first) ∧
      (option = .removeCrOrLf →
        (line = removeLineEnd first ∧ UnbrokenFrom capacity content k' ↔
          UnbrokenFrom capacity content k)) := by
  have hstart : Scanning option capacity content r.remaining (UnbrokenFrom capacity content k) k []
      ⟨r, some []⟩ := by
    refine ⟨h.placed, rfl, List.not_mem_nil, ?_, rfl, ?_⟩
    · rw [ne_eq, ← h.placed.eof_iff, heof]
      exact Bool.false_ne_true
    · exact (and_iff_right fun hlast ↦ nomatch hlast).symm
  have hmeets : (runLoop readChunk (r.file.length + 2) ⟨r, some []⟩).Meets False
      (fun result ↦ ∃ k' line' first, EndsLine option capacity content r.remaining
        (UnbrokenFrom capacity content k) k' line' first result) :=
    runLoop_meets (P := fun s ↦ ∃ k' line', Scanning option capacity content r.remaining
        (UnbrokenFrom capacity content k) k' line' s) (fun s ↦ s.reader.file.length)
      (fun s ⟨_, _, hs⟩ ↦ hs.readChunk_meets) ⟨k, [], hstart⟩
      (show r.file.length < r.file.length + 2 by omega)
  obtain ⟨⟨reader, _⟩, hloop, k', line, first, hends⟩ := hmeets.finished
  cases hends.line_eq
  refine ⟨k', reader, line, first, ?_, ⟨hends.placed, hends.settled⟩, hends.linesOf_eq,
    hends.verbatim, hends.removed⟩
  rw [BufferedReader.readLine, if_neg (by simp), if_neg (by simp [heof]), hloop]

/-! ### Reading all lines -/

theorem linesOf_eq_nil_iff : linesOf w = [] ↔ w = [] := by
  cases w with
  | nil => exact iff_of_true rfl rfl
  | cons c w =>
    refine iff_of_false ?_ (List.cons_ne_nil _ _)
    unfold linesOf
    split_ifs
    · simp
    · cases linesOf w <;> simp

theorem length_linesOf_le (w : List UInt8) : (linesOf w).length ≤ w.length := by
  induction w with
  | nil => exact le_rfl
  | cons c w ih =>
    unfold linesOf
    split_ifs
    · simpa using ih
    · cases hlines : linesOf w with
      | nil => simp
      | cons line lines =>
        rw [hlines] at ih
        simp only [List.length_cons] at ih ⊢
        omega

/-- Assumes: a reader between two lines, and a call for every line that is left, and one more. The
lines that are read are right if and only if nothing is broken. -/
theorem Between.readAll (h : Between option capacity content k r) {rounds : ℕ}
    (hrounds : (linesOf r.remaining).length < rounds) (lines : List (List UInt8))
    (eofs : List Bool) :
    ∃ reader read, runLoop readNext rounds ⟨r, lines, eofs⟩ = .finished ⟨reader, lines ++ read,
        eofs ++ (List.replicate (linesOf r.remaining).length false ++ [true])⟩ ∧
      (read = (linesOf r.remaining).map (lineFor option) ↔
        (option = .removeCrOrLf → UnbrokenFrom capacity content k)) := by
  induction hlines : linesOf r.remaining generalizing r k rounds lines eofs with
  | nil =>
    have heof := h.remaining_eq_nil_iff.mp (linesOf_eq_nil_iff.mp hlines)
    obtain ⟨rounds, rfl⟩ := Nat.exists_eq_add_of_lt hrounds
    have hround : readNext ⟨r, lines, eofs⟩ = .done ⟨r, lines, eofs ++ [true]⟩ := by
      simp [readNext, BufferedReader.readLine, heof]
    refine ⟨r, [], ?_, iff_of_true rfl fun _ ↦ ?_⟩
    · rw [runLoop, hround]
      simp
    · exact h.placed.unbrokenFrom (h.settled heof)
  | cons first rest ih =>
    have heof : r.eof = false := by
      rw [← Bool.not_eq_true, ← h.remaining_eq_nil_iff, ← linesOf_eq_nil_iff, hlines]
      exact List.cons_ne_nil _ _
    obtain ⟨k', reader, line, first', hread, hbetween, hfirst, hverbatim, hremoved⟩ :=
      h.readLine heof
    rw [hlines] at hfirst hrounds
    obtain ⟨rfl, hrest⟩ := List.cons.inj hfirst
    obtain ⟨rounds, rfl⟩ := Nat.exists_eq_add_of_lt hrounds
    have hround : readNext ⟨r, lines, eofs⟩ =
        .again ⟨reader, lines ++ [line], eofs ++ [false]⟩ := by
      simp [readNext, hread, heof]
    have hfuel : (linesOf reader.remaining).length < (first :: rest).length + rounds := by
      rw [hrest, List.length_cons]
      omega
    obtain ⟨last, read, hloop, hiff⟩ := ih hbetween hfuel (lines ++ [line]) (eofs ++ [false])
      hrest.symm
    refine ⟨last, line :: read, ?_, ?_⟩
    · rw [runLoop, hround]
      simpa [List.replicate_succ] using hloop
    · rw [List.map_cons, List.cons.injEq, hiff]
      cases option with
      | none => simpa [lineFor] using hverbatim rfl
      | removeCrOrLf => simpa [lineFor] using hremoved rfl

theorem remaining_openFile (option : ReaderOption) (capacity : ℕ+) (content : List UInt8) :
    (openFile option capacity content).remaining = content :=
  List.take_append_drop capacity content

theorem between_openFile (option : ReaderOption) (capacity : ℕ+) (content : List UInt8) :
    Between option capacity content 0 (openFile option capacity content) := by
  refine ⟨placed_openFile option capacity content, fun heof ↦ ?_⟩
  have hpos := capacity.pos
  have hlength : (content.take capacity).length = 0 := of_decide_eq_true heof
  rw [List.length_take] at hlength
  exact List.drop_eq_nil_iff.mpr (show content.length ≤ capacity by omega)

/-- For every content, capacity and option, `ReadLine` returns true as often as there are lines, and
`eof` is true before the other call alone. The lines are right if and only if the option is not to
remove their ends, or no buffer that follows a carriage return has its first line feed later than at
its start. -/
theorem readAll_iff (option : ReaderOption) (capacity : ℕ+) (content : List UInt8) :
    ∃ result, BufferedReader.readAll option capacity content = .finished result ∧
      result.eofs = List.replicate (linesOf content).length false ++ [true] ∧
      (result.lines = (linesOf content).map (lineFor option) ↔
        (option = .removeCrOrLf → UnbrokenFrom capacity content 0)) := by
  have hremaining := remaining_openFile option capacity content
  have hrounds : (linesOf (openFile option capacity content).remaining).length <
      content.length + 1 := by
    rw [hremaining]
    exact Nat.lt_succ_of_le (length_linesOf_le content)
  obtain ⟨reader, read, hloop, hiff⟩ :=
    (between_openFile option capacity content).readAll hrounds [] []
  rw [hremaining] at hloop hiff
  exact ⟨_, hloop, rfl, hiff⟩

/-- The carriage return in the middle of a line is at the end of a buffer of two bytes. -/
theorem readAll_wrong :
    ¬ ∀ (option : ReaderOption) (capacity : ℕ+) (content : List UInt8) (result : ReadingAll),
      BufferedReader.readAll option capacity content = .finished result →
        result.lines = (linesOf content).map (lineFor option) := by
  intro hall
  have hread : (BufferedReader.readAll .removeCrOrLf 2
      [97, carriageReturn, 98, lineFeed]).result?.map (·.lines) = some [[97, 98]] := by
    decide +kernel
  obtain ⟨result, hresult, hlines⟩ := Option.map_eq_some_iff.mp hread
  have hright := hall .removeCrOrLf 2 _ result (LoopEnd.result?_eq_some_iff.mp hresult)
  rw [hlines] at hright
  exact absurd hright (by decide +kernel)

end BufferedReader

end Felicia
