import Felicia.Util.BufferedReader

/-!
# Buffered reader of a file that fails

`BufferedReader` of `felicia/core/lib/file/buffered_reader.cc` once more, over a file that may read
less than was asked for, or fail, whenever it is read. `ReadInAdvance` stores -1 in `buffer_size_`,
which is unsigned. `safe_iff` says that the reader is safe if and only if no read fails before the
end of the file, and a line feed or the end of the file always comes.
-/

set_option autoImplicit false
set_option relaxedAutoImplicit false

namespace Felicia.ReadErrors

open Support BufferedReader

/-! ### State and functions -/

/-- What `ReadAtCurrentPos` comes to: some bytes, whose number is an `int`, or -1. -/
inductive ReadResult (capacity : ℕ)
  | read (bytes : List UInt8) (fits : bytes.length ≤ capacity) (isInt : bytes.length < 2 ^ 31)
  | failed

namespace ReadResult

variable {capacity : ℕ}

/-- What `ReadAtCurrentPos` returns. -/
def returned : ReadResult capacity → ℤ
  | read bytes _ _ => bytes.length
  | failed => -1

def bytes? : ReadResult capacity → Option (List UInt8)
  | read bytes _ _ => some bytes
  | failed => none

end ReadResult

/-- An `int` as a `size_t`. -/
def toSize (n : ℤ) : ℕ := (n % 18446744073709551616).toNat

/-- `BufferedReader`. -/
structure Reader where
  option : ReaderOption
  /-- What the last read that did not fail put in the buffer. -/
  buffer : List UInt8 := []
  bufferSize : ℕ := 0
  read : ℕ := 0
  /-- How often the file was read. -/
  reads : ℕ := 0

/-- A reader and the line that it reads to, if there is one. -/
structure ReadingLine where
  reader : Reader
  line : Option (List UInt8)

/-- What `ReadLine` returns, and leaves. -/
structure LineRead where
  returned : Bool
  reader : Reader
  line : Option (List UInt8)

namespace Reader

variable {capacity : ℕ} (file : ℕ → ReadResult capacity) (r : Reader)

def eof : Bool := r.bufferSize = r.read

/-- `ReadInAdvance`. A read that fails leaves the buffer as it was. -/
def readInAdvance : Reader :=
  { r with
    read := 0
    buffer := ((file r.reads).bytes?).getD r.buffer
    bufferSize := toSize (file r.reads).returned
    reads := r.reads + 1 }

/-- `Open`. -/
def openFile (option : ReaderOption) : Reader := readInAdvance file { option }

/-- The inner loop of `ReadLine` over what is left of the bytes that were delivered, while `read_`
is below `buffer_size_`: how many bytes it reads, and whether it met a line feed. There is no result
if it reads a byte that was not delivered. -/
def scan : List UInt8 → ℕ → Option (ℕ × Bool)
  | _, 0 => some (0, false)
  | [], _ + 1 => none
  | c :: rest, left + 1 =>
    if c = lineFeed then some (1, true)
    else (scan rest left).map fun (len, met) ↦ (len + 1, met)

def advance (len : ℕ) : Reader := { r with read := r.read + len }

/-- How many of the bytes that were just read are copied. -/
def copyLength (len : ℕ) (met : Bool) : ℕ :=
  if met && r.option = .removeCrOrLf then
    if 2 ≤ len ∧ r.buffer[r.read - 2]? = some carriageReturn then len - 2 else len - 1
  else len

/-- One iteration of the outer loop of `ReadLine`, which fails where it reads a byte that was not
delivered. -/
def readChunk (s : ReadingLine) : LoopRound ReadingLine ReadingLine :=
  let begin := s.reader.buffer.drop s.reader.read
  match scan begin (s.reader.bufferSize - s.reader.read) with
  | none => .failed
  | some (len, met) =>
    let r := s.reader.advance len
    let line := s.line.map fun line ↦
      (if met && r.option = .removeCrOrLf then dropCarriageReturn line else line) ++
        begin.take (r.copyLength len met)
    if !met || r.eof then
      if (r.readInAdvance file).eof || met then .done ⟨r.readInAdvance file, line⟩
      else .again ⟨r.readInAdvance file, line⟩
    else .done ⟨r, line⟩

/-- `ReadLine`, for at most some iterations. -/
def readLine (rounds : ℕ) (line : Option (List UInt8)) : LoopEnd LineRead :=
  if line.any (· ≠ []) then .finished ⟨false, r, line⟩
  else if r.eof then .finished ⟨false, r, line⟩
  else
    match runLoop (readChunk file) rounds ⟨r, line⟩ with
    | .failed => .failed
    | .unfinished => .unfinished
    | .finished s => .finished ⟨true, s.reader, s.line⟩

/-- A reader after `Open` and any calls of `ReadLine`. -/
inductive Reachable (option : ReaderOption) : Reader → Prop
  | opened : Reachable option (openFile file option)
  | read {r : Reader} (h : Reachable option r) {rounds : ℕ} {line : Option (List UInt8)}
      {result : LineRead} (hread : r.readLine file rounds line = .finished result) :
      Reachable option result.reader

/-! ### Safety -/

/-- The next call of `ReadLine` ends, and reads bytes that were delivered alone; and after a read
that failed, `eof` is true and no line follows. -/
def Safe : Prop :=
  (∀ line, ∃ rounds result, r.readLine file rounds line = .finished result) ∧
  ((∃ k < r.reads, file k = .failed) →
    r.eof = true ∧
      ∀ line rounds result, r.readLine file rounds line = .finished result →
        result.returned = false)

/-- A read fails only after the end of the file, and a line feed or the end of the file always
comes. -/
def Ends : Prop :=
  (∀ k, file k = .failed → ∃ j < k, (file j).bytes? = some []) ∧
  ∀ k, ∃ j, (file j).bytes? = some [] ∨
    k ≤ j ∧ ∃ bytes, (file j).bytes? = some bytes ∧ lineFeed ∈ bytes

/-- A read delivers something. -/
def Goes (k : ℕ) : Prop := ∃ bytes, (file k).bytes? = some bytes ∧ bytes ≠ []

/-- What is left of the buffer. -/
def unread : List UInt8 := r.buffer.drop r.read

/-- A reader has what the last read delivered. -/
structure Delivered (k : ℕ) : Prop where
  reads : r.reads = k + 1
  bytes : (file k).bytes? = some r.buffer
  bufferSize : r.bufferSize = r.buffer.length
  read_le : r.read ≤ r.buffer.length
  before : ∀ j < k, Goes file j

/-- The last read failed, and the buffer seems to go on far beyond what was delivered. -/
structure Stuck (k : ℕ) : Prop where
  reads : r.reads = k + 1
  failed : (file k).bytes? = none
  bufferSize : r.bufferSize = 18446744073709551615
  read_le : r.read ≤ r.buffer.length
  length_lt : r.buffer.length < 2 ^ 31
  before : ∀ j < k, Goes file j

variable {file r} {k : ℕ} {w rest : List UInt8} {n : ℕ}

/-! ### Scanning -/

theorem scan_append (h : lineFeed ∉ w) (rest : List UInt8) (hn : w.length < n) :
    scan (w ++ lineFeed :: rest) n = some (w.length + 1, true) := by
  induction w generalizing n with
  | nil =>
    obtain ⟨left, rfl⟩ := Nat.exists_eq_add_of_lt hn
    simp [scan]
  | cons c w ih =>
    obtain ⟨hc, hw⟩ := List.ne_and_not_mem_of_not_mem_cons h
    obtain ⟨left, rfl⟩ := Nat.exists_eq_add_of_lt (Nat.zero_lt_of_lt hn)
    rw [Nat.zero_add] at hn ⊢
    rw [List.cons_append, scan, if_neg (Ne.symm hc), ih hw (Nat.lt_of_succ_lt_succ hn)]
    rfl

theorem scan_of_not_mem (h : lineFeed ∉ w) : scan w w.length = some (w.length, false) := by
  induction w with
  | nil => rfl
  | cons c w ih =>
    obtain ⟨hc, hw⟩ := List.ne_and_not_mem_of_not_mem_cons h
    rw [List.length_cons, scan, if_neg (Ne.symm hc), ih hw]
    rfl

theorem scan_eq_none (h : lineFeed ∉ w) (hn : w.length < n) : scan w n = none := by
  induction w generalizing n with
  | nil =>
    obtain ⟨left, rfl⟩ := Nat.exists_eq_add_of_lt hn
    rfl
  | cons c w ih =>
    obtain ⟨hc, hw⟩ := List.ne_and_not_mem_of_not_mem_cons h
    obtain ⟨left, rfl⟩ := Nat.exists_eq_add_of_lt (Nat.zero_lt_of_lt hn)
    rw [Nat.zero_add] at hn ⊢
    rw [scan, if_neg (Ne.symm hc), ih hw (Nat.lt_of_succ_lt_succ hn)]
    rfl

/-! ### Reading in advance -/

theorem ReadResult.bytes?_eq_none_iff {result : ReadResult capacity} :
    result.bytes? = none ↔ result = .failed := by
  cases result <;> simp [ReadResult.bytes?]

theorem Goes.ne_failed (h : Goes file k) : file k ≠ .failed := by
  intro hfailed
  obtain ⟨bytes, hbytes, -⟩ := h
  rw [hfailed] at hbytes
  cases hbytes

theorem Goes.ne_end (h : Goes file k) : (file k).bytes? ≠ some [] := by
  intro hend
  obtain ⟨bytes, hbytes, hne⟩ := h
  exact hne (Option.some.inj (hbytes.symm.trans hend))

/-- A reader between two calls of `ReadLine`. -/
def Between (file : ℕ → ReadResult capacity) (r : Reader) : Prop :=
  ∃ k, r.Delivered file k ∧ (r.unread = [] → r.buffer = [])

theorem toSize_returned {result : ReadResult capacity} {bytes : List UInt8}
    (h : result.bytes? = some bytes) : toSize result.returned = bytes.length := by
  cases result with
  | read bytes' _ hint =>
    cases h
    show ((bytes.length : ℤ) % 18446744073709551616).toNat = bytes.length
    omega
  | failed => cases h

/-- A reader after a read, which either delivered something, or failed. -/
def Entered (file : ℕ → ReadResult capacity) (k : ℕ) (r : Reader) : Prop :=
  r.Delivered file k ∧ r.unread = r.buffer ∨ r.Stuck file k

theorem entered_readInAdvance (hreads : r.reads = k) (hbefore : ∀ j < k, Goes file j)
    (hlength : r.buffer.length < 2 ^ 31) : (r.readInAdvance file).Entered file k := by
  subst hreads
  cases hbytes : (file r.reads).bytes? with
  | some bytes =>
    have hbuffer : (r.readInAdvance file).buffer = bytes := by
      show ((file r.reads).bytes?).getD r.buffer = bytes
      rw [hbytes, Option.getD_some]
    refine Or.inl ⟨⟨rfl, ?_, ?_, Nat.zero_le _, hbefore⟩, List.drop_zero⟩
    · rw [hbuffer, hbytes]
    · rw [hbuffer]
      exact toSize_returned hbytes
  | none =>
    have hbuffer : (r.readInAdvance file).buffer = r.buffer := by
      show ((file r.reads).bytes?).getD r.buffer = r.buffer
      rw [hbytes, Option.getD_none]
    refine Or.inr ⟨rfl, hbytes, ?_, Nat.zero_le _, ?_, hbefore⟩
    · show toSize (file r.reads).returned = _
      rw [ReadResult.bytes?_eq_none_iff.mp hbytes]
      rfl
    · rw [hbuffer]
      exact hlength

theorem Delivered.length_lt (h : r.Delivered file k) : r.buffer.length < 2 ^ 31 := by
  have hbytes := h.bytes
  cases hresult : file k with
  | read bytes _ hint =>
    rw [hresult] at hbytes
    cases hbytes
    exact hint
  | failed =>
    rw [hresult] at hbytes
    cases hbytes

/-- No read up to the last one failed. -/
theorem Delivered.ne_failed (h : r.Delivered file k) {j : ℕ} (hj : j ≤ k) : file j ≠ .failed := by
  obtain rfl | hlt := Nat.eq_or_lt_of_le hj
  · rw [ne_eq, ← ReadResult.bytes?_eq_none_iff, h.bytes]
    exact Option.some_ne_none _
  · exact (h.before j hlt).ne_failed

theorem Delivered.eof_iff (h : r.Delivered file k) : r.eof = true ↔ r.unread = [] := by
  have hle := h.read_le
  rw [eof, decide_eq_true_eq, h.bufferSize, unread, List.drop_eq_nil_iff]
  omega

theorem Delivered.goes (h : r.Delivered file k) (hne : r.unread ≠ []) : Goes file k := by
  refine ⟨r.buffer, h.bytes, fun hnil ↦ hne ?_⟩
  rw [unread, hnil, List.drop_nil]

theorem Stuck.not_eof (h : r.Stuck file k) : r.eof = false := by
  have hle := h.read_le
  have hlt := h.length_lt
  rw [eof, decide_eq_false_iff_not, h.bufferSize]
  omega

theorem Delivered.advance (h : r.Delivered file k) (hle : n ≤ r.unread.length) :
    (r.advance n).Delivered file k := by
  have hread := h.read_le
  rw [unread, List.length_drop] at hle
  exact ⟨h.reads, h.bytes, h.bufferSize, show r.read + n ≤ r.buffer.length by omega, h.before⟩

theorem Stuck.advance (h : r.Stuck file k) (hle : n ≤ r.unread.length) :
    (r.advance n).Stuck file k := by
  have hread := h.read_le
  rw [unread, List.length_drop] at hle
  exact ⟨h.reads, h.failed, h.bufferSize, show r.read + n ≤ r.buffer.length by omega,
    h.length_lt, h.before⟩

theorem length_unread_advance (r : Reader) (n : ℕ) :
    (r.advance n).unread.length = r.unread.length - n := by
  show (r.buffer.drop (r.read + n)).length = _
  rw [unread, List.length_drop, List.length_drop, Nat.sub_add_eq]

/-- What follows a line, or the part of it that was delivered. -/
theorem Delivered.entered (h : r.Delivered file k) (hne : r.unread ≠ []) (n : ℕ) :
    ((r.advance n).readInAdvance file).Entered file (k + 1) := by
  refine entered_readInAdvance h.reads (fun j hj ↦ ?_) h.length_lt
  obtain hlt | rfl := Nat.lt_succ_iff_lt_or_eq.mp hj
  · exact h.before j hlt
  · exact h.goes hne

/-! ### Reading a line -/

/-- A reader in a line. -/
def Scanning (file : ℕ → ReadResult capacity) (r : Reader) : Prop :=
  (∃ k, r.Delivered file k ∧ r.unread ≠ []) ∨ ∃ k, r.Stuck file k

/-- A reader between two lines, or stuck. -/
def Settled (file : ℕ → ReadResult capacity) (r : Reader) : Prop :=
  r.Between file ∨ ∃ k, r.Stuck file k

variable {s : ReadingLine}

/-- A line that ends before the buffer does. -/
theorem exists_readChunk_of_mem (file : ℕ → ReadResult capacity) (h : lineFeed ∈ s.reader.unread)
    (hle : s.reader.buffer.length ≤ s.reader.bufferSize) :
    ∃ n, 0 < n ∧ n ≤ s.reader.unread.length ∧ ∃ line, readChunk file s = .done
      ⟨if (s.reader.advance n).eof then (s.reader.advance n).readInAdvance file
        else s.reader.advance n, line⟩ := by
  obtain ⟨w, rest, hunread, hnot⟩ := List.eq_append_cons_of_mem h
  have hlength := congrArg List.length hunread
  rw [List.length_append, List.length_cons] at hlength
  have hroom : w.length < s.reader.bufferSize - s.reader.read := by
    rw [unread, List.length_drop] at hlength
    omega
  have hscan : scan (s.reader.buffer.drop s.reader.read) (s.reader.bufferSize - s.reader.read) =
      some (w.length + 1, true) := by
    show scan s.reader.unread _ = _
    rw [hunread]
    exact scan_append hnot rest hroom
  refine ⟨w.length + 1, Nat.succ_pos _, by omega, ?_⟩
  rw [readChunk, hscan]
  by_cases heof : (s.reader.advance (w.length + 1)).eof = true <;> simp [heof]

/-- A line that goes on where the delivered bytes end. -/
theorem Delivered.readChunk_of_not_mem (hdelivered : s.reader.Delivered file k)
    (h : lineFeed ∉ s.reader.unread) :
    ∃ line, readChunk file s =
      if ((s.reader.advance s.reader.unread.length).readInAdvance file).eof
        then .done ⟨(s.reader.advance s.reader.unread.length).readInAdvance file, line⟩
        else .again ⟨(s.reader.advance s.reader.unread.length).readInAdvance file, line⟩ := by
  have hlength : s.reader.bufferSize - s.reader.read = s.reader.unread.length := by
    rw [hdelivered.bufferSize, unread, List.length_drop]
  have hscan : scan (s.reader.buffer.drop s.reader.read) (s.reader.bufferSize - s.reader.read) =
      some (s.reader.unread.length, false) := by
    rw [hlength]
    exact scan_of_not_mem h
  rw [readChunk, hscan]
  by_cases heof : ((s.reader.advance s.reader.unread.length).readInAdvance file).eof = true <;>
    simp [heof]

/-- A reader that is stuck reads what was not delivered. -/
theorem Stuck.readChunk_of_not_mem (hstuck : s.reader.Stuck file k)
    (h : lineFeed ∉ s.reader.unread) : readChunk file s = .failed := by
  have hle := hstuck.read_le
  have hlt := hstuck.length_lt
  have hscan : scan (s.reader.buffer.drop s.reader.read) (s.reader.bufferSize - s.reader.read) =
      none := by
    refine scan_eq_none h ?_
    rw [hstuck.bufferSize, List.length_drop]
    omega
  rw [readChunk, hscan]

theorem Entered.reads (h : r.Entered file k) : r.reads = k + 1 := by
  obtain ⟨hdelivered, -⟩ | hstuck := h
  · exact hdelivered.reads
  · exact hstuck.reads

theorem Entered.settled (h : r.Entered file k) : r.Settled file := by
  obtain ⟨hdelivered, hunread⟩ | hstuck := h
  · exact Or.inl ⟨k, hdelivered, fun hnil ↦ hunread.symm.trans hnil⟩
  · exact Or.inr ⟨k, hstuck⟩

theorem Entered.scanning (h : r.Entered file k) (heof : ¬ r.eof = true) : r.Scanning file := by
  obtain ⟨hdelivered, -⟩ | hstuck := h
  · exact Or.inl ⟨k, hdelivered, fun hnil ↦ heof (hdelivered.eof_iff.mpr hnil)⟩
  · exact Or.inr ⟨k, hstuck⟩

theorem Between.scanning (h : r.Between file) (heof : ¬ r.eof = true) : r.Scanning file := by
  obtain ⟨k, hdelivered, -⟩ := h
  exact Or.inl ⟨k, hdelivered, fun hnil ↦ heof (hdelivered.eof_iff.mpr hnil)⟩

/-- An iteration reads to the end of the line, or to the end of what was delivered. -/
theorem Delivered.readChunk_meets (h : s.reader.Delivered file k) (hne : s.reader.unread ≠ []) :
    (readChunk file s).Meets False
      (fun next ↦ lineFeed ∉ s.reader.unread ∧ next.reader.Entered file (k + 1) ∧
        ¬ next.reader.eof = true)
      (fun result ↦ result.reader.Entered file (k + 1) ∨
        result.reader.Delivered file k ∧ result.reader.unread ≠ [] ∧
          result.reader.unread.length < s.reader.unread.length) := by
  by_cases hmem : lineFeed ∈ s.reader.unread
  · obtain ⟨n, hpos, hle, line, hround⟩ := exists_readChunk_of_mem file hmem h.bufferSize.ge
    rw [hround]
    split_ifs with heof
    · exact Or.inl (h.entered hne _)
    · have hadvance := h.advance hle
      refine Or.inr ⟨hadvance, fun hnil ↦ heof (hadvance.eof_iff.mpr hnil), ?_⟩
      rw [length_unread_advance]
      omega
  · obtain ⟨line, hround⟩ := h.readChunk_of_not_mem hmem
    rw [hround]
    split_ifs with heof
    · exact Or.inl (h.entered hne _)
    · exact ⟨hmem, h.entered hne _, heof⟩

/-- A reader that is stuck stays so. -/
theorem Stuck.readChunk_meets (h : s.reader.Stuck file k) :
    (readChunk file s).Meets True (fun _ ↦ False) (fun result ↦ result.reader.Stuck file k) := by
  by_cases hmem : lineFeed ∈ s.reader.unread
  · have hle : s.reader.buffer.length ≤ s.reader.bufferSize := by
      have hlt := h.length_lt
      rw [h.bufferSize]
      omega
    obtain ⟨n, -, hn, line, hround⟩ := exists_readChunk_of_mem file hmem hle
    have hadvance := h.advance hn
    rw [hround, hadvance.not_eof]
    exact hadvance
  · rw [h.readChunk_of_not_mem hmem]
    trivial

/-- An iteration from some point of a line on. The measure is how often the file was read. -/
theorem Scanning.readChunk_meets (h : s.reader.Scanning file) :
    (readChunk file s).Meets True
      (fun next ↦ next.reader.Scanning file ∧ s.reader.reads < next.reader.reads)
      (fun result ↦ result.reader.Settled file ∧ s.reader.reads ≤ result.reader.reads) := by
  obtain ⟨k, hdelivered, hne⟩ | ⟨k, hstuck⟩ := h
  · have hmeets := hdelivered.readChunk_meets hne
    cases hround : readChunk file s with
    | failed => trivial
    | again next =>
      rw [hround] at hmeets
      obtain ⟨-, hentered, heof⟩ := hmeets
      refine ⟨hentered.scanning heof, ?_⟩
      rw [hentered.reads, hdelivered.reads]
      omega
    | done result =>
      rw [hround] at hmeets
      obtain hentered | ⟨hrest, hrest_ne, -⟩ := hmeets
      · refine ⟨hentered.settled, ?_⟩
        rw [hentered.reads, hdelivered.reads]
        omega
      · exact ⟨Or.inl ⟨k, hrest, fun hnil ↦ absurd hnil hrest_ne⟩,
          (hdelivered.reads.trans hrest.reads.symm).le⟩
  · refine hstuck.readChunk_meets.mono (fun _ hfalse ↦ hfalse.elim) fun result hresult ↦ ?_
    exact ⟨Or.inr ⟨k, hresult⟩, (hstuck.reads.trans hresult.reads.symm).le⟩

/-- A call returns at once, or runs the loop. -/
theorem readLine_eq_loop {rounds : ℕ} {line : Option (List UInt8)} {result : LineRead}
    (hread : r.readLine file rounds line = .finished result) :
    ((line.any (· ≠ []) = true ∨ r.eof = true) ∧ result.returned = false ∧ result.reader = r) ∨
      (¬ r.eof = true ∧ ∃ ending, runLoop (readChunk file) rounds ⟨r, line⟩ = .finished ending ∧
        result.reader = ending.reader) := by
  unfold readLine at hread
  split_ifs at hread with hline heof
  · cases hread
    exact Or.inl ⟨Or.inl hline, rfl, rfl⟩
  · cases hread
    exact Or.inl ⟨Or.inr heof, rfl, rfl⟩
  · refine Or.inr ⟨heof, ?_⟩
    cases hloop : runLoop (readChunk file) rounds ⟨r, line⟩ with
    | failed =>
      rw [hloop] at hread
      cases hread
    | unfinished =>
      rw [hloop] at hread
      cases hread
    | finished ending =>
      rw [hloop] at hread
      cases hread
      exact ⟨ending, rfl, rfl⟩

variable {option : ReaderOption}

theorem Settled.scanning (h : r.Settled file) (heof : ¬ r.eof = true) : r.Scanning file := by
  obtain hbetween | hstuck := h
  · exact hbetween.scanning heof
  · exact Or.inr hstuck

theorem Settled.readLine (h : r.Settled file) {rounds : ℕ} {line : Option (List UInt8)}
    {result : LineRead} (hread : r.readLine file rounds line = .finished result) :
    result.reader.Settled file := by
  obtain ⟨-, -, hsame⟩ | ⟨heof, ending, hloop, hreader⟩ := readLine_eq_loop hread
  · rw [hsame]
    exact h
  · rw [hreader]
    have hround (s : ReadingLine) (hs : s.reader.Scanning file) :
        (readChunk file s).Meets True (fun next ↦ next.reader.Scanning file)
          (fun result ↦ result.reader.Settled file) :=
      hs.readChunk_meets.mono (fun _ hnext ↦ hnext.1) (fun _ hresult ↦ hresult.1)
    exact runLoop_keeps hround (h.scanning heof) hloop

/-- Every reader is between two lines, or stuck. -/
theorem Reachable.settled (h : Reachable file option r) : r.Settled file := by
  induction h with
  | opened =>
    have hentered : (openFile file option).Entered file 0 :=
      entered_readInAdvance rfl (fun j hj ↦ absurd hj (Nat.not_lt_zero j)) (Nat.two_pow_pos 31)
    exact hentered.settled
  | read _ hread ih => exact ih.readLine hread

theorem Stuck.not_safe (h : r.Stuck file k) : ¬ r.Safe file := by
  intro hsafe
  have hfailed : ∃ j < r.reads, file j = .failed := by
    refine ⟨k, ?_, ReadResult.bytes?_eq_none_iff.mp h.failed⟩
    rw [h.reads]
    exact Nat.lt_succ_self k
  have heof := (hsafe.2 hfailed).1
  rw [h.not_eof] at heof
  cases heof

/-! ### A safe reader -/

/-- A call reads on in what was delivered, or reads from the file once more. -/
theorem Delivered.readLine (h : r.Delivered file k) (hne : r.unread ≠ []) {rounds : ℕ}
    {result : LineRead} (hread : r.readLine file rounds (some []) = .finished result) :
    k + 1 < result.reader.reads ∨
      result.reader.Delivered file k ∧ result.reader.unread ≠ [] ∧
        result.reader.unread.length < r.unread.length := by
  obtain ⟨hnot | heof, -⟩ | ⟨heof, ending, hloop, hreader⟩ := readLine_eq_loop hread
  · simp at hnot
  · exact absurd (h.eof_iff.mp heof) hne
  · rw [hreader]
    have hround (s : ReadingLine)
        (hs : s = ⟨r, some []⟩ ∨ s.reader.Scanning file ∧ k + 1 < s.reader.reads) :
        (readChunk file s).Meets True
          (fun next ↦ next = ⟨r, some []⟩ ∨
            next.reader.Scanning file ∧ k + 1 < next.reader.reads)
          (fun result ↦ k + 1 < result.reader.reads ∨
            result.reader.Delivered file k ∧ result.reader.unread ≠ [] ∧
              result.reader.unread.length < r.unread.length) := by
      have hlater (reader : Reader) (hentered : reader.Entered file (k + 1)) :
          k + 1 < reader.reads := by
        rw [hentered.reads]
        exact Nat.lt_succ_self _
      obtain rfl | ⟨hscanning, hreads⟩ := hs
      · have hmeets := Delivered.readChunk_meets (s := ⟨r, some []⟩) h hne
        cases hchunk : readChunk file ⟨r, some []⟩ with
        | failed => trivial
        | again next =>
          rw [hchunk] at hmeets
          exact Or.inr ⟨hmeets.2.1.scanning hmeets.2.2, hlater _ hmeets.2.1⟩
        | done result =>
          rw [hchunk] at hmeets
          exact hmeets.imp_left (hlater _)
      · exact hscanning.readChunk_meets.mono
          (fun _ hnext ↦ Or.inr ⟨hnext.1, hreads.trans hnext.2⟩)
          (fun _ hresult ↦ Or.inl (hreads.trans_le hresult.2))
    exact runLoop_keeps hround (Or.inl rfl) hloop

/-- Calls that end read from the file once more, if what was read so far is not its end. -/
theorem Reachable.exists_reads (hsafe : ∀ r, Reachable file option r → r.Safe file)
    (h : Reachable file option r) (hdelivered : r.Delivered file k) (hne : r.unread ≠ []) :
    ∃ later, Reachable file option later ∧ k + 1 < later.reads := by
  induction hn : r.unread.length using Nat.strong_induction_on generalizing r with
  | _ n ih =>
    obtain ⟨rounds, result, hread⟩ := (hsafe r h).1 (some [])
    have hreachable := h.read hread
    obtain hreads | ⟨hagain, hrest, hlt⟩ := hdelivered.readLine hne hread
    · exact ⟨result.reader, hreachable, hreads⟩
    · exact ih _ (hn ▸ hlt) hreachable hagain hrest rfl

/-- A safe reader is not stuck. -/
theorem Reachable.between (hsafe : ∀ r, Reachable file option r → r.Safe file)
    (h : Reachable file option r) : r.Between file := by
  obtain hbetween | ⟨k, hstuck⟩ := h.settled
  · exact hbetween
  · exact absurd (hsafe r h) hstuck.not_safe

theorem exists_reads (hsafe : ∀ r, Reachable file option r → r.Safe file)
    (hbefore : ∀ j < k, Goes file j) : ∃ r, Reachable file option r ∧ k < r.reads := by
  induction k with
  | zero => exact ⟨_, .opened, Nat.zero_lt_one⟩
  | succ k ih =>
    obtain ⟨r, hreachable, hreads⟩ := ih fun j hj ↦ hbefore j (hj.trans (Nat.lt_succ_self k))
    obtain hlt | heq := Nat.lt_or_eq_of_le (Nat.succ_le_of_lt hreads)
    · exact ⟨r, hreachable, hlt⟩
    · obtain ⟨j, hdelivered, hsettled⟩ := hreachable.between hsafe
      obtain rfl : j = k := by
        have := hdelivered.reads
        omega
      refine hreachable.exists_reads hsafe hdelivered fun hnil ↦ ?_
      have hend := hdelivered.bytes
      rw [hsettled hnil] at hend
      exact (hbefore j (Nat.lt_succ_self j)).ne_end hend

/-- A safe reader reads as far as something comes, and no read has failed. -/
theorem exists_delivered (hsafe : ∀ r, Reachable file option r → r.Safe file)
    (hbefore : ∀ j < k, Goes file j) :
    ∃ r m, Reachable file option r ∧ k ≤ m ∧ r.Delivered file m ∧
      (r.unread = [] → r.buffer = []) := by
  obtain ⟨r, hreachable, hreads⟩ := exists_reads hsafe hbefore
  obtain ⟨m, hdelivered, hsettled⟩ := hreachable.between hsafe
  rw [hdelivered.reads] at hreads
  exact ⟨r, m, hreachable, Nat.le_of_lt_succ hreads, hdelivered, hsettled⟩

/-- Before the end of the file every read delivers something, if none fails there. -/
theorem goes_of_not_end (hend : ∀ j < k, (file j).bytes? ≠ some [])
    (hfails : ∀ j < k, file j = .failed → ∃ i < j, (file i).bytes? = some []) :
    ∀ j < k, Goes file j := by
  intro j hj
  cases hresult : (file j).bytes? with
  | some bytes => exact ⟨bytes, hresult, fun hnil ↦ hend j hj (hresult.trans (congrArg some hnil))⟩
  | none =>
    obtain ⟨i, hi, hnil⟩ := hfails j hj (ReadResult.bytes?_eq_none_iff.mp hresult)
    exact absurd hnil (hend i (hi.trans hj))

theorem exists_end_of_safe (hsafe : ∀ r, Reachable file option r → r.Safe file) :
    file k = .failed → ∃ j < k, (file j).bytes? = some [] := by
  induction k using Nat.strong_induction_on with
  | _ k ih =>
    intro hfailed
    by_contra hend
    push Not at hend
    have hbefore := goes_of_not_end hend ih
    obtain ⟨r, m, -, hm, hdelivered, -⟩ := exists_delivered hsafe hbefore
    exact hdelivered.ne_failed hm hfailed

/-- A line that goes on for ever is never read. -/
theorem Delivered.not_finished (h : r.Delivered file k) (hne : r.unread ≠ [])
    (hgoes : ∀ j, Goes file j)
    (hline : ∀ j bytes, k ≤ j → (file j).bytes? = some bytes → lineFeed ∉ bytes) {rounds : ℕ}
    {result : LineRead} : r.readLine file rounds (some []) ≠ .finished result := by
  intro hread
  obtain ⟨hnot | heof, -⟩ | ⟨-, ending, hloop, -⟩ := readLine_eq_loop hread
  · simp at hnot
  · exact hne (h.eof_iff.mp heof)
  · have hround (s : ReadingLine)
        (hs : ∃ j, k ≤ j ∧ s.reader.Delivered file j ∧ s.reader.unread ≠ []) :
        (readChunk file s).Meets True
          (fun next ↦ ∃ j, k ≤ j ∧ next.reader.Delivered file j ∧ next.reader.unread ≠ [])
          (fun _ ↦ False) := by
      obtain ⟨j, hj, hdelivered, hunread⟩ := hs
      have hnot : lineFeed ∉ s.reader.unread :=
        fun hmem ↦ hline j _ hj hdelivered.bytes (List.mem_of_mem_drop hmem)
      obtain ⟨line, hchunk⟩ := hdelivered.readChunk_of_not_mem hnot
      have hnext : ((s.reader.advance s.reader.unread.length).readInAdvance file).Delivered file
          (j + 1) ∧ ((s.reader.advance s.reader.unread.length).readInAdvance file).unread ≠ [] := by
        obtain ⟨hnext, hsame⟩ | hstuck := hdelivered.entered hunread s.reader.unread.length
        · refine ⟨hnext, fun hnil ↦ (hgoes (j + 1)).ne_end ?_⟩
          rw [hnext.bytes, ← hsame, hnil]
        · exact absurd (ReadResult.bytes?_eq_none_iff.mp hstuck.failed) (hgoes _).ne_failed
      rw [hchunk, if_neg fun heof ↦ hnext.2 (hnext.1.eof_iff.mp heof)]
      exact ⟨j + 1, Nat.le_succ_of_le hj, hnext⟩
    exact runLoop_keeps hround ⟨k, le_rfl, h, hne⟩ hloop

theorem ends_of_safe (hsafe : ∀ r, Reachable file option r → r.Safe file) : Ends file := by
  refine ⟨fun k ↦ exists_end_of_safe hsafe, fun k ↦ ?_⟩
  by_contra hnever
  push Not at hnever
  have hgoes (j : ℕ) : Goes file j :=
    goes_of_not_end (k := j + 1) (fun i _ ↦ (hnever i).1) (fun i _ ↦ exists_end_of_safe hsafe) j
      (Nat.lt_succ_self j)
  obtain ⟨r, m, hreachable, hm, hdelivered, hsettled⟩ :=
    exists_delivered (k := k) hsafe fun j _ ↦ hgoes j
  have hne : r.unread ≠ [] := by
    intro hnil
    refine (hgoes m).ne_end ?_
    rw [hdelivered.bytes, hsettled hnil]
  obtain ⟨rounds, result, hread⟩ := (hsafe r hreachable).1 (some [])
  exact hdelivered.not_finished hne hgoes
    (fun j bytes hj hbytes ↦ (hnever j).2 (hm.trans hj) bytes hbytes) hread

/-! ### Files that end -/

theorem Stuck.not_ends (h : r.Stuck file k) : ¬ Ends file := by
  intro hends
  obtain ⟨j, hj, hend⟩ := hends.1 k (ReadResult.bytes?_eq_none_iff.mp h.failed)
  exact (h.before j hj).ne_end hend

/-- A line is read before a line feed or the end of the file comes. -/
theorem Delivered.exists_finished (hends : Ends file) (h : r.Delivered file k) (hne : r.unread ≠ [])
    (line : Option (List UInt8)) :
    ∃ rounds ending, runLoop (readChunk file) rounds ⟨r, line⟩ = .finished ending := by
  obtain ⟨last, hlast⟩ := hends.2 (k + 1)
  have hnot_end {m : ℕ} {reader : Reader} (hdelivered : reader.Delivered file m)
      (hunread : reader.unread ≠ []) (hm : last ≤ m) : (file last).bytes? ≠ some [] := by
    obtain rfl | hlt := Nat.eq_or_lt_of_le hm
    · exact (hdelivered.goes hunread).ne_end
    · exact (hdelivered.before last hlt).ne_end
  have hround (s : ReadingLine)
      (hs : ∃ m, s.reader.Delivered file m ∧ s.reader.unread ≠ [] ∧
        (m < last ∨ lineFeed ∈ s.reader.unread)) :
      (readChunk file s).Meets False
        (fun next ↦ (∃ m, next.reader.Delivered file m ∧ next.reader.unread ≠ [] ∧
            (m < last ∨ lineFeed ∈ next.reader.unread)) ∧
          last + 2 - next.reader.reads < last + 2 - s.reader.reads)
        (fun _ ↦ True) := by
    obtain ⟨m, hdelivered, hunread, hcomes⟩ := hs
    refine (hdelivered.readChunk_meets hunread).mono (fun next hnext ↦ ?_) fun _ _ ↦ trivial
    obtain ⟨hnot, hentered, heof⟩ := hnext
    have hlt := hcomes.resolve_right hnot
    have hmeasure : last + 2 - next.reader.reads < last + 2 - s.reader.reads := by
      rw [hentered.reads, hdelivered.reads]
      omega
    obtain ⟨hnext, hsame⟩ | hstuck := hentered
    · have hnext_ne : next.reader.unread ≠ [] := fun hnil ↦ heof (hnext.eof_iff.mpr hnil)
      refine ⟨⟨m + 1, hnext, hnext_ne, ?_⟩, hmeasure⟩
      obtain heq | hbefore := Nat.eq_or_lt_of_le (Nat.succ_le_of_lt hlt)
      · obtain ⟨-, bytes, hbytes, hmem⟩ := hlast.resolve_left (hnot_end hnext hnext_ne heq.ge)
        refine Or.inr ?_
        rw [← heq, hnext.bytes] at hbytes
        rw [hsame, Option.some.inj hbytes]
        exact hmem
      · exact Or.inl hbefore
    · exact absurd hends hstuck.not_ends
  have hlt : k < last := by
    by_contra hle
    push Not at hle
    obtain hend | ⟨hlater, -⟩ := hlast
    · exact hnot_end h hne hle hend
    · omega
  have hmeets := runLoop_meets (fun s : ReadingLine ↦ last + 2 - s.reader.reads) hround
    (s := ⟨r, line⟩) ⟨k, h, hne, Or.inl hlt⟩ (Nat.lt_succ_self _)
  obtain ⟨ending, hloop, -⟩ := hmeets.finished
  exact ⟨_, ending, hloop⟩

theorem Between.exists_finished (hends : Ends file) (h : r.Between file)
    (line : Option (List UInt8)) :
    ∃ rounds result, r.readLine file rounds line = .finished result := by
  obtain ⟨k, hdelivered, -⟩ := h
  unfold readLine
  split_ifs with hline heof
  · exact ⟨0, _, rfl⟩
  · exact ⟨0, _, rfl⟩
  · obtain ⟨rounds, ending, hloop⟩ := hdelivered.exists_finished hends
      (fun hnil ↦ heof (hdelivered.eof_iff.mpr hnil)) line
    refine ⟨rounds, ⟨true, ending.reader, ending.line⟩, ?_⟩
    rw [hloop]

theorem Reachable.safe (hends : Ends file) (h : Reachable file option r) : r.Safe file := by
  obtain hbetween | ⟨k, hstuck⟩ := h.settled
  · refine ⟨hbetween.exists_finished hends, ?_⟩
    rintro ⟨j, hj, hfailed⟩
    obtain ⟨k, hdelivered, -⟩ := hbetween
    rw [hdelivered.reads] at hj
    exact absurd hfailed (hdelivered.ne_failed (Nat.le_of_lt_succ hj))
  · exact absurd hends hstuck.not_ends

/-- For every option, capacity and sequence of reads, a reader is safe after `Open` and any calls if
and only if a read fails only after the end of the file, and a line feed or the end of the file
always comes. -/
theorem safe_iff (option : ReaderOption) (file : ℕ → ReadResult capacity) :
    (∀ r, Reachable file option r → r.Safe file) ↔ Ends file :=
  ⟨ends_of_safe, fun hends _ hreachable ↦ hreachable.safe hends⟩

theorem length_lineFeed_le : [lineFeed].length ≤ 1 := le_rfl

theorem length_lineFeed_lt : [lineFeed].length < 2 ^ 31 := by decide

/-- A file of one line, after which a read fails. -/
def oneLine : ℕ → ReadResult 1
  | 0 => .read [lineFeed] length_lineFeed_le length_lineFeed_lt
  | _ + 1 => .failed

theorem reader_not_safe :
    ¬ ∀ (option : ReaderOption) (capacity : ℕ) (file : ℕ → ReadResult capacity) (r : Reader),
      Reachable file option r → r.Safe file := by
  intro hsafe
  have hends : Ends oneLine := ends_of_safe (hsafe .none 1 oneLine)
  obtain ⟨j, hj, hend⟩ := hends.1 1 rfl
  obtain rfl : j = 0 := by omega
  cases hend

end Reader

end Felicia.ReadErrors
