import Felicia.Util.BufferedWriter

/-!
# CSV files

`CsvReader` and `CsvWriter` of `felicia/core/lib/file/csv_reader.cc` and `csv_writer.cc`, on top of
`BufferedReader` and `BufferedWriter`. The writer joins the fields of a row with its delimiter; the
reader takes a line apart at every byte of its delimiter, and skips empty fields.

What a reader does with a file is a list of lines that it returns one after another (`Reads`), which
`exists_reads` finds for every content. `csv_iff` is about reading what was written.
-/

set_option autoImplicit false
set_option relaxedAutoImplicit false

namespace Felicia

open Support BufferedReader BufferedWriter

/-! ### Functions -/

/-- `base::JoinString`. -/
def joinString (separator : List UInt8) : List (List UInt8) → List UInt8
  | [] => []
  | first :: rest => first ++ rest.flatMap (separator ++ ·)

/-- The tokens of a `base::StringTokenizer` with these delimiters. -/
def byteTokens (delimiters text : List UInt8) : List (List UInt8) :=
  (text.splitOnP (· ∈ delimiters)).filter (· ≠ [])

/-- `CsvReader`. -/
structure CsvReader where
  reader : BufferedReader
  delimiter : List UInt8

namespace CsvReader

/-- `ReadLine`, as often as there are lines to skip. -/
def skip : ℕ → BufferedReader → LoopEnd BufferedReader
  | 0, r => .finished r
  | count + 1, r => (r.readLine none).bind fun read ↦ skip count read.reader

/-- `Open` of a file with some content. -/
def openFile (content delimiter : List UInt8) (skipHead : ℕ) : LoopEnd CsvReader :=
  (skip skipHead (BufferedReader.openFile .removeCrOrLf 256 content)).bind fun reader ↦
    .finished ⟨reader, delimiter⟩

variable (r : CsvReader)

def eof : Bool := r.reader.eof

/-- What `ReadRows` returns, and leaves. -/
structure RowsRead where
  returned : Bool
  reader : CsvReader
  rows : List (List UInt8)

/-- `ReadRows`, which does not look at what `ReadLine` returns. -/
def readRows (rows : List (List UInt8)) : LoopEnd RowsRead :=
  if rows.length > 0 then .finished ⟨false, r, rows⟩
  else
    (r.reader.readLine (some [])).bind fun read ↦
      .finished ⟨true, { r with reader := read.reader },
        rows ++ byteTokens r.delimiter (read.line.getD [])⟩

/-- A reader, and what was read by it. -/
structure ManyRead where
  reader : CsvReader
  read : List (List (List UInt8)) := []

/-- Some calls of `ReadRows`, each with an empty vector. -/
def readMany : ℕ → CsvReader → LoopEnd ManyRead
  | 0, r => .finished { reader := r }
  | count + 1, r =>
    (r.readRows []).bind fun first ↦
      (readMany count first.reader).bind fun rest ↦
        .finished ⟨rest.reader, first.rows :: rest.read⟩

end CsvReader

/-- The file that a `CsvWriter` writes, where every write writes all it is given. -/
def writeCsv (option : WriterOption) (delimiter : List UInt8)
    (rows : List (List (List UInt8))) : LoopEnd FileWritten :=
  writeFile (fun _ ↦ some 256) option 256 (rows.map (joinString delimiter))

/-! ### The lines that a reader returns -/

/-- Calls of `ReadLine` return these lines, one after another, and then no other. -/
def Reads : BufferedReader → List (List UInt8) → Prop
  | r, [] => r.eof = true
  | r, line :: lines =>
    r.eof = false ∧ ∃ next, r.readLine (some []) = .finished ⟨true, next, some line⟩ ∧
      r.readLine none = .finished ⟨true, next, none⟩ ∧ Reads next lines

variable {r : BufferedReader} {content line : List UInt8} {lines : List (List UInt8)}

theorem Reads.eof_eq (h : Reads r lines) : r.eof = lines.isEmpty := by
  cases lines with
  | nil => exact h
  | cons line lines => exact h.1

/-- What is read does not depend on where it is copied to. -/
theorem runLoop_readChunk_none {rounds : ℕ} {s ending : ReadingLine}
    (h : runLoop readChunk rounds s = .finished ending) :
    runLoop readChunk rounds { s with line := none } = .finished { ending with line := none } := by
  induction rounds generalizing s with
  | zero => cases h
  | succ rounds ih =>
    have hround : readChunk { s with line := none } =
        match readChunk s with
        | .failed => .failed
        | .again next => .again { next with line := none }
        | .done result => .done { result with line := none } := by
      unfold readChunk
      dsimp only
      split_ifs <;> rfl
    unfold runLoop at h ⊢
    rw [hround]
    cases hchunk : readChunk s with
    | failed =>
      rw [hchunk] at h
      cases h
    | again next =>
      rw [hchunk] at h
      exact ih h
    | done result =>
      rw [hchunk] at h
      cases h
      rfl

theorem readLine_none (heof : r.eof = false) {next : BufferedReader}
    (h : r.readLine (some []) = .finished ⟨true, next, some line⟩) :
    r.readLine none = .finished ⟨true, next, none⟩ := by
  unfold BufferedReader.readLine at h ⊢
  rw [if_neg (by simp), if_neg (by simp [heof])] at h
  rw [if_neg (by simp), if_neg (by simp [heof])]
  cases hloop : runLoop readChunk (r.file.length + 2) ⟨r, some []⟩ with
  | failed =>
    rw [hloop] at h
    cases h
  | unfinished =>
    rw [hloop] at h
    cases h
  | finished ending =>
    rw [hloop] at h
    simp only [LoopEnd.finished.injEq, LineRead.mk.injEq] at h
    obtain ⟨-, rfl, -⟩ := h
    rw [runLoop_readChunk_none hloop]

/-- A reader between two lines returns as many lines as are left, and these lines if nothing is
broken. -/
theorem exists_reads_of_between {capacity : ℕ+} {k : ℕ}
    (h : Between .removeCrOrLf capacity content k r) :
    ∃ lines, Reads r lines ∧ lines.length = (linesOf r.remaining).length ∧
      (UnbrokenFrom capacity content k → lines = (linesOf r.remaining).map removeLineEnd) := by
  induction hlines : linesOf r.remaining generalizing r k with
  | nil =>
    exact ⟨[], h.remaining_eq_nil_iff.mp (linesOf_eq_nil_iff.mp hlines), rfl, fun _ ↦ rfl⟩
  | cons first rest ih =>
    have heof : r.eof = false := by
      rw [← Bool.not_eq_true, ← h.remaining_eq_nil_iff, ← linesOf_eq_nil_iff, hlines]
      exact List.cons_ne_nil _ _
    obtain ⟨k', next, line, first', hread, hbetween, hfirst, -, hremoved⟩ := h.readLine heof
    rw [hlines] at hfirst
    obtain ⟨rfl, hrest⟩ := List.cons.inj hfirst
    obtain ⟨lines, hreads, hlength, hright⟩ := ih hbetween hrest.symm
    refine ⟨line :: lines, ⟨heof, next, hread, readLine_none heof hread, hreads⟩, ?_, ?_⟩
    · rw [List.length_cons, List.length_cons, hlength]
    · intro hunbroken
      obtain ⟨hline, hunbroken'⟩ := (hremoved rfl).mpr hunbroken
      rw [List.map_cons, hline, hright hunbroken']

/-- The lines that a reader returns of some content. -/
theorem exists_reads (content : List UInt8) :
    ∃ lines, Reads (BufferedReader.openFile .removeCrOrLf 256 content) lines ∧
      lines.length = (linesOf content).length ∧
      (UnbrokenFrom 256 content 0 → lines = (linesOf content).map removeLineEnd) := by
  have h := exists_reads_of_between (between_openFile .removeCrOrLf 256 content)
  rw [remaining_openFile] at h
  exact h

/-- A carriage return is followed by a line feed. -/
def EndsLines (content : List UInt8) : Prop :=
  ∀ i, content[i]? = some carriageReturn → content[i + 1]? = some lineFeed

/-- Content where carriage returns are at the ends of lines alone is not broken. -/
theorem EndsLines.unbrokenFrom (h : EndsLines content) (capacity : ℕ+) (k : ℕ) :
    UnbrokenFrom capacity content k := by
  intro j _ hlast hmem
  have hpos := capacity.pos
  obtain ⟨i, hi⟩ := List.mem_iff_getElem?.mp hmem
  have hlonger : (j + 1) * (capacity : ℕ) < content.length := by
    by_contra hle
    rw [bufferAt, List.drop_eq_nil_iff.mpr (not_lt.mp hle), List.take_nil] at hi
    simp at hi
  have hlength : (bufferAt capacity content j).length = capacity := by
    rw [Nat.succ_mul] at hlonger
    rw [bufferAt, List.length_take, List.length_drop]
    omega
  have hcr : content[j * (capacity : ℕ) + (capacity - 1)]? = some carriageReturn := by
    rw [List.getLast?_eq_getElem?, hlength, bufferAt, List.getElem?_take_of_lt (by omega),
      List.getElem?_drop] at hlast
    exact hlast
  have hlf := h _ hcr
  have hnext : j * (capacity : ℕ) + (capacity - 1) + 1 = (j + 1) * capacity := by
    rw [Nat.succ_mul]
    omega
  rw [hnext] at hlf
  rw [bufferAt, List.head?_take, if_neg (by omega), List.head?_drop, hlf]

/-! ### Rows -/

namespace CsvReader

variable {r : CsvReader} {rows : List (List UInt8)}

theorem byteTokens_nil (delimiters : List UInt8) : byteTokens delimiters [] = [] := rfl

/-- `ReadRows` with an empty vector returns true, at the end of the file too. -/
theorem returned_readRows {result : RowsRead} (h : r.readRows [] = .finished result) :
    result.returned = true := by
  obtain ⟨read, -, hresult⟩ := LoopEnd.bind_eq_finished_iff.mp h
  cases hresult
  rfl

/-- `ReadRows` takes the next line apart. -/
theorem readRows_of_reads (h : Reads r.reader (line :: lines)) :
    ∃ next, r.readRows [] = .finished ⟨true, ⟨next, r.delimiter⟩, byteTokens r.delimiter line⟩ ∧
      Reads next lines := by
  obtain ⟨-, next, hread, -, hrest⟩ := h
  refine ⟨next, ?_, hrest⟩
  rw [readRows, if_neg (by simp), hread, LoopEnd.bind_finished, Option.getD_some, List.nil_append]

/-- At the end of the file there is nothing to take apart. -/
theorem readRows_of_eof (h : r.eof = true) : r.readRows [] = .finished ⟨true, r, []⟩ := by
  have hread : r.reader.readLine (some []) = .finished ⟨false, r.reader, some []⟩ := by
    rw [BufferedReader.readLine, if_neg (by simp), if_pos (show r.reader.eof = true from h)]
  rw [readRows, if_neg (by simp), hread, LoopEnd.bind_finished, Option.getD_some, byteTokens_nil,
    List.append_nil]

theorem readMany_of_reads (h : Reads r.reader lines) :
    ∃ next, readMany lines.length r =
        .finished ⟨⟨next, r.delimiter⟩, lines.map (byteTokens r.delimiter)⟩ ∧ next.eof = true := by
  induction lines generalizing r with
  | nil => exact ⟨r.reader, rfl, h⟩
  | cons line lines ih =>
    obtain ⟨next, hread, hrest⟩ := readRows_of_reads h
    obtain ⟨last, hmany, heof⟩ := ih (r := ⟨next, r.delimiter⟩) hrest
    refine ⟨last, ?_, heof⟩
    rw [List.length_cons, readMany, hread, LoopEnd.bind_finished, hmany, LoopEnd.bind_finished]
    rfl

/-- Lines that are skipped. -/
theorem skip_of_reads {r : BufferedReader} (h : Reads r lines) (count : ℕ) :
    ∃ next, skip count r = .finished next ∧ Reads next (lines.drop count) := by
  induction count generalizing r lines with
  | zero => exact ⟨r, rfl, h⟩
  | succ count ih =>
    cases lines with
    | nil =>
      have hread : r.readLine none = .finished ⟨false, r, none⟩ := by
        rw [BufferedReader.readLine, if_neg (by simp), if_pos (show r.eof = true from h)]
      obtain ⟨next, hskip, hreads⟩ := ih h
      rw [List.drop_nil] at hreads ⊢
      refine ⟨next, ?_, hreads⟩
      rw [skip, hread, LoopEnd.bind_finished, hskip]
    | cons line lines =>
      obtain ⟨-, next, -, hread, hrest⟩ := h
      obtain ⟨last, hskip, hreads⟩ := ih hrest
      refine ⟨last, ?_, hreads⟩
      rw [skip, hread, LoopEnd.bind_finished, hskip]

/-- `Open` leaves a reader after the head of the lines of its file. -/
theorem openFile_of_reads {content : List UInt8}
    (h : Reads (BufferedReader.openFile .removeCrOrLf 256 content) lines)
    (delimiter : List UInt8) (skipHead : ℕ) :
    ∃ next, openFile content delimiter skipHead = .finished ⟨next, delimiter⟩ ∧
      Reads next (lines.drop skipHead) := by
  obtain ⟨next, hskip, hreads⟩ := skip_of_reads h skipHead
  refine ⟨next, ?_, hreads⟩
  rw [openFile, hskip, LoopEnd.bind_finished]

/-- `ReadRows` takes the next line apart, or an empty one at the end of the file. -/
theorem readRows_of_reads_headD (h : Reads r.reader lines) :
    ∃ next, r.readRows [] =
        .finished ⟨true, ⟨next, r.delimiter⟩, byteTokens r.delimiter (lines.headD [])⟩ ∧
      Reads next lines.tail := by
  cases lines with
  | nil => exact ⟨r.reader, readRows_of_eof h, h⟩
  | cons line lines => exact readRows_of_reads h

end CsvReader

/-! ### Fields -/

variable {delimiter text : List UInt8} {row : List (List UInt8)}

/-- A field that a reader gets back. -/
def IsPlain (delimiter field : List UInt8) : Prop := field ≠ [] ∧ ∀ c ∈ field, c ∉ delimiter

theorem byteTokens_append_cons (before after : List UInt8) {c : UInt8} (hc : c ∈ delimiter) :
    byteTokens delimiter (before ++ c :: after) =
      byteTokens delimiter before ++ byteTokens delimiter after := by
  have hdelimiter : decide (c ∈ delimiter) = true := decide_eq_true hc
  rw [byteTokens, List.splitOnP_append_cons (p := (decide <| · ∈ delimiter)) _ _ hdelimiter,
    List.filter_append]
  rfl

theorem byteTokens_of_forall (h : ∀ c ∈ text, c ∉ delimiter) :
    byteTokens delimiter text = if text = [] then [] else [text] := by
  rw [byteTokens, List.splitOnP_eq_singleton fun c hc ↦ decide_eq_false (h c hc)]
  split_ifs with hnil <;> simp [hnil]

theorem byteTokens_of_isPlain (h : IsPlain delimiter text) :
    byteTokens delimiter text = [text] := by
  rw [byteTokens_of_forall h.2, if_neg h.1]

theorem isPlain_of_mem_byteTokens {field : List UInt8} (h : field ∈ byteTokens delimiter text) :
    IsPlain delimiter field := by
  induction hn : text.length using Nat.strong_induction_on generalizing text with
  | _ n ih =>
    by_cases hany : ∃ c ∈ text, c ∈ delimiter
    · obtain ⟨c, hmem, hc⟩ := hany
      obtain ⟨before, after, rfl⟩ := List.append_of_mem hmem
      rw [byteTokens_append_cons before after hc, List.mem_append] at h
      rw [List.length_append, List.length_cons] at hn
      obtain h | h := h
      · exact ih before.length (by omega) h rfl
      · exact ih after.length (by omega) h rfl
    · push Not at hany
      rw [byteTokens_of_forall hany] at h
      split_ifs at h with hnil
      · cases h
      · obtain rfl := List.mem_singleton.mp h
        exact ⟨hnil, hany⟩

/-- The delimiter between two fields separates their tokens. -/
theorem byteTokens_append_delimiter (hne : delimiter ≠ []) (before after : List UInt8) :
    byteTokens delimiter (before ++ (delimiter ++ after)) =
      byteTokens delimiter before ++ byteTokens delimiter after := by
  have hskip (bytes : List UInt8) (hsub : ∀ c ∈ bytes, c ∈ delimiter) :
      byteTokens delimiter (bytes ++ after) = byteTokens delimiter after := by
    induction bytes with
    | nil => rfl
    | cons c bytes ih =>
      rw [List.cons_append, ← List.nil_append (c :: _),
        byteTokens_append_cons [] _ (hsub c List.mem_cons_self),
        ih fun d hd ↦ hsub d (List.mem_cons_of_mem c hd)]
      rfl
  obtain ⟨c, bytes, hdelimiter⟩ := List.exists_cons_of_ne_nil hne
  have hsub : ∀ d ∈ c :: bytes, d ∈ delimiter := fun d hd ↦ hdelimiter ▸ hd
  conv_lhs => rw [hdelimiter]
  rw [List.cons_append, ← hdelimiter, byteTokens_append_cons before _ (hsub c List.mem_cons_self),
    hskip bytes fun d hd ↦ hsub d (List.mem_cons_of_mem c hd)]

/-- The tokens of a row are those of its fields. -/
theorem byteTokens_joinString (hne : delimiter ≠ []) (row : List (List UInt8)) :
    byteTokens delimiter (joinString delimiter row) = row.flatMap (byteTokens delimiter) := by
  cases row with
  | nil => rfl
  | cons first rest =>
    rw [joinString, List.flatMap_cons]
    induction rest generalizing first with
    | nil => simp
    | cons next rest ih =>
      rw [List.flatMap_cons, List.append_assoc, byteTokens_append_delimiter hne, ih,
        List.flatMap_cons]

/-- A row is read back if and only if a reader gets its fields back. -/
theorem byteTokens_joinString_eq_iff (hne : delimiter ≠ []) (row : List (List UInt8)) :
    byteTokens delimiter (joinString delimiter row) = row ↔
      ∀ field ∈ row, IsPlain delimiter field := by
  rw [byteTokens_joinString hne]
  constructor
  · intro heq field hmem
    rw [← heq] at hmem
    obtain ⟨other, -, htoken⟩ := List.mem_flatMap.mp hmem
    exact isPlain_of_mem_byteTokens htoken
  · intro hplain
    rw [List.flatMap_congr fun field hmem ↦ byteTokens_of_isPlain (hplain field hmem)]
    exact List.flatMap_singleton' row

/-! ### Reading what was written -/

variable {option : WriterOption}

/-- A line in which no byte ends it. -/
def IsLine (line : List UInt8) : Prop := carriageReturn ∉ line ∧ lineFeed ∉ line

theorem endsLines_nil : EndsLines [] := by
  intro i hi
  simp at hi

theorem EndsLines.append (h : EndsLines content) (hline : carriageReturn ∉ line) :
    EndsLines (line ++ content) := by
  intro i hi
  by_cases hlt : i < line.length
  · rw [List.getElem?_append_left hlt] at hi
    exact absurd (List.mem_of_getElem? hi) hline
  · rw [List.getElem?_append_right (by omega)] at hi ⊢
    rw [show i + 1 - line.length = i - line.length + 1 by omega]
    exact h _ hi

theorem EndsLines.newline (h : EndsLines content) (option : WriterOption) :
    EndsLines (newline option ++ content) := by
  have hnot : carriageReturn ∉ [lineFeed] := by decide
  have hfeed : EndsLines (lineFeed :: content) := h.append hnot
  cases option with
  | none => exact hfeed
  | newlineCrLf =>
    intro i hi
    cases i with
    | zero => rfl
    | succ i => exact hfeed i hi

theorem endsLines_fileText (h : ∀ line ∈ lines, IsLine line) :
    EndsLines (fileText option lines) := by
  induction lines with
  | nil => exact endsLines_nil
  | cons line lines ih =>
    rw [fileText_cons, List.append_assoc]
    exact ((ih fun other hmem ↦ h other (List.mem_cons_of_mem line hmem)).newline option).append
      (h line List.mem_cons_self).1

theorem dropCarriageReturn_of_isLine (h : IsLine line) : dropCarriageReturn line = line := by
  rw [dropCarriageReturn, if_neg]
  intro hlast
  exact h.1 (List.mem_of_getLast? hlast)

/-- The lines of a file are those that were written. -/
theorem map_removeLineEnd_fileText (h : ∀ line ∈ lines, IsLine line) :
    (linesOf (fileText option lines)).map removeLineEnd = lines := by
  induction lines with
  | nil => rfl
  | cons line lines ih =>
    have hline := h line List.mem_cons_self
    have hrest := ih fun other hmem ↦ h other (List.mem_cons_of_mem line hmem)
    cases option with
    | none =>
      have htext : fileText .none (line :: lines) = line ++ lineFeed :: fileText .none lines := by
        rw [fileText_cons, List.append_assoc]
        rfl
      rw [htext, linesOf_append hline.2, List.map_cons, removeLineEnd_concat,
        dropCarriageReturn_of_isLine hline, hrest]
    | newlineCrLf =>
      have htext : fileText .newlineCrLf (line :: lines) =
          (line ++ [carriageReturn]) ++ lineFeed :: fileText .newlineCrLf lines := by
        rw [fileText_cons, List.append_assoc, List.append_assoc]
        rfl
      have hnot : lineFeed ∉ line ++ [carriageReturn] := by
        rw [List.mem_append, not_or]
        exact ⟨hline.2, by decide⟩
      have hdrop : dropCarriageReturn (line ++ [carriageReturn]) = line := by
        rw [dropCarriageReturn, if_pos List.getLast?_concat, List.dropLast_concat]
      rw [htext, linesOf_append hnot, List.map_cons, removeLineEnd_concat, hdrop, hrest]

/-- A reader returns the lines of a file. -/
theorem reads_fileText (h : ∀ line ∈ lines, IsLine line) :
    Reads (BufferedReader.openFile .removeCrOrLf 256 (fileText option lines)) lines := by
  obtain ⟨read, hreads, -, hright⟩ := exists_reads (fileText option lines)
  rw [hright ((endsLines_fileText h).unbrokenFrom 256 0), map_removeLineEnd_fileText h] at hreads
  exact hreads

theorem isLine_joinString (hdelimiter : IsLine delimiter)
    (hrow : ∀ field ∈ row, IsLine field) : IsLine (joinString delimiter row) := by
  have hjoin (c : UInt8) (hc : c ∉ delimiter) (hfields : ∀ field ∈ row, c ∉ field) :
      c ∉ joinString delimiter row := by
    cases row with
    | nil => exact List.not_mem_nil
    | cons first rest =>
      rw [joinString, List.mem_append, List.mem_flatMap, not_or]
      refine ⟨hfields first List.mem_cons_self, ?_⟩
      rintro ⟨field, hmem, hc'⟩
      obtain hc' | hc' := List.mem_append.mp hc'
      · exact hc hc'
      · exact hfields field (List.mem_cons_of_mem first hmem) hc'
  exact ⟨hjoin _ hdelimiter.1 fun field hmem ↦ (hrow field hmem).1,
    hjoin _ hdelimiter.2 fun field hmem ↦ (hrow field hmem).2⟩

/-- Rows are written, and read back as they were; and then `ReadRows` returns false. -/
def RoundTrips (option : WriterOption) (delimiter : List UInt8)
    (rows : List (List (List UInt8))) : Prop :=
  ∃ written reader read last,
    writeCsv option delimiter rows = .finished written ∧
    CsvReader.openFile written.file delimiter 0 = .finished reader ∧
    CsvReader.readMany rows.length reader = .finished read ∧ read.read = rows ∧
    read.reader.readRows [] = .finished last ∧ last.returned = false

/-- `ReadRows` never returns false with an empty vector. -/
theorem not_roundTrips (option : WriterOption) (delimiter : List UInt8)
    (rows : List (List (List UInt8))) : ¬ RoundTrips option delimiter rows := by
  rintro ⟨_, _, _, last, -, -, -, -, hread, hreturned⟩
  rw [CsvReader.returned_readRows hread] at hreturned
  cases hreturned

theorem alwaysWrites_256 : AlwaysWrites ((256 : ℕ+) : ℕ) fun _ ↦ some 256 :=
  fun _ ↦ ⟨256, rfl, le_rfl⟩

/-- Assumes: fields and a delimiter without carriage returns and line feeds, and no newline that is
cut. As many rows are read as were written, and then `eof` is true. -/
theorem readMany_writeCsv (hdelimiter : IsLine delimiter) {rows : List (List (List UInt8))}
    (hrows : ∀ row ∈ rows, ∀ field ∈ row, IsLine field)
    (huncut : UncutFrom option 256 0 (rows.map (joinString delimiter))) :
    ∃ written reader read, writeCsv option delimiter rows = .finished written ∧
      CsvReader.openFile written.file delimiter 0 = .finished reader ∧
      CsvReader.readMany rows.length reader = .finished read ∧
      read.read = rows.map (fun row ↦ byteTokens delimiter (joinString delimiter row)) ∧
      read.reader.eof = true := by
  obtain ⟨written, hwritten, -, halways⟩ :=
    writeFile_iff option 256 (fun _ ↦ some 256) (rows.map (joinString delimiter))
  have hfile : written.file = fileText option (rows.map (joinString delimiter)) :=
    (halways alwaysWrites_256).mpr huncut
  have hlines : ∀ line ∈ rows.map (joinString delimiter), IsLine line := by
    intro line hmem
    obtain ⟨row, hrow, rfl⟩ := List.mem_map.mp hmem
    exact isLine_joinString hdelimiter (hrows row hrow)
  obtain ⟨next, hread, heof⟩ := CsvReader.readMany_of_reads
    (r := ⟨BufferedReader.openFile .removeCrOrLf 256 written.file, delimiter⟩)
    (hfile ▸ reads_fileText hlines)
  rw [List.length_map, List.map_map] at hread
  exact ⟨written, _, _, hwritten, rfl, hread, rfl, heof⟩

/-- For every option, delimiter and rows, `ReadRows` does not return false after the rows that were
written. If the delimiter and the fields have no carriage return and no line feed, and no newline is
cut, the rows are read back if and only if no field is empty or has a byte of the delimiter. -/
theorem csv_iff (option : WriterOption) {delimiter : List UInt8} (hne : delimiter ≠ [])
    (rows : List (List (List UInt8))) :
    ¬ RoundTrips option delimiter rows ∧
    (IsLine delimiter → (∀ row ∈ rows, ∀ field ∈ row, IsLine field) →
      UncutFrom option 256 0 (rows.map (joinString delimiter)) →
        ∃ written reader read, writeCsv option delimiter rows = .finished written ∧
          CsvReader.openFile written.file delimiter 0 = .finished reader ∧
          CsvReader.readMany rows.length reader = .finished read ∧ read.reader.eof = true ∧
          (read.read = rows ↔ ∀ row ∈ rows, ∀ field ∈ row, IsPlain delimiter field)) := by
  refine ⟨not_roundTrips option delimiter rows, fun hdelimiter hrows huncut ↦ ?_⟩
  obtain ⟨written, reader, read, hwritten, hopen, hmany, hread, heof⟩ :=
    readMany_writeCsv hdelimiter hrows huncut
  refine ⟨written, reader, read, hwritten, hopen, hmany, heof, ?_⟩
  calc read.read = rows
      ↔ rows.map (fun row ↦ byteTokens delimiter (joinString delimiter row)) = rows.map id := by
        rw [hread, List.map_id]
    _ ↔ ∀ row ∈ rows, byteTokens delimiter (joinString delimiter row) = row := List.map_inj_left
    _ ↔ ∀ row ∈ rows, ∀ field ∈ row, IsPlain delimiter field :=
        forall₂_congr fun row _ ↦ byteTokens_joinString_eq_iff hne row

/-- A row of two fields. -/
theorem csv_oneRow :
    ¬ RoundTrips .none [44] [[[49], [50]]] ∧
    ∃ written reader read, writeCsv .none [44] [[[49], [50]]] = .finished written ∧
      CsvReader.openFile written.file [44] 0 = .finished reader ∧
      CsvReader.readMany 1 reader = .finished read ∧ read.reader.eof = true ∧
      (read.read = [[[49], [50]]] ↔ ∀ row ∈ [[[49], [50]]], ∀ field ∈ row, IsPlain [44] field) := by
  have hne : [(44 : UInt8)] ≠ [] := by simp
  obtain ⟨hnot, hread⟩ := csv_iff .none hne [[[49], [50]]]
  refine ⟨hnot, hread ⟨by decide, by decide⟩ (fun row hrow field hfield ↦ ?_) ?_⟩
  · obtain rfl := List.mem_singleton.mp hrow
    obtain rfl | rfl : field = [49] ∨ field = [50] := by simpa using hfield
    · exact ⟨by decide, by decide⟩
    · exact ⟨by decide, by decide⟩
  · rw [List.map_singleton, uncutFrom_cons]
    exact ⟨fun hcut ↦ WriterOption.noConfusion hcut.1, uncutFrom_nil⟩

theorem csv_wrong :
    ¬ ∀ (option : WriterOption) (delimiter : List UInt8) (rows : List (List (List UInt8))),
      delimiter ≠ [] →
      (∀ row ∈ rows, row ≠ [] ∧ ∀ field ∈ row, ¬ delimiter <:+: field ∧ IsLine field) →
        RoundTrips option delimiter rows := by
  intro hall
  refine not_roundTrips .none [44] [[[49]]] (hall .none [44] [[[49]]] (by simp) fun row hrow ↦ ?_)
  obtain rfl := List.mem_singleton.mp hrow
  refine ⟨by simp, fun field hfield ↦ ?_⟩
  obtain rfl := List.mem_singleton.mp hfield
  exact ⟨by decide, by decide, by decide⟩

end Felicia
