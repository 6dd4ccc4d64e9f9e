import Felicia.Channel.WebSocketRequest
import Felicia.Support.Lists

/-!
# The grammar of a WebSocket request

What `HandshakeHandler::Parse` and `Validate` of `felicia/core/channel/socket/web_socket.cc` accept,
and the iterator ranges that `Parse` builds on the way. `Parse` looks for the two spaces of the
request line in the whole header, and for the end of the line separately. When the second space is
behind that end, the version is a range that ends before it begins.

`request_iff` says that the ranges are in order, and that exactly the requests of the grammar are
accepted, unless this happens.
-/

set_option autoImplicit false
set_option relaxedAutoImplicit false

namespace Felicia

open Support

/-! ### Ranges -/

/-- Where the tokens of a text are, from a position on; the current one began at another. -/
def tokenRanges (isDelimiter : Char → Bool) (start position : ℕ) : List Char → List (ℕ × ℕ)
  | [] => if start < position then [(start, position)] else []
  | c :: rest =>
    if isDelimiter c then
      (if start < position then [(start, position)] else []) ++
        tokenRanges isDelimiter (position + 1) (position + 1) rest
    else tokenRanges isDelimiter start (position + 1) rest

/-- The text of a range. -/
def slice (text : List Char) (range : ℕ × ℕ) : List Char :=
  (text.drop range.1).take (range.2 - range.1)

/-- The ranges of a line: itself, and its key and value if it has a colon. -/
def lineRanges (header : List Char) (line : ℕ × ℕ) : List (ℕ × ℕ) :=
  let colon := line.1 + (slice header line).findIdx (· = ':')
  line :: if colon = line.2 then [] else [(line.1, colon), (colon + 1, line.2)]

/-- The ranges that `Parse` builds, as far as it gets. Nothing follows one that is out of order. -/
def requestRanges (header : List Char) : List (ℕ × ℕ) :=
  let firstStatusLine := header.findIdx isLineEnd
  let method := header.takeWhile (· ≠ ' ')
  let uri := (header.drop (method.length + 1)).takeWhile (· ≠ ' ')
  let uriEnd := method.length + 1 + uri.length
  if firstStatusLine = header.length then []
  else (0, header.length) ::
    if method.length = header.length then []
    else (0, method.length) ::
      if !equalsCaseInsensitiveASCII method "GET" then []
      else (method.length + 1, header.length) ::
        if header.length ≤ uriEnd then []
        else (uriEnd + 1, firstStatusLine) ::
          if firstStatusLine < uriEnd + 1 then []
          else if !equalsCaseInsensitiveASCII ((header.take firstStatusLine).drop (uriEnd + 1))
            "HTTP/1.1" then []
          else (firstStatusLine + 1, header.length) ::
            (tokenRanges isLineEnd (firstStatusLine + 1) (firstStatusLine + 1)
              (header.drop (firstStatusLine + 1))).flatMap (lineRanges header)

/-- Every range is in order, and inside the header. -/
def HasOrderedRanges (header : List Char) : Prop :=
  ∀ range ∈ requestRanges header, range.1 ≤ range.2 ∧ range.2 ≤ header.length

/-! ### The grammar -/

/-- The names and values of the lines that have a colon. -/
def requestFields (lines : List (List Char)) : List (List Char × List Char) :=
  (lines.filter (·.contains ':')).map fun line ↦
    (trimWhitespaceASCII (line.takeWhile (· ≠ ':')),
      trimWhitespaceASCII ((line.dropWhile (· ≠ ':')).drop 1))

/-- The value of the last field of a name, or nothing. -/
def fieldValue (fields : List (List Char × List Char)) (name : String) : List Char :=
  ((fields.filter fun field ↦ equalsCaseInsensitiveASCII field.1 name).getLast?.map
    Prod.snd).getD []

/-- The fields that ask for an upgrade. -/
structure AsksForUpgrade (fields : List (List Char × List Char)) : Prop where
  connection : ∃ token ∈ stringTokens (· = ',') (fieldValue fields "connection"),
    equalsCaseInsensitiveASCII (trimWhitespaceASCII token) "upgrade" = true
  upgrade : equalsCaseInsensitiveASCII (fieldValue fields "upgrade") "websocket" = true
  version : equalsCaseInsensitiveASCII (fieldValue fields "sec-websocket-version") "13" = true
  key : fieldValue fields "sec-websocket-key" ≠ []

/-- A request line and what follows the byte that ends it. -/
structure HasRequestLine (header rest : List Char) (method target version : List Char) (c : Char) :
    Prop where
  header_eq : header = method ++ ' ' :: (target ++ ' ' :: (version ++ c :: rest))
  method_eq : equalsCaseInsensitiveASCII method "GET" = true
  target_not_mem : ' ' ∉ target
  target_line : ∀ d ∈ target, isLineEnd d = false
  version_eq : equalsCaseInsensitiveASCII version "HTTP/1.1" = true
  isLineEnd : isLineEnd c = true

/-- A request of the grammar. -/
def IsUpgrade (header : List Char) : Prop :=
  ∃ rest method target version c, HasRequestLine header rest method target version c ∧
    AsksForUpgrade (requestFields (stringTokens Felicia.isLineEnd rest))

/-- `Parse() && Validate()`. -/
def isAccepted (header : List Char) : Bool :=
  match parseRequest header with
  | .parsed headers => headers.validate
  | .undefined | .failed => false

/-- The line ends after `GET` and the first space, and a second space follows later. -/
def EndsBeforeSpace (header : List Char) : Prop :=
  ∃ method target rest, header = method ++ ' ' :: (target ++ ' ' :: rest) ∧
    equalsCaseInsensitiveASCII method "GET" = true ∧ ' ' ∉ target ∧
    ∃ c ∈ target, isLineEnd c = true

/-! ### Tokens -/

variable {isDelimiter : Char → Bool} {header rest : List Char}

theorem tokenRanges_mem {start position : ℕ} (hle : start ≤ position) {range : ℕ × ℕ}
    (h : range ∈ tokenRanges isDelimiter start position rest) :
    range.1 ≤ range.2 ∧ range.2 ≤ position + rest.length := by
  induction rest generalizing start position with
  | nil =>
    unfold tokenRanges at h
    split_ifs at h
    · cases List.mem_singleton.mp h
      exact ⟨hle, le_rfl⟩
    · cases h
  | cons c rest ih =>
    rw [List.length_cons]
    unfold tokenRanges at h
    split_ifs at h
    · obtain h | h := List.mem_append.mp h
      · cases List.mem_singleton.mp h
        exact ⟨hle, by omega⟩
      · have hrange := ih le_rfl h
        omega
    · have hrange := ih le_rfl h
      omega
    · have hrange := ih (by omega) h
      omega

theorem stringTokens_of_not_any {token : List Char} (h : ∀ c ∈ token, isDelimiter c = false) :
    stringTokens isDelimiter token = if token = [] then [] else [token] := by
  rw [stringTokens, List.splitOnP_eq_singleton h]
  split_ifs with hnil <;> simp [hnil]

theorem stringTokens_append {token : List Char} (h : ∀ c ∈ token, isDelimiter c = false) {c : Char}
    (hc : isDelimiter c = true) (rest : List Char) :
    stringTokens isDelimiter (token ++ c :: rest) =
      (if token = [] then [] else [token]) ++ stringTokens isDelimiter rest := by
  rw [stringTokens, List.splitOnP_append_cons_of_forall_mem h c hc, List.filter_cons]
  split_ifs with hne hnil <;> simp_all [stringTokens]

theorem map_slice_range {text before token : List Char} (htext : text = before ++ (token ++ rest)) :
    (if before.length < before.length + token.length then
      [(before.length, before.length + token.length)] else []).map (slice text) =
        if token = [] then [] else [token] := by
  have hslice : slice text (before.length, before.length + token.length) = token := by
    rw [slice, htext, List.drop_left, Nat.add_sub_cancel_left, List.take_left]
  cases token with
  | nil => simp
  | cons c token =>
    rw [if_pos (by simp), List.map_singleton, hslice, if_neg (by simp)]

/-- The tokens are what is at their ranges. -/
theorem map_slice_tokenRanges {text before token : List Char}
    (htext : text = before ++ (token ++ rest)) (h : ∀ c ∈ token, isDelimiter c = false) :
    (tokenRanges isDelimiter before.length (before.length + token.length) rest).map (slice text) =
      stringTokens isDelimiter (token ++ rest) := by
  induction rest generalizing before token with
  | nil =>
    rw [tokenRanges, map_slice_range htext, List.append_nil, stringTokens_of_not_any h]
  | cons c rest ih =>
    rw [tokenRanges]
    by_cases hc : isDelimiter c = true
    · have htext' : text = (before ++ token ++ [c]) ++ ([] ++ rest) := by
        simp [htext]
      have hrest := ih htext' (List.forall_mem_nil _)
      have hlength : (before ++ token ++ [c]).length = before.length + token.length + 1 := by
        simp [Nat.add_assoc]
      rw [hlength, List.length_nil, Nat.add_zero, List.nil_append] at hrest
      rw [if_pos hc, List.map_append, map_slice_range htext, hrest, stringTokens_append h hc]
    · have htext' : text = before ++ ((token ++ [c]) ++ rest) := by
        simp [htext]
      have hnot : ∀ d ∈ token ++ [c], isDelimiter d = false :=
        List.forall_mem_append.mpr ⟨h, by simpa using hc⟩
      have hrest := ih htext' hnot
      rw [List.length_append, List.length_singleton, ← Nat.add_assoc] at hrest
      rw [if_neg hc, hrest, List.append_assoc, List.singleton_append]

/-! ### Requests -/

variable {method target : List Char}

/-- A method that is `GET` has no space and does not end the line. -/
theorem forall_mem_of_method (h : equalsCaseInsensitiveASCII method "GET" = true) :
    ∀ c ∈ method, c ≠ ' ' ∧ isLineEnd c = false := by
  intro c hc
  have hmem : c.toLower ∈ toLowerASCII "GET".toList := by
    rw [← eq_of_beq h]
    exact List.mem_map_of_mem hc
  have hne (d : Char) (hd : d.toLower = d) (hnot : d ∉ toLowerASCII "GET".toList) : c ≠ d := by
    rintro rfl
    rw [hd] at hmem
    exact hnot hmem
  refine ⟨hne ' ' (by decide) (by decide), ?_⟩
  rw [isLineEnd, Bool.or_eq_false_iff, decide_eq_false_iff_not, decide_eq_false_iff_not]
  exact ⟨hne _ (by decide) (by decide), hne _ (by decide) (by decide)⟩

theorem lineRanges_ordered {line range : ℕ × ℕ} (hline : line.1 ≤ line.2 ∧ line.2 ≤ header.length)
    (h : range ∈ lineRanges header line) : range.1 ≤ range.2 ∧ range.2 ≤ header.length := by
  have hle : (slice header line).findIdx (· = ':') ≤ line.2 - line.1 := by
    refine List.findIdx_le_length.trans ?_
    rw [slice, List.length_take]
    exact Nat.min_le_left _ _
  unfold lineRanges at h
  dsimp only at h
  split_ifs at h with hcolon
  · cases List.mem_singleton.mp h
    exact hline
  · simp only [List.mem_cons, List.not_mem_nil, or_false] at h
    obtain rfl | rfl | rfl := h
    · exact hline
    · dsimp only
      omega
    · dsimp only
      omega

/-- The ranges are in order exactly when the version does not end before it begins. -/
theorem hasOrderedRanges_iff (header : List Char) :
    HasOrderedRanges header ↔ parseRequest header ≠ .undefined := by
  have hfirst : header.findIdx isLineEnd ≤ header.length := List.findIdx_le_length
  have hmethod : (header.takeWhile (· ≠ ' ')).length ≤ header.length :=
    (List.takeWhile_sublist _).length_le
  unfold HasOrderedRanges requestRanges parseRequest
  dsimp only
  split_ifs with hline hspace hget huri hversion hhttp
  · simp
  · simp
  · simpa using hmethod
  · simp only [List.forall_mem_cons, List.not_mem_nil, false_implies, implies_true, and_true]
    refine iff_of_true ⟨by omega, by omega, by omega⟩ (by simp)
  · simp only [List.forall_mem_cons, List.not_mem_nil, false_implies, implies_true, and_true]
    refine iff_of_false (fun hordered ↦ ?_) (by simp)
    omega
  · simp only [List.forall_mem_cons, List.not_mem_nil, false_implies, implies_true, and_true]
    refine iff_of_true ⟨by omega, by omega, by omega, by omega⟩ (by simp)
  · simp only [List.forall_mem_cons]
    refine iff_of_true ⟨by omega, by omega, by omega, by omega, by omega, fun range hrange ↦ ?_⟩
      (by simp)
    obtain ⟨line, htoken, hmem⟩ := List.mem_flatMap.mp hrange
    have hordered := tokenRanges_mem le_rfl htoken
    rw [List.length_drop] at hordered
    exact lineRanges_ordered ⟨hordered.1, by omega⟩ hmem

/-- A header with a method that is `GET` and two spaces. -/
structure IsCut (header method target tail : List Char) : Prop where
  header_eq : header = method ++ ' ' :: (target ++ ' ' :: tail)
  method_eq : equalsCaseInsensitiveASCII method "GET" = true
  target_not_mem : ' ' ∉ target

namespace IsCut

variable {tail version : List Char} {c : Char}

theorem takeWhile_header (h : IsCut header method target tail) :
    header.takeWhile (· ≠ ' ') = method := by
  rw [h.header_eq, takeWhile_cut fun hmem ↦ (forall_mem_of_method h.method_eq _ hmem).1 rfl]

theorem takeWhile_uri (h : IsCut header method target tail) :
    (header.drop (method.length + 1)).takeWhile (· ≠ ' ') = target := by
  rw [h.header_eq, List.drop_append, List.drop_eq_nil_of_le (by omega), Nat.add_sub_cancel_left,
    List.nil_append, List.drop_succ_cons, List.drop_zero, takeWhile_cut h.target_not_mem]

theorem length_header (h : IsCut header method target tail) :
    header.length = method.length + 1 + target.length + 1 + tail.length := by
  rw [h.header_eq]
  simp only [List.length_append, List.length_cons]
  omega

theorem findIdx_header (h : IsCut header method target tail) :
    header.findIdx isLineEnd = method.length + 1 + (target ++ ' ' :: tail).findIdx isLineEnd := by
  have hspace : isLineEnd ' ' = false := by decide
  have hnot : ∀ d ∈ method ++ [' '], isLineEnd d = false :=
    List.forall_mem_append.mpr ⟨fun d hd ↦ (forall_mem_of_method h.method_eq d hd).2,
      fun d hd ↦ (List.mem_singleton.mp hd) ▸ hspace⟩
  have hlength := List.findIdx_eq_length_of_false hnot
  rw [h.header_eq, List.append_cons, List.findIdx_append, if_neg (by omega),
    List.length_append, List.length_singleton, Nat.add_comm]

/-- The line ends in the target. -/
theorem parseRequest_of_line (h : IsCut header method target tail)
    (hline : ∃ d ∈ target, isLineEnd d = true) : parseRequest header = .undefined := by
  have hlt := List.findIdx_lt_length_of_exists hline
  have hfirst := h.findIdx_header
  rw [List.findIdx_append, if_pos hlt] at hfirst
  have hlength := h.length_header
  unfold parseRequest
  simp only [h.takeWhile_header, h.takeWhile_uri, h.method_eq]
  rw [if_neg (by omega), if_neg (by omega), if_neg (by decide), if_neg (by omega),
    if_pos (by omega)]

/-- The line does not end. -/
theorem parseRequest_of_no_line (h : IsCut header method target tail)
    (htarget : ∀ d ∈ target, isLineEnd d = false) (htail : ∀ d ∈ tail, isLineEnd d = false) :
    parseRequest header = .failed := by
  have hnot : ∀ d ∈ target ++ ' ' :: tail, isLineEnd d = false :=
    List.forall_mem_append.mpr ⟨htarget, List.forall_mem_cons.mpr ⟨by decide, htail⟩⟩
  have hfirst := h.findIdx_header
  have hlength := h.length_header
  rw [List.findIdx_eq_length_of_false hnot, List.length_append, List.length_cons] at hfirst
  unfold parseRequest
  exact if_pos (by omega)

/-- The line ends after the second space. -/
theorem parseRequest_of_version (h : IsCut header method target (version ++ c :: rest))
    (htarget : ∀ d ∈ target, isLineEnd d = false)
    (hversion : ∀ d ∈ version, isLineEnd d = false) (hc : isLineEnd c = true) :
    parseRequest header =
      if equalsCaseInsensitiveASCII version "HTTP/1.1" then
        .parsed ((stringTokens isLineEnd rest).foldl HttpHeaders.addLine FlatMap.empty)
      else .failed := by
  have hnot : ∀ d ∈ target ++ ' ' :: version, isLineEnd d = false :=
    List.forall_mem_append.mpr ⟨htarget, List.forall_mem_cons.mpr ⟨by decide, hversion⟩⟩
  have hfirst : header.findIdx isLineEnd = method.length + 1 + target.length + 1 +
      version.length := by
    rw [h.findIdx_header, ← List.cons_append, ← List.append_assoc, List.findIdx_append,
      List.findIdx_eq_length_of_false hnot, if_neg (lt_irrefl _), List.findIdx_cons, hc,
      List.length_append, List.length_cons]
    simp only [cond_true]
    omega
  have hlength := h.length_header
  rw [List.length_append, List.length_cons] at hlength
  have hheader : header = (method ++ ' ' :: target ++ [' ']) ++ (version ++ c :: rest) := by
    simp [h.header_eq]
  have hbefore : (method ++ ' ' :: target ++ [' ']).length =
      method.length + 1 + target.length + 1 := by
    simp only [List.length_append, List.length_cons, List.length_nil]
    omega
  have hcut : (header.take (header.findIdx isLineEnd)).drop
      (method.length + 1 + target.length + 1) = version := by
    rw [List.drop_take, hfirst, hheader, ← hbefore, List.drop_left, Nat.add_sub_cancel_left,
      List.take_left]
  have hrest : header.drop (header.findIdx isLineEnd + 1) = rest := by
    rw [hfirst, Nat.add_assoc, hheader, ← hbefore, List.drop_append,
      List.drop_eq_nil_of_le (by omega), Nat.add_sub_cancel_left, List.nil_append, List.drop_append,
      List.drop_eq_nil_of_le (by omega), Nat.add_sub_cancel_left]
    rfl
  unfold parseRequest
  simp only [h.takeWhile_header, h.takeWhile_uri, h.method_eq, hcut, hrest]
  rw [if_neg (by omega), if_neg (by omega), if_neg (by decide), if_neg (by omega),
    if_neg (by omega)]
  cases equalsCaseInsensitiveASCII version "HTTP/1.1" <;> rfl

end IsCut

/-- A header of another form is not parsed. -/
theorem parseRequest_of_not_cut (h : ¬ ∃ method target tail, IsCut header method target tail) :
    parseRequest header = .failed := by
  obtain hnot | ⟨method, rest, rfl, hmethod⟩ := mem_or_cut ' ' header
  · unfold parseRequest
    dsimp only
    rw [takeWhile_of_not_mem hnot, if_pos rfl, ite_self]
  · unfold parseRequest
    simp only [takeWhile_cut hmethod]
    cases hget : equalsCaseInsensitiveASCII method "GET" with
    | false => simp
    | true =>
      obtain hnot | ⟨target, tail, rfl, htarget⟩ := mem_or_cut ' ' rest
      · have hdrop : (method ++ ' ' :: rest).drop (method.length + 1) = rest := by
          rw [List.drop_append, List.drop_eq_nil_of_le (by omega), Nat.add_sub_cancel_left]
          rfl
        have hlength : (method ++ ' ' :: rest).length ≤ method.length + 1 + rest.length := by
          simp only [List.length_append, List.length_cons]
          omega
        rw [hdrop, takeWhile_of_not_mem hnot, if_pos hlength]
        simp
      · exact absurd ⟨method, target, tail, rfl, hget, htarget⟩ h

/-! ### Fields -/

theorem equalsCaseInsensitiveASCII_iff {name : List Char} {key : String}
    (hkey : toLowerASCII key.toList = key.toList) :
    equalsCaseInsensitiveASCII name key = true ↔ key = String.ofList (toLowerASCII name) := by
  rw [equalsCaseInsensitiveASCII, beq_iff_eq, hkey, ← String.toList_inj, String.toList_ofList,
    eq_comm]

theorem get_addLine {key : String} (hkey : toLowerASCII key.toList = key.toList)
    (headers : HttpHeaders) (line : List Char) :
    (headers.addLine line).get key =
      (((requestFields [line]).filter fun field ↦
        equalsCaseInsensitiveASCII field.1 key).getLast?.map
          (String.ofList ·.2)).getD (headers.get key) := by
  unfold HttpHeaders.addLine requestFields
  cases hcolon : line.contains ':' with
  | false =>
    simp only [List.filter_cons, hcolon, List.filter_nil, Bool.false_eq_true, if_false,
      List.map_nil]
    rfl
  | true =>
    simp only [if_true, List.filter_cons, hcolon, List.filter_nil, List.map_singleton]
    rw [HttpHeaders.get, FlatMap.find_insertOrAssign]
    split_ifs with hname hnot hnot
    · rfl
    · exact absurd ((equalsCaseInsensitiveASCII_iff hkey).mpr hname) hnot
    · exact absurd ((equalsCaseInsensitiveASCII_iff hkey).mp hnot) hname
    · rfl

theorem requestFields_cons (line : List Char) (lines : List (List Char)) :
    requestFields (line :: lines) = requestFields [line] ++ requestFields lines := by
  rw [requestFields, requestFields, requestFields, ← List.map_append, ← List.filter_append,
    List.singleton_append]

/-- Assumes: a name in lower case. What is kept under it is the value of its last field. -/
theorem get_foldl_addLine {key : String} (hkey : toLowerASCII key.toList = key.toList)
    (lines : List (List Char)) (headers : HttpHeaders) :
    (lines.foldl HttpHeaders.addLine headers).get key =
      (((requestFields lines).filter fun field ↦
        equalsCaseInsensitiveASCII field.1 key).getLast?.map
          (String.ofList ·.2)).getD (headers.get key) := by
  induction lines generalizing headers with
  | nil => rfl
  | cons line lines ih =>
    rw [List.foldl_cons, ih, get_addLine hkey, requestFields_cons line lines, List.filter_append,
      List.getLast?_append]
    cases ((requestFields lines).filter fun field ↦
      equalsCaseInsensitiveASCII field.1 key).getLast? with
    | none => rfl
    | some field => rfl

theorem toList_get_foldl_addLine {key : String} (hkey : toLowerASCII key.toList = key.toList)
    (lines : List (List Char)) :
    ((lines.foldl HttpHeaders.addLine FlatMap.empty).get key).toList =
      fieldValue (requestFields lines) key := by
  rw [get_foldl_addLine hkey, fieldValue]
  cases ((requestFields lines).filter fun field ↦
    equalsCaseInsensitiveASCII field.1 key).getLast? with
  | none => rfl
  | some field => simp

theorem validate_iff (lines : List (List Char)) :
    (lines.foldl HttpHeaders.addLine FlatMap.empty).validate = true ↔
      AsksForUpgrade (requestFields lines) := by
  have hkey := @toList_get_foldl_addLine "sec-websocket-key" (by decide +kernel) lines
  have hne : (lines.foldl HttpHeaders.addLine FlatMap.empty).get "sec-websocket-key" ≠ "" ↔
      fieldValue (requestFields lines) "sec-websocket-key" ≠ [] := by
    rw [← hkey, ne_eq, ne_eq, String.toList_eq_nil_iff]
  unfold HttpHeaders.validate
  rw [toList_get_foldl_addLine (by decide +kernel), toList_get_foldl_addLine (by decide +kernel),
    toList_get_foldl_addLine (by decide +kernel)]
  simp only [Bool.and_eq_true, List.any_eq_true, decide_eq_true_eq, hne]
  constructor
  · rintro ⟨⟨⟨hconnection, hupgrade⟩, hversion⟩, hkey⟩
    exact ⟨hconnection, hupgrade, hversion, hkey⟩
  · rintro ⟨hconnection, hupgrade, hversion, hkey⟩
    exact ⟨⟨⟨hconnection, hupgrade⟩, hversion⟩, hkey⟩

/-! ### Acceptance -/

/-- A request line is where the header is cut. -/
theorem HasRequestLine.isCut {version : List Char} {c : Char}
    (h : HasRequestLine header rest method target version c) :
    IsCut header method target (version ++ c :: rest) :=
  ⟨h.header_eq, h.method_eq, h.target_not_mem⟩

/-- A header is cut in one way. -/
theorem IsCut.unique {tail method' target' tail' : List Char}
    (h : IsCut header method target tail) (h' : IsCut header method' target' tail') :
    method = method' ∧ target = target' ∧ tail = tail' := by
  have hmethod := h.takeWhile_header.symm.trans h'.takeWhile_header
  subst hmethod
  have htarget := h.takeWhile_uri.symm.trans h'.takeWhile_uri
  subst htarget
  have heq := h.header_eq.symm.trans h'.header_eq
  simpa using heq

/-- A version that is `HTTP/1.1` does not end the line. -/
theorem forall_mem_of_version {version : List Char}
    (h : equalsCaseInsensitiveASCII version "HTTP/1.1" = true) :
    ∀ c ∈ version, isLineEnd c = false := by
  intro c hc
  have hmem : c.toLower ∈ toLowerASCII "HTTP/1.1".toList := by
    rw [← eq_of_beq h]
    exact List.mem_map_of_mem hc
  cases hend : isLineEnd c with
  | false => rfl
  | true =>
    rw [isLineEnd, Bool.or_eq_true, decide_eq_true_eq, decide_eq_true_eq] at hend
    obtain rfl | rfl := hend <;> exact absurd hmem (by decide +kernel)

/-- Exactly the requests of the grammar are accepted, as far as the code has a meaning. -/
theorem isAccepted_iff (header : List Char) : isAccepted header = true ↔ IsUpgrade header := by
  unfold isAccepted
  by_cases hcut : ∃ method target tail, IsCut header method target tail
  · obtain ⟨method, target, tail, hcut⟩ := hcut
    obtain htarget | ⟨before, c, rest, htarget, hc, -⟩ := any_or_cut isLineEnd target
    · obtain htail | ⟨version, c, rest, rfl, hc, hversion⟩ := any_or_cut isLineEnd tail
      · rw [hcut.parseRequest_of_no_line htarget htail]
        refine iff_of_false Bool.false_ne_true ?_
        rintro ⟨rest, method', target', version, c, hline, -⟩
        obtain ⟨-, -, rfl⟩ := hcut.unique hline.isCut
        exact absurd hline.isLineEnd (by simp [htail c (by simp)])
      · rw [hcut.parseRequest_of_version htarget hversion hc]
        constructor
        · intro haccepted
          split_ifs at haccepted with hhttp
          exact ⟨rest, method, target, version, c, ⟨hcut.header_eq, hcut.method_eq,
            hcut.target_not_mem, htarget, hhttp, hc⟩, (validate_iff _).mp haccepted⟩
        · rintro ⟨rest', method', target', version', c', hline, hasks⟩
          obtain ⟨-, -, htail⟩ := hcut.unique hline.isCut
          obtain ⟨rfl, rfl, rfl⟩ := cut_unique htail hc hline.isLineEnd hversion
            (forall_mem_of_version hline.version_eq)
          rw [if_pos hline.version_eq]
          exact (validate_iff _).mpr hasks
    · have hmem : c ∈ target := htarget ▸ by simp
      rw [hcut.parseRequest_of_line ⟨c, hmem, hc⟩]
      refine iff_of_false Bool.false_ne_true ?_
      rintro ⟨rest, method', target', version, c', hline, -⟩
      obtain ⟨-, rfl, -⟩ := hcut.unique hline.isCut
      exact absurd hc (by simp [hline.target_line c hmem])
  · rw [parseRequest_of_not_cut hcut]
    refine iff_of_false Bool.false_ne_true ?_
    rintro ⟨rest, method, target, version, c, hline, -⟩
    exact hcut ⟨method, target, _, hline.isCut⟩

theorem undefined_iff (header : List Char) :
    parseRequest header = .undefined ↔ EndsBeforeSpace header := by
  constructor
  · intro hundefined
    by_cases hcut : ∃ method target tail, IsCut header method target tail
    · obtain ⟨method, target, tail, hcut⟩ := hcut
      obtain htarget | ⟨before, c, rest, htarget, hc, -⟩ := any_or_cut isLineEnd target
      · obtain htail | ⟨version, c, rest, rfl, hc, hversion⟩ := any_or_cut isLineEnd tail
        · rw [hcut.parseRequest_of_no_line htarget htail] at hundefined
          cases hundefined
        · rw [hcut.parseRequest_of_version htarget hversion hc] at hundefined
          split_ifs at hundefined
      · exact ⟨method, target, tail, hcut.header_eq, hcut.method_eq, hcut.target_not_mem, c,
          htarget ▸ by simp, hc⟩
    · rw [parseRequest_of_not_cut hcut] at hundefined
      cases hundefined
  · rintro ⟨method, target, rest, hheader, hmethod, htarget, hline⟩
    exact IsCut.parseRequest_of_line ⟨hheader, hmethod, htarget⟩ hline

/-- Whatever was received: the ranges that are built are in order and exactly the requests of the
grammar are accepted, if and only if the line does not end between the two spaces that are found. -/
theorem request_iff (header : List Char) :
    (HasOrderedRanges header ∧ (isAccepted header = true ↔ IsUpgrade header)) ↔
      ¬ EndsBeforeSpace header := by
  rw [hasOrderedRanges_iff, ne_eq, undefined_iff, and_iff_left (isAccepted_iff header)]

/-- The target of a request without a version goes on into the next line. -/
theorem request_wrong :
    ¬ ∀ header : List Char,
      HasOrderedRanges header ∧ (isAccepted header = true ↔ IsUpgrade header) := by
  intro hall
  obtain ⟨hordered, -⟩ := hall "GET /\r\nHost: localhost\r\n\r\n".toList
  have hmem : (13, 5) ∈ requestRanges "GET /\r\nHost: localhost\r\n\r\n".toList := by
    decide +kernel
  exact absurd (hordered _ hmem).1 (by decide)

end Felicia
