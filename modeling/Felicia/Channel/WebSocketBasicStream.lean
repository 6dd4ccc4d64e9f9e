import Felicia.Channel.Socket
import Felicia.Channel.WebSocketChannel
import Felicia.Channel.WebSocketFrameStream
import Felicia.Support.Checked

/-!
# Frames that are read from a connection

The reading side of `WebSocketBasicStream` of
`felicia/core/channel/socket/web_socket_basic_stream.cc`: what is read from a connection is parsed,
and the chunks of it are made frames again. A control frame is handed on whole, and another one in
pieces as it comes: the first piece has the opcode and the reserved bits of the frame, the others
continue it, and only the last may be the last of the message.

Where a `DCHECK` or `CHECK` fails or a null pointer is followed, the model stops. `serve_isChecked`
says that this never happens, whatever the peer sends.
-/

set_option autoImplicit false
set_option relaxedAutoImplicit false

namespace Felicia

open Support WebSocketFrameHeader

/-! ### Chunks and frames -/

/-- `net::WebSocketFrame`. A frame without data has a null pointer. -/
structure WebSocketFrame where
  header : WebSocketFrameHeader
  data : List UInt8 := []
  deriving DecidableEq, Repr

/-- `net::ERR_WS_PROTOCOL_ERROR`. -/
def errWsProtocolError : ℤ := -145

/-- `WebSocketErrorToNetError`, with `net::ERR_MSG_TOO_BIG`. -/
def webSocketErrorToNetError : WebSocketError → ℤ
  | .normalClosure => 0
  | .protocolError => errWsProtocolError
  | .messageTooBig => -142

/-- `kMaxControlFramePayload`. -/
def kMaxControlFramePayload : ℕ := 125

/-- The members of `WebSocketBasicStream` that chunks are converted with. -/
structure FrameConversion where
  currentFrameHeader : Option WebSocketFrameHeader := none
  /-- The bytes before the offset of `incomplete_control_frame_body_`. -/
  incompleteControlFrameBody : Option (List UInt8) := none
  deriving DecidableEq, Repr

/-- The header of a frame whose first piece was handed on. -/
def WebSocketFrameHeader.continued (header : WebSocketFrameHeader) : WebSocketFrameHeader :=
  if isKnownDataOpCode header.opcode then
    { header with
      opcode := kOpCodeContinuation, reserved1 := false, reserved2 := false, reserved3 := false }
  else header

/-- A frame with some of the data behind a header. -/
def framePiece (header : WebSocketFrameHeader) (final : Bool) (data : List UInt8) :
    WebSocketFrame where
  header := { header with final := final, payloadLength := data.length }
  data := data

/-- A frame tells something: it has data, or is the last of a message, or the first. -/
def isUseful (header : WebSocketFrameHeader) (final : Bool) (data : List UInt8) : Bool :=
  final || !data.isEmpty || header.opcode != kOpCodeContinuation

namespace FrameConversion

/-- `CreateFrame`, for the current header. -/
def createFrame (s : FrameConversion) (header : WebSocketFrameHeader) (isFinalChunk : Bool)
    (data : List UInt8) : FrameConversion × Option WebSocketFrame :=
  let isFinalChunkInMessage := isFinalChunk && header.final
  if isUseful header isFinalChunkInMessage data then
    ({ s with currentFrameHeader := if isFinalChunk then none else some header.continued },
      some (framePiece header isFinalChunkInMessage data))
  else ({ s with currentFrameHeader := if isFinalChunk then none else some header }, none)

/-- `AddToIncompleteControlFrameBody`, to a body that was begun. -/
def addToIncompleteControlFrameBody (s : FrameConversion) (body data : List UInt8) :
    Checked FrameConversion ℤ (List UInt8) :=
  if body.length + data.length ≤ kMaxControlFramePayload then
    .ok { s with incompleteControlFrameBody := some (body ++ data) } (body ++ data)
  else .aborted

/-- The header that `ConvertChunkToFrame` goes on with. -/
def chunkHeader (s : FrameConversion) (chunk : WebSocketFrameChunk) :
    Option WebSocketFrameHeader :=
  match chunk.header with
  | none => s.currentFrameHeader
  | some header => if s.currentFrameHeader.isSome then none else some header

/-- The end of `ConvertChunkToFrame`. -/
def convertData (s : FrameConversion) (header : WebSocketFrameHeader)
    (chunk : WebSocketFrameChunk) : Checked FrameConversion ℤ (Option WebSocketFrame) :=
  if chunk.data.length ≤ header.payloadLength ∧
      (chunk.header.isSome → chunk.finalChunk → header.payloadLength = chunk.data.length) then
    .ok (s.createFrame header chunk.finalChunk chunk.data).1
      (s.createFrame header chunk.finalChunk chunk.data).2
  else .aborted

/-- `ConvertChunkToFrame`, for a control frame that is not refused. -/
def convertControl (s : FrameConversion) (header : WebSocketFrameHeader)
    (chunk : WebSocketFrameChunk) : Checked FrameConversion ℤ (Option WebSocketFrame) :=
  if !chunk.finalChunk then
    (s.addToIncompleteControlFrameBody (s.incompleteControlFrameBody.getD []) chunk.data).map
      fun _ ↦ none
  else
    match s.incompleteControlFrameBody with
    | none => s.convertData header chunk
    | some body =>
      (s.addToIncompleteControlFrameBody body chunk.data).andThen fun next body ↦
        if body.length = header.payloadLength then
          let (next, frame) := { next with incompleteControlFrameBody := none }.createFrame header
            chunk.finalChunk body
          .ok next frame
        else .aborted

/-- `ConvertChunkToFrame`. -/
def convertChunkToFrame (s : FrameConversion) (chunk : WebSocketFrameChunk) :
    Checked FrameConversion ℤ (Option WebSocketFrame) :=
  match s.chunkHeader chunk with
  | none => .aborted
  | some header =>
    if isKnownControlOpCode header.opcode then
      if !header.final || header.payloadLength > kMaxControlFramePayload then
        .failed { s with currentFrameHeader := none } errWsProtocolError
      else { s with currentFrameHeader := some header }.convertControl header chunk
    else { s with currentFrameHeader := some header }.convertData header chunk

/-- The loop of `ConvertChunksToFrames`. -/
def convertChunks (s : FrameConversion) (chunks : List WebSocketFrameChunk) :
    Checked FrameConversion ℤ (List WebSocketFrame) :=
  Checked.collect (fun s chunk ↦ (s.convertChunkToFrame chunk).map Option.toList) s chunks

end FrameConversion

/-! ### What is delivered of a frame -/

/-- The pieces of a frame with the payload in parts, up to its end or not. -/
def deliver : WebSocketFrameHeader → Bool → List (List UInt8) → List WebSocketFrame
  | _, _, [] => []
  | header, ended, part :: rest =>
    framePiece header (rest.isEmpty && (ended && header.final)) part ::
      deliver header.continued ended rest

/-- What is handed on of a frame that is not a control frame: its payload in parts, none of them
without use. Nothing is handed on of a frame that tells nothing. -/
structure DeliveredAs (header : WebSocketFrameHeader) (ended : Bool) (payload : List UInt8)
    (parts : List (List UInt8)) : Prop where
  flatten : parts.flatten = payload
  useful : ∀ piece ∈ deliver header ended parts,
    isUseful piece.header piece.header.final piece.data = true
  silent : parts = [] → isUseful header (ended && header.final) payload = false

namespace WebSocketFrameHeader

variable {header : WebSocketFrameHeader}

theorem continued_continued (header : WebSocketFrameHeader) :
    header.continued.continued = header.continued := by
  unfold continued
  split_ifs <;> rfl

@[simp] theorem continued_final (header : WebSocketFrameHeader) :
    header.continued.final = header.final := by
  unfold continued
  split_ifs <;> rfl

@[simp] theorem continued_payloadLength (header : WebSocketFrameHeader) :
    header.continued.payloadLength = header.payloadLength := by
  unfold continued
  split_ifs <;> rfl

theorem isKnownControlOpCode_continued (h : isKnownControlOpCode header.opcode = false) :
    isKnownControlOpCode header.continued.opcode = false := by
  unfold continued
  split_ifs
  · rfl
  · exact h

end WebSocketFrameHeader

namespace FrameConversion

variable {s : FrameConversion} {header : WebSocketFrameHeader} {payload : List UInt8}
  {chunks : List WebSocketFrameChunk} {ended : Bool}

/-- Assumes: a chunk that makes no frame or one. -/
theorem convertChunks_cons {chunk : WebSocketFrameChunk} {next : FrameConversion}
    {frame : Option WebSocketFrame} (h : s.convertChunkToFrame chunk = .ok next frame) :
    s.convertChunks (chunk :: chunks) =
      (next.convertChunks chunks).map (frame.toList ++ ·) := by
  rw [convertChunks, Checked.collect, h]
  rfl

theorem convertData_eq {chunk : WebSocketFrameChunk}
    (hlength : chunk.data.length ≤ header.payloadLength)
    (hwhole : chunk.header.isSome → chunk.finalChunk →
      header.payloadLength = chunk.data.length) :
    s.convertData header chunk =
      .ok (s.createFrame header chunk.finalChunk chunk.data).1
        (s.createFrame header chunk.finalChunk chunk.data).2 := if_pos ⟨hlength, hwhole⟩

/-- A chunk that is not of a control frame. -/
theorem convertChunkToFrame_of_data {chunk : WebSocketFrameChunk}
    (hheader : s.chunkHeader chunk = some header)
    (hopcode : isKnownControlOpCode header.opcode = false)
    (hlength : chunk.data.length ≤ header.payloadLength)
    (hwhole : chunk.header.isSome → chunk.finalChunk →
      header.payloadLength = chunk.data.length) :
    s.convertChunkToFrame chunk =
      .ok (s.createFrame header chunk.finalChunk chunk.data).1
        (s.createFrame header chunk.finalChunk chunk.data).2 := by
  unfold convertChunkToFrame
  rw [hheader]
  simp only [hopcode, convertData_eq hlength hwhole]
  rfl

theorem createFrame_of_useful {isFinalChunk : Bool} {data : List UInt8}
    (h : isUseful header (isFinalChunk && header.final) data = true) :
    s.createFrame header isFinalChunk data =
      ({ s with currentFrameHeader := if isFinalChunk then none else some header.continued },
        some (framePiece header (isFinalChunk && header.final) data)) := if_pos h

theorem createFrame_of_not_useful {isFinalChunk : Bool} {data : List UInt8}
    (h : isUseful header (isFinalChunk && header.final) data = false) :
    s.createFrame header isFinalChunk data =
      ({ s with currentFrameHeader := if isFinalChunk then none else some header }, none) :=
  if_neg (Bool.not_eq_true _ ▸ h)

theorem isUseful_of_ne_nil {final : Bool} {data : List UInt8} (h : data ≠ []) :
    isUseful header final data = true := by
  cases data with
  | nil => exact absurd rfl h
  | cons b data => simp [isUseful]

/-- Assumes: the rest of a frame that is not a control frame. A piece is handed on for each chunk. -/
theorem convertChunks_continues (h : Continues ended payload chunks)
    (hopcode : isKnownControlOpCode header.opcode = false)
    (hlength : payload.length ≤ header.payloadLength)
    (hheader : s.currentFrameHeader = some header) :
    ∃ parts, parts.flatten = payload ∧ (∀ part ∈ parts, part ≠ []) ∧ (ended = true → parts ≠ []) ∧
      s.convertChunks chunks =
        .ok { s with
            currentFrameHeader :=
              if ended then none else some (if parts = [] then header else header.continued) }
          (deliver header ended parts) := by
  induction h generalizing s header with
  | nil =>
    refine ⟨[], rfl, by simp, by simp, ?_⟩
    obtain ⟨current, body⟩ := s
    cases hheader
    rfl
  | @last data hdata =>
    have hchunk : s.chunkHeader { finalChunk := true, data := data } = some header := hheader
    have huseful : isUseful header (true && header.final) data = true := isUseful_of_ne_nil hdata
    have hconvert := convertChunkToFrame_of_data hchunk hopcode hlength (fun hsome ↦ by cases hsome)
    rw [createFrame_of_useful huseful] at hconvert
    refine ⟨[data], by simp, by simpa using hdata, by simp, ?_⟩
    rw [convertChunks_cons hconvert]
    rfl
  | @more data payload ended chunks hdata rest ih =>
    rw [List.length_append] at hlength
    have hchunk : s.chunkHeader { data := data } = some header := hheader
    have huseful : isUseful header (false && header.final) data = true := isUseful_of_ne_nil hdata
    have hconvert := convertChunkToFrame_of_data hchunk hopcode
      (show data.length ≤ header.payloadLength by omega) (fun hsome ↦ by cases hsome)
    rw [createFrame_of_useful huseful] at hconvert
    obtain ⟨parts, hflatten, hparts, hended, hrest⟩ :=
      @ih { s with currentFrameHeader := some header.continued } header.continued
        (isKnownControlOpCode_continued hopcode) (by simp only [continued_payloadLength]; omega) rfl
    refine ⟨data :: parts, by simp [hflatten], ?_, by simp, ?_⟩
    · intro part hpart
      rcases List.mem_cons.mp hpart with rfl | hpart
      · exact hdata
      · exact hparts part hpart
    · have hlast : (parts.isEmpty && (ended && header.final)) = false := by
        cases ended with
        | true => simp [hended rfl]
        | false => simp
      rw [convertChunks_cons hconvert]
      simp only [Bool.false_eq_true, if_false] at hrest ⊢
      rw [hrest, deliver, hlast]
      simp [continued_continued]

/-- Parts that are not empty make useful pieces. -/
theorem isUseful_of_mem_deliver {parts : List (List UInt8)} (hparts : ∀ part ∈ parts, part ≠ [])
    {piece : WebSocketFrame} (h : piece ∈ deliver header ended parts) :
    isUseful piece.header piece.header.final piece.data = true := by
  induction parts generalizing header with
  | nil => cases h
  | cons part rest ih =>
    rcases List.mem_cons.mp h with rfl | h
    · exact isUseful_of_ne_nil (hparts part List.mem_cons_self)
    · exact ih (fun other hmem ↦ hparts other (List.mem_cons_of_mem part hmem)) h

/-- Assumes: a frame that is not a control frame, or the beginning of one. -/
theorem convertChunks_data (h : Carries header ended payload chunks)
    (hopcode : isKnownControlOpCode header.opcode = false)
    (hlength : payload.length ≤ header.payloadLength)
    (hwhole : ended = true → header.payloadLength = payload.length)
    (hidle : s.currentFrameHeader = none) :
    ∃ parts, DeliveredAs header ended payload parts ∧
      s.convertChunks chunks =
        .ok { s with
            currentFrameHeader :=
              if ended then none else some (if parts = [] then header else header.continued) }
          (deliver header ended parts) := by
  cases h with
  | whole =>
    have hchunk : s.chunkHeader { header := some header, finalChunk := true, data := payload } =
        some header := by
      simp [chunkHeader, hidle]
    have hconvert := convertChunkToFrame_of_data hchunk hopcode hlength fun _ _ ↦ hwhole rfl
    cases huseful : isUseful header (true && header.final) payload with
    | true =>
      rw [createFrame_of_useful huseful] at hconvert
      refine ⟨[payload], ⟨by simp, ?_, by simp⟩, ?_⟩
      · intro piece hpiece
        rw [List.mem_singleton.mp hpiece]
        exact huseful
      · rw [convertChunks_cons hconvert]
        rfl
    | false =>
      have hnil : payload = [] := by
        by_contra hne
        rw [isUseful_of_ne_nil hne] at huseful
        cases huseful
      rw [createFrame_of_not_useful huseful] at hconvert
      refine ⟨[], ⟨hnil.symm, by simp [deliver], fun _ ↦ huseful⟩, ?_⟩
      rw [convertChunks_cons hconvert]
      rfl
  | @split data payload _ chunks rest =>
    rw [List.length_append] at hlength
    have hchunk : s.chunkHeader { header := some header, data := data } = some header := by
      simp [chunkHeader, hidle]
    have hconvert := convertChunkToFrame_of_data hchunk hopcode
      (show data.length ≤ header.payloadLength by omega) (fun _ hfinal ↦ by cases hfinal)
    cases huseful : isUseful header (false && header.final) data with
    | true =>
      rw [createFrame_of_useful huseful] at hconvert
      obtain ⟨parts, hflatten, hparts, hended, hrest⟩ :=
        convertChunks_continues (s := { s with currentFrameHeader := some header.continued }) rest
          (isKnownControlOpCode_continued hopcode) (by simp only [continued_payloadLength]; omega)
          rfl
      have hlast : (parts.isEmpty && (ended && header.final)) = false := by
        cases ended with
        | true => simp [hended rfl]
        | false => simp
      refine ⟨data :: parts, ⟨by simp [hflatten], ?_, by simp⟩, ?_⟩
      · intro piece hpiece
        rw [deliver, hlast] at hpiece
        rcases List.mem_cons.mp hpiece with rfl | hpiece
        · exact huseful
        · exact isUseful_of_mem_deliver hparts hpiece
      · rw [convertChunks_cons hconvert]
        simp only [Bool.false_eq_true, if_false] at hrest ⊢
        rw [hrest, deliver, hlast]
        simp [continued_continued]
    | false =>
      have hnil : data = [] := by
        by_contra hne
        rw [isUseful_of_ne_nil hne] at huseful
        cases huseful
      rw [createFrame_of_not_useful huseful] at hconvert
      obtain ⟨parts, hflatten, hparts, hended, hrest⟩ :=
        convertChunks_continues (s := { s with currentFrameHeader := some header }) rest hopcode
          (by omega) rfl
      refine ⟨parts, ⟨by rw [hflatten, hnil, List.nil_append],
        fun piece ↦ isUseful_of_mem_deliver hparts, ?_⟩, ?_⟩
      · intro hempty
        cases ended with
        | true => exact absurd hempty (hended rfl)
        | false =>
          rw [hempty, List.flatten_nil] at hflatten
          rw [← hflatten, hnil]
          rw [hnil] at huseful
          exact huseful
      · rw [convertChunks_cons hconvert]
        simp only [Bool.false_eq_true, if_false] at hrest ⊢
        rw [hrest]
        simp

/-- The header of a control frame that is not refused. -/
structure IsAllowed (header : WebSocketFrameHeader) : Prop where
  final : header.final = true
  length_le : header.payloadLength ≤ kMaxControlFramePayload

theorem convertChunkToFrame_of_control {chunk : WebSocketFrameChunk}
    (hheader : s.chunkHeader chunk = some header)
    (hopcode : isKnownControlOpCode header.opcode = true) (hallowed : IsAllowed header) :
    s.convertChunkToFrame chunk =
      { s with currentFrameHeader := some header }.convertControl header chunk := by
  have hle := hallowed.length_le
  have hnot : ¬(!header.final || decide (header.payloadLength > kMaxControlFramePayload)) = true := by
    simp [hallowed.final, hle]
  unfold convertChunkToFrame
  rw [hheader]
  simp only [hopcode, if_true, if_neg hnot]

/-- Assumes: the rest of a control frame. It is kept until it is whole. -/
theorem convertChunks_control_continues (h : Continues ended payload chunks)
    (hopcode : isKnownControlOpCode header.opcode = true) (hallowed : IsAllowed header)
    {body : List UInt8} (hlength : body.length + payload.length ≤ header.payloadLength)
    (hwhole : ended = true → body.length + payload.length = header.payloadLength)
    (hheader : s.currentFrameHeader = some header)
    (hbody : s.incompleteControlFrameBody = some body) :
    s.convertChunks chunks =
      if ended then
        .ok { s with currentFrameHeader := none, incompleteControlFrameBody := none }
          [framePiece header true (body ++ payload)]
      else
        .ok { s with
          currentFrameHeader := some header, incompleteControlFrameBody := some (body ++ payload) }
          [] := by
  have hmax := hallowed.length_le
  induction h generalizing s body with
  | nil =>
    obtain ⟨current, incomplete⟩ := s
    cases hheader
    cases hbody
    simp [convertChunks, Checked.collect]
  | @last data hdata =>
    have hchunk : s.chunkHeader { finalChunk := true, data := data } = some header := hheader
    have hlast := hwhole rfl
    have hconvert := convertChunkToFrame_of_control hchunk hopcode hallowed
    have hfits : body.length + data.length ≤ kMaxControlFramePayload := by omega
    simp only [convertControl, hbody, addToIncompleteControlFrameBody, if_pos hfits,
      Bool.not_true, Bool.false_eq_true, if_false, Checked.andThen_ok, List.length_append,
      if_pos hlast] at hconvert
    have huseful : isUseful header (true && header.final) (body ++ data) = true := by
      simp [isUseful, hallowed.final]
    rw [createFrame_of_useful huseful] at hconvert
    rw [convertChunks_cons hconvert, hallowed.final]
    rfl
  | @more data payload ended chunks hdata rest ih =>
    rw [List.length_append] at hlength hwhole
    have hchunk : s.chunkHeader { data := data } = some header := hheader
    have hconvert := convertChunkToFrame_of_control hchunk hopcode hallowed
    have hfits : body.length + data.length ≤ kMaxControlFramePayload := by omega
    simp only [convertControl, hbody, Option.getD_some, addToIncompleteControlFrameBody,
      if_pos hfits, Bool.not_false, if_true, Checked.map_ok] at hconvert
    have hrest := @ih
      { s with currentFrameHeader := some header, incompleteControlFrameBody := some (body ++ data) }
      (body ++ data) (by rw [List.length_append]; omega)
      (fun hended ↦ by rw [List.length_append]; have := hwhole hended; omega) rfl rfl
    rw [convertChunks_cons hconvert, hrest]
    cases ended <;> simp

/-- Assumes: a control frame that is not refused, or the beginning of one. It is handed on whole. -/
theorem convertChunks_control (h : Carries header ended payload chunks)
    (hopcode : isKnownControlOpCode header.opcode = true) (hallowed : IsAllowed header)
    (hlength : payload.length ≤ header.payloadLength)
    (hwhole : ended = true → header.payloadLength = payload.length)
    (hidle : s.currentFrameHeader = none) (hbody : s.incompleteControlFrameBody = none) :
    s.convertChunks chunks =
      if ended then .ok s [framePiece header true payload]
      else
        .ok { s with
          currentFrameHeader := some header, incompleteControlFrameBody := some payload } [] := by
  have hmax := hallowed.length_le
  cases h with
  | whole =>
    have hchunk : s.chunkHeader { header := some header, finalChunk := true, data := payload } =
        some header := by
      simp [chunkHeader, hidle]
    have hconvert := convertChunkToFrame_of_control hchunk hopcode hallowed
    have huseful : isUseful header (true && header.final) payload = true := by
      simp [isUseful, hallowed.final]
    simp only [convertControl, hbody, Bool.not_true, Bool.false_eq_true, if_false] at hconvert
    rw [convertData_eq hlength fun _ _ ↦ hwhole rfl, createFrame_of_useful huseful] at hconvert
    obtain ⟨current, incomplete⟩ := s
    cases hidle
    cases hbody
    rw [convertChunks_cons hconvert, hallowed.final]
    rfl
  | @split data payload _ chunks rest =>
    rw [List.length_append] at hlength hwhole
    have hchunk : s.chunkHeader { header := some header, data := data } = some header := by
      simp [chunkHeader, hidle]
    have hconvert := convertChunkToFrame_of_control hchunk hopcode hallowed
    have hfits : ([] : List UInt8).length + data.length ≤ kMaxControlFramePayload := by
      rw [List.length_nil]
      omega
    simp only [convertControl, hbody, Option.getD_none, addToIncompleteControlFrameBody,
      if_pos hfits, Bool.not_false, if_true, Checked.map_ok, List.nil_append] at hconvert
    have hrest := convertChunks_control_continues
      (s := { s with currentFrameHeader := some header, incompleteControlFrameBody := some data })
      rest hopcode hallowed hlength (fun hended ↦ (hwhole hended).symm) rfl rfl
    rw [convertChunks_cons hconvert, hrest]
    obtain ⟨current, incomplete⟩ := s
    cases hidle
    cases hbody
    cases ended <;> simp

/-- A control frame that is refused ends it all. -/
theorem convertChunks_refused (h : Carries header ended payload chunks)
    (hopcode : isKnownControlOpCode header.opcode = true) (hrefused : ¬IsAllowed header)
    (hidle : s.currentFrameHeader = none) (others : List WebSocketFrameChunk) :
    s.convertChunks (chunks ++ others) = .failed s errWsProtocolError := by
  have hnot : (!header.final || decide (header.payloadLength > kMaxControlFramePayload)) = true := by
    by_contra hallowed
    simp only [Bool.or_eq_true, Bool.not_eq_true', decide_eq_true_eq, not_or, not_lt,
      Bool.not_eq_false] at hallowed
    exact hrefused ⟨hallowed.1, hallowed.2⟩
  have hfirst : ∀ finalChunk data,
      s.convertChunkToFrame { header := some header, finalChunk := finalChunk, data := data } =
        .failed s errWsProtocolError := by
    intro finalChunk data
    have hchunk : s.chunkHeader { header := some header, finalChunk := finalChunk, data := data } =
        some header := by
      simp [chunkHeader, hidle]
    unfold convertChunkToFrame
    rw [hchunk]
    simp only [hopcode, if_true, hnot]
    rw [← hidle]
  cases h with
  | whole => simp [convertChunks, Checked.collect, hfirst]
  | split rest => simp [convertChunks, Checked.collect, hfirst]

end FrameConversion

/-! ### Frames -/

/-- A frame whose header is not refused. -/
def WireFrame.IsAllowed (f : WireFrame) : Prop :=
  isKnownControlOpCode f.opcode = true → FrameConversion.IsAllowed f.header

/-- What is handed on of a frame: all of a control frame at once, and of another one its payload, in
pieces. -/
inductive Delivered (header : WebSocketFrameHeader) (payload : List UInt8) :
    List WebSocketFrame → Prop
  | control (h : isKnownControlOpCode header.opcode = true) :
    Delivered header payload [framePiece header true payload]
  | data (h : isKnownControlOpCode header.opcode = false) {parts : List (List UInt8)}
    (hparts : DeliveredAs header true payload parts) :
    Delivered header payload (deliver header true parts)

/-- What is handed on of a frame that was sent. -/
abbrev WireFrame.Delivered (f : WireFrame) (pieces : List WebSocketFrame) : Prop :=
  Felicia.Delivered f.header f.payload pieces

namespace FrameConversion

theorem convertChunks_append (s : FrameConversion) (chunks others : List WebSocketFrameChunk) :
    s.convertChunks (chunks ++ others) =
      (s.convertChunks chunks).andThen fun next frames ↦
        (next.convertChunks others).map (frames ++ ·) :=
  Checked.collect_append _ s chunks others

/-- A frame that is allowed is handed on, and the next one can come. -/
theorem convertChunks_arrives {f : WireFrame} {cut : List WebSocketFrameChunk} (h : f.Arrives cut)
    (hallowed : f.IsAllowed) :
    ∃ frames, f.Delivered frames ∧ ({} : FrameConversion).convertChunks cut = .ok {} frames := by
  cases hopcode : isKnownControlOpCode f.opcode with
  | true =>
    refine ⟨_, .control hopcode, ?_⟩
    exact convertChunks_control h hopcode (hallowed hopcode) le_rfl (fun _ ↦ rfl) rfl rfl
  | false =>
    obtain ⟨parts, hparts, hconvert⟩ := convertChunks_data (s := {}) h hopcode le_rfl (fun _ ↦ rfl) rfl
    exact ⟨_, .data hopcode hparts, hconvert⟩

/-- Assumes: frames that are allowed. They are handed on, and then what is behind them. -/
theorem convertChunks_frames {frames : List WireFrame} {cuts : List (List WebSocketFrameChunk)}
    (h : List.Forall₂ WireFrame.Arrives frames cuts) (hallowed : ∀ f ∈ frames, f.IsAllowed)
    (others : List WebSocketFrameChunk) :
    ∃ delivered, List.Forall₂ WireFrame.Delivered frames delivered ∧
      ({} : FrameConversion).convertChunks (cuts.flatten ++ others) =
        (({} : FrameConversion).convertChunks others).map (delivered.flatten ++ ·) := by
  induction h with
  | nil =>
    refine ⟨[], .nil, ?_⟩
    cases hothers : ({} : FrameConversion).convertChunks others <;> simp [hothers]
  | @cons f cut frames cuts hcut hcuts ih =>
    obtain ⟨pieces, hpieces, hconvert⟩ := convertChunks_arrives hcut (hallowed f List.mem_cons_self)
    obtain ⟨delivered, hdelivered, hrest⟩ := ih fun g hg ↦ hallowed g (List.mem_cons_of_mem f hg)
    refine ⟨pieces :: delivered, .cons hpieces hdelivered, ?_⟩
    rw [List.flatten_cons, List.append_assoc, convertChunks_append, hconvert, Checked.andThen_ok,
      hrest]
    cases hothers : ({} : FrameConversion).convertChunks others <;> simp

/-- Assumes: a frame that is not allowed, behind some that are. -/
theorem convertChunks_not_allowed {frames : List WireFrame}
    {cuts : List (List WebSocketFrameChunk)} (h : List.Forall₂ WireFrame.Arrives frames cuts)
    (hnot : ∃ f ∈ frames, ¬f.IsAllowed) (others : List WebSocketFrameChunk) :
    ({} : FrameConversion).convertChunks (cuts.flatten ++ others) = .failed {} errWsProtocolError := by
  induction h with
  | nil =>
    obtain ⟨f, hf, -⟩ := hnot
    cases hf
  | @cons f cut frames cuts hcut hcuts ih =>
    rw [List.flatten_cons, List.append_assoc]
    by_cases hfirst : f.IsAllowed
    · obtain ⟨pieces, -, hconvert⟩ := convertChunks_arrives hcut hfirst
      have hothers : ∃ g ∈ frames, ¬g.IsAllowed := by
        obtain ⟨g, hg, hrefused⟩ := hnot
        rcases List.mem_cons.mp hg with rfl | hg
        · exact absurd hfirst hrefused
        · exact ⟨g, hg, hrefused⟩
      rw [convertChunks_append, hconvert, Checked.andThen_ok, ih hothers]
      rfl
    · rw [WireFrame.IsAllowed, Classical.not_imp] at hfirst
      exact convertChunks_refused hcut hfirst.1 hfirst.2 rfl _

/-- The data of a frame that is created has the length that its header has. -/
theorem length_of_createFrame {s : FrameConversion} {header : WebSocketFrameHeader}
    {isFinalChunk : Bool} {data : List UInt8} {frame : WebSocketFrame}
    (h : (s.createFrame header isFinalChunk data).2 = some frame) :
    frame.header.payloadLength = frame.data.length := by
  by_cases huseful : isUseful header (isFinalChunk && header.final) data = true
  · rw [createFrame_of_useful huseful] at h
    cases h
    rfl
  · rw [createFrame_of_not_useful (Bool.not_eq_true _ ▸ huseful)] at h
    cases h

theorem length_of_convertData {s next : FrameConversion} {header : WebSocketFrameHeader}
    {chunk : WebSocketFrameChunk} {frame : WebSocketFrame}
    (h : s.convertData header chunk = .ok next (some frame)) :
    frame.header.payloadLength = frame.data.length := by
  unfold convertData at h
  split_ifs at h
  injection h with _ hframe
  exact length_of_createFrame hframe

theorem length_of_convertControl {s next : FrameConversion} {header : WebSocketFrameHeader}
    {chunk : WebSocketFrameChunk} {frame : WebSocketFrame}
    (h : s.convertControl header chunk = .ok next (some frame)) :
    frame.header.payloadLength = frame.data.length := by
  unfold convertControl at h
  split_ifs at h with hmore
  · obtain ⟨body, -, hnone⟩ := Checked.map_eq_ok.mp h
    cases hnone
  · cases hbody : s.incompleteControlFrameBody with
    | none =>
      rw [hbody] at h
      exact length_of_convertData h
    | some body =>
      rw [hbody] at h
      obtain ⟨middle, whole, -, hwhole⟩ := Checked.andThen_eq_ok.mp h
      split_ifs at hwhole
      injection hwhole with _ hframe
      exact length_of_createFrame hframe

theorem length_of_convertChunkToFrame {s next : FrameConversion} {chunk : WebSocketFrameChunk}
    {frame : WebSocketFrame} (h : s.convertChunkToFrame chunk = .ok next (some frame)) :
    frame.header.payloadLength = frame.data.length := by
  unfold convertChunkToFrame at h
  cases hheader : s.chunkHeader chunk with
  | none =>
    rw [hheader] at h
    cases h
  | some header =>
    rw [hheader] at h
    simp only at h
    split_ifs at h
    · exact length_of_convertControl h
    · exact length_of_convertData h

theorem length_of_convertChunks {s next : FrameConversion} {chunks : List WebSocketFrameChunk}
    {frames : List WebSocketFrame} (h : s.convertChunks chunks = .ok next frames) :
    ∀ f ∈ frames, f.header.payloadLength = f.data.length := by
  unfold convertChunks at h
  refine Checked.forall_mem_collect (fun s chunk next frames hchunk f hf ↦ ?_) h
  obtain ⟨frame, hframe, rfl⟩ := Checked.map_eq_ok.mp hchunk
  rw [Option.mem_toList] at hf
  exact length_of_convertChunkToFrame (hframe.trans (congrArg _ hf))

end FrameConversion

/-! ### Reads -/

/-- The reading side of `WebSocketBasicStream`. -/
structure WebSocketBasicStream where
  parser : WebSocketFrameParser := {}
  conversion : FrameConversion := {}
  deriving DecidableEq, Repr

namespace WebSocketBasicStream

/-- A read that has ended: with some bytes, or none at the end of the connection, or an error. -/
inductive SocketRead
  | bytes (data : List UInt8)
  | failed (e : NetError)
  deriving DecidableEq

/-- `HandleReadResult`, with `ConvertChunksToFrames`. Without an error and without frames, it returns
`ERR_IO_PENDING`. -/
def handleReadResult (s : WebSocketBasicStream) :
    SocketRead → Checked WebSocketBasicStream ℤ (List WebSocketFrame)
  | .failed e => .failed s e.code
  | .bytes data =>
    if data = [] then .failed s errConnectionClosed
    else
      let parser := (s.parser.decode data).1
      if parser.websocketError ≠ .normalClosure then
        .failed { s with parser := parser } (webSocketErrorToNetError parser.websocketError)
      else
        match s.conversion.convertChunks (s.parser.decode data).2 with
        | .aborted => .aborted
        | .failed conversion e => .failed ⟨parser, conversion⟩ e
        | .ok conversion frames => .ok ⟨parser, conversion⟩ frames

theorem length_of_handleReadResult {s next : WebSocketBasicStream} {read : SocketRead}
    {frames : List WebSocketFrame} (h : s.handleReadResult read = .ok next frames) :
    ∀ f ∈ frames, f.header.payloadLength = f.data.length := by
  cases read with
  | failed e => cases h
  | bytes data =>
    unfold handleReadResult at h
    simp only at h
    split_ifs at h
    cases hconvert : s.conversion.convertChunks (s.parser.decode data).2 with
    | aborted =>
      rw [hconvert] at h
      cases h
    | failed conversion e =>
      rw [hconvert] at h
      cases h
    | ok conversion frames' =>
      rw [hconvert] at h
      cases h
      exact FrameConversion.length_of_convertChunks hconvert

/-- What `ReadFrames` comes to, called again whenever it has read some frames: the frames of each of
these calls, and what the last one comes to. A call goes on reading while there are no frames,
whether a read ends at once or later. -/
def serve (s : WebSocketBasicStream) :
    List SocketRead → List (List WebSocketFrame) × Checked WebSocketBasicStream ℤ Unit
  | [] => ([], .ok s ())
  | read :: rest =>
    match s.handleReadResult read with
    | .aborted => ([], .aborted)
    | .failed next e => ([], .failed next e)
    | .ok next frames =>
      (if frames = [] then (next.serve rest).1 else frames :: (next.serve rest).1,
        (next.serve rest).2)

variable {s : WebSocketBasicStream}

theorem takeAll_of_failed {p : WebSocketFrameParser} (h : p.websocketError ≠ .normalClosure)
    (pieces : List (List UInt8)) :
    Receiver.takeAll WebSocketFrameParser.decode p pieces = (p, []) := by
  induction pieces with
  | nil => rfl
  | cons piece rest ih =>
    have hsame : p.decode piece = (p, []) := if_pos (.inl h)
    rw [Receiver.takeAll, hsame, ih]
    rfl

/-- Assumes: a piece with something in it. -/
theorem handleReadResult_bytes {piece : List UInt8} (hpiece : piece ≠ []) :
    s.handleReadResult (.bytes piece) =
      if (s.parser.decode piece).1.websocketError ≠ .normalClosure then
        .failed { s with parser := (s.parser.decode piece).1 }
          (webSocketErrorToNetError (s.parser.decode piece).1.websocketError)
      else
        match s.conversion.convertChunks (s.parser.decode piece).2 with
        | .aborted => .aborted
        | .failed conversion e => .failed ⟨(s.parser.decode piece).1, conversion⟩ e
        | .ok conversion frames => .ok ⟨(s.parser.decode piece).1, conversion⟩ frames :=
  if_neg hpiece

/-- Assumes: pieces with something in them. What is read of them is what becomes of the chunks of all
of them, unless there is an error. -/
theorem serve_eq_ok {pieces : List (List UInt8)} (hpieces : ∀ piece ∈ pieces, piece ≠ [])
    (herror : (Receiver.takeAll WebSocketFrameParser.decode s.parser pieces).1.websocketError =
      .normalClosure) {conversion : FrameConversion} {frames : List WebSocketFrame}
    (hconvert : s.conversion.convertChunks
      (Receiver.takeAll WebSocketFrameParser.decode s.parser pieces).2 = .ok conversion frames) :
    (s.serve (pieces.map .bytes)).1.flatten = frames ∧
      (∀ call ∈ (s.serve (pieces.map .bytes)).1, call ≠ []) ∧
        (s.serve (pieces.map .bytes)).2 =
          .ok ⟨(Receiver.takeAll WebSocketFrameParser.decode s.parser pieces).1, conversion⟩ () := by
  induction pieces generalizing s frames with
  | nil =>
    cases hconvert
    exact ⟨rfl, by simp [serve], rfl⟩
  | cons piece rest ih =>
    have hfirst : (s.parser.decode piece).1.websocketError = .normalClosure := by
      by_contra hfailed
      rw [Receiver.takeAll, takeAll_of_failed hfailed] at herror
      exact hfailed herror
    rw [Receiver.takeAll, FrameConversion.convertChunks_append, Checked.andThen_eq_ok] at hconvert
    obtain ⟨middle, first, hmiddle, hrest⟩ := hconvert
    obtain ⟨others, hothers, rfl⟩ := Checked.map_eq_ok.mp hrest
    have hread := handleReadResult_bytes (s := s) (hpieces piece List.mem_cons_self)
    rw [if_neg (not_not.mpr hfirst), hmiddle] at hread
    obtain ⟨hflatten, hcalls, hlast⟩ := @ih ⟨(s.parser.decode piece).1, middle⟩
      (fun other hmem ↦ hpieces other (List.mem_cons_of_mem piece hmem)) herror others hothers
    rw [List.map_cons, serve, hread]
    refine ⟨?_, ?_, hlast⟩
    · by_cases hnil : first = []
      · simp only [hnil, if_true, List.nil_append]
        exact hflatten
      · simp only [hnil, if_false, List.flatten_cons, hflatten]
    · by_cases hnil : first = []
      · simp only [hnil, if_true]
        exact hcalls
      · simp only [hnil, if_false]
        intro call hcall
        rcases List.mem_cons.mp hcall with rfl | hcall
        · exact hnil
        · exact hcalls call hcall

/-- Assumes: a parser without an error, and pieces with something in them. Where all of them are
read, there is no error. -/
theorem of_serve_eq_ok {pieces : List (List UInt8)} (hpieces : ∀ piece ∈ pieces, piece ≠ [])
    (hstart : s.parser.websocketError = .normalClosure) {last : WebSocketBasicStream}
    (h : (s.serve (pieces.map .bytes)).2 = .ok last ()) :
    (Receiver.takeAll WebSocketFrameParser.decode s.parser pieces).1.websocketError =
        .normalClosure ∧
      (s.conversion.convertChunks
        (Receiver.takeAll WebSocketFrameParser.decode s.parser pieces).2).isOk = true := by
  induction pieces generalizing s with
  | nil => exact ⟨hstart, rfl⟩
  | cons piece rest ih =>
    have hread := handleReadResult_bytes (s := s) (hpieces piece List.mem_cons_self)
    rw [List.map_cons, serve] at h
    by_cases hfirst : (s.parser.decode piece).1.websocketError = .normalClosure
    · rw [if_neg (not_not.mpr hfirst)] at hread
      cases hmiddle : s.conversion.convertChunks (s.parser.decode piece).2 with
      | aborted =>
        rw [hread, hmiddle] at h
        cases h
      | failed conversion e =>
        rw [hread, hmiddle] at h
        cases h
      | ok conversion frames =>
        rw [hread, hmiddle] at h
        obtain ⟨herror, hconvert⟩ := @ih ⟨(s.parser.decode piece).1, conversion⟩
          (fun other hmem ↦ hpieces other (List.mem_cons_of_mem piece hmem)) hfirst h
        refine ⟨herror, ?_⟩
        rw [Receiver.takeAll, FrameConversion.convertChunks_append, hmiddle, Checked.andThen_ok,
          Checked.isOk_map]
        exact hconvert
    · rw [if_pos hfirst] at hread
      rw [hread] at h
      cases h

/-- The pieces among some reads. -/
def pieces (reads : List SocketRead) : List (List UInt8) :=
  reads.filterMap fun
    | .bytes data => some data
    | .failed _ => none

/-- Assumes: no check fails for the chunks of any first pieces. None fails for the reads. -/
theorem isChecked_serve {reads : List SocketRead}
    (h : ∀ count, (s.conversion.convertChunks
      (Receiver.takeAll WebSocketFrameParser.decode s.parser (pieces (reads.take count))).2).isChecked =
        true) : (s.serve reads).2.isChecked = true := by
  induction reads generalizing s with
  | nil => rfl
  | cons read rest ih =>
    cases read with
    | failed e => rfl
    | bytes piece =>
      by_cases hpiece : piece = []
      · rw [serve, handleReadResult, if_pos hpiece]
        rfl
      · have hread := handleReadResult_bytes (s := s) hpiece
        have hcheck := h 1
        have hone : pieces (List.take 1 (.bytes piece :: rest)) = [piece] := rfl
        rw [hone, Receiver.takeAll, Receiver.takeAll, List.append_nil] at hcheck
        rw [serve]
        by_cases hfirst : (s.parser.decode piece).1.websocketError = .normalClosure
        · rw [if_neg (not_not.mpr hfirst)] at hread
          cases hmiddle : s.conversion.convertChunks (s.parser.decode piece).2 with
          | aborted =>
            rw [hmiddle] at hcheck
            cases hcheck
          | failed conversion e =>
            rw [hread, hmiddle]
            rfl
          | ok conversion frames =>
            rw [hread, hmiddle]
            apply @ih ⟨(s.parser.decode piece).1, conversion⟩
            intro count
            have hmore := h (count + 1)
            have hsplit : pieces (List.take (count + 1) (.bytes piece :: rest)) =
                piece :: pieces (rest.take count) := rfl
            rw [hsplit, Receiver.takeAll, FrameConversion.convertChunks_append, hmiddle,
              Checked.andThen_ok, Checked.isChecked_map] at hmore
            exact hmore
        · rw [if_pos hfirst] at hread
          rw [hread]
          rfl

end WebSocketBasicStream

/-! ### What a peer sends -/

/-- The beginning of a frame, or nothing, in which nothing was refused. -/
inductive IsBeginning : List UInt8 → Prop
  | header {rest : List UInt8} (hscan : scanHeader.scan rest = .incomplete) : IsBeginning rest
  | payload {header : WebSocketFrameHeader} {key : WebSocketMaskingKey} {data : List UInt8}
    (hacc : header.IsAcceptable) (hkey : header.KeyFits key)
    (hmore : data.length < header.payloadLength)
    (hallowed : isKnownControlOpCode header.opcode = true → FrameConversion.IsAllowed header) :
    IsBeginning (header.headerBytes key ++ data)

/-- What is handed on of the beginning of a frame: nothing of a control frame, and of another one
what has come of its payload. -/
inductive DeliveredBefore : List UInt8 → List WebSocketFrame → Prop
  | header {rest : List UInt8} (hscan : scanHeader.scan rest = .incomplete) :
    DeliveredBefore rest []
  | control {header : WebSocketFrameHeader} {key : WebSocketMaskingKey} {data : List UInt8}
    (hopcode : isKnownControlOpCode header.opcode = true) :
    DeliveredBefore (header.headerBytes key ++ data) []
  | data {header : WebSocketFrameHeader} {key : WebSocketMaskingKey} {data : List UInt8}
    (hopcode : isKnownControlOpCode header.opcode = false) {parts : List (List UInt8)}
    (hparts : DeliveredAs header false (unmask header key 0 data) parts) :
    DeliveredBefore (header.headerBytes key ++ data) (deliver header false parts)

/-- Nothing is handed on of nothing. -/
theorem DeliveredBefore.eq_nil {rest : List UInt8} {frames : List WebSocketFrame}
    (h : DeliveredBefore rest frames) (hrest : rest = []) : frames = [] := by
  cases h with
  | header hscan => rfl
  | control hopcode => rfl
  | data hopcode hparts => cases hrest

section Peer

variable {frames : List WireFrame} {rest : List UInt8} {chunks : List WebSocketFrameChunk}
  {p : WebSocketFrameParser}

theorem IsBeginning.of_complete (h : IsBeginning rest) {header : WebSocketFrameHeader}
    {key : WebSocketMaskingKey} {data : List UInt8}
    (hscan : scanHeader.scan rest = .complete (header, key) data) :
    data.length < header.payloadLength ∧
      (isKnownControlOpCode header.opcode = true → FrameConversion.IsAllowed header) := by
  cases h with
  | header hincomplete =>
    rw [hincomplete] at hscan
    cases hscan
  | payload hacc hkey hmore hallowed =>
    rw [scan_headerBytes hacc hkey] at hscan
    cases hscan
    exact ⟨hmore, hallowed⟩

theorem IsBeginning.not_isRefused (h : IsBeginning rest) (e : WebSocketError) :
    ¬IsRefused e rest := by
  intro hrefused
  have hscan := scan_of_isRefused hrefused
  cases h with
  | header hincomplete =>
    rw [hincomplete] at hscan
    cases hscan
  | payload hacc hkey hmore hallowed =>
    rw [scan_headerBytes hacc hkey] at hscan
    cases hscan

/-- The chunks of the beginning of a frame are converted, unless the frame is refused. -/
theorem EndsIn.convertChunks (h : EndsIn rest chunks p) :
    (p.websocketError = .normalClosure ∧ IsBeginning rest ∧
      ∃ conversion frames, DeliveredBefore rest frames ∧
        ({} : FrameConversion).convertChunks chunks = .ok conversion frames) ∨
      (¬IsBeginning rest ∧
        ¬(p.websocketError = .normalClosure ∧
          (({} : FrameConversion).convertChunks chunks).isOk = true) ∧
        (({} : FrameConversion).convertChunks chunks).isChecked = true) := by
  cases h with
  | header hscan hreception =>
    refine .inl ⟨WebSocketFrameParser.error_of_reception fun e he ↦ ?_, .header hscan, {}, [],
      .header hscan, rfl⟩
    rw [hreception] at he
    cases he
  | @payload header key data chunks p hacc hkey hmore hchunks hreception =>
    have herror : p.websocketError = .normalClosure := by
      refine WebSocketFrameParser.error_of_reception fun e he ↦ ?_
      rw [hreception] at he
      cases he
    have hlength : (unmask header key 0 data).length ≤ header.payloadLength := by
      rw [length_unmask]
      exact hmore.le
    cases hopcode : isKnownControlOpCode header.opcode with
    | false =>
      obtain ⟨parts, hparts, hconvert⟩ := FrameConversion.convertChunks_data (s := {}) hchunks
        hopcode hlength (fun hended ↦ absurd hended Bool.false_ne_true) rfl
      refine .inl ⟨herror, .payload hacc hkey hmore fun hcontrol ↦ ?_, _, _, .data hopcode hparts,
        hconvert⟩
      rw [hopcode] at hcontrol
      cases hcontrol
    | true =>
      by_cases hallowed : FrameConversion.IsAllowed header
      · exact .inl ⟨herror, .payload hacc hkey hmore fun _ ↦ hallowed, _, _, .control hopcode,
          FrameConversion.convertChunks_control (s := {}) hchunks hopcode hallowed hlength
            (fun hended ↦ absurd hended Bool.false_ne_true) rfl rfl⟩
      · have hrefused := FrameConversion.convertChunks_refused (s := {}) hchunks hopcode hallowed
          rfl []
        rw [List.append_nil] at hrefused
        rw [hrefused]
        refine .inr ⟨fun hbeginning ↦ ?_, fun hok ↦ absurd hok.2 Bool.false_ne_true, rfl⟩
        exact hallowed ((hbeginning.of_complete (scan_headerBytes hacc hkey data)).2 hopcode)
  | @refused rest p e hrefused herror =>
    refine .inr ⟨fun hbeginning ↦ hbeginning.not_isRefused e hrefused, fun hok ↦ ?_, rfl⟩
    exact failsWith_scanHeader _ _ (scan_of_isRefused hrefused) (herror.symm.trans hok.1)

/-- Whatever pieces have come, their chunks are converted without a check that fails. -/
theorem isChecked_convertChunks (pieces : List (List UInt8)) :
    (({} : FrameConversion).convertChunks (WebSocketFrameParser.parse pieces).2).isChecked = true := by
  obtain ⟨frames, rest, cuts, chunks, -, hchunks, hcuts, hends⟩ :=
    WebSocketFrameParser.parse_cases pieces
  rw [hchunks]
  by_cases hallowed : ∀ f ∈ frames, f.IsAllowed
  · obtain ⟨delivered, -, hconvert⟩ := FrameConversion.convertChunks_frames hcuts hallowed chunks
    rw [hconvert, Checked.isChecked_map]
    rcases hends.convertChunks with ⟨-, -, conversion, frames, -, hok⟩ | ⟨-, -, hchecked⟩
    · rw [hok]
      rfl
    · exact hchecked
  · simp only [not_forall] at hallowed
    obtain ⟨f, hf, hnot⟩ := hallowed
    rw [FrameConversion.convertChunks_not_allowed hcuts ⟨f, hf, hnot⟩]
    rfl

namespace WebSocketBasicStream

/-- Assumes: pieces of some frames that are allowed and of the beginning of another. -/
theorem serve_append {pieces : List (List UInt8)} (hpieces : ∀ piece ∈ pieces, piece ≠ [])
    (hflatten : pieces.flatten = frames.flatMap WireFrame.bytes ++ rest)
    (hallowed : ∀ f ∈ frames, f.IsAllowed) (hrest : IsBeginning rest) :
    ∃ delivered more, List.Forall₂ WireFrame.Delivered frames delivered ∧
      DeliveredBefore rest more ∧
        (({} : WebSocketBasicStream).serve (pieces.map .bytes)).1.flatten =
          delivered.flatten ++ more ∧
        (∀ call ∈ (({} : WebSocketBasicStream).serve (pieces.map .bytes)).1, call ≠ []) ∧
          (({} : WebSocketBasicStream).serve (pieces.map .bytes)).2.isOk = true := by
  obtain ⟨cuts, chunks, hchunks, hcuts, hends⟩ :=
    WebSocketFrameParser.parse_append hflatten fun _ _ _ hscan ↦ (hrest.of_complete hscan).1
  obtain ⟨delivered, hdelivered, hconvert⟩ :=
    FrameConversion.convertChunks_frames hcuts hallowed chunks
  rcases hends.convertChunks with ⟨herror, -, conversion, more, hmore, hok⟩ | ⟨hnot, -, -⟩
  · rw [← hchunks, hok, Checked.map_ok] at hconvert
    obtain ⟨hcalls, hne, hlast⟩ := serve_eq_ok (s := {}) hpieces herror hconvert
    exact ⟨delivered, more, hdelivered, hmore, hcalls, hne, by rw [hlast]; rfl⟩
  · exact absurd hrest hnot

/-- Assumes: pieces with something in them. They are read without an error exactly if they are some
frames that are allowed, and the beginning of another. -/
theorem serve_isOk_iff {pieces : List (List UInt8)} (hpieces : ∀ piece ∈ pieces, piece ≠ []) :
    (({} : WebSocketBasicStream).serve (pieces.map .bytes)).2.isOk = true ↔
      ∃ (frames : List WireFrame) (rest : List UInt8),
        pieces.flatten = frames.flatMap WireFrame.bytes ++ rest ∧
          (∀ f ∈ frames, f.IsAllowed) ∧ IsBeginning rest := by
  constructor
  · intro hok
    cases hserve : (({} : WebSocketBasicStream).serve (pieces.map .bytes)).2 with
    | aborted =>
      rw [hserve] at hok
      cases hok
    | failed last e =>
      rw [hserve] at hok
      cases hok
    | ok last u =>
      obtain ⟨herror, hconvert⟩ := of_serve_eq_ok (s := {}) hpieces rfl hserve
      obtain ⟨frames, rest, cuts, chunks, hflatten, hchunks, hcuts, hends⟩ :=
        WebSocketFrameParser.parse_cases pieces
      change (({} : FrameConversion).convertChunks (WebSocketFrameParser.parse pieces).2).isOk = true
        at hconvert
      rw [hchunks] at hconvert
      have hallowed : ∀ f ∈ frames, f.IsAllowed := by
        intro f hf
        by_contra hnot
        rw [FrameConversion.convertChunks_not_allowed hcuts ⟨f, hf, hnot⟩] at hconvert
        cases hconvert
      refine ⟨frames, rest, hflatten, hallowed, ?_⟩
      obtain ⟨delivered, -, hall⟩ := FrameConversion.convertChunks_frames hcuts hallowed chunks
      rw [hall, Checked.isOk_map] at hconvert
      rcases hends.convertChunks with ⟨-, hbeginning, -⟩ | ⟨-, hnot, -⟩
      · exact hbeginning
      · exact absurd ⟨herror, hconvert⟩ hnot
  · rintro ⟨frames, rest, hflatten, hallowed, hrest⟩
    obtain ⟨-, -, -, -, -, -, hok⟩ := serve_append hpieces hflatten hallowed hrest
    exact hok

/-- The data of a frame that is handed on has the length that its header has. -/
theorem length_of_mem_serve {s : WebSocketBasicStream} {reads : List SocketRead} :
    ∀ f ∈ (s.serve reads).1.flatten, f.header.payloadLength = f.data.length := by
  induction reads generalizing s with
  | nil => exact fun f hf ↦ absurd hf List.not_mem_nil
  | cons read rest ih =>
    intro f hf
    unfold serve at hf
    cases hread : s.handleReadResult read with
    | aborted =>
      rw [hread] at hf
      exact absurd hf List.not_mem_nil
    | failed next e =>
      rw [hread] at hf
      exact absurd hf List.not_mem_nil
    | ok next frames =>
      simp only [hread] at hf
      by_cases hnone : frames = []
      · rw [if_pos hnone] at hf
        exact ih f hf
      · rw [if_neg hnone, List.flatten_cons] at hf
        exact (List.mem_append.mp hf).elim (length_of_handleReadResult hread f) (ih f)

/-- Assumes: pieces with something in them. They are read without an error exactly if they are some
frames that are allowed and the beginning of another, and then these are handed on, in order. -/
theorem serve_iff (pieces : List (List UInt8)) (hpieces : ∀ piece ∈ pieces, piece ≠ []) :
    ((({} : WebSocketBasicStream).serve (pieces.map .bytes)).2.isOk = true ↔
      ∃ (frames : List WireFrame) (rest : List UInt8),
        pieces.flatten = frames.flatMap WireFrame.bytes ++ rest ∧
          (∀ f ∈ frames, f.IsAllowed) ∧ IsBeginning rest) ∧
      ∀ (frames : List WireFrame) (rest : List UInt8),
        pieces.flatten = frames.flatMap WireFrame.bytes ++ rest → (∀ f ∈ frames, f.IsAllowed) →
          IsBeginning rest →
            ∃ delivered more, List.Forall₂ WireFrame.Delivered frames delivered ∧
              DeliveredBefore rest more ∧
                (({} : WebSocketBasicStream).serve (pieces.map .bytes)).1.flatten =
                  delivered.flatten ++ more := by
  refine ⟨serve_isOk_iff hpieces, fun frames rest hflatten hallowed hrest ↦ ?_⟩
  obtain ⟨delivered, more, hdelivered, hmore, hcalls, -, -⟩ :=
    serve_append hpieces hflatten hallowed hrest
  exact ⟨delivered, more, hdelivered, hmore, hcalls⟩

/-- A masked text of three bytes, whose last byte has not come. -/
theorem serve_iff_cut_text :
    (({} : WebSocketBasicStream).serve
        ([[129], [131, 1, 2, 3], [4, 105, 107]].map .bytes)).2.isOk = true := by
  refine (serve_iff [[129], [131, 1, 2, 3], [4, 105, 107]] (by decide)).1.mpr
    ⟨[], [129, 131, 1, 2, 3, 4, 105, 107], rfl, by simp, ?_⟩
  exact @IsBeginning.payload { final := true, opcode := kOpCodeText, masked := true, payloadLength := 3 }
    ⟨1, 2, 3, 4⟩ [105, 107] ⟨by decide, by decide⟩ (fun h ↦ by cases h) (by decide)
    fun hcontrol ↦ absurd hcontrol (by decide)

end WebSocketBasicStream

end Peer

end Felicia
