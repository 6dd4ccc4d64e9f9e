import Felicia.Channel.WebSocketFrameParser

/-!
# Streams of WebSocket frames

What `WebSocketFrameParser` makes of a whole stream. `frameReceiver` is the parser as it would be if
it took one byte at a time, and `follows_decode` says that `Decode` makes the same of a stream,
however it is cut into pieces. Frames that were written are parsed (`parses_frames`), and whatever is
accepted was written, byte for byte, up to a frame that is not complete (`accepts_iff`).
-/

set_option autoImplicit false
set_option relaxedAutoImplicit false

namespace Felicia

open Support

/-! ### One byte at a time -/

/-- What is recognised in a stream. -/
inductive FrameToken
  | header (header : WebSocketFrameHeader)
  /-- A byte of a payload, without its mask. -/
  | byte (b : UInt8)
  | finish
  deriving DecidableEq

/-- Where in a stream a parser is. -/
inductive Reception
  /-- The bytes of a header that is not complete, or none between two frames. -/
  | header (bytes : List UInt8)
  | payload (header : WebSocketFrameHeader) (key : WebSocketMaskingKey) (offset : ℕ)
  | failed (error : WebSocketError)
  deriving DecidableEq

namespace Reception

/-- Between two frames. -/
abbrev idle : Reception := .header []

/-- After a header. -/
def opened (h : WebSocketFrameHeader × WebSocketMaskingKey) : Reception × List FrameToken :=
  if h.1.payloadLength = 0 then (idle, [.header h.1, .finish])
  else (.payload h.1 h.2 0, [.header h.1])

/-- The next byte. -/
def next : Reception → UInt8 → Reception × List FrameToken
  | .header bytes, b =>
    match scanHeader.scan (bytes ++ [b]) with
    | .incomplete => (.header (bytes ++ [b]), [])
    | .failed e => (.failed e, [])
    | .complete h _ => opened h
  | .payload h key offset, b =>
    if offset + 1 = h.payloadLength then
      (idle, (unmask h key offset [b]).map .byte ++ [.finish])
    else (.payload h key (offset + 1), (unmask h key offset [b]).map .byte)
  | .failed e, _ => (.failed e, [])

end Reception

/-- The parser, one byte at a time. -/
def frameReceiver : Receiver Reception UInt8 FrameToken := ⟨Reception.next⟩

theorem collects_header :
    scanHeader.Collects frameReceiver .header .failed Reception.opened where
  step bs b := by
    cases hscan : scanHeader.scan (bs ++ [b]) <;> simp [frameReceiver, Reception.next, hscan]
  stuck _ _ := rfl
  lawful := lawful_scanHeader
  nil := rfl

theorem unmask_append (h : WebSocketFrameHeader) (key : WebSocketMaskingKey) (offset : ℕ)
    (data data' : List UInt8) :
    unmask h key offset (data ++ data') =
      unmask h key offset data ++ unmask h key (offset + data.length) data' := by
  unfold unmask
  split_ifs
  · exact maskByBytes_append key offset data data'
  · rfl

@[simp] theorem length_unmask (h : WebSocketFrameHeader) (key : WebSocketMaskingKey) (offset : ℕ)
    (data : List UInt8) : (unmask h key offset data).length = data.length := by
  unfold unmask
  split_ifs
  · exact length_maskByBytes key offset data
  · rfl

@[simp] theorem unmask_unmask (h : WebSocketFrameHeader) (key : WebSocketMaskingKey) (offset : ℕ)
    (data : List UInt8) : unmask h key offset (unmask h key offset data) = data := by
  unfold unmask
  split_ifs
  · exact maskByBytes_maskByBytes key offset data
  · rfl

/-- Where a parser is behind some bytes of a payload. -/
def Reception.behind (h : WebSocketFrameHeader) (key : WebSocketMaskingKey) (offset : ℕ) :
    Reception :=
  if offset = h.payloadLength then idle else .payload h key offset

/-- The token of the end of a payload. -/
def finishAt (h : WebSocketFrameHeader) (offset : ℕ) : List FrameToken :=
  if offset = h.payloadLength then [.finish] else []

/-- Assumes: not more bytes than are missing, and some. -/
theorem feed_payload {h : WebSocketFrameHeader} {key : WebSocketMaskingKey} {offset : ℕ}
    {data : List UInt8} (hdata : data ≠ []) (hle : offset + data.length ≤ h.payloadLength) :
    frameReceiver.feed (.payload h key offset) data =
      (Reception.behind h key (offset + data.length),
        (unmask h key offset data).map .byte ++ finishAt h (offset + data.length)) := by
  induction data generalizing offset with
  | nil => exact absurd rfl hdata
  | cons b rest ih =>
    rw [List.length_cons] at hle
    have hstep : frameReceiver.step (.payload h key offset) b =
        (Reception.behind h key (offset + 1),
          (unmask h key offset [b]).map .byte ++ finishAt h (offset + 1)) := by
      by_cases hlast : offset + 1 = h.payloadLength <;>
        simp [Reception.behind, finishAt, frameReceiver, Reception.next, hlast]
    by_cases hrest : rest = []
    · rw [hrest, Receiver.feed_singleton, hstep]
      rfl
    · have hpos := List.length_pos_of_ne_nil hrest
      have hmore : offset + 1 ≠ h.payloadLength := by omega
      have hsplit : unmask h key offset (b :: rest) =
          unmask h key offset [b] ++ unmask h key (offset + 1) rest :=
        unmask_append h key offset [b] rest
      have hcount : offset + 1 + rest.length = offset + (rest.length + 1) := by omega
      have hbehind : Reception.behind h key (offset + 1) = .payload h key (offset + 1) :=
        if_neg hmore
      have hfinish : finishAt h (offset + 1) = [] := if_neg hmore
      rw [Receiver.feed, hstep, hbehind, hfinish, ih hrest (by omega), hsplit, List.length_cons]
      simp only [List.append_nil, List.map_append, List.append_assoc, hcount]

/-- Assumes: not more bytes than the payload has. What is recognised from a header and what is
behind it. -/
theorem feed_header {h : WebSocketFrameHeader} {key : WebSocketMaskingKey} (hacc : h.IsAcceptable)
    (hkey : h.KeyFits key) {data : List UInt8} (hle : data.length ≤ h.payloadLength) :
    frameReceiver.feed .idle (h.headerBytes key ++ data) =
      (Reception.behind h key data.length,
        .header h :: (unmask h key 0 data).map .byte ++ finishAt h data.length) := by
  have hscan := WebSocketFrameHeader.scan_headerBytes hacc hkey []
  rw [List.append_nil] at hscan
  rw [Receiver.feed_append, collects_header.feed_complete hscan]
  by_cases hzero : h.payloadLength = 0
  · have hnil : data = [] := List.eq_nil_of_length_eq_zero (by omega)
    have hopened : Reception.opened (h, key) = (.idle, [.header h, .finish]) := if_pos hzero
    rw [hnil, hopened]
    simp [Reception.behind, finishAt, hzero, unmask, maskByBytes]
  · have hopened : Reception.opened (h, key) = (.payload h key 0, [.header h]) := if_neg hzero
    rw [hopened]
    by_cases hdata : data = []
    · rw [hdata]
      simp [Reception.behind, finishAt, Ne.symm hzero, unmask, maskByBytes]
    · rw [feed_payload hdata (by omega), Nat.zero_add]
      rfl

/-! ### Frames -/

/-- A frame as it is sent: an opcode that four bits hold, and a payload whose length an `int`
holds. -/
structure WireFrame where
  final : Bool := false
  reserved1 : Bool := false
  reserved2 : Bool := false
  reserved3 : Bool := false
  opcode : ℕ
  /-- The key of a payload that is masked. -/
  maskingKey : Option WebSocketMaskingKey := none
  payload : List UInt8
  opcode_lt : opcode < 16
  length_le : payload.length ≤ int32Max

namespace WireFrame

variable (f : WireFrame)

def header : WebSocketFrameHeader where
  final := f.final
  reserved1 := f.reserved1
  reserved2 := f.reserved2
  reserved3 := f.reserved3
  opcode := f.opcode
  masked := f.maskingKey.isSome
  payloadLength := f.payload.length

def key : WebSocketMaskingKey := f.maskingKey.getD .zero

/-- The header, and the payload under its mask. -/
def bytes : List UInt8 := f.header.headerBytes f.key ++ unmask f.header f.key 0 f.payload

def tokens : List FrameToken := .header f.header :: f.payload.map .byte ++ [.finish]

theorem isAcceptable : f.header.IsAcceptable := ⟨f.opcode_lt, f.length_le⟩

theorem keyFits : f.header.KeyFits f.key := by
  intro hmasked
  have hnone : f.maskingKey = none := by simpa [header] using hmasked
  rw [key, hnone]
  rfl

end WireFrame

/-- A parser reads the bytes of a frame whole. -/
theorem reads_frames : frameReceiver.Reads .idle WireFrame.bytes WireFrame.tokens := by
  intro f
  have hlength : (unmask f.header f.key 0 f.payload).length = f.header.payloadLength :=
    length_unmask _ _ _ _
  rw [WireFrame.bytes, feed_header f.isAcceptable f.keyFits hlength.le, unmask_unmask,
    Reception.behind, if_pos hlength, finishAt, if_pos hlength]
  rfl

/-- A header that was scanned, with the payload behind it, is that of a frame. -/
theorem exists_frame {h : WebSocketFrameHeader} {key : WebSocketMaskingKey}
    (hacc : h.IsAcceptable) (hkey : h.KeyFits key) {data : List UInt8}
    (hlength : data.length = h.payloadLength) :
    ∃ f : WireFrame, f.header = h ∧ f.key = key ∧ f.payload = unmask h key 0 data ∧
      f.bytes = h.headerBytes key ++ data := by
  have hpayload : (unmask h key 0 data).length = h.payloadLength :=
    (length_unmask h key 0 data).trans hlength
  obtain ⟨f, hfinal, hreserved1, hreserved2, hreserved3, hopcode, hmask, hdata⟩ : ∃ f : WireFrame,
      f.final = h.final ∧ f.reserved1 = h.reserved1 ∧ f.reserved2 = h.reserved2 ∧
        f.reserved3 = h.reserved3 ∧ f.opcode = h.opcode ∧
          f.maskingKey = (if h.masked then some key else none) ∧ f.payload = unmask h key 0 data :=
    ⟨⟨h.final, h.reserved1, h.reserved2, h.reserved3, h.opcode, _, _, hacc.opcode_lt,
      hpayload.le.trans hacc.length_le⟩, rfl, rfl, rfl, rfl, rfl, rfl, rfl⟩
  have hmasked : f.maskingKey.isSome = h.masked := by
    rw [hmask]
    cases h.masked <;> rfl
  have hheader : f.header = h := by
    rw [WireFrame.header, hfinal, hreserved1, hreserved2, hreserved3, hopcode, hmasked, hdata,
      hpayload]
  have hfkey : f.key = key := by
    rw [WireFrame.key, hmask]
    cases hcase : h.masked with
    | true => rfl
    | false => exact (hkey hcase).symm
  refine ⟨f, ?_⟩
  refine ⟨hheader, hfkey, hdata, ?_⟩
  rw [WireFrame.bytes, hheader, hfkey, hdata, unmask_unmask]

theorem behind_ne_idle {h : WebSocketFrameHeader} {key : WebSocketMaskingKey} {offset : ℕ}
    (hmore : offset ≠ h.payloadLength) : Reception.behind h key offset ≠ .idle := by
  rw [Reception.behind, if_neg hmore]
  exact Reception.noConfusion

/-- What leads a parser back between two frames is a frame. -/
theorem exists_frame_of_returns {bs : List UInt8} (h : frameReceiver.Returns .idle bs) :
    ∃ f : WireFrame, bs = f.bytes := by
  cases hscan : scanHeader.scan bs with
  | incomplete =>
    have hback := h.back
    rw [collects_header.feed_incomplete hscan] at hback
    exact absurd (Reception.header.inj hback) h.ne_nil
  | failed e =>
    have hback := h.back
    rw [collects_header.feed_failed hscan] at hback
    cases hback
  | complete value rest =>
    obtain ⟨header, key⟩ := value
    obtain ⟨hacc, hkey, rfl⟩ := WebSocketFrameHeader.headerBytes_of_scan hscan
    by_cases hlength : rest.length ≤ header.payloadLength
    · have hback := h.back
      rw [feed_header hacc hkey hlength] at hback
      have hwhole : rest.length = header.payloadLength := by
        by_contra hmore
        exact behind_ne_idle hmore hback
      obtain ⟨f, -, -, -, hbytes⟩ := exists_frame hacc hkey hwhole
      exact ⟨f, hbytes.symm⟩
    · -- The payload ends before the bytes do, and the parser is back too early.
      have htake : (rest.take header.payloadLength).length = header.payloadLength := by
        rw [List.length_take]
        omega
      refine absurd ?_ (h.first (header.headerBytes key ++ rest.take header.payloadLength)
        (rest.drop header.payloadLength) ?_ ?_ ?_)
      · rw [feed_header hacc hkey htake.le, Reception.behind, if_pos htake]
      · rw [List.append_assoc, List.take_append_drop]
      · exact List.append_ne_nil_of_left_ne_nil (List.cons_ne_nil _ _) _
      · intro hdrop
        have hzero := congrArg List.length hdrop
        rw [List.length_drop, List.length_nil] at hzero
        omega

/-- Any bytes are those of some frames, and others that no frame ends in. -/
theorem exists_frames (bs : List UInt8) :
    ∃ (frames : List WireFrame) (rest : List UInt8),
      bs = frames.flatMap WireFrame.bytes ++ rest ∧ frameReceiver.Leaves .idle rest :=
  Receiver.exists_cut (fun _ ↦ exists_frame_of_returns) bs

/-! ### Pieces -/

/-- What a chunk stands for. -/
def WebSocketFrameChunk.tokens (c : WebSocketFrameChunk) : List FrameToken :=
  (c.header.map FrameToken.header).toList ++
    (c.data.map .byte ++ if c.finalChunk then [.finish] else [])

/-- A chunk has the header of its frame or some data. -/
def WebSocketFrameChunk.IsLively (c : WebSocketFrameChunk) : Prop :=
  c.header.isSome = true ∨ c.data ≠ []

namespace WebSocketFrameParser

variable {p : WebSocketFrameParser} {header : WebSocketFrameHeader}

/-- Where the parser is at `current_read_pos_`. -/
def position (p : WebSocketFrameParser) : Reception :=
  match p.currentFrameHeader with
  | none => .idle
  | some header => .payload header p.maskingKey p.frameOffset

/-- Where the parser is between two pieces, with what it keeps of a header. -/
def reception (p : WebSocketFrameParser) : Reception :=
  if p.websocketError ≠ .normalClosure then .failed p.websocketError
  else
    match p.currentFrameHeader with
    | none => .header p.buffer
    | some header => .payload header p.maskingKey p.frameOffset

/-- What a round of `Decode` begins with. -/
structure Parsing (p : WebSocketFrameParser) : Prop where
  error : p.websocketError = .normalClosure
  le : p.currentReadPos ≤ p.buffer.length
  offset : p.currentFrameHeader = none → p.frameOffset = 0
  more : ∀ header, p.currentFrameHeader = some header → p.frameOffset < header.payloadLength

/-- What a parser is between two pieces. -/
structure Settled (p : WebSocketFrameParser) : Prop where
  start : p.currentReadPos = 0
  offset : p.currentFrameHeader = none → p.frameOffset = 0
  incomplete : p.websocketError = .normalClosure → p.currentFrameHeader = none →
    scanHeader.scan p.buffer = .incomplete
  more : ∀ header, p.currentFrameHeader = some header →
    p.buffer = [] ∧ p.frameOffset < header.payloadLength

theorem length_unread (p : WebSocketFrameParser) :
    p.unread.length = p.buffer.length - p.currentReadPos := List.length_drop

/-- Some bytes of a payload are handed on, in a chunk. The parser stops where there are no more. -/
structure HandsOn (p : WebSocketFrameParser) (header : WebSocketFrameHeader) (firstChunk : Bool)
    (part rest : List UInt8) (decoded : WebSocketFrameParser × WebSocketFrameChunk) : Prop where
  split : p.unread = part ++ rest
  le : p.frameOffset + part.length ≤ header.payloadLength
  nil : part = [] → p.unread = [] ∨ p.frameOffset = header.payloadLength
  unread : decoded.1.unread = rest
  parsing : decoded.1.Parsing
  position : decoded.1.position =
    Reception.behind header p.maskingKey (p.frameOffset + part.length)
  stops : decoded.1.currentFrameHeader.isSome = true → rest = []
  lively : firstChunk = true ∨ part ≠ [] → decoded.2.IsLively
  tokens : decoded.2.tokens = (if firstChunk then [FrameToken.header header] else []) ++
    ((unmask header p.maskingKey p.frameOffset part).map .byte ++
      finishAt header (p.frameOffset + part.length))

/-- Assumes: a frame whose payload has not ended before. -/
theorem handsOn_decodeFramePayload (p : WebSocketFrameParser) (header : WebSocketFrameHeader)
    (herror : p.websocketError = .normalClosure) (hle : p.frameOffset ≤ header.payloadLength)
    (hpos : p.currentReadPos ≤ p.buffer.length) (firstChunk : Bool) :
    ∃ part rest, p.HandsOn header firstChunk part rest (p.decodeFramePayload header firstChunk) := by
  have hunread := p.length_unread
  generalize hsize : min (p.buffer.length - p.currentReadPos) (header.payloadLength - p.frameOffset)
    = size
  have hpart : (p.unread.take size).length = size := by
    rw [List.length_take, hunread]
    omega
  have hrest : p.buffer.drop (p.currentReadPos + size) = p.unread.drop size := by
    rw [unread, List.drop_drop]
  have hdecoded : p.decodeFramePayload header firstChunk =
      ({ p with
          currentReadPos := p.currentReadPos + size
          frameOffset := if p.frameOffset + size = header.payloadLength then 0
            else p.frameOffset + size
          currentFrameHeader := if p.frameOffset + size = header.payloadLength then none
            else some header },
        { header := if firstChunk then some header else none
          finalChunk := p.frameOffset + size = header.payloadLength
          data := unmask header p.maskingKey p.frameOffset (p.unread.take size) }) := by
    unfold decodeFramePayload
    simp only [hsize]
    rfl
  rw [hdecoded]
  refine ⟨p.unread.take size, p.unread.drop size, (List.take_append_drop size _).symm, ?_, ?_,
    hrest, ⟨herror, ?_, ?_, ?_⟩, ?_, ?_, ?_, ?_⟩
  · rw [hpart]
    omega
  · intro hnil
    rw [hnil, List.length_nil] at hpart
    by_cases hend : p.frameOffset = header.payloadLength
    · exact .inr hend
    · exact .inl (List.eq_nil_of_length_eq_zero (by omega))
  · simp only
    omega
  · intro hnone
    by_cases hend : p.frameOffset + size = header.payloadLength
    · exact if_pos hend
    · simp [hend] at hnone
  · intro other hsome
    by_cases hend : p.frameOffset + size = header.payloadLength
    · simp [hend] at hsome
    · simp only [if_neg hend, Option.some.injEq] at hsome ⊢
      rw [← hsome]
      omega
  · rw [hpart]
    by_cases hend : p.frameOffset + size = header.payloadLength <;>
      simp [position, Reception.behind, hend]
  · intro hsome
    by_cases hend : p.frameOffset + size = header.payloadLength
    · simp [hend] at hsome
    · apply List.drop_eq_nil_of_le
      omega
  · rintro (hfirst | hsome)
    · exact .inl (by rw [if_pos hfirst]; rfl)
    · right
      rw [← List.length_pos_iff] at hsome ⊢
      rwa [length_unmask]
  · rw [hpart]
    unfold WebSocketFrameChunk.tokens finishAt
    simp only [decide_eq_true_eq]
    cases firstChunk <;> rfl

/-- The bytes that are read are recognised as a receiver recognises them, from some state on. -/
structure Recognises (start : Reception) (bytes : List UInt8) (s : Decoding) : Prop where
  parsing : s.parser.Parsing
  lively : ∀ c ∈ s.chunks, c.IsLively
  feed : frameReceiver.feed start bytes =
    ((frameReceiver.feed s.parser.position s.parser.unread).1,
      s.chunks.flatMap WebSocketFrameChunk.tokens ++
        (frameReceiver.feed s.parser.position s.parser.unread).2)

/-- What `Decode` comes to. -/
structure Recognised (start : Reception) (bytes : List UInt8) (s : Decoding) : Prop where
  settled : s.parser.drain.Settled
  lively : ∀ c ∈ s.chunks, c.IsLively
  feed : frameReceiver.feed start bytes =
    (s.parser.drain.reception, s.chunks.flatMap WebSocketFrameChunk.tokens)

theorem Parsing.reception_drain (h : p.Parsing) (hstop : p.currentFrameHeader.isSome = true → p.unread = [])
    (hscan : p.currentFrameHeader = none → scanHeader.scan p.unread = .incomplete) :
    p.drain.Settled ∧ frameReceiver.feed p.position p.unread = (p.drain.reception, []) := by
  have hdrain : p.drain = { p with buffer := p.unread, currentReadPos := 0 } :=
    if_neg (not_not.mpr h.error)
  rw [hdrain]
  cases hheader : p.currentFrameHeader with
  | none =>
    refine ⟨⟨rfl, fun _ ↦ h.offset hheader, fun _ _ ↦ hscan hheader, fun _ hsome ↦ ?_⟩, ?_⟩
    · cases hsome
    · rw [position, hheader]
      simp only [reception, h.error]
      exact collects_header.feed_incomplete (hscan hheader)
  | some header =>
    have hnil := hstop (by rw [hheader]; rfl)
    refine ⟨⟨rfl, fun hnone ↦ ?_, fun _ hnone ↦ ?_, fun other hsome ↦ ⟨hnil, ?_⟩⟩, ?_⟩
    · cases hnone
    · cases hnone
    · exact h.more other (hheader.trans hsome)
    · rw [hnil, position, hheader]
      simp [reception, h.error]

variable {start : Reception} {bytes part rest : List UInt8} {chunks : List WebSocketFrameChunk}
  {decoded : WebSocketFrameParser × WebSocketFrameChunk}

/-- Assumes: bytes that are handed on, behind those that were recognised. The loop goes on behind
them, or ends. -/
theorem HandsOn.decodeChunk {firstChunk : Bool} (h : p.HandsOn header firstChunk part rest decoded)
    (hsome : firstChunk = true ∨ part ≠ []) (hchunks : ∀ c ∈ chunks, c.IsLively)
    (hfeed : frameReceiver.feed start bytes =
      ((frameReceiver.feed decoded.1.position rest).1,
        chunks.flatMap WebSocketFrameChunk.tokens ++ (decoded.2.tokens ++
          (frameReceiver.feed decoded.1.position rest).2))) :
    (decodeChunk chunks decoded).Meets False
      (fun s ↦ Recognises start bytes s ∧ s.parser.unread.length = rest.length)
      (Recognised start bytes) := by
  have hlively : ∀ c ∈ chunks ++ [decoded.2], c.IsLively := by
    intro c hc
    rcases List.mem_append.mp hc with hbefore | hlast
    · exact hchunks c hbefore
    · rw [List.mem_singleton.mp hlast]
      exact h.lively hsome
  unfold WebSocketFrameParser.decodeChunk
  cases hstop : decoded.1.currentFrameHeader.isSome with
  | true =>
    have hnil := h.stops hstop
    have hunread : decoded.1.unread = [] := h.unread.trans hnil
    obtain ⟨hsettled, hlast⟩ := h.parsing.reception_drain (fun _ ↦ hunread) fun hnone ↦ by
      rw [hnone] at hstop
      cases hstop
    refine ⟨hsettled, hlively, ?_⟩
    rw [hunread] at hlast
    rw [hfeed, hnil, hlast, List.flatMap_append]
    simp
  | false =>
    refine ⟨⟨h.parsing, hlively, ?_⟩, by rw [h.unread]⟩
    rw [hfeed, h.unread, List.flatMap_append, List.append_assoc]
    simp

theorem decodeFrameHeader_of_incomplete (h : scanHeader.scan p.unread = .incomplete) :
    p.decodeFrameHeader = p := by
  rw [unread] at h
  rw [decodeFrameHeader, h]

theorem decodeFrameHeader_of_failed {e : WebSocketError}
    (h : scanHeader.scan p.unread = .failed e) :
    p.decodeFrameHeader =
      { p with
        websocketError := e, buffer := [], currentReadPos := 0, currentFrameHeader := none
        frameOffset := 0 } := by
  rw [unread] at h
  rw [decodeFrameHeader, h]

theorem decodeFrameHeader_of_complete {key : WebSocketMaskingKey}
    (h : scanHeader.scan p.unread = .complete (header, key) rest) :
    p.decodeFrameHeader =
      { p with
        currentFrameHeader := some header, maskingKey := key
        currentReadPos := p.buffer.length - rest.length } := by
  rw [unread] at h
  rw [decodeFrameHeader, h]

/-- Assumes: a header that is complete. The bytes behind it are to be read next. -/
theorem unread_decodeFrameHeader {key : WebSocketMaskingKey} (hle : p.currentReadPos ≤ p.buffer.length)
    (h : scanHeader.scan p.unread = .complete (header, key) rest) :
    p.decodeFrameHeader.unread = rest := by
  obtain ⟨-, -, hsplit⟩ := WebSocketFrameHeader.headerBytes_of_scan h
  have hlength := p.length_unread
  rw [hsplit, List.length_append] at hlength
  have hdrop : p.buffer.length - rest.length =
      p.currentReadPos + (header.headerBytes key).length := by omega
  rw [unread] at hsplit
  rw [decodeFrameHeader_of_complete h, unread]
  simp only
  rw [hdrop, ← List.drop_drop, hsplit, List.drop_left]

/-- Assumes: a header that fails. The parser has failed for good. -/
theorem Recognises.of_failed {s : Decoding} (h : Recognises start bytes s)
    (hheader : s.parser.currentFrameHeader = none) {e : WebSocketError}
    (hscan : scanHeader.scan s.parser.unread = .failed e) :
    Recognised start bytes { s with parser := s.parser.decodeFrameHeader } := by
  have herror := failsWith_scanHeader _ _ hscan
  have hfeed := h.feed
  rw [position, hheader] at hfeed
  have hdrain : s.parser.decodeFrameHeader.drain = s.parser.decodeFrameHeader := by
    rw [decodeFrameHeader_of_failed hscan]
    exact if_pos herror
  refine ⟨?_, h.lively, ?_⟩
  · rw [hdrain, decodeFrameHeader_of_failed hscan]
    exact ⟨rfl, fun _ ↦ rfl, fun hnot ↦ absurd hnot herror, fun _ hsome ↦ by cases hsome⟩
  · rw [hdrain, decodeFrameHeader_of_failed hscan, hfeed, collects_header.feed_failed hscan,
      List.append_nil]
    simp only [reception, if_pos herror]

/-- Assumes: no bytes for a header, or not enough of them. -/
theorem Recognises.of_stopped {s : Decoding} (h : Recognises start bytes s)
    (hstop : s.parser.currentFrameHeader.isSome = true → s.parser.unread = [])
    (hscan : s.parser.currentFrameHeader = none →
      scanHeader.scan s.parser.unread = .incomplete) : Recognised start bytes s := by
  obtain ⟨hsettled, hlast⟩ := h.parsing.reception_drain hstop hscan
  refine ⟨hsettled, h.lively, ?_⟩
  rw [h.feed, hlast, List.append_nil]

/-- A round of `Decode` recognises what a receiver does, and takes something if it is not the
last. -/
theorem Recognises.decodeRound {s : Decoding} (h : Recognises start bytes s) :
    (decodeRound s).Meets False
      (fun next ↦ Recognises start bytes next ∧
        next.parser.unread.length < s.parser.unread.length)
      (Recognised start bytes) := by
  obtain ⟨hparsing, hlively, hfeed⟩ := h
  unfold WebSocketFrameParser.decodeRound
  by_cases hmore : s.parser.currentReadPos < s.parser.buffer.length
  · have hpos : s.parser.unread ≠ [] := by
      intro hnil
      have hzero := s.parser.length_unread
      rw [hnil, List.length_nil] at hzero
      omega
    rw [if_pos hmore]
    cases hheader : s.parser.currentFrameHeader with
    | some header =>
      have hlt := hparsing.more header hheader
      obtain ⟨part, rest, hands⟩ := handsOn_decodeFramePayload s.parser header hparsing.error
        hlt.le hparsing.le false
      have hpart : part ≠ [] := by
        intro hnil
        rcases hands.nil hnil with hempty | hend
        · exact hpos hempty
        · omega
      refine (hands.decodeChunk (.inr hpart) hlively ?_).mono (fun next hnext ↦ ⟨hnext.1, ?_⟩)
        fun r hr ↦ hr
      · rw [hfeed, position, hheader, hands.split, Receiver.feed_append, feed_payload hpart hands.le,
          hands.position, hands.tokens]
        simp
      · rw [hnext.2, hands.split, List.length_append]
        have hlength := List.length_pos_of_ne_nil hpart
        omega
    | none =>
      cases hscan : scanHeader.scan s.parser.unread with
      | incomplete =>
        simp only [decodeFrameHeader_of_incomplete hscan, hheader]
        exact Recognises.of_stopped ⟨hparsing, hlively, hfeed⟩ (by simp [hheader]) fun _ ↦ hscan
      | failed e =>
        have hfailed := Recognises.of_failed ⟨hparsing, hlively, hfeed⟩ hheader hscan
        simp only [decodeFrameHeader_of_failed hscan] at hfailed ⊢
        exact hfailed
      | complete value rest =>
        obtain ⟨header, key⟩ := value
        obtain ⟨hacc, hkey, hsplit⟩ := WebSocketFrameHeader.headerBytes_of_scan hscan
        have hunread := unread_decodeFrameHeader hparsing.le hscan
        have hopened := decodeFrameHeader_of_complete hscan
        have hoffset : s.parser.decodeFrameHeader.frameOffset = 0 := by
          rw [hopened]
          exact hparsing.offset hheader
        have hmask : s.parser.decodeFrameHeader.maskingKey = key := by rw [hopened]
        have hcurrent : s.parser.decodeFrameHeader.currentFrameHeader = some header := by
          rw [hopened]
        obtain ⟨part, others, hands⟩ :=
          handsOn_decodeFramePayload s.parser.decodeFrameHeader header
            (by rw [hopened]; exact hparsing.error) (by rw [hoffset]; exact Nat.zero_le _)
            (by rw [hopened]; exact Nat.sub_le _ _) true
        have hle := hands.le
        have hrest : rest = part ++ others := hunread.symm.trans hands.split
        rw [hoffset, Nat.zero_add] at hle
        simp only [hcurrent]
        refine (hands.decodeChunk (.inl rfl) hlively ?_).mono (fun next hnext ↦ ⟨hnext.1, ?_⟩)
          fun r hr ↦ hr
        · rw [hfeed, position, hheader, hsplit, hrest, ← List.append_assoc, Receiver.feed_append,
            feed_header hacc hkey hle, hands.position, hands.tokens, hoffset, hmask]
          simp
        · have hheaderLength : 0 < (header.headerBytes key).length :=
            List.length_pos_of_ne_nil (List.cons_ne_nil _ _)
          rw [hnext.2, hsplit, hrest, List.length_append, List.length_append]
          omega
  · have hnil : s.parser.unread = [] := by
      apply List.drop_eq_nil_of_le
      omega
    rw [if_neg hmore]
    refine Recognises.of_stopped ⟨hparsing, hlively, hfeed⟩ (fun _ ↦ hnil) fun _ ↦ ?_
    rw [hnil]
    rfl

/-- `Decode` recognises what a receiver does, in its loop. -/
theorem recognises_append (h : p.Settled) (herror : p.websocketError = .normalClosure)
    (data : List UInt8) :
    Recognises p.reception data ⟨{ p with buffer := p.buffer ++ data }, []⟩ := by
  have hunread : ({ p with buffer := p.buffer ++ data } : WebSocketFrameParser).unread =
      p.buffer ++ data := by
    rw [unread, h.start, List.drop_zero]
  refine ⟨⟨herror, ?_, h.offset, fun header hsome ↦ (h.more header hsome).2⟩,
    fun _ hc ↦ absurd hc List.not_mem_nil, ?_⟩
  · rw [h.start]
    exact Nat.zero_le _
  · rw [hunread, reception, if_neg (not_not.mpr herror), position]
    cases hheader : p.currentFrameHeader with
    | none =>
      simp only
      rw [Receiver.feed_append,
        collects_header.feed_incomplete (h.incomplete herror hheader)]
      simp
    | some header =>
      simp only
      rw [(h.more header hheader).1]
      simp

/-- Assumes: a parser that has not failed, and some bytes. -/
theorem exists_recognised (h : p.Settled) (herror : p.websocketError = .normalClosure)
    {data : List UInt8} (hdata : data ≠ []) :
    ∃ s, p.decode data = (s.parser.drain, s.chunks) ∧ Recognised p.reception data s := by
  have hnot : ¬(p.websocketError ≠ .normalClosure ∨ data = []) := by
    simp [herror, hdata]
  obtain ⟨s, hend, hrecognised⟩ := (runLoop_meets (fun s ↦ s.parser.unread.length)
    (fun _ ↦ Recognises.decodeRound) (recognises_append h herror data)
    (Nat.lt_succ_of_le (List.length_drop.trans_le (Nat.sub_le _ _)))).finished
  refine ⟨s, ?_, hrecognised⟩
  unfold decode
  rw [if_neg hnot]
  simp only [hend]

/-- A piece is taken as a receiver takes it that takes one byte at a time, and every chunk has a
header or some data. -/
theorem decode_spec (h : p.Settled) (data : List UInt8) :
    (p.decode data).1.Settled ∧
      frameReceiver.feed p.reception data =
        ((p.decode data).1.reception, (p.decode data).2.flatMap WebSocketFrameChunk.tokens) ∧
      ∀ c ∈ (p.decode data).2, c.IsLively := by
  by_cases herror : p.websocketError = .normalClosure
  · by_cases hdata : data = []
    · have hsame : p.decode data = (p, []) := if_pos (.inr hdata)
      rw [hsame, hdata]
      exact ⟨h, rfl, fun _ hc ↦ absurd hc List.not_mem_nil⟩
    · obtain ⟨s, hdecode, hrecognised⟩ := exists_recognised h herror hdata
      rw [hdecode]
      exact ⟨hrecognised.settled, hrecognised.feed, hrecognised.lively⟩
  · have hsame : p.decode data = (p, []) := if_pos (.inl herror)
    rw [hsame, reception, if_pos herror, Receiver.feed_of_stuck _ fun _ ↦ rfl]
    exact ⟨h, rfl, fun _ hc ↦ absurd hc List.not_mem_nil⟩

/-- Between two pieces, a parser is where a receiver is that took one byte at a time, and what it
handed on is what that has recognised. -/
theorem follows_decode :
    frameReceiver.Follows decode Settled reception WebSocketFrameChunk.tokens :=
  fun _ data h ↦ ⟨(decode_spec h data).1, (decode_spec h data).2.1⟩

/-- A parser that was given some pieces, and what it handed on. -/
def parse (pieces : List (List UInt8)) : WebSocketFrameParser × List WebSocketFrameChunk :=
  Receiver.takeAll decode {} pieces

theorem settled_nil : ({} : WebSocketFrameParser).Settled where
  start := rfl
  offset _ := rfl
  incomplete _ _ := rfl
  more _ h := by cases h

theorem settled_parse (pieces : List (List UInt8)) : (parse pieces).1.Settled :=
  (follows_decode.takeAll settled_nil pieces).1

/-- However a stream is cut, what is made of it is what a receiver makes of it. -/
theorem feed_parse (pieces : List (List UInt8)) :
    frameReceiver.feed .idle pieces.flatten =
      ((parse pieces).1.reception, (parse pieces).2.flatMap WebSocketFrameChunk.tokens) :=
  (follows_decode.takeAll settled_nil pieces).2

theorem lively_parse (pieces : List (List UInt8)) : ∀ c ∈ (parse pieces).2, c.IsLively :=
  Receiver.forall_mem_takeAll (I := Settled)
    (fun _ data h ↦ ⟨(decode_spec h data).1, (decode_spec h data).2.2⟩) settled_nil pieces

end WebSocketFrameParser

/-! ### Chunks of frames -/

/-- Chunks carry the rest of a payload, up to its end or not. -/
inductive Continues : Bool → List UInt8 → List WebSocketFrameChunk → Prop
  | nil : Continues false [] []
  | last {data : List UInt8} (hdata : data ≠ []) :
    Continues true data [{ finalChunk := true, data := data }]
  | more {data payload : List UInt8} {ended : Bool} {chunks : List WebSocketFrameChunk}
    (hdata : data ≠ []) (rest : Continues ended payload chunks) :
    Continues ended (data ++ payload) ({ data := data } :: chunks)

/-- Chunks carry the payload behind a header, up to its end or not. -/
inductive Carries (header : WebSocketFrameHeader) :
    Bool → List UInt8 → List WebSocketFrameChunk → Prop
  | whole (payload : List UInt8) :
    Carries header true payload [{ header := some header, finalChunk := true, data := payload }]
  | split {data payload : List UInt8} {ended : Bool} {chunks : List WebSocketFrameChunk}
    (rest : Continues ended payload chunks) :
    Carries header ended (data ++ payload) ({ header := some header, data := data } :: chunks)

/-- The token of an end. -/
def endTokens (ended : Bool) : List FrameToken := if ended then [.finish] else []

variable {chunks : List WebSocketFrameChunk} {payload : List UInt8} {rest : List FrameToken}
  {ended : Bool}

/-- Assumes: a list that does not begin with a byte. Bytes that are a beginning of others. -/
theorem byte_append_cases {data payload : List UInt8} {ts tail : List FrameToken}
    (htail : ∀ b others, tail ≠ .byte b :: others)
    (h : data.map FrameToken.byte ++ ts = payload.map FrameToken.byte ++ tail) :
    ∃ more, payload = data ++ more ∧ ts = more.map .byte ++ tail := by
  induction data generalizing payload with
  | nil => exact ⟨payload, rfl, h⟩
  | cons b data ih =>
    cases payload with
    | nil => exact absurd h.symm (htail b _)
    | cons b' payload =>
      rw [List.map_cons, List.map_cons, List.cons_append, List.cons_append, List.cons.injEq] at h
      obtain ⟨hb, h⟩ := h
      cases hb
      obtain ⟨more, rfl, hts⟩ := ih h
      exact ⟨more, rfl, hts⟩

theorem endTokens_append_ne (hrest : ended = false → rest = []) (b : UInt8)
    (others : List FrameToken) : endTokens ended ++ rest ≠ .byte b :: others := by
  cases ended with
  | true => simp [endTokens]
  | false => simp [endTokens, hrest]

/-- Chunks that are lively stand for something. -/
theorem eq_nil_of_tokens (hlively : ∀ c ∈ chunks, c.IsLively)
    (h : chunks.flatMap WebSocketFrameChunk.tokens = []) : chunks = [] := by
  cases chunks with
  | nil => rfl
  | cons c others =>
    obtain ⟨header, finalChunk, data⟩ := c
    rw [List.flatMap_cons, List.append_eq_nil_iff, WebSocketFrameChunk.tokens,
      List.append_eq_nil_iff, List.append_eq_nil_iff] at h
    obtain ⟨⟨hheader, hdata, -⟩, -⟩ := h
    rcases hlively _ List.mem_cons_self with hsome | hsome
    · cases header <;> simp at hsome hheader
    · exact absurd (List.map_eq_nil_iff.mp hdata) hsome

/-- Chunks that are lively do not begin with an end. -/
theorem tokens_ne_finish (hlively : ∀ c ∈ chunks, c.IsLively) (ts : List FrameToken) :
    chunks.flatMap WebSocketFrameChunk.tokens ≠ .finish :: ts := by
  cases chunks with
  | nil => simp
  | cons c others =>
    obtain ⟨header, finalChunk, data⟩ := c
    have hfirst := hlively _ List.mem_cons_self
    cases header with
    | some header => simp [WebSocketFrameChunk.tokens]
    | none =>
      cases data with
      | nil => simp [WebSocketFrameChunk.IsLively] at hfirst
      | cons b data => simp [WebSocketFrameChunk.tokens]

/-- Assumes: the data of a chunk, and what stands behind it. Either the chunk ends the payload, or
other chunks carry the rest of it. -/
theorem data_cases {data : List UInt8} {finalChunk : Bool} (hrest : ended = false → rest = [])
    (hlively : ∀ c ∈ chunks, c.IsLively)
    (h : data.map FrameToken.byte ++
      ((if finalChunk then [FrameToken.finish] else []) ++
        chunks.flatMap WebSocketFrameChunk.tokens) =
          payload.map .byte ++ (endTokens ended ++ rest)) :
    (finalChunk = true ∧ ended = true ∧ payload = data ∧
        chunks.flatMap WebSocketFrameChunk.tokens = rest) ∨
      (finalChunk = false ∧ ∃ more, payload = data ++ more ∧ (ended = true → more ≠ []) ∧
        chunks.flatMap WebSocketFrameChunk.tokens = more.map .byte ++ (endTokens ended ++ rest)) := by
  obtain ⟨more, hpayload, hmore⟩ := byte_append_cases (endTokens_append_ne hrest) h
  cases finalChunk with
  | true =>
    left
    have hnil : more = [] := by
      cases more with
      | nil => rfl
      | cons b more => simp at hmore
    rw [hnil] at hpayload hmore
    cases ended with
    | true => exact ⟨rfl, rfl, by rw [hpayload, List.append_nil], (List.cons.inj hmore).2⟩
    | false =>
      rw [hrest rfl] at hmore
      simp [endTokens] at hmore
  | false =>
    refine .inr ⟨rfl, more, hpayload, ?_, hmore⟩
    intro hended hnil
    rw [hended, hnil] at hmore
    exact tokens_ne_finish hlively rest hmore

/-- Assumes: chunks that stand for the rest of a payload, and its end and what is behind it. -/
theorem continues_of_tokens (hlively : ∀ c ∈ chunks, c.IsLively)
    (hpayload : ended = true → payload ≠ []) (hrest : ended = false → rest = [])
    (h : chunks.flatMap WebSocketFrameChunk.tokens =
      payload.map .byte ++ (endTokens ended ++ rest)) :
    ∃ cut others, chunks = cut ++ others ∧ Continues ended payload cut ∧
      others.flatMap WebSocketFrameChunk.tokens = rest := by
  induction chunks generalizing payload with
  | nil =>
    cases ended with
    | true => simp [endTokens] at h
    | false =>
      have hnil : payload = [] := by
        simpa [endTokens, hrest rfl] using h.symm
      rw [hnil, hrest rfl]
      exact ⟨[], [], rfl, .nil, rfl⟩
  | cons c chunks ih =>
    obtain ⟨header, finalChunk, data⟩ := c
    have hfirst := hlively _ List.mem_cons_self
    have hothers : ∀ c ∈ chunks, c.IsLively := fun c hc ↦ hlively c (List.mem_cons_of_mem _ hc)
    rw [List.flatMap_cons, WebSocketFrameChunk.tokens] at h
    cases header with
    | some header =>
      cases payload with
      | nil => cases ended <;> simp_all [endTokens]
      | cons b payload => simp at h
    | none =>
      have hdata : data ≠ [] := hfirst.resolve_left Bool.false_ne_true
      simp only [Option.map_none, Option.toList_none, List.nil_append, List.append_assoc] at h
      rcases data_cases hrest hothers h with
        ⟨rfl, rfl, rfl, hlast⟩ | ⟨rfl, more, rfl, hmore, hnext⟩
      · exact ⟨[_], chunks, rfl, .last hdata, hlast⟩
      · obtain ⟨cut, others, rfl, hcut, htokens⟩ := ih hothers hmore hnext
        exact ⟨_ :: cut, others, rfl, .more hdata hcut, htokens⟩

/-- Assumes: chunks that stand for a header with a payload, and its end and what is behind it. -/
theorem carries_of_tokens {header : WebSocketFrameHeader} (hlively : ∀ c ∈ chunks, c.IsLively)
    (hrest : ended = false → rest = [])
    (h : chunks.flatMap WebSocketFrameChunk.tokens =
      .header header :: payload.map .byte ++ (endTokens ended ++ rest)) :
    ∃ cut others, chunks = cut ++ others ∧ Carries header ended payload cut ∧
      others.flatMap WebSocketFrameChunk.tokens = rest := by
  cases chunks with
  | nil => cases h
  | cons c chunks =>
    obtain ⟨first, finalChunk, data⟩ := c
    have hfirst := hlively _ List.mem_cons_self
    have hothers : ∀ c ∈ chunks, c.IsLively := fun c hc ↦ hlively c (List.mem_cons_of_mem _ hc)
    rw [List.flatMap_cons, WebSocketFrameChunk.tokens] at h
    cases first with
    | none =>
      cases data with
      | nil => exact absurd rfl (hfirst.resolve_left Bool.false_ne_true)
      | cons b data => simp at h
    | some first =>
      simp only [Option.map_some, Option.toList_some, List.cons_append, List.nil_append,
        List.append_assoc, List.cons.injEq, FrameToken.header.injEq] at h
      obtain ⟨rfl, h⟩ := h
      rcases data_cases hrest hothers h with
        ⟨rfl, rfl, rfl, hlast⟩ | ⟨rfl, more, rfl, hmore, hnext⟩
      · exact ⟨[_], chunks, rfl, .whole _, hlast⟩
      · obtain ⟨cut, others, rfl, hcut, htokens⟩ := continues_of_tokens hothers hmore hrest hnext
        exact ⟨_ :: cut, others, rfl, .split hcut, htokens⟩

/-- A frame arrives in chunks. -/
def WireFrame.Arrives (f : WireFrame) (cut : List WebSocketFrameChunk) : Prop :=
  Carries f.header true f.payload cut

/-- Assumes: chunks that stand for some frames, and for what is behind them. -/
theorem arrive_of_tokens {frames : List WireFrame} (hlively : ∀ c ∈ chunks, c.IsLively)
    (h : chunks.flatMap WebSocketFrameChunk.tokens = frames.flatMap WireFrame.tokens ++ rest) :
    ∃ cuts others, chunks = cuts.flatten ++ others ∧
      List.Forall₂ WireFrame.Arrives frames cuts ∧
        others.flatMap WebSocketFrameChunk.tokens = rest := by
  induction frames generalizing chunks with
  | nil => exact ⟨[], chunks, rfl, .nil, h⟩
  | cons f frames ih =>
    rw [List.flatMap_cons, WireFrame.tokens, List.append_assoc, List.append_assoc] at h
    obtain ⟨cut, middle, rfl, hcut, hmiddle⟩ :=
      @carries_of_tokens chunks f.payload _ true f.header hlively
        (fun hnot ↦ absurd hnot.symm Bool.false_ne_true) h
    obtain ⟨cuts, others, rfl, hcuts, hothers⟩ :=
      ih (fun c hc ↦ hlively c (List.mem_append_right cut hc)) hmiddle
    exact ⟨cut :: cuts, others, by simp, .cons hcut hcuts, hothers⟩

/-! ### What is refused -/

/-- A header that is refused, with what is behind it: the length is in a longer form than it needs,
or 63 bits do not hold it, or an `int` does not. -/
inductive IsRefused : WebSocketError → List UInt8 → Prop
  | two {first second : UInt8} {bytes rest : List UInt8}
    (hfield : (second &&& kPayloadLengthMask).toNat = kPayloadLengthWithTwoByteExtendedLengthField)
    (hlength : bytes.length = 2)
    (hvalue : ofBigEndian bytes ≤ kMaxPayloadLengthWithoutExtendedLengthField) :
    IsRefused .protocolError ([first, second] ++ (bytes ++ rest))
  | eight {first second : UInt8} {bytes rest : List UInt8}
    (hfield : (second &&& kPayloadLengthMask).toNat =
      kPayloadLengthWithEightByteExtendedLengthField)
    (hlength : bytes.length = 8)
    (hvalue : ofBigEndian bytes ≤ uint16Max ∨ ofBigEndian bytes > int64MaxLength) :
    IsRefused .protocolError ([first, second] ++ (bytes ++ rest))
  | big {first second : UInt8} {bytes rest : List UInt8}
    (hfield : (second &&& kPayloadLengthMask).toNat =
      kPayloadLengthWithEightByteExtendedLengthField)
    (hlength : bytes.length = 8) (hint : ofBigEndian bytes > int32Max)
    (hvalue : ofBigEndian bytes ≤ int64MaxLength) :
    IsRefused .messageTooBig ([first, second] ++ (bytes ++ rest))

theorem not_failed_scanMaskingKey (masked : Bool) :
    (scanMaskingKey masked).FailsWith fun _ ↦ False := by
  unfold scanMaskingKey
  split_ifs
  · exact (Scanner.failsWith_take 4 _).bind fun bytes ↦ Scanner.failsWith_pure _ _
  · exact Scanner.failsWith_pure _ _

/-- What the scanning of a header fails with, the header is refused for. -/
theorem isRefused_of_scan {bs : List UInt8} {e : WebSocketError}
    (h : scanHeader.scan bs = .failed e) : IsRefused e bs := by
  obtain ⟨bytes, middle, hlength, rfl, hbehind⟩ := Scanner.exists_of_take_bind_failed h
  obtain ⟨first, second, rfl⟩ := List.length_eq_two.mp hlength
  rw [Scanner.bind_eq_failed] at hbehind
  rcases hbehind with hpayload | ⟨payloadLength, middle', -, hkey⟩
  · rw [List.getD_cons_succ, List.getD_cons_zero, scanPayloadLength] at hpayload
    split_ifs at hpayload with htwo height
    · obtain ⟨bytes, rest, hlength, rfl, hvalue⟩ := Scanner.exists_of_take_bind_failed hpayload
      split_ifs at hvalue with hsmall
      · cases hvalue
        exact .two htwo hlength hsmall
      · cases hvalue
    · obtain ⟨bytes, rest, hlength, rfl, hvalue⟩ := Scanner.exists_of_take_bind_failed hpayload
      split_ifs at hvalue with hfits hint
      · cases hvalue
        exact .eight height hlength hfits
      · cases hvalue
        exact .big height hlength hint (Nat.le_of_not_lt fun hlt ↦ hfits (.inr hlt))
      · cases hvalue
    · cases hpayload
  · exact absurd hkey fun hfailed ↦
      Scanner.FailsWith.bind (not_failed_scanMaskingKey _) (fun _ ↦ Scanner.failsWith_pure _ _)
        _ _ hfailed

/-- A header that is refused is one that fails. -/
theorem scan_of_isRefused {bs : List UInt8} {e : WebSocketError} (h : IsRefused e bs) :
    scanHeader.scan bs = .failed e := by
  have hhead : ∀ {first second : UInt8} {rest : List UInt8},
      (scanPayloadLength (second &&& kPayloadLengthMask).toNat).scan rest = .failed e →
        scanHeader.scan ([first, second] ++ rest) = .failed e := by
    intro first second rest hpayload
    rw [scanHeader, Scanner.scan_bind (Scanner.scan_take (show [_, _].length = 2 from rfl) _)]
    exact Scanner.bind_eq_failed.mpr (.inl hpayload)
  cases h with
  | two hfield hlength hvalue =>
    apply hhead
    rw [scanPayloadLength, if_pos hfield, Scanner.scan_bind (Scanner.scan_take hlength _),
      if_pos hvalue]
    rfl
  | eight hfield hlength hvalue =>
    apply hhead
    rw [scanPayloadLength, hfield, if_neg (by decide), if_pos rfl,
      Scanner.scan_bind (Scanner.scan_take hlength _), if_pos hvalue]
    rfl
  | big hfield hlength hint hvalue =>
    apply hhead
    have hfits : ∀ n, n > int32Max → n ≤ int64MaxLength → ¬(n ≤ uint16Max ∨ n > int64MaxLength) := by
      intro n hn hle
      unfold uint16Max
      unfold int32Max at hn
      omega
    rw [scanPayloadLength, hfield, if_neg (by decide), if_pos rfl,
      Scanner.scan_bind (Scanner.scan_take hlength _), if_neg (hfits _ hint hvalue), if_pos hint]
    rfl

/-! ### Any stream -/

/-- What becomes of bytes that no frame ends in: the beginning of a header is kept, what has come of
a payload was handed on, and a header that is refused ends it all. -/
inductive EndsIn : List UInt8 → List WebSocketFrameChunk → WebSocketFrameParser → Prop
  | header {rest : List UInt8} {p : WebSocketFrameParser}
    (hscan : scanHeader.scan rest = .incomplete) (hreception : p.reception = .header rest) :
    EndsIn rest [] p
  | payload {header : WebSocketFrameHeader} {key : WebSocketMaskingKey} {data : List UInt8}
    {chunks : List WebSocketFrameChunk} {p : WebSocketFrameParser}
    (hacc : header.IsAcceptable) (hkey : header.KeyFits key)
    (hmore : data.length < header.payloadLength)
    (hchunks : Carries header false (unmask header key 0 data) chunks)
    (hreception : p.reception = .payload header key data.length) :
    EndsIn (header.headerBytes key ++ data) chunks p
  | refused {rest : List UInt8} {p : WebSocketFrameParser} {e : WebSocketError}
    (hrefused : IsRefused e rest) (herror : p.websocketError = e) : EndsIn rest [] p

theorem EndsIn.of_nil {rest : List UInt8} {chunks : List WebSocketFrameChunk}
    {p : WebSocketFrameParser} (h : EndsIn rest chunks p) (hrest : rest = []) :
    p.reception = .idle ∧ chunks = [] := by
  cases h with
  | header hscan hreception =>
    rw [hrest] at hreception
    exact ⟨hreception, rfl⟩
  | payload hacc hkey hmore hchunks hreception => cases hrest
  | refused hrefused herror =>
    rw [hrest] at hrefused
    have hscan := scan_of_isRefused hrefused
    cases hscan

namespace WebSocketFrameParser

theorem reception_eq_failed {p : WebSocketFrameParser} {e : WebSocketError}
    (h : p.reception = .failed e) : p.websocketError = e := by
  unfold reception at h
  split_ifs at h with herror
  · exact Reception.failed.inj h
  · cases hheader : p.currentFrameHeader <;> simp [hheader] at h

theorem error_of_reception {p : WebSocketFrameParser} (h : ∀ e, p.reception ≠ .failed e) :
    p.websocketError = .normalClosure := by
  by_contra herror
  exact h p.websocketError (if_pos herror)

/-- Assumes: pieces of some frames, and of bytes that no frame ends in. The frames are handed on,
each in chunks of its own. -/
theorem parse_append {frames : List WireFrame} {rest : List UInt8} {pieces : List (List UInt8)}
    (hflatten : pieces.flatten = frames.flatMap WireFrame.bytes ++ rest)
    (hrest : ∀ header key data, scanHeader.scan rest = .complete (header, key) data →
      data.length < header.payloadLength) :
    ∃ (cuts : List (List WebSocketFrameChunk)) (chunks : List WebSocketFrameChunk),
      (parse pieces).2 = cuts.flatten ++ chunks ∧
        List.Forall₂ WireFrame.Arrives frames cuts ∧ EndsIn rest chunks (parse pieces).1 := by
  have hfeed := feed_parse pieces
  rw [hflatten, Receiver.feed_append, reads_frames.feed_flatMap, Prod.mk.injEq] at hfeed
  obtain ⟨hreception, htokens⟩ := hfeed
  obtain ⟨cuts, chunks, hchunks, hcuts, hothers⟩ :=
    arrive_of_tokens (lively_parse pieces) htokens.symm
  have hlively : ∀ c ∈ chunks, c.IsLively := by
    intro c hc
    apply lively_parse pieces
    rw [hchunks]
    exact List.mem_append_right _ hc
  refine ⟨cuts, chunks, hchunks, hcuts, ?_⟩
  have hsilent : (frameReceiver.feed .idle rest).2 = [] → chunks = [] :=
    fun hnil ↦ eq_nil_of_tokens hlively (hothers.trans hnil)
  cases hscan : scanHeader.scan rest with
  | incomplete =>
    have hfeed := collects_header.feed_incomplete hscan
    rw [hsilent (by rw [hfeed])]
    exact .header hscan (by rw [← hreception, hfeed])
  | failed e =>
    have hfeed := collects_header.feed_failed hscan
    rw [hsilent (by rw [hfeed])]
    exact .refused (isRefused_of_scan hscan) (reception_eq_failed (by rw [← hreception, hfeed]))
  | complete value data =>
    obtain ⟨header, key⟩ := value
    obtain ⟨hacc, hkey, rfl⟩ := WebSocketFrameHeader.headerBytes_of_scan hscan
    have hmore := hrest header key data hscan
    have hfeed := feed_header hacc hkey hmore.le
    rw [Reception.behind, if_neg hmore.ne, finishAt, if_neg hmore.ne] at hfeed
    rw [hfeed] at hothers hreception
    obtain ⟨cut, others, rfl, hcut, hnone⟩ := @carries_of_tokens chunks (unmask header key 0 data)
      [] false header hlively (fun _ ↦ rfl) hothers
    have hnil := eq_nil_of_tokens (fun c hc ↦ hlively c (List.mem_append_right cut hc)) hnone
    rw [hnil, List.append_nil]
    exact .payload hacc hkey hmore hcut hreception.symm

/-- Assumes: bytes that no frame ends in. A payload has not come to its end. -/
theorem length_lt_of_leaves {rest : List UInt8} (h : frameReceiver.Leaves .idle rest)
    {header : WebSocketFrameHeader} {key : WebSocketMaskingKey} {data : List UInt8}
    (hscan : scanHeader.scan rest = .complete (header, key) data) :
    data.length < header.payloadLength := by
  obtain ⟨hacc, hkey, rfl⟩ := WebSocketFrameHeader.headerBytes_of_scan hscan
  by_contra hwhole
  have htake : (data.take header.payloadLength).length = header.payloadLength := by
    rw [List.length_take]
    omega
  refine h (header.headerBytes key ++ data.take header.payloadLength)
    (data.drop header.payloadLength) ?_ ?_ ?_
  · rw [List.append_assoc, List.take_append_drop]
  · exact List.append_ne_nil_of_left_ne_nil (List.cons_ne_nil _ _) _
  · rw [feed_header hacc hkey htake.le, Reception.behind, if_pos htake]

/-- Whatever was given to a parser, in whatever pieces, is some frames, which were handed on in
chunks, and bytes that no frame ends in. -/
theorem parse_cases (pieces : List (List UInt8)) :
    ∃ (frames : List WireFrame) (rest : List UInt8) (cuts : List (List WebSocketFrameChunk))
      (chunks : List WebSocketFrameChunk),
      pieces.flatten = frames.flatMap WireFrame.bytes ++ rest ∧
        (parse pieces).2 = cuts.flatten ++ chunks ∧
          List.Forall₂ WireFrame.Arrives frames cuts ∧ EndsIn rest chunks (parse pieces).1 := by
  obtain ⟨frames, rest, hflatten, hleaves⟩ := exists_frames pieces.flatten
  obtain ⟨cuts, chunks, hchunks, hcuts, hends⟩ :=
    parse_append hflatten fun _ _ _ ↦ length_lt_of_leaves hleaves
  exact ⟨frames, rest, cuts, chunks, hflatten, hchunks, hcuts, hends⟩

/-- What is kept for the next piece is less than the longest header. -/
theorem Settled.length_buffer_lt {p : WebSocketFrameParser} (h : p.Settled)
    (herror : p.websocketError = .normalClosure) : p.buffer.length < 14 := by
  cases hheader : p.currentFrameHeader with
  | none =>
    by_contra hlong
    exact within_scanHeader.enough (Nat.le_of_not_lt hlong) (h.incomplete herror hheader)
  | some header =>
    rw [(h.more header hheader).1]
    decide

/-- Assumes: an error. The parser ends with it exactly if what it was given begins with some frames
and a header that is refused for it, however all of that was cut. Before that, the frames are handed
on, and less than the longest header is kept. -/
theorem parse_fails_iff (pieces : List (List UInt8)) (e : WebSocketError) (he : e ≠ .normalClosure) :
    ((parse pieces).1.websocketError = e ↔
      ∃ (frames : List WireFrame) (rest : List UInt8),
        pieces.flatten = frames.flatMap WireFrame.bytes ++ rest ∧ IsRefused e rest) ∧
      ((parse pieces).1.websocketError = .normalClosure → (parse pieces).1.buffer.length < 14) ∧
        ∀ frames : List WireFrame, pieces.flatten = frames.flatMap WireFrame.bytes →
          (parse pieces).1.reception = .idle ∧
            ∃ cuts, (parse pieces).2 = cuts.flatten ∧ List.Forall₂ WireFrame.Arrives frames cuts := by
  refine ⟨⟨fun herror ↦ ?_, ?_⟩, (settled_parse pieces).length_buffer_lt, fun frames hframes ↦ ?_⟩
  · obtain ⟨frames, rest, cuts, chunks, hflatten, -, -, hends⟩ := parse_cases pieces
    refine ⟨frames, rest, hflatten, ?_⟩
    have hfailed : (parse pieces).1.reception = .failed e := by
      rw [reception, if_pos (by rw [herror]; exact he), herror]
    cases hends with
    | header hscan hreception =>
      rw [hreception] at hfailed
      cases hfailed
    | payload hacc hkey hmore hchunks hreception =>
      rw [hreception] at hfailed
      cases hfailed
    | refused hrefused hsame =>
      rw [← herror, hsame]
      exact hrefused
  · rintro ⟨frames, rest, hflatten, hrefused⟩
    have hscan := scan_of_isRefused hrefused
    obtain ⟨cuts, chunks, -, -, hends⟩ := parse_append hflatten fun header key data hcomplete ↦ by
      rw [hscan] at hcomplete
      cases hcomplete
    cases hends with
    | header hincomplete hreception =>
      rw [hincomplete] at hscan
      cases hscan
    | payload hacc hkey hmore hchunks hreception =>
      rw [WebSocketFrameHeader.scan_headerBytes hacc hkey] at hscan
      cases hscan
    | refused hrefused' hsame =>
      have hscan' := scan_of_isRefused hrefused'
      rw [hscan] at hscan'
      cases hscan'
      exact hsame
  · rw [← List.append_nil (frames.flatMap WireFrame.bytes)] at hframes
    obtain ⟨cuts, chunks, hchunks, hcuts, hends⟩ := parse_append hframes fun header key data hnil ↦ by
      cases hnil
    obtain ⟨hidle, hnone⟩ := hends.of_nil rfl
    rw [hnone, List.append_nil] at hchunks
    exact ⟨hidle, cuts, hchunks, hcuts⟩

/-- A length of five bytes in two bytes. -/
theorem parse_fails_iff_two_bytes :
    (parse [[129, 126, 0], [5]]).1.websocketError = .protocolError :=
  (parse_fails_iff [[129, 126, 0], [5]] .protocolError WebSocketError.noConfusion).1.mpr
    ⟨[], [129, 126, 0, 5], rfl, @IsRefused.two 129 126 [0, 5] [] (by decide) rfl (by decide)⟩

end WebSocketFrameParser

end Felicia
