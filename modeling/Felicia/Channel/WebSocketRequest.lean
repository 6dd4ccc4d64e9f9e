import Felicia.Channel.IoBuffer
import Felicia.Support.FlatMap
import Mathlib.Data.List.Infix
import Mathlib.Data.List.Basic

/-!
# The request of a WebSocket handshake

`WebSocket::HandshakeHandler` of `felicia/core/channel/socket/web_socket.cc`, as far as it reads the
request and decides on it: `ReadHeader`, `OnReadHeader`, `Parse` and `Validate`. The handler reads
once and decides on what that read stored. A read that fails at once is passed on as
`OnReadHeader(0)`, so that nothing is parsed as a request; a read that fails later is not.

`packetization_iff` says for which deliveries of a request this is harmless: for those in which the
first read stores all of it, and for failures that are reported later.

Bytes are read as characters one by one, which keeps them apart. `SHA1HashString`, `Base64Encode`
and what `WebSocketExtension::Negotiate` makes of an extension header are parameters. A version that
would start behind the end of the first line is a range that ends before it begins, for which
`std::string` has no meaning: such a request has no decision.
-/

set_option autoImplicit false
set_option relaxedAutoImplicit false

namespace Felicia

open Support

/-! ### Text -/

/-- `kWhitespaceASCII`. -/
def isWhitespaceASCII (c : Char) : Bool :=
  c = '\t' || c = '\n' || c = '\x0b' || c = '\x0c' || c = '\r' || c = ' '

/-- `base::TrimWhitespaceASCII`, on both sides. -/
def trimWhitespaceASCII (text : List Char) : List Char :=
  ((text.dropWhile isWhitespaceASCII).reverse.dropWhile isWhitespaceASCII).reverse

/-- `base::ToLowerASCII`. -/
def toLowerASCII (text : List Char) : List Char := text.map Char.toLower

/-- `base::EqualsCaseInsensitiveASCII`. -/
def equalsCaseInsensitiveASCII (a : List Char) (b : String) : Bool :=
  toLowerASCII a == toLowerASCII b.toList

/-- The tokens of a `base::StringTokenizer`: what is between delimiters, if anything. -/
def stringTokens (isDelimiter : Char → Bool) (text : List Char) : List (List Char) :=
  (text.splitOnP isDelimiter).filter (· ≠ [])

def isLineEnd (c : Char) : Bool := c = '\r' || c = '\n'

/-! ### Parsing -/

/-- `headers_`. -/
abbrev HttpHeaders := FlatMap String String

/-- `headers_[key]`. -/
def HttpHeaders.get (headers : HttpHeaders) (key : String) : String := (headers.find key).getD ""

/-- One line of the header. A line without a colon is skipped. -/
def HttpHeaders.addLine (headers : HttpHeaders) (line : List Char) : HttpHeaders :=
  if line.contains ':' then
    let key := toLowerASCII (trimWhitespaceASCII (line.takeWhile (· ≠ ':')))
    let value := trimWhitespaceASCII ((line.dropWhile (· ≠ ':')).drop 1)
    headers.insertOrAssign (String.ofList key) (String.ofList value)
  else headers

/-- What comes of `Parse`. -/
inductive ParseResult
  | undefined
  | failed
  | parsed (headers : HttpHeaders)

/-- `HandshakeHandler::Parse`. -/
def parseRequest (header : List Char) : ParseResult :=
  let firstStatusLine := header.findIdx isLineEnd
  let method := header.takeWhile (· ≠ ' ')
  let uri := (header.drop (method.length + 1)).takeWhile (· ≠ ' ')
  -- The position of the second space, if there is one.
  let uriEnd := method.length + 1 + uri.length
  if firstStatusLine = header.length then .failed
  else if method.length = header.length then .failed
  else if !equalsCaseInsensitiveASCII method "GET" then .failed
  else if header.length ≤ uriEnd then .failed
  else if firstStatusLine < uriEnd + 1 then .undefined
  else if !equalsCaseInsensitiveASCII ((header.take firstStatusLine).drop (uriEnd + 1))
      "HTTP/1.1" then .failed
  else .parsed ((stringTokens isLineEnd (header.drop (firstStatusLine + 1))).foldl
    HttpHeaders.addLine FlatMap.empty)

/-- `HandshakeHandler::Validate`. -/
def HttpHeaders.validate (headers : HttpHeaders) : Bool :=
  ((stringTokens (· = ',') (headers.get "connection").toList).any fun token ↦
    equalsCaseInsensitiveASCII (trimWhitespaceASCII token) "upgrade") &&
  equalsCaseInsensitiveASCII (headers.get "upgrade").toList "websocket" &&
  equalsCaseInsensitiveASCII (headers.get "sec-websocket-version").toList "13" &&
  headers.get "sec-websocket-key" ≠ ""

/-! ### Deciding -/

/-- The codes of `net::HttpStatusCode` that are sent. -/
inductive HttpStatusCode
  | switchingProtocols | badRequest | requestTimeout | internalServerError
  deriving DecidableEq

/-- What is sent back: `SendOK` or `SendError`, with their arguments. -/
inductive HandshakeReply
  | ok (key extension : String)
  | error (code : HttpStatusCode)
  deriving DecidableEq

/-- What the handler uses of other libraries and of its settings. -/
structure HandshakeEnv where
  sha1HashString : String → String
  base64Encode : String → String
  permessageDeflateEnabled : Bool
  /-- The response of `WebSocketExtension::Negotiate`, if it accepts. -/
  negotiate : String → Option String

/-- `kHandshakeGuid`. -/
def kHandshakeGuid : String := "258EAFA5-E914-47DA-95CA-C5AB0DC85B11"

/-- `kHeaderSize`. -/
def kHeaderSize : ℕ := 1000

/-- What came of a read. -/
structure HeaderDecision where
  /-- What `Parse` was called with, if it was. -/
  parsed : Option (List UInt8)
  /-- What is sent back; nothing where the code has no meaning. -/
  reply : Option HandshakeReply
  deriving DecidableEq

namespace HandshakeEnv

variable (env : HandshakeEnv)

/-- `OnReadHeader`, for a header that was parsed. -/
def replyTo (headers : HttpHeaders) : HandshakeReply :=
  let key := env.base64Encode
    (env.sha1HashString (headers.get "sec-websocket-key" ++ kHandshakeGuid))
  let extension := headers.get "sec-websocket-extensions"
  if !headers.validate then .error .badRequest
  else if env.permessageDeflateEnabled ∧ extension ≠ "" then
    match env.negotiate extension with
    | some response => .ok key response
    | none => .error .badRequest
  else .ok key ""

/-- `Parse`, `Validate` and what follows. -/
def decideOn (received : List UInt8) : HeaderDecision where
  parsed := some received
  reply :=
    match parseRequest (bytesText received) with
    | .undefined => none
    | .failed => some (.error .badRequest)
    | .parsed headers => some (env.replyTo headers)

/-- `HandshakeHandler::OnReadHeader`: a read ended, and stored bytes behind those before the offset
of the buffer. -/
def onReadHeader (received : List UInt8) : Except NetError (List UInt8) → HeaderDecision
  | .ok bytes => env.decideOn (received ++ bytes)
  | .error _ => ⟨none, some (.error .internalServerError)⟩

/-- `HandshakeHandler::ReadHeader`, with a read that ends at once: the offset is moved here, and
`OnReadHeader` is called with 0. -/
def readHeader (received : List UInt8) : Except NetError (List UInt8) → HeaderDecision
  | .ok bytes => env.onReadHeader (received ++ bytes) (.ok [])
  | .error _ => env.onReadHeader received (.ok [])

end HandshakeEnv

/-- What a read comes to, and when. -/
structure HeaderRead where
  isSync : Bool
  result : Except NetError (List UInt8)

/-- The handler, from an empty buffer on, on the reads that its socket would go through. It has room
for `kHeaderSize` bytes. -/
def HandshakeEnv.handleReads (env : HandshakeEnv) : List HeaderRead → Option HeaderDecision
  | [] => none
  | read :: _ =>
    let result := read.result.map (·.take kHeaderSize)
    some (if read.isSync then env.readHeader [] result else env.onReadHeader [] result)

/-! ### Packetization -/

/-- The blank line that ends a header. -/
def blankLine : List UInt8 := [13, 10, 13, 10]

/-- A request: its first blank line is its end, and it is not longer than what the handler has room
for. -/
structure IsUpgradeRequest (request : List UInt8) : Prop where
  length_le : request.length ≤ kHeaderSize
  ends : blankLine <:+ request
  first : ∀ part, part <+: request → blankLine <:+: part → part = request

/-- The first blank line is the end when there is none before the last byte. -/
theorem isUpgradeRequest_iff {request : List UInt8} : IsUpgradeRequest request ↔
    request.length ≤ kHeaderSize ∧ blankLine <:+ request ∧ ¬ blankLine <:+: request.dropLast := by
  constructor
  · intro h
    refine ⟨h.length_le, h.ends, fun hblank ↦ ?_⟩
    have heq := congrArg List.length (h.first _ (List.dropLast_prefix request) hblank)
    have hlength := h.ends.length_le
    rw [List.length_dropLast] at heq
    simp only [blankLine, List.length_cons, List.length_nil] at hlength
    omega
  · rintro ⟨hlength, hends, hblank⟩
    refine ⟨hlength, hends, fun part hpart hin ↦ ?_⟩
    have hne : request ≠ [] := by
      rintro rfl
      cases List.suffix_nil.mp hends
    rw [← List.dropLast_append_getLast hne, List.prefix_concat_iff] at hpart
    obtain heq | hbefore := hpart
    · rw [heq, List.dropLast_append_getLast]
    · exact absurd (hin.trans hbefore.isInfix) hblank

instance (request : List UInt8) : Decidable (IsUpgradeRequest request) :=
  decidable_of_iff _ isUpgradeRequest_iff.symm

/-- The request arrives in pieces, none of them empty. -/
def Delivers (request : List UInt8) (reads : List HeaderRead) : Prop :=
  ∃ pieces : List (Bool × List UInt8), reads = pieces.map (fun piece ↦ ⟨piece.1, .ok piece.2⟩) ∧
    (∀ piece ∈ pieces, piece.2 ≠ []) ∧ (pieces.map Prod.snd).flatten = request

/-- The decision is the one on the request that arrived at once, and it is not taken before the
blank line was received. -/
structure HandshakeEnv.Independent (env : HandshakeEnv) (request : List UInt8)
    (reads : List HeaderRead) : Prop where
  same : env.handleReads reads = env.handleReads [⟨true, .ok request⟩]
  complete : ∀ decision ∈ env.handleReads reads, ∀ parsed ∈ decision.parsed,
    blankLine <:+: parsed

namespace HandshakeEnv

variable {env : HandshakeEnv}

/-- Bytes that arrive at once and bytes that arrive later are decided on alike. -/
theorem handleReads_ok (isSync : Bool) (bytes : List UInt8) (rest : List HeaderRead) :
    env.handleReads (⟨isSync, .ok bytes⟩ :: rest) =
      some (env.decideOn (bytes.take kHeaderSize)) := by
  cases isSync <;> simp [handleReads, readHeader, onReadHeader, Except.map]

/-- A failure is not taken for a request exactly when it is reported later. -/
theorem parsed_failed_iff (isSync : Bool) (e : NetError) (rest : List HeaderRead) :
    (∀ decision ∈ env.handleReads (⟨isSync, .error e⟩ :: rest), decision.parsed = none) ↔
      isSync = false := by
  cases isSync <;> simp [handleReads, readHeader, onReadHeader, decideOn, Except.map]

/-- Assumes: a request, and a part of it that arrived first. -/
theorem take_piece {request piece : List UInt8} (hrequest : IsUpgradeRequest request)
    (hbegins : piece <+: request) : piece.take kHeaderSize = piece :=
  List.take_of_length_le (hbegins.length_le.trans hrequest.length_le)

/-- Assumes: a request, and reads that deliver it. -/
theorem independent_iff {request : List UInt8} {reads : List HeaderRead}
    (hrequest : IsUpgradeRequest request) (hdelivers : Delivers request reads) :
    env.Independent request reads ↔ ∃ isSync, reads = [⟨isSync, .ok request⟩] := by
  constructor
  · intro hindependent
    obtain ⟨pieces, rfl, hnonempty, hflatten⟩ := hdelivers
    cases pieces with
    | nil =>
      -- Nothing arrived, but a request is not empty.
      subst hflatten
      cases List.suffix_nil.mp hrequest.ends
    | cons piece rest =>
      have hbegins : piece.2 <+: request := ⟨_, hflatten⟩
      -- The decision was taken on the first piece, which has to end with the blank line.
      have hblank : blankLine <:+: piece.2 := by
        refine hindependent.complete _ (handleReads_ok piece.1 piece.2 _) piece.2 ?_
        rw [decideOn, take_piece hrequest hbegins]
        rfl
      have hwhole := hrequest.first piece.2 hbegins hblank
      have hrest : rest = [] := by
        rw [List.map_cons, List.flatten_cons, hwhole] at hflatten
        have hnil := List.append_right_eq_self.mp hflatten
        refine List.eq_nil_iff_forall_not_mem.mpr fun other hmem ↦ ?_
        refine hnonempty other (List.mem_cons_of_mem _ hmem) ?_
        exact List.flatten_eq_nil_iff.mp hnil _ (List.mem_map_of_mem hmem)
      exact ⟨piece.1, by rw [hrest, ← hwhole]; rfl⟩
  · rintro ⟨isSync, rfl⟩
    have htake := take_piece hrequest (List.prefix_refl request)
    refine ⟨by rw [handleReads_ok, handleReads_ok], fun decision hdecision parsed hparsed ↦ ?_⟩
    rw [handleReads_ok, htake] at hdecision
    cases hdecision
    cases hparsed
    exact hrequest.ends.isInfix

/-- Assumes: requests of at most `kHeaderSize` bytes that end with their first blank line. The
decision does not depend on how the request arrives, and waits for its end, exactly when the first
read stores all of it; and a failed read is not parsed as a request exactly when the failure is
reported later. -/
theorem packetization_iff (env : HandshakeEnv) :
    (∀ request reads, IsUpgradeRequest request → Delivers request reads →
      (env.Independent request reads ↔ ∃ isSync, reads = [⟨isSync, .ok request⟩])) ∧
    ∀ isSync e rest, (∀ decision ∈ env.handleReads (⟨isSync, .error e⟩ :: rest),
      decision.parsed = none) ↔ isSync = false :=
  ⟨fun _ _ ↦ independent_iff, parsed_failed_iff⟩

end HandshakeEnv

namespace Scenario

/-- The first bytes of a request, and the rest. -/
def requestStart : List UInt8 := textBytes "GET /chat HTTP/1.1\r\nHost: a\r\nUpgrade: websock"

def requestRest : List UInt8 :=
  textBytes "et\r\nConnection: Upgrade\r\nSec-WebSocket-Key: dGhlIHNhbXBsZSBub25jZQ==\r\n" ++
    textBytes "Sec-WebSocket-Version: 13\r\n\r\n"

/-- What the libraries return for the key of this request. -/
def sampleEnv : HandshakeEnv where
  sha1HashString _ := String.ofList (bytesText [0xb3, 0x7a, 0x4f, 0x2c, 0xc0, 0x62, 0x4f, 0x16,
    0x90, 0xf6, 0x46, 0x06, 0xcf, 0x38, 0x59, 0x45, 0xb2, 0xbe, 0xc4, 0xea])
  base64Encode _ := "s3pPLMBiTxaQ9kYGzzhZRbK+xOo="
  permessageDeflateEnabled := false
  negotiate _ := none

end Scenario

namespace HandshakeEnv

/-- A request that arrives later and in one piece. -/
theorem packetization_of_one_piece :
    Scenario.sampleEnv.Independent (Scenario.requestStart ++ Scenario.requestRest)
      [⟨false, .ok (Scenario.requestStart ++ Scenario.requestRest)⟩] := by
  refine ((packetization_iff Scenario.sampleEnv).1 _ _ (by decide +kernel) ?_).mpr ⟨false, rfl⟩
  exact ⟨[(false, Scenario.requestStart ++ Scenario.requestRest)], rfl, by decide +kernel, by simp⟩

/-- A request that is accepted when it arrives in one piece is refused when it arrives in two,
before its end was received; and a read that fails at once is parsed as an empty request. -/
theorem packetization_dependent :
    Scenario.sampleEnv.handleReads [⟨true, .ok (Scenario.requestStart ++ Scenario.requestRest)⟩] =
      some ⟨some (Scenario.requestStart ++ Scenario.requestRest),
        some (.ok "s3pPLMBiTxaQ9kYGzzhZRbK+xOo=" "")⟩ ∧
    Scenario.sampleEnv.handleReads
        [⟨true, .ok Scenario.requestStart⟩, ⟨true, .ok Scenario.requestRest⟩] =
      some ⟨some Scenario.requestStart, some (.error .badRequest)⟩ ∧
    (¬ ∀ request reads, IsUpgradeRequest request → Delivers request reads →
      Scenario.sampleEnv.Independent request reads) ∧
    ¬ ∀ isSync e rest,
      ∀ decision ∈ Scenario.sampleEnv.handleReads (⟨isSync, .error e⟩ :: rest),
        decision.parsed = none := by
  have hwhole : Scenario.sampleEnv.handleReads
      [⟨true, .ok (Scenario.requestStart ++ Scenario.requestRest)⟩] =
      some ⟨some (Scenario.requestStart ++ Scenario.requestRest),
        some (.ok "s3pPLMBiTxaQ9kYGzzhZRbK+xOo=" "")⟩ := by
    decide +kernel
  have hpieces : Scenario.sampleEnv.handleReads
      [⟨true, .ok Scenario.requestStart⟩, ⟨true, .ok Scenario.requestRest⟩] =
      some ⟨some Scenario.requestStart, some (.error .badRequest)⟩ := by
    decide +kernel
  refine ⟨hwhole, hpieces, fun hall ↦ ?_, fun hall ↦ ?_⟩
  · have hsame := (hall (Scenario.requestStart ++ Scenario.requestRest)
      [⟨true, .ok Scenario.requestStart⟩, ⟨true, .ok Scenario.requestRest⟩] (by decide +kernel)
      ⟨[(true, Scenario.requestStart), (true, Scenario.requestRest)], rfl, by decide +kernel,
        by simp⟩).same
    rw [hwhole, hpieces] at hsame
    simp at hsame
  · have hparsed := hall true ⟨errFailed, by decide, by decide⟩ [] _ rfl
    cases hparsed

end HandshakeEnv

end Felicia
