import Felicia.Channel.WebSocketFrame
import Felicia.Support.Loops
import Felicia.Support.Scanner

/-!
# The parser of WebSocket frames

`WebSocketFrameParser` of `third_party/chromium/net/websockets/websocket_frame_parser.cc`, which is
given what a socket reads, piece by piece. A header that is not complete is kept for the next piece,
and a payload is handed on in chunks, as far as it has come. The first chunk of a frame has its
header.

`scan_headerBytes` and `headerBytes_of_scan` say that a header that is accepted is one that was
written: a length in a longer form than it needs is refused, and one that an `int` does not hold is
too big.
-/

set_option autoImplicit false
set_option relaxedAutoImplicit false

namespace Felicia

open Support

/-! ### The parser -/

/-- `net::WebSocketError`, as far as the parser sets it. -/
inductive WebSocketError
  | normalClosure | protocolError | messageTooBig
  deriving DecidableEq, Repr

/-- `net::WebSocketFrameChunk`. A chunk without data has a null pointer. -/
structure WebSocketFrameChunk where
  header : Option WebSocketFrameHeader := none
  finalChunk : Bool := false
  data : List UInt8 := []
  deriving DecidableEq, Repr

/-- The extended length that the seven bits of a length stand for. -/
def scanPayloadLength (length : ℕ) : Scanner WebSocketError UInt8 ℕ :=
  if length = kPayloadLengthWithTwoByteExtendedLengthField then
    (Scanner.take 2).bind fun bytes ↦
      if ofBigEndian bytes ≤ kMaxPayloadLengthWithoutExtendedLengthField then
        Scanner.fail .protocolError
      else Scanner.pure (ofBigEndian bytes)
  else if length = kPayloadLengthWithEightByteExtendedLengthField then
    (Scanner.take 8).bind fun bytes ↦
      if ofBigEndian bytes ≤ uint16Max ∨ ofBigEndian bytes > int64MaxLength then
        Scanner.fail .protocolError
      else if ofBigEndian bytes > int32Max then Scanner.fail .messageTooBig
      else Scanner.pure (ofBigEndian bytes)
  else Scanner.pure length

/-- The masking key of a frame, which is filled with zeros if the frame is not masked. -/
def scanMaskingKey (masked : Bool) : Scanner WebSocketError UInt8 WebSocketMaskingKey :=
  if masked then
    (Scanner.take 4).bind fun bytes ↦
      Scanner.pure ⟨bytes.getD 0 0, bytes.getD 1 0, bytes.getD 2 0, bytes.getD 3 0⟩
  else Scanner.pure .zero

/-- The header whose first two bytes are given, with a length. -/
def headerOf (first second : UInt8) (payloadLength : ℕ) : WebSocketFrameHeader where
  final := first &&& kFinalBit != 0
  reserved1 := first &&& kReserved1Bit != 0
  reserved2 := first &&& kReserved2Bit != 0
  reserved3 := first &&& kReserved3Bit != 0
  opcode := (first &&& kOpCodeMask).toNat
  masked := second &&& kMaskBit != 0
  payloadLength := payloadLength

/-- What `DecodeFrameHeader` makes of the bytes from `current_read_pos_` on. -/
def scanHeader : Scanner WebSocketError UInt8 (WebSocketFrameHeader × WebSocketMaskingKey) :=
  (Scanner.take 2).bind fun bytes ↦
    (scanPayloadLength (bytes.getD 1 0 &&& kPayloadLengthMask).toNat).bind fun payloadLength ↦
      (scanMaskingKey (bytes.getD 1 0 &&& kMaskBit != 0)).bind fun key ↦
        Scanner.pure (headerOf (bytes.getD 0 0) (bytes.getD 1 0) payloadLength, key)

/-- `net::WebSocketFrameParser`. -/
structure WebSocketFrameParser where
  buffer : List UInt8 := []
  currentReadPos : ℕ := 0
  currentFrameHeader : Option WebSocketFrameHeader := none
  maskingKey : WebSocketMaskingKey := .zero
  frameOffset : ℕ := 0
  websocketError : WebSocketError := .normalClosure
  deriving DecidableEq, Repr

/-- `MaskWebSocketFramePayload`, for a frame that is masked. Where the data lies makes no difference
to it. -/
def unmask (header : WebSocketFrameHeader) (key : WebSocketMaskingKey) (offset : ℕ)
    (data : List UInt8) : List UInt8 :=
  if header.masked then maskByBytes key offset data else data

namespace WebSocketFrameParser

/-- `DecodeFrameHeader`. -/
def decodeFrameHeader (p : WebSocketFrameParser) : WebSocketFrameParser :=
  match scanHeader.scan (p.buffer.drop p.currentReadPos) with
  | .incomplete => p
  | .failed e =>
    { p with
      websocketError := e, buffer := [], currentReadPos := 0, currentFrameHeader := none
      frameOffset := 0 }
  | .complete (header, key) rest =>
    { p with
      currentFrameHeader := some header, maskingKey := key
      currentReadPos := p.buffer.length - rest.length }

/-- `DecodeFramePayload`, of the current frame. -/
def decodeFramePayload (p : WebSocketFrameParser) (header : WebSocketFrameHeader)
    (firstChunk : Bool) : WebSocketFrameParser × WebSocketFrameChunk :=
  let nextSize :=
    min (p.buffer.length - p.currentReadPos) (header.payloadLength - p.frameOffset)
  let data := (p.buffer.drop p.currentReadPos).take nextSize
  let isFinal := p.frameOffset + nextSize = header.payloadLength
  ({ p with
      currentReadPos := p.currentReadPos + nextSize
      frameOffset := if isFinal then 0 else p.frameOffset + nextSize
      currentFrameHeader := if isFinal then none else some header },
    { header := if firstChunk then some header else none
      finalChunk := isFinal
      data := unmask header p.maskingKey p.frameOffset data })

/-- What `Decode` goes round with. -/
structure Decoding where
  parser : WebSocketFrameParser
  chunks : List WebSocketFrameChunk := []

/-- The rest of a round of `Decode`, which stops in the middle of a frame. -/
def decodeChunk (chunks : List WebSocketFrameChunk)
    (decoded : WebSocketFrameParser × WebSocketFrameChunk) : LoopRound Decoding Decoding :=
  let next : Decoding := ⟨decoded.1, chunks ++ [decoded.2]⟩
  if decoded.1.currentFrameHeader.isSome then .done next else .again next

/-- A round of `Decode`. -/
def decodeRound (s : Decoding) : LoopRound Decoding Decoding :=
  if s.parser.currentReadPos < s.parser.buffer.length then
    match s.parser.currentFrameHeader with
    | some header => decodeChunk s.chunks (s.parser.decodeFramePayload header false)
    | none =>
      match s.parser.decodeFrameHeader.currentFrameHeader with
      | none => .done { s with parser := s.parser.decodeFrameHeader }
      | some header => decodeChunk s.chunks (s.parser.decodeFrameHeader.decodeFramePayload header true)
  else .done s

/-- The bytes from `current_read_pos_` on. -/
def unread (p : WebSocketFrameParser) : List UInt8 := p.buffer.drop p.currentReadPos

/-- What `Decode` does to the buffer before it returns true. -/
def drain (p : WebSocketFrameParser) : WebSocketFrameParser :=
  if p.websocketError ≠ .normalClosure then p
  else { p with buffer := p.unread, currentReadPos := 0 }

/-- `Decode`: the parser, and the chunks that are added. It returns false if there is an error
behind it. Every round takes at least one byte. -/
def decode (p : WebSocketFrameParser) (data : List UInt8) :
    WebSocketFrameParser × List WebSocketFrameChunk :=
  if p.websocketError ≠ .normalClosure ∨ data = [] then (p, [])
  else
    let start : Decoding := ⟨{ p with buffer := p.buffer ++ data }, []⟩
    match runLoop decodeRound (start.parser.buffer.length + 1) start with
    | .finished s => (s.parser.drain, s.chunks)
    | _ => (p, [])

end WebSocketFrameParser

/-! ### Headers that are scanned -/

theorem lawful_scanPayloadLength (length : ℕ) : (scanPayloadLength length).Lawful := by
  unfold scanPayloadLength
  split_ifs
  · refine (Scanner.lawful_take 2).bind fun bytes ↦ ?_
    split_ifs
    · exact Scanner.lawful_fail _
    · exact Scanner.lawful_pure _
  · refine (Scanner.lawful_take 8).bind fun bytes ↦ ?_
    split_ifs
    · exact Scanner.lawful_fail _
    · exact Scanner.lawful_fail _
    · exact Scanner.lawful_pure _
  · exact Scanner.lawful_pure _

theorem lawful_scanMaskingKey (masked : Bool) : (scanMaskingKey masked).Lawful := by
  unfold scanMaskingKey
  split_ifs
  · exact (Scanner.lawful_take 4).bind fun bytes ↦ Scanner.lawful_pure _
  · exact Scanner.lawful_pure _

theorem lawful_scanHeader : scanHeader.Lawful :=
  (Scanner.lawful_take 2).bind fun _ ↦ (lawful_scanPayloadLength _).bind fun _ ↦
    (lawful_scanMaskingKey _).bind fun _ ↦ Scanner.lawful_pure _

/-- `kMaximumFrameHeaderSize` bytes are enough for a header. -/
theorem within_scanHeader : scanHeader.Within 14 := by
  have hpayload : ∀ length, (scanPayloadLength length).Within 8 := by
    intro length
    unfold scanPayloadLength
    split_ifs
    · refine Scanner.Within.mono ((Scanner.within_take 2).bind fun bytes ↦ ?_)
        (show 2 + 0 ≤ 8 by omega)
      split_ifs
      · exact Scanner.within_fail _ _
      · exact Scanner.within_pure _
    · refine (Scanner.within_take 8).bind (?_ : ∀ bytes, Scanner.Within _ 0)
      intro bytes
      split_ifs
      · exact Scanner.within_fail _ _
      · exact Scanner.within_fail _ _
      · exact Scanner.within_pure _
    · exact (Scanner.within_pure _).mono (Nat.zero_le 8)
  have hkey : ∀ masked, (scanMaskingKey masked).Within 4 := by
    intro masked
    unfold scanMaskingKey
    split_ifs
    · exact (Scanner.within_take 4).bind fun bytes ↦ Scanner.within_pure _
    · exact (Scanner.within_pure _).mono (Nat.zero_le 4)
  exact (Scanner.within_take 2).bind fun bytes ↦ (hpayload _).bind fun length ↦
    (hkey _).bind fun key ↦ Scanner.within_pure _

/-- What a header fails with is an error. -/
theorem failsWith_scanHeader : scanHeader.FailsWith (· ≠ .normalClosure) := by
  refine (Scanner.failsWith_take 2 _).bind fun bytes ↦ Scanner.FailsWith.bind ?_ fun length ↦
    Scanner.FailsWith.bind ?_ fun key ↦ Scanner.failsWith_pure _ _
  · unfold scanPayloadLength
    split_ifs
    · refine (Scanner.failsWith_take 2 _).bind fun bytes ↦ ?_
      split_ifs
      · exact Scanner.failsWith_fail WebSocketError.noConfusion
      · exact Scanner.failsWith_pure _ _
    · refine (Scanner.failsWith_take 8 _).bind fun bytes ↦ ?_
      split_ifs
      · exact Scanner.failsWith_fail WebSocketError.noConfusion
      · exact Scanner.failsWith_fail WebSocketError.noConfusion
      · exact Scanner.failsWith_pure _ _
    · exact Scanner.failsWith_pure _ _
  · unfold scanMaskingKey
    split_ifs
    · exact (Scanner.failsWith_take 4 _).bind fun bytes ↦ Scanner.failsWith_pure _ _
    · exact Scanner.failsWith_pure _ _

namespace WebSocketFrameHeader

/-- The bits of a byte that was written. -/
theorem bits_firstByte : ∀ (final reserved1 reserved2 reserved3 : Bool) (opcode : Fin 16),
    headerOf (firstByte final reserved1 reserved2 reserved3 opcode) 0 0 =
      { final, reserved1, reserved2, reserved3, opcode := opcode } := by
  decide +kernel

/-- The byte whose bits were read. -/
theorem firstByte_bits : ∀ n : Fin 256,
    (UInt8.ofNat n &&& kOpCodeMask).toNat < 16 ∧
      firstByte (UInt8.ofNat n &&& kFinalBit != 0) (UInt8.ofNat n &&& kReserved1Bit != 0)
        (UInt8.ofNat n &&& kReserved2Bit != 0) (UInt8.ofNat n &&& kReserved3Bit != 0)
        (UInt8.ofNat n &&& kOpCodeMask).toNat = UInt8.ofNat n := by
  decide +kernel

theorem bits_secondByte : ∀ (masked : Bool) (length : Fin 128),
    (secondByte masked length &&& kMaskBit != 0) = masked ∧
      (secondByte masked length &&& kPayloadLengthMask).toNat = length := by
  decide +kernel

theorem secondByte_bits : ∀ n : Fin 256,
    (UInt8.ofNat n &&& kPayloadLengthMask).toNat < 128 ∧
      secondByte (UInt8.ofNat n &&& kMaskBit != 0) (UInt8.ofNat n &&& kPayloadLengthMask).toNat =
        UInt8.ofNat n := by
  decide +kernel

theorem lengthField_lt (payloadLength : ℕ) : lengthField payloadLength < 128 := by
  unfold lengthField kMaxPayloadLengthWithoutExtendedLengthField
    kPayloadLengthWithTwoByteExtendedLengthField kPayloadLengthWithEightByteExtendedLengthField
  split_ifs <;> omega

/-- Assumes: a length that an `int` holds. It is scanned as it was written. -/
theorem scan_extendedLength {payloadLength : ℕ} (h : payloadLength ≤ int32Max)
    (rest : List UInt8) :
    (scanPayloadLength (lengthField payloadLength)).scan (extendedLength payloadLength ++ rest) =
      .complete payloadLength rest := by
  unfold int32Max at h
  by_cases hsmall : payloadLength ≤ 125
  · have hfield : lengthField payloadLength = payloadLength := if_pos hsmall
    have hbytes : extendedLength payloadLength = [] := if_pos hsmall
    have htwo : payloadLength ≠ kPayloadLengthWithTwoByteExtendedLengthField := by
      unfold kPayloadLengthWithTwoByteExtendedLengthField
      omega
    have height : payloadLength ≠ kPayloadLengthWithEightByteExtendedLengthField := by
      unfold kPayloadLengthWithEightByteExtendedLengthField
      omega
    rw [hfield, hbytes, scanPayloadLength, if_neg htwo, if_neg height]
    rfl
  · by_cases hmiddle : payloadLength ≤ uint16Max
    · have hfield : lengthField payloadLength = kPayloadLengthWithTwoByteExtendedLengthField := by
        rw [lengthField, kMaxPayloadLengthWithoutExtendedLengthField, if_neg hsmall, if_pos hmiddle]
      have hbytes : extendedLength payloadLength = toBigEndian 2 payloadLength := by
        rw [extendedLength, kMaxPayloadLengthWithoutExtendedLengthField, if_neg hsmall,
          if_pos hmiddle]
      have hread : ofBigEndian (toBigEndian 2 payloadLength) = payloadLength := by
        apply ofBigEndian_toBigEndian
        unfold uint16Max at hmiddle
        omega
      rw [hfield, hbytes, scanPayloadLength, if_pos rfl,
        Scanner.scan_bind (Scanner.scan_take (length_toBigEndian 2 _) rest), hread,
        kMaxPayloadLengthWithoutExtendedLengthField, if_neg hsmall]
      rfl
    · have hfield : lengthField payloadLength = kPayloadLengthWithEightByteExtendedLengthField := by
        rw [lengthField, kMaxPayloadLengthWithoutExtendedLengthField, if_neg hsmall,
          if_neg hmiddle]
      have hbytes : extendedLength payloadLength = toBigEndian 8 payloadLength := by
        rw [extendedLength, kMaxPayloadLengthWithoutExtendedLengthField, if_neg hsmall,
          if_neg hmiddle]
      have hread : ofBigEndian (toBigEndian 8 payloadLength) = payloadLength := by
        apply ofBigEndian_toBigEndian
        omega
      have hfits : ¬(payloadLength ≤ uint16Max ∨ payloadLength > int64MaxLength) := by
        unfold int64MaxLength
        omega
      have hint : ¬payloadLength > int32Max := by
        unfold int32Max
        omega
      rw [hfield, hbytes, scanPayloadLength, if_neg (by decide), if_pos rfl,
        Scanner.scan_bind (Scanner.scan_take (length_toBigEndian 8 _) rest), hread, if_neg hfits,
        if_neg hint]
      rfl

/-- Assumes: seven bits. A length that is scanned is one that an `int` holds, and it is written as
it was scanned. -/
theorem extendedLength_of_scan {field payloadLength : ℕ} {bs rest : List UInt8}
    (hfield : field < 128)
    (h : (scanPayloadLength field).scan bs = .complete payloadLength rest) :
    payloadLength ≤ int32Max ∧ field = lengthField payloadLength ∧
      bs = extendedLength payloadLength ++ rest := by
  unfold scanPayloadLength at h
  split_ifs at h with htwo height
  · obtain ⟨bytes, middle, htake, hpure⟩ := Scanner.bind_eq_complete.mp h
    obtain ⟨hlength, rfl⟩ := Scanner.take_eq_complete htake
    have hlt := ofBigEndian_lt bytes
    rw [hlength] at hlt
    split_ifs at hpure with hsmall
    · cases hpure
    · cases hpure
      have hmiddle : ofBigEndian bytes ≤ uint16Max := by
        unfold uint16Max
        omega
      refine ⟨?_, ?_, ?_⟩
      · unfold int32Max
        omega
      · rw [lengthField, if_neg hsmall, if_pos hmiddle, htwo]
      · rw [extendedLength, if_neg hsmall, if_pos hmiddle, toBigEndian_of_length hlength]
  · obtain ⟨bytes, middle, htake, hpure⟩ := Scanner.bind_eq_complete.mp h
    obtain ⟨hlength, rfl⟩ := Scanner.take_eq_complete htake
    split_ifs at hpure with hfits hint
    · cases hpure
    · cases hpure
    · cases hpure
      have hsmall : ¬ofBigEndian bytes ≤ kMaxPayloadLengthWithoutExtendedLengthField := by
        unfold kMaxPayloadLengthWithoutExtendedLengthField
        unfold uint16Max at hfits
        omega
      have hmiddle : ¬ofBigEndian bytes ≤ uint16Max := fun hle ↦ hfits (.inl hle)
      refine ⟨Nat.le_of_not_lt hint, ?_, ?_⟩
      · rw [lengthField, if_neg hsmall, if_neg hmiddle, height]
      · rw [extendedLength, if_neg hsmall, if_neg hmiddle, toBigEndian_of_length hlength]
  · cases h
    unfold kPayloadLengthWithTwoByteExtendedLengthField at htwo
    unfold kPayloadLengthWithEightByteExtendedLengthField at height
    have hsmall : field ≤ kMaxPayloadLengthWithoutExtendedLengthField := by
      unfold kMaxPayloadLengthWithoutExtendedLengthField
      omega
    refine ⟨?_, ?_, ?_⟩
    · unfold int32Max
      omega
    · rw [lengthField, if_pos hsmall]
    · rw [extendedLength, if_pos hsmall]
      rfl

/-- The key that goes with a header is filled with zeros if there is no mask. -/
def KeyFits (header : WebSocketFrameHeader) (key : WebSocketMaskingKey) : Prop :=
  header.masked = false → key = .zero

/-- A header that the parser may take for one. -/
structure IsAcceptable (header : WebSocketFrameHeader) : Prop where
  opcode_lt : header.opcode < 16
  length_le : header.payloadLength ≤ int32Max

variable {header : WebSocketFrameHeader} {key : WebSocketMaskingKey}

theorem headerOf_bytes (hopcode : header.opcode < 16) {field : ℕ} (hfield : field < 128) :
    headerOf (firstByte header.final header.reserved1 header.reserved2 header.reserved3
      header.opcode) (secondByte header.masked field) header.payloadLength = header := by
  have hfirst := bits_firstByte header.final header.reserved1 header.reserved2 header.reserved3
    ⟨header.opcode, hopcode⟩
  have hmasked := (bits_secondByte header.masked ⟨field, hfield⟩).1
  unfold headerOf at hfirst ⊢
  rw [WebSocketFrameHeader.mk.injEq] at hfirst
  obtain ⟨hfinal, hreserved1, hreserved2, hreserved3, hopcode, -⟩ := hfirst
  rw [hfinal, hreserved1, hreserved2, hreserved3, hopcode, hmasked]

theorem scan_key (hkey : header.KeyFits key) (rest : List UInt8) :
    (scanMaskingKey header.masked).scan ((if header.masked then key.bytes else []) ++ rest) =
      .complete key rest := by
  unfold scanMaskingKey
  split_ifs with hmasked
  · rw [Scanner.scan_bind (Scanner.scan_take key.length_bytes rest)]
    rfl
  · rw [hkey (Bool.eq_false_of_not_eq_true hmasked)]
    rfl

/-- Assumes: a header that is acceptable, with its key. It is scanned as it was written. -/
theorem scan_headerBytes (h : header.IsAcceptable) (hkey : header.KeyFits key) (rest : List UInt8) :
    scanHeader.scan (header.headerBytes key ++ rest) = .complete (header, key) rest := by
  have hfield := lengthField_lt header.payloadLength
  obtain ⟨hmasked, hlength⟩ := bits_secondByte header.masked ⟨_, hfield⟩
  rw [headerBytes, List.append_assoc, scanHeader,
    Scanner.scan_bind (Scanner.scan_take (show [_, _].length = 2 from rfl) _),
    List.getD_cons_succ, List.getD_cons_zero, hlength, List.append_assoc,
    Scanner.scan_bind (scan_extendedLength h.length_le _), hmasked,
    Scanner.scan_bind (scan_key hkey rest), List.getD_cons_zero,
    headerOf_bytes h.opcode_lt hfield]
  rfl

theorem key_of_scan {masked : Bool} {bs rest : List UInt8}
    (h : (scanMaskingKey masked).scan bs = .complete key rest) :
    (masked = false → key = .zero) ∧ bs = (if masked then key.bytes else []) ++ rest := by
  unfold scanMaskingKey at h
  split_ifs at h with hmasked
  · obtain ⟨bytes, middle, htake, hpure⟩ := Scanner.bind_eq_complete.mp h
    obtain ⟨hlength, rfl⟩ := Scanner.take_eq_complete htake
    obtain ⟨key0, bytes, rfl⟩ := List.exists_cons_of_length_eq_add_one hlength
    obtain ⟨key1, key2, key3, rfl⟩ := List.length_eq_three.mp (Nat.succ.inj hlength)
    cases hpure
    rw [hmasked, if_pos rfl]
    exact ⟨fun hnot ↦ absurd hnot.symm Bool.false_ne_true, rfl⟩
  · cases h
    rw [if_neg hmasked]
    exact ⟨fun _ ↦ rfl, rfl⟩

/-- What is scanned as a header is acceptable, and it is written as it was scanned. -/
theorem headerBytes_of_scan {bs rest : List UInt8}
    (h : scanHeader.scan bs = .complete (header, key) rest) :
    header.IsAcceptable ∧ header.KeyFits key ∧ bs = header.headerBytes key ++ rest := by
  rw [scanHeader, Scanner.bind_eq_complete] at h
  obtain ⟨bytes, middle, htake, h⟩ := h
  obtain ⟨hlength, rfl⟩ := Scanner.take_eq_complete htake
  obtain ⟨first, second, rfl⟩ := List.length_eq_two.mp hlength
  rw [Scanner.bind_eq_complete] at h
  obtain ⟨payloadLength, middle', hpayload, h⟩ := h
  rw [Scanner.bind_eq_complete] at h
  obtain ⟨key', middle'', hkey, h⟩ := h
  cases h
  obtain ⟨hopcode, hfirst⟩ := firstByte_bits ⟨first.toNat, first.toNat_lt⟩
  obtain ⟨hfield, hsecond⟩ := secondByte_bits ⟨second.toNat, second.toNat_lt⟩
  simp only [UInt8.ofNat_toNat] at hopcode hfirst hfield hsecond
  obtain ⟨hle, hlengthField, rfl⟩ := extendedLength_of_scan hfield hpayload
  obtain ⟨hfits, rfl⟩ := key_of_scan hkey
  refine ⟨⟨hopcode, hle⟩, hfits, ?_⟩
  simp only [List.getD_cons_succ, List.getD_cons_zero] at hlengthField ⊢
  simp only [headerBytes, headerOf, hfirst, ← hlengthField, hsecond, List.append_assoc]
  rfl

end WebSocketFrameHeader

end Felicia
