import Felicia.Support.BigEndian
import Felicia.Support.Pieces
import Mathlib.Algebra.Order.Ring.Nat

/-!
# WebSocket frames

`third_party/chromium/net/websockets/websocket_frame.cc`: the header of a frame, how it is written,
and the mask of a payload. A header is written with the shortest of the three forms of its length.
A payload is masked several bytes at once where the buffer is aligned, and byte by byte before and
behind that; `maskWebSocketFramePayload_eq` says that neither the size of what is masked at once nor
the address of the buffer makes a difference.
-/

set_option autoImplicit false
set_option relaxedAutoImplicit false

namespace Felicia

open Support

/-! ### Headers -/

/-- `net::WebSocketFrameHeader`. -/
structure WebSocketFrameHeader where
  final : Bool := false
  reserved1 : Bool := false
  reserved2 : Bool := false
  reserved3 : Bool := false
  opcode : ℕ
  masked : Bool := false
  payloadLength : ℕ := 0
  deriving DecidableEq, Repr

/-- `net::WebSocketMaskingKey`. -/
structure WebSocketMaskingKey where
  key0 : UInt8
  key1 : UInt8
  key2 : UInt8
  key3 : UInt8
  deriving DecidableEq, Repr

namespace WebSocketMaskingKey

def bytes (k : WebSocketMaskingKey) : List UInt8 := [k.key0, k.key1, k.key2, k.key3]

/-- A key that is filled with zeros. -/
def zero : WebSocketMaskingKey := ⟨0, 0, 0, 0⟩

/-- `key[i % kMaskingKeyLength]`. -/
def byte (k : WebSocketMaskingKey) (i : ℕ) : UInt8 := k.bytes.getD (i % 4) 0

@[simp] theorem length_bytes (k : WebSocketMaskingKey) : k.bytes.length = 4 := rfl

end WebSocketMaskingKey

def kFinalBit : UInt8 := 0x80
def kReserved1Bit : UInt8 := 0x40
def kReserved2Bit : UInt8 := 0x20
def kReserved3Bit : UInt8 := 0x10
def kOpCodeMask : UInt8 := 0xF
def kMaskBit : UInt8 := 0x80
def kPayloadLengthMask : UInt8 := 0x7F

def kMaxPayloadLengthWithoutExtendedLengthField : ℕ := 125
def kPayloadLengthWithTwoByteExtendedLengthField : ℕ := 126
def kPayloadLengthWithEightByteExtendedLengthField : ℕ := 127

/-- `UINT16_MAX`. -/
def uint16Max : ℕ := 65535

/-- `INT32_MAX`. -/
def int32Max : ℕ := 2147483647

/-- `INT64_MAX`, as a length. -/
def int64MaxLength : ℕ := 9223372036854775807

/-- `net::ERR_INVALID_ARGUMENT`. -/
def errInvalidArgument : ℤ := -4

namespace WebSocketFrameHeader

def kOpCodeContinuation : ℕ := 0x0
def kOpCodeText : ℕ := 0x1
def kOpCodeBinary : ℕ := 0x2
def kOpCodeClose : ℕ := 0x8
def kOpCodePing : ℕ := 0x9
def kOpCodePong : ℕ := 0xA

/-- `IsKnownDataOpCode`. -/
def isKnownDataOpCode (opcode : ℕ) : Bool :=
  opcode == kOpCodeContinuation || opcode == kOpCodeText || opcode == kOpCodeBinary

/-- `IsKnownControlOpCode`. -/
def isKnownControlOpCode (opcode : ℕ) : Bool :=
  opcode == kOpCodeClose || opcode == kOpCodePing || opcode == kOpCodePong

/-- The size of the extended length. -/
def extendedLengthSize (payloadLength : ℕ) : ℕ :=
  if kMaxPayloadLengthWithoutExtendedLengthField < payloadLength ∧ payloadLength ≤ uint16Max then 2
  else if uint16Max < payloadLength then 8
  else 0

/-- `GetWebSocketFrameHeaderSize`. -/
def headerSize (header : WebSocketFrameHeader) : ℕ :=
  2 + extendedLengthSize header.payloadLength + if header.masked then 4 else 0

/-- The first byte that `WriteWebSocketFrameHeader` writes. -/
def firstByte (final reserved1 reserved2 reserved3 : Bool) (opcode : ℕ) : UInt8 :=
  (if final then kFinalBit else 0) ||| (if reserved1 then kReserved1Bit else 0) |||
    (if reserved2 then kReserved2Bit else 0) ||| (if reserved3 then kReserved3Bit else 0) |||
      (UInt8.ofNat opcode &&& kOpCodeMask)

/-- The second byte that `WriteWebSocketFrameHeader` writes, for a length or what stands for one. -/
def secondByte (masked : Bool) (length : ℕ) : UInt8 :=
  (if masked then kMaskBit else 0) ||| UInt8.ofNat length

/-- What stands for a length in the second byte. -/
def lengthField (payloadLength : ℕ) : ℕ :=
  if payloadLength ≤ kMaxPayloadLengthWithoutExtendedLengthField then payloadLength
  else if payloadLength ≤ uint16Max then kPayloadLengthWithTwoByteExtendedLengthField
  else kPayloadLengthWithEightByteExtendedLengthField

/-- The bytes of the extended length. -/
def extendedLength (payloadLength : ℕ) : List UInt8 :=
  if payloadLength ≤ kMaxPayloadLengthWithoutExtendedLengthField then []
  else if payloadLength ≤ uint16Max then toBigEndian 2 payloadLength
  else toBigEndian 8 payloadLength

/-- What `WriteWebSocketFrameHeader` writes. A key is only read for a header with a mask. -/
def headerBytes (header : WebSocketFrameHeader) (key : WebSocketMaskingKey) : List UInt8 :=
  [firstByte header.final header.reserved1 header.reserved2 header.reserved3 header.opcode,
    secondByte header.masked (lengthField header.payloadLength)] ++
    (extendedLength header.payloadLength ++ if header.masked then key.bytes else [])

/-- `WriteWebSocketFrameHeader`, for a buffer of some size. -/
def write (header : WebSocketFrameHeader) (key : WebSocketMaskingKey) (bufferSize : ℕ) :
    Except ℤ (List UInt8) :=
  if header.headerSize > bufferSize then .error errInvalidArgument
  else .ok (header.headerBytes key)

theorem length_headerBytes (header : WebSocketFrameHeader) (key : WebSocketMaskingKey) :
    (header.headerBytes key).length = header.headerSize := by
  unfold headerBytes headerSize extendedLength extendedLengthSize
    kMaxPayloadLengthWithoutExtendedLengthField uint16Max
  split_ifs <;> simp <;> omega

end WebSocketFrameHeader

/-! ### Masks -/

/-- `MaskWebSocketFramePayloadByBytes`: what becomes of the bytes. -/
def maskByBytes (key : WebSocketMaskingKey) : ℕ → List UInt8 → List UInt8
  | _, [] => []
  | offset, b :: rest => (b ^^^ key.byte offset) :: maskByBytes key (offset + 1) rest

/-- `MaskWebSocketFramePayload`, for a `PackedMaskType` of some size and data at some address: what
becomes of the data. -/
def maskWebSocketFramePayload (packed address : ℕ) (key : WebSocketMaskingKey) (frameOffset : ℕ)
    (data : List UInt8) : List UInt8 :=
  if data.length ≤ packed * 2 then maskByBytes key (frameOffset % 4) data
  else
    let dataModulus := address % packed
    let alignedBegin := if dataModulus = 0 then 0 else packed - dataModulus
    let alignedEnd := data.length - (address + data.length) % packed
    let realignedMask := maskByBytes key ((frameOffset + alignedBegin) % 4) (List.replicate 4 0)
    let packedMaskKey := (List.replicate (packed / 4) realignedMask).flatten
    maskByBytes key (frameOffset % 4) (data.take alignedBegin) ++
      (pieces packed ((data.take alignedEnd).drop alignedBegin)).flatMap
        (List.zipWith (· ^^^ ·) · packedMaskKey) ++
      maskByBytes key ((frameOffset + alignedEnd) % 4) (data.drop alignedEnd)

section Mask

variable (key : WebSocketMaskingKey)

@[simp] theorem length_maskByBytes (offset : ℕ) (data : List UInt8) :
    (maskByBytes key offset data).length = data.length := by
  induction data generalizing offset with
  | nil => rfl
  | cons b rest ih => simp [maskByBytes, ih]

theorem maskByBytes_append (offset : ℕ) (data data' : List UInt8) :
    maskByBytes key offset (data ++ data') =
      maskByBytes key offset data ++ maskByBytes key (offset + data.length) data' := by
  induction data generalizing offset with
  | nil => rfl
  | cons b rest ih => simp [maskByBytes, ih, Nat.add_assoc, Nat.add_comm 1]

theorem maskByBytes_congr {offset offset' : ℕ} (h : offset % 4 = offset' % 4) (data : List UInt8) :
    maskByBytes key offset data = maskByBytes key offset' data := by
  induction data generalizing offset offset' with
  | nil => rfl
  | cons b rest ih =>
    have hbyte : key.byte offset = key.byte offset' := by
      rw [WebSocketMaskingKey.byte, h, WebSocketMaskingKey.byte]
    have hnext : (offset + 1) % 4 = (offset' + 1) % 4 := by omega
    rw [maskByBytes, maskByBytes, hbyte, ih hnext]

@[simp] theorem maskByBytes_mod (offset : ℕ) (data : List UInt8) :
    maskByBytes key (offset % 4) data = maskByBytes key offset data :=
  maskByBytes_congr key (Nat.mod_mod offset 4) data

/-- The mask is its own inverse. -/
theorem maskByBytes_maskByBytes (offset : ℕ) (data : List UInt8) :
    maskByBytes key offset (maskByBytes key offset data) = data := by
  induction data generalizing offset with
  | nil => rfl
  | cons b rest ih => simp [maskByBytes, ih, UInt8.xor_assoc]

/-- Masked zeros are the key, and bytes are masked with it at once. -/
theorem zipWith_maskByBytes_zeros (offset : ℕ) {data : List UInt8} {count : ℕ}
    (h : data.length = count) :
    List.zipWith (· ^^^ ·) data (maskByBytes key offset (List.replicate count 0)) =
      maskByBytes key offset data := by
  induction data generalizing offset count with
  | nil =>
    rw [← h]
    rfl
  | cons b rest ih =>
    rw [← h, List.length_cons, List.replicate_succ, maskByBytes, List.zipWith_cons_cons,
      ih (offset + 1) rfl, maskByBytes, UInt8.zero_xor]

/-- A whole number of keys is what masks that many bytes. -/
theorem flatten_replicate_maskByBytes (offset count : ℕ) :
    (List.replicate count (maskByBytes key offset (List.replicate 4 0))).flatten =
      maskByBytes key offset (List.replicate (4 * count) 0) := by
  induction count with
  | zero => rfl
  | succ count ih =>
    have hzeros : List.replicate (4 * (count + 1)) (0 : UInt8) =
        List.replicate 4 0 ++ List.replicate (4 * count) 0 := by
      rw [List.replicate_append_replicate, Nat.mul_succ, Nat.add_comm]
    rw [List.replicate_succ, List.flatten_cons, ih, hzeros, maskByBytes_append,
      List.length_replicate, maskByBytes_congr key (Nat.add_mod_right offset 4)]

/-- Assumes: pieces of a size that is a multiple of the length of the key. They are masked as one. -/
theorem flatMap_zipWith_maskByBytes {size : ℕ} (hdvd : 4 ∣ size) (offset : ℕ)
    {parts : List (List UInt8)} (h : ∀ part ∈ parts, part.length = size) :
    parts.flatMap (List.zipWith (· ^^^ ·) · (maskByBytes key offset (List.replicate size 0))) =
      maskByBytes key offset parts.flatten := by
  induction parts with
  | nil => rfl
  | cons part others ih =>
    have hpart := h part List.mem_cons_self
    have hothers := ih fun other hmem ↦ h other (List.mem_cons_of_mem part hmem)
    have hoffset : (offset + part.length) % 4 = offset % 4 := by omega
    rw [List.flatMap_cons, List.flatten_cons, maskByBytes_append, hothers,
      zipWith_maskByBytes_zeros key offset hpart, maskByBytes_congr key hoffset]

end Mask

/-- Assumes: more bytes than two words. The aligned words are whole, and lie within the data. -/
theorem exists_aligned {packed : ℕ} (hpos : 0 < packed) (address : ℕ) {length : ℕ}
    (hlength : packed * 2 < length) :
    ∃ count,
      length - (address + length) % packed =
        (if address % packed = 0 then 0 else packed - address % packed) + count * packed := by
  have hlt := Nat.mod_lt (address + length) hpos
  have hstart := Nat.mod_lt address hpos
  generalize hbegin : (if address % packed = 0 then 0 else packed - address % packed) = start
  have hle : start < packed := by
    rw [← hbegin]
    split_ifs <;> omega
  have hdvd : packed ∣ address + start := by
    rw [← hbegin]
    split_ifs with hzero
    · exact Nat.dvd_of_mod_eq_zero hzero
    · refine ⟨address / packed + 1, ?_⟩
      have hdivision := Nat.div_add_mod address packed
      rw [Nat.mul_add, Nat.mul_one]
      omega
  have hdvd' : packed ∣ address + length - (address + length) % packed := Nat.dvd_sub_mod _
  obtain ⟨count, hcount⟩ := (Nat.dvd_sub hdvd' hdvd)
  refine ⟨count, ?_⟩
  rw [Nat.mul_comm count packed, ← hcount]
  omega

/-- Assumes: a `PackedMaskType` whose size is a multiple of the length of the key. What is masked at
once comes out as byte by byte, at every address. -/
theorem maskWebSocketFramePayload_eq {packed : ℕ} (hpos : 0 < packed) (hdvd : 4 ∣ packed)
    (address : ℕ) (key : WebSocketMaskingKey) (frameOffset : ℕ) (data : List UInt8) :
    maskWebSocketFramePayload packed address key frameOffset data =
      maskByBytes key frameOffset data := by
  unfold maskWebSocketFramePayload
  split_ifs with hsmall
  · exact maskByBytes_mod key frameOffset data
  · obtain ⟨count, hend⟩ := exists_aligned hpos address (Nat.lt_of_not_le hsmall)
    have hle : data.length - (address + data.length) % packed ≤ data.length := Nat.sub_le _ _
    simp only [hend, maskByBytes_mod] at hle ⊢
    generalize (if address % packed = 0 then 0 else packed - address % packed) = start at hle ⊢
    have hmiddle : ((data.take (start + count * packed)).drop start).length = count * packed := by
      rw [List.length_drop, List.length_take]
      omega
    have hwords : (List.replicate (packed / 4) (maskByBytes key (frameOffset + start)
        (List.replicate 4 0))).flatten =
          maskByBytes key (frameOffset + start) (List.replicate packed 0) := by
      rw [flatten_replicate_maskByBytes, Nat.mul_div_cancel' hdvd]
    have hfirst : (data.take start).length = start := by
      rw [List.length_take]
      omega
    have hsplit : data = data.take start ++ ((data.take (start + count * packed)).drop start ++
        data.drop (start + count * packed)) := by
      have hends := List.take_append_drop start (data.take (start + count * packed))
      rw [List.take_take, Nat.min_eq_left (Nat.le_add_right start _)] at hends
      rw [← List.append_assoc, hends, List.take_append_drop]
    rw [hwords, flatMap_zipWith_maskByBytes key hdvd _ fun part ↦ length_of_mem_pieces,
      flatten_pieces hpos hmiddle]
    conv_rhs => rw [hsplit, maskByBytes_append, maskByBytes_append, hfirst, hmiddle]
    rw [List.append_assoc, Nat.add_assoc]

/-- The parts of a payload are masked one by one, each at its own address. -/
def maskParts (packed : ℕ) (key : WebSocketMaskingKey) : ℕ → List (ℕ × List UInt8) → List UInt8
  | _, [] => []
  | offset, (address, part) :: rest =>
    maskWebSocketFramePayload packed address key offset part ++
      maskParts packed key (offset + part.length) rest

theorem maskParts_eq {packed : ℕ} (hpos : 0 < packed) (hdvd : 4 ∣ packed)
    (key : WebSocketMaskingKey) (offset : ℕ) (parts : List (ℕ × List UInt8)) :
    maskParts packed key offset parts = maskByBytes key offset (parts.flatMap Prod.snd) := by
  induction parts generalizing offset with
  | nil => rfl
  | cons part rest ih =>
    obtain ⟨address, data⟩ := part
    rw [maskParts, maskWebSocketFramePayload_eq hpos hdvd, ih, List.flatMap_cons,
      maskByBytes_append]

/-- Assumes: two machines with a `PackedMaskType` whose size is a multiple of the length of the key.
What one masks at once, the other unmasks in any parts, wherever each of them lies. -/
theorem maskParts_mask (packed packed' : ℕ) (hpos : 0 < packed) (hdvd : 4 ∣ packed)
    (hpos' : 0 < packed') (hdvd' : 4 ∣ packed') (address : ℕ) (key : WebSocketMaskingKey)
    (payload : List UInt8) (parts : List (ℕ × List UInt8))
    (h : parts.flatMap Prod.snd = maskWebSocketFramePayload packed address key 0 payload) :
    maskParts packed' key 0 parts = payload := by
  rw [maskParts_eq hpos' hdvd', h, maskWebSocketFramePayload_eq hpos hdvd, maskByBytes_maskByBytes]

/-- Forty bytes that lie at the address 5, and come in two parts. -/
theorem maskParts_mask_forty :
    maskParts 8 ⟨1, 2, 3, 4⟩ 0
      [(3, (maskWebSocketFramePayload 16 5 ⟨1, 2, 3, 4⟩ 0 (List.replicate 40 7)).take 35),
        (8, (maskWebSocketFramePayload 16 5 ⟨1, 2, 3, 4⟩ 0 (List.replicate 40 7)).drop 35)] =
      List.replicate 40 7 :=
  maskParts_mask 16 8 (by decide) (by decide) (by decide) (by decide) 5 ⟨1, 2, 3, 4⟩ _ _ (by simp)

end Felicia
