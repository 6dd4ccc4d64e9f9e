import Mathlib.Algebra.Group.Nat.Defs
import Mathlib.Data.List.Basic

/-!
# The header of a message

`felicia/core/message/header.cc`: a message is preceded by its length, four bytes as the machine
stores an `int`, least significant byte first. `MessageIOError` is
`felicia/core/message/message_io_error_list.h`.
-/

set_option autoImplicit false
set_option relaxedAutoImplicit false

namespace Felicia

/-- The bytes of an `int` that is not negative. -/
def intBytes (n : ℕ) : List UInt8 :=
  [UInt8.ofNat n, UInt8.ofNat (n / 2 ^ 8), UInt8.ofNat (n / 2 ^ 16), UInt8.ofNat (n / 2 ^ 24)]

/-- `Header::header_size`. -/
def headerSize : ℕ := 4

/-- What `Header::AttachHeaderInternally` stores: the length of the content and the content. -/
def attachHeader (content : List UInt8) : List UInt8 := intBytes content.length ++ content

/-- What `Header::ParseHeader` reads as the size of the message: the first bytes as a signed number.
It checks nothing. -/
def parseHeader (buffer : List UInt8) : ℤ :=
  let byte (i : ℕ) : ℕ := (buffer[i]?.getD 0).toNat
  (BitVec.ofNat 32 (byte 0 + 2 ^ 8 * byte 1 + 2 ^ 16 * byte 2 + 2 ^ 24 * byte 3)).toInt

@[simp] theorem length_attachHeader (content : List UInt8) :
    (attachHeader content).length = headerSize + content.length := by
  rw [attachHeader, List.length_append]
  rfl

theorem toInt_ofNat_of_lt {n : ℕ} (h : n < 2 ^ 31) : (BitVec.ofNat 32 n).toInt = n := by
  have hmod : n % 2 ^ 32 = n := Nat.mod_eq_of_lt (by omega)
  rw [BitVec.toInt_eq_toNat_of_lt, BitVec.toNat_ofNat, hmod]
  rw [BitVec.toNat_ofNat, hmod]
  omega

/-- Assumes: a length that an `int` holds. What was stored as a size is read back. -/
theorem parseHeader_intBytes {n : ℕ} (h : n < 2 ^ 31) (rest : List UInt8) :
    parseHeader (intBytes n ++ rest) = n := by
  have hsum : n % 2 ^ 8 + 2 ^ 8 * (n / 2 ^ 8 % 2 ^ 8) + 2 ^ 16 * (n / 2 ^ 16 % 2 ^ 8) +
      2 ^ 24 * (n / 2 ^ 24 % 2 ^ 8) = n := by
    omega
  simp only [parseHeader, intBytes, List.cons_append, List.nil_append, List.getElem?_cons_zero,
    List.getElem?_cons_succ, Option.getD_some, UInt8.toNat_ofNat', hsum]
  exact toInt_ofNat_of_lt h

/-! ### Errors -/

/-- `MessageIOError`. -/
inductive MessageIOError
  | ok | failedToSerialize | notEnoughBuffer | corruptedHeader | failedToParse | wsProtocolError
  deriving DecidableEq, Repr

/-- `MessageIOErrorToString`. -/
def MessageIOError.toString : MessageIOError → String
  | .ok => "OK"
  | .failedToSerialize => "Failed to serialize"
  | .notEnoughBuffer => "Not enough buffer"
  | .corruptedHeader => "Corrupted header"
  | .failedToParse => "Failed to parse"
  | .wsProtocolError => "Websocket protocol error"

end Felicia
