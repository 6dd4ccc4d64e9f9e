import Felicia.Channel.WebSocketClosing

/-!
# Close frames

The payload that `WebSocketChannel::SendClose` builds, and what `ParseClose` makes of it. The
payload holds the code and the reason, and both can be read off it (`SentClose.payload_inj`).
`ParseClose` does so, but the test of the reason is commented out and it goes on as if the test had
failed. It tells of invalid UTF-8 whatever the reason is (`SentClose.parseClose_payload`), so that a
channel is failed by every close frame with a code that another channel sends
(`SentClose.fails_handleFrame`).
-/

set_option autoImplicit false
set_option relaxedAutoImplicit false

namespace Felicia

/-- `base::WriteBigEndian`, for a code of 16 bits. -/
def writeBigEndian (code : ℕ) : List UInt8 := [UInt8.ofNat (code / 256), UInt8.ofNat code]

/-- The payload of the frame that `WebSocketChannel::SendClose` sends. -/
def closePayload (code : ℕ) (reason : String) : List UInt8 :=
  if code = errorNoStatusReceived then []
  else writeBigEndian code ++ reason.toUTF8.data.toList

/-- A code and a reason that may be sent: the code is not reserved, or stands for a frame without a
payload. -/
structure SentClose where
  code : ℕ
  reason : String
  code_lt : code < 2 ^ 16
  code_not_mem : code ∉ [1006, 1015]
  reason_eq : code = errorNoStatusReceived → reason = ""
  size_le : reason.toUTF8.size ≤ kMaximumCloseReasonLength

/-- A payload that no close frame should have. -/
inductive IsBroken : List UInt8 → Prop
  | oneByte (byte : UInt8) : IsBroken [byte]
  | reserved {code : ℕ} (hcode : code ∈ [1005, 1006, 1015]) (rest : List UInt8) :
      IsBroken (writeBigEndian code ++ rest)
  | notUTF8 (high low : UInt8) {text : List UInt8} (htext : ¬ text.toByteArray.IsValidUTF8) :
      IsBroken (high :: low :: text)

/-- A frame with a broken payload is refused. -/
theorem parseClose_of_isBroken {payload : List UInt8} (h : IsBroken payload) :
    ∃ failed, parseClose payload = .error failed := by
  refine WebSocketChannel.parseClose_of_ne_nil ?_
  cases h with
  | oneByte byte => exact List.cons_ne_nil _ _
  | reserved hcode rest => exact List.cons_ne_nil _ _
  | notUTF8 high low htext => exact List.cons_ne_nil _ _

namespace SentClose

variable {sent sent' : SentClose}

def payload (sent : SentClose) : List UInt8 := closePayload sent.code sent.reason

theorem payload_of_eq (h : sent.code = errorNoStatusReceived) : sent.payload = [] := if_pos h

theorem payload_of_ne (h : sent.code ≠ errorNoStatusReceived) :
    sent.payload = UInt8.ofNat (sent.code / 256) :: UInt8.ofNat sent.code ::
      sent.reason.toUTF8.data.toList := if_neg h

/-- `base::ReadBigEndian` reads what was written. -/
theorem readBigEndian_code (sent : SentClose) :
    (UInt8.ofNat (sent.code / 256)).toNat * 256 + (UInt8.ofNat sent.code).toNat = sent.code := by
  have hlt := sent.code_lt
  rw [UInt8.toNat_ofNat', UInt8.toNat_ofNat']
  omega

/-- No two frames have the same payload. -/
theorem payload_inj (heq : sent.payload = sent'.payload) :
    sent.code = sent'.code ∧ sent.reason = sent'.reason := by
  by_cases hcode : sent.code = errorNoStatusReceived <;>
    by_cases hcode' : sent'.code = errorNoStatusReceived
  · exact ⟨hcode.trans hcode'.symm, (sent.reason_eq hcode).trans (sent'.reason_eq hcode').symm⟩
  · rw [payload_of_eq hcode, payload_of_ne hcode'] at heq
    cases heq
  · rw [payload_of_ne hcode, payload_of_eq hcode'] at heq
    cases heq
  · rw [payload_of_ne hcode, payload_of_ne hcode', List.cons.injEq, List.cons.injEq] at heq
    obtain ⟨hhigh, hlow, htext⟩ := heq
    constructor
    · rw [← sent.readBigEndian_code, ← sent'.readBigEndian_code, hhigh, hlow]
    · exact String.toByteArray_inj.mp (ByteArray.ext (Array.toList_inj.mp htext))

/-- Assumes: a frame with a payload. Its reason is not looked at. -/
theorem parseClose_payload (hcode : sent.code ≠ errorNoStatusReceived) :
    parseClose sent.payload = .error (errorProtocolError, "Invalid UTF-8 in Close frame") := by
  have hnot : ¬ (sent.code = 1005 ∨ sent.code = 1006 ∨ sent.code = 1015) := by
    have hmem := sent.code_not_mem
    simp only [List.mem_cons, List.not_mem_nil, or_false, not_or] at hmem
    exact not_or.mpr ⟨hcode, not_or.mpr hmem⟩
  rw [payload_of_ne hcode, parseClose, sent.readBigEndian_code]
  exact if_neg hnot

/-- Assumes: a frame with a payload. A channel that receives it is failed, in any state. -/
theorem fails_handleFrame (hcode : sent.code ≠ errorNoStatusReceived) (c : WebSocketChannel)
    (isReserved : Bool) (writes : List (Option NetError)) :
    c.Fails (.handleFrame ⟨8, isReserved, sent.payload⟩ writes) := by
  refine .inr (.inr (.inr ⟨rfl, ?_⟩))
  rw [payload_of_ne hcode]
  exact List.cons_ne_nil _ _

/-- A frame that is sent is read as it was sent exactly when it has no payload. Broken payloads are
refused. -/
theorem closeFrame_iff (sent : SentClose) {broken : List UInt8} (hbroken : IsBroken broken) :
    (parseClose sent.payload = .ok (sent.code, sent.reason) ↔
      sent.code = errorNoStatusReceived) ∧
    ∃ failed, parseClose broken = .error failed := by
  refine ⟨?_, parseClose_of_isBroken hbroken⟩
  constructor
  · intro hparsed
    by_contra hcode
    rw [parseClose_payload hcode] at hparsed
    cases hparsed
  · intro hcode
    rw [payload_of_eq hcode, hcode, sent.reason_eq hcode]
    rfl

end SentClose

namespace Scenario

/-- A connection that is closed in order. -/
def normalClosure : SentClose where
  code := 1000
  reason := "bye"
  code_lt := by decide
  code_not_mem := by decide
  reason_eq := fun h ↦ absurd h (by decide)
  size_le := by decide

end Scenario

namespace SentClose

/-- A frame with a payload, and one of one byte. -/
theorem closeFrame_of_one_byte :
    parseClose Scenario.normalClosure.payload ≠ .ok (1000, "bye") ∧
      ∃ failed, parseClose [3] = .error failed := by
  obtain ⟨hiff, hfailed⟩ := closeFrame_iff Scenario.normalClosure (.oneByte 3)
  exact ⟨hiff.not.mpr (by decide), hfailed⟩

theorem closeFrame_wrong :
    Scenario.normalClosure.payload = [3, 232, 98, 121, 101] ∧
    parseClose Scenario.normalClosure.payload =
      .error (errorProtocolError, "Invalid UTF-8 in Close frame") ∧
    ¬ ∀ sent : SentClose, parseClose sent.payload = .ok (sent.code, sent.reason) := by
  have hparsed := parseClose_payload
    (show Scenario.normalClosure.code ≠ errorNoStatusReceived by decide)
  refine ⟨by decide, hparsed, fun hall ↦ ?_⟩
  cases hparsed.symm.trans (hall Scenario.normalClosure)

end SentClose

end Felicia
