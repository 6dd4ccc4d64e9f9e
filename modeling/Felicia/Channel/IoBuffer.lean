import Felicia.Support.Transfer
import Felicia.Support.Memory
import Felicia.Core.Messages

/-!
# Buffers and the results of socket calls

The buffers of `third_party/chromium/net/base/io_buffer.cc` that the sockets use, and the results of
their calls: a count of bytes, or an error of `third_party/chromium/net/base/net_error_list.h`,
which is negative. The bounds that `SetOffset`, `set_offset` and `SetCapacity` check are fields, and
a call moves at most what it was asked for, as `read` and `send` do.
-/

set_option autoImplicit false
set_option relaxedAutoImplicit false

namespace Felicia

open Support

/-! ### Results -/

/-- `net::ERR_IO_PENDING`. -/
def errIoPending : ℤ := -1

/-- `net::ERR_FAILED`. -/
def errFailed : ℤ := -2

/-- `net::ERR_SOCKET_NOT_CONNECTED`. -/
def errSocketNotConnected : ℤ := -15

/-- `net::ERR_CONNECTION_RESET`. -/
def errConnectionReset : ℤ := -101

/-- An error that a call can end with. A call that has to wait has not ended. -/
structure NetError where
  code : ℤ
  negative : code < 0
  notPending : code ≠ errIoPending
  deriving DecidableEq

theorem errConnectionReset_neg : errConnectionReset < 0 := by decide

theorem errConnectionReset_ne : errConnectionReset ≠ errIoPending := by decide

/-- What a call returns, or runs its callback with, when it ends. -/
def result (asked : ℕ) : Completion NetError → ℤ
  | .moved n => (min n asked : ℕ)
  | .failed e => e.code

theorem decide_result_nonneg (asked : ℕ) (completion : Completion NetError) :
    decide (0 ≤ result asked completion) = completion.isMoved := by
  cases completion with
  | moved n => simp [result, Completion.isMoved]
  | failed e => exact decide_eq_false (not_le.mpr e.negative)

/-- A call returns something that is not positive exactly when it moved nothing. -/
theorem result_nonpos_iff (asked : ℕ) (completion : Completion NetError) :
    result asked completion ≤ 0 ↔ completion.count asked = 0 := by
  cases completion with
  | moved n =>
    simp only [result, Completion.count]
    omega
  | failed e => simpa [result, Completion.count] using e.negative.le

/-- Assumes: something to move. A call that ends at once stops the loops, as it moved nothing or all
that was left, or lets them go on. -/
theorem result_cases {asked : ℕ} (hasked : 0 < asked) (completion : Completion NetError) :
    (completion.count asked = 0 ∧ result asked completion ≤ 0) ∨
      (completion.count asked = asked ∧ 0 < result asked completion) ∨
      completion.count asked < asked ∧ completion.count asked ≠ 0 ∧
        0 < result asked completion := by
  have hrv := result_nonpos_iff asked completion
  have hle := completion.count_le asked
  omega

/-! ### A buffer that is written from -/

/-- `net::DrainableIOBuffer`: `size` bytes of another buffer, from its `data` on. -/
structure DrainableIOBuffer where
  base : List UInt8
  size : ℕ
  used : ℕ := 0
  size_le : size ≤ base.length
  used_le : used ≤ size

namespace DrainableIOBuffer

/-- The constructor, for a buffer that holds at least `size` bytes. -/
def make (base : List UInt8) (size : ℕ) (h : size ≤ base.length) : DrainableIOBuffer where
  base := base
  size := size
  size_le := h
  used_le := Nat.zero_le size

variable (b : DrainableIOBuffer)

def bytesRemaining : ℕ := b.size - b.used

/-- A call that is asked to move what is left moves at most that. -/
theorem count_le_bytesRemaining (completion : Completion NetError) :
    completion.count b.bytesRemaining ≤ b.bytesRemaining :=
  completion.count_le b.bytesRemaining

/-- What `data_` points to. -/
def data : List UInt8 := b.base.drop b.used

/-- `DidConsume`, where `SetOffset` checks the bound. -/
def didConsume (bytes : ℕ) (h : bytes ≤ b.bytesRemaining) : DrainableIOBuffer where
  base := b.base
  size := b.size
  used := b.used + bytes
  size_le := b.size_le
  used_le := by
    have := b.used_le
    simp only [bytesRemaining] at h
    omega

@[simp] theorem bytesRemaining_didConsume (bytes : ℕ) (h : bytes ≤ b.bytesRemaining) :
    (b.didConsume bytes h).bytesRemaining = b.bytesRemaining - bytes := by
  simp only [bytesRemaining, didConsume]
  omega

@[simp] theorem data_didConsume (bytes : ℕ) (h : bytes ≤ b.bytesRemaining) :
    (b.didConsume bytes h).data = b.data.drop bytes := by
  simp [data, didConsume]

end DrainableIOBuffer

/-! ### A buffer that is read into -/

/-- `net::GrowableIOBuffer`. The capacity is the length of its memory. -/
structure GrowableIOBuffer where
  realData : List UInt8
  offset : ℕ
  offset_le : offset ≤ realData.length

namespace GrowableIOBuffer

variable (b : GrowableIOBuffer)

def capacity : ℕ := b.realData.length

def remainingCapacity : ℕ := b.capacity - b.offset

/-- Memory with some bytes stored from an address on. -/
def stored (memory : List UInt8) (address : ℕ) (bytes : List UInt8) : List UInt8 :=
  memory.take address ++ bytes ++ memory.drop (address + bytes.length)

theorem stored_eq_write (memory : List UInt8) (address : ℕ) (bytes : List UInt8) :
    stored memory address bytes = Memory.write memory address bytes := rfl

theorem length_stored {memory : List UInt8} {address : ℕ} {bytes : List UInt8}
    (h : address + bytes.length ≤ memory.length) :
    (stored memory address bytes).length = memory.length := by
  rw [stored_eq_write, Memory.length_write h]

/-- Assumes: room for the bytes. Storing some bytes and then more behind them stores them all. -/
theorem stored_append {memory : List UInt8} {address : ℕ} (bytes bytes' : List UInt8)
    (h : address + bytes.length ≤ memory.length) :
    stored (stored memory address bytes) (address + bytes.length) bytes' =
      stored memory address (bytes ++ bytes') := by
  rw [stored_eq_write, stored_eq_write, stored_eq_write, Memory.write_write_behind h]

/-- Bytes arrive at `data_`. -/
def fill (bytes : List UInt8) (h : bytes.length ≤ b.remainingCapacity) : GrowableIOBuffer where
  realData := stored b.realData b.offset bytes
  offset := b.offset
  offset_le := by
    have := b.offset_le
    rw [length_stored] <;> simp only [remainingCapacity, capacity] at h <;> omega

@[simp] theorem remainingCapacity_fill (bytes : List UInt8)
    (h : bytes.length ≤ b.remainingCapacity) :
    (b.fill bytes h).remainingCapacity = b.remainingCapacity := by
  have := b.offset_le
  simp only [remainingCapacity, capacity, fill] at h ⊢
  rw [length_stored]
  omega

/-- `set_offset`. -/
def setOffset (offset : ℕ) (h : offset ≤ b.capacity) : GrowableIOBuffer where
  realData := b.realData
  offset := offset
  offset_le := h

end GrowableIOBuffer

end Felicia
