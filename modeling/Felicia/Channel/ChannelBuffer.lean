import Felicia.Channel.IoBuffer

/-!
# Channel buffers

`felicia/core/channel/channel_buffer.cc` over `GrowableIOBuffer`. Channels and their owner may share
one: `Channel::SetSendBuffer` copies a reference to the memory. The number of allocations tells one
memory from the next.
-/

set_option autoImplicit false
set_option relaxedAutoImplicit false

namespace Felicia

/-- `ChannelBuffer`, from the start of its memory. -/
structure ChannelBuffer where
  memory : List UInt8 := []
  isDynamic : Bool := false
  allocations : ℕ := 0

namespace ChannelBuffer

variable (b : ChannelBuffer)

def capacity : ℕ := b.memory.length

/-- `SetCapacity`, through `realloc`. What the memory holds beyond the old one is not specified. -/
def setCapacity (capacity : ℕ) : ChannelBuffer :=
  { b with
    memory := (b.memory ++ List.replicate (capacity - b.memory.length) 0).take capacity
    allocations := b.allocations + 1 }

/-- `Reset`. Its offset goes back to the start; a buffer that was not allocated gets one kilobyte.
-/
def reset : ChannelBuffer :=
  if !b.isDynamic && b.capacity = 0 then b.setCapacity 1000 else b

/-- `SetEnoughCapacityIfDynamic`. -/
def setEnoughCapacityIfDynamic (capacity : ℕ) : Option ChannelBuffer :=
  if capacity ≤ b.capacity then some b
  else if b.isDynamic then some (b.setCapacity capacity)
  else none

/-- Bytes are copied to `StartOfBuffer`. -/
def copy (bytes : List UInt8) : ChannelBuffer :=
  { b with memory := GrowableIOBuffer.stored b.memory 0 bytes }

/-- The buffer has room for some bytes or makes it. -/
def Suffices (size : ℕ) : Prop := size ≤ b.capacity ∨ b.isDynamic = true

@[simp] theorem capacity_setCapacity (capacity : ℕ) :
    (b.setCapacity capacity).capacity = capacity := by
  simp only [setCapacity, ChannelBuffer.capacity, List.length_take, List.length_append,
    List.length_replicate]
  omega

theorem exists_of_suffices {size : ℕ} (h : b.Suffices size) :
    ∃ b', b.setEnoughCapacityIfDynamic size = some b' ∧ size ≤ b'.capacity ∧
      b.capacity ≤ b'.capacity ∧ b'.isDynamic = b.isDynamic := by
  unfold setEnoughCapacityIfDynamic
  by_cases hcapacity : size ≤ b.capacity
  · exact ⟨b, by rw [if_pos hcapacity], hcapacity, le_rfl, rfl⟩
  · have hdynamic : b.isDynamic = true := h.resolve_left hcapacity
    refine ⟨b.setCapacity size, by rw [if_neg hcapacity, if_pos hdynamic], ?_, ?_, rfl⟩
    · rw [capacity_setCapacity]
    · rw [capacity_setCapacity]
      exact (not_le.mp hcapacity).le

theorem isDynamic_reset : b.reset.isDynamic = b.isDynamic := by
  unfold reset
  split_ifs <;> rfl

/-- Assumes: a buffer that was allocated. -/
theorem reset_eq_self (h : b.isDynamic = true ∨ 0 < b.capacity) : b.reset = b := by
  unfold reset
  rcases h with hdynamic | hcapacity
  · simp [hdynamic]
  · simp [hcapacity.ne']

theorem capacity_le_reset : b.capacity ≤ b.reset.capacity := by
  unfold reset
  split_ifs with h
  · rw [capacity_setCapacity]
    simp only [Bool.and_eq_true, decide_eq_true_eq] at h
    omega
  · exact le_rfl

theorem capacity_copy {bytes : List UInt8} (h : bytes.length ≤ b.capacity) :
    (b.copy bytes).capacity = b.capacity :=
  GrowableIOBuffer.length_stored (by simpa [capacity] using h)

theorem take_copy (bytes : List UInt8) : (b.copy bytes).memory.take bytes.length = bytes := by
  simp [copy, GrowableIOBuffer.stored]

end ChannelBuffer

end Felicia
