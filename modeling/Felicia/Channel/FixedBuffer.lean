import Felicia.Channel.Receive

/-!
# Buffers that are to stay as large as they are

`ChannelBuffer` of `felicia/core/channel/channel_buffer.cc` with its flag and its offset.

`SetDynamicBuffer` ignores its argument: a buffer that was told to grow once can not be told to stop
growing. `TrackedBuffer.fixed_iff_within` says that nothing else makes a capacity change against
what was asked for last.
-/

set_option autoImplicit false
set_option relaxedAutoImplicit false

namespace Felicia

open Support TransitionSystem

/-! ### The buffer -/

/-- `ChannelBuffer`, with the offset of its `GrowableIOBuffer`. -/
structure PlacedBuffer extends ChannelBuffer where
  offset : ℕ := 0
  /-- The `DCHECK_LE` of `set_offset`. -/
  offset_le : offset ≤ toChannelBuffer.capacity

namespace PlacedBuffer

variable (b : PlacedBuffer)

/-- A buffer that was not allocated. -/
def empty : PlacedBuffer := ⟨{}, 0, Nat.zero_le _⟩

theorem min_offset_le (capacity : ℕ) :
    min b.offset capacity ≤ (b.toChannelBuffer.setCapacity capacity).capacity := by
  rw [ChannelBuffer.capacity_setCapacity]
  exact Nat.min_le_right _ _

/-- `SetCapacity`. -/
def setCapacity (capacity : ℕ) : PlacedBuffer :=
  ⟨b.toChannelBuffer.setCapacity capacity, min b.offset capacity, b.min_offset_le capacity⟩

/-- `SetDynamicBuffer`, whatever it is called with. -/
def setDynamicBuffer (_isDynamic : Bool) : PlacedBuffer :=
  ⟨{ b.toChannelBuffer with isDynamic := true }, b.offset, b.offset_le⟩

/-- `set_offset(0)`. -/
def rewind : PlacedBuffer := ⟨b.toChannelBuffer, 0, Nat.zero_le _⟩

/-- `Reset`. -/
def reset : PlacedBuffer :=
  if !b.isDynamic && b.capacity = 0 then (b.setCapacity 1000).rewind else b.rewind

/-- `SetEnoughCapacityIfDynamic`. -/
def setEnoughCapacityIfDynamic (capacity : ℤ) : PlacedBuffer × Bool :=
  if capacity ≤ b.capacity then (b, true)
  else if !b.isDynamic then (b, false)
  else (b.setCapacity capacity.toNat, true)

@[simp] theorem capacity_setCapacity (capacity : ℕ) :
    (b.setCapacity capacity).capacity = capacity :=
  ChannelBuffer.capacity_setCapacity _ _

@[simp] theorem capacity_setDynamicBuffer (isDynamic : Bool) :
    (b.setDynamicBuffer isDynamic).capacity = b.capacity := rfl

@[simp] theorem capacity_rewind : b.rewind.capacity = b.capacity := rfl

/-- The buffer is the one of the receivers, which do not look at the offset. -/
theorem toChannelBuffer_reset : b.reset.toChannelBuffer = b.toChannelBuffer.reset := by
  unfold reset ChannelBuffer.reset
  split_ifs <;> rfl

theorem setEnoughCapacityIfDynamic_eq (capacity : ℤ) :
    (b.setEnoughCapacityIfDynamic capacity).1.toChannelBuffer =
        (b.toChannelBuffer.setEnoughCapacityIfDynamic capacity.toNat).getD b.toChannelBuffer ∧
      (b.setEnoughCapacityIfDynamic capacity).2 =
        (b.toChannelBuffer.setEnoughCapacityIfDynamic capacity.toNat).isSome := by
  unfold setEnoughCapacityIfDynamic ChannelBuffer.setEnoughCapacityIfDynamic
  have hle : capacity ≤ b.capacity ↔ capacity.toNat ≤ b.capacity := Int.toNat_le.symm
  by_cases hcapacity : capacity.toNat ≤ b.capacity
  · rw [if_pos hcapacity, if_pos (hle.mpr hcapacity)]
    exact ⟨rfl, rfl⟩
  · rw [if_neg hcapacity, if_neg (hle.not.mpr hcapacity)]
    by_cases hdynamic : b.isDynamic = true
    · simp [hdynamic, setCapacity]
    · simp [hdynamic]

theorem capacity_reset : b.reset.capacity =
    if b.isDynamic = false ∧ b.capacity = 0 then 1000 else b.capacity := by
  unfold reset
  by_cases h : b.isDynamic = false ∧ b.capacity = 0
  · rw [if_pos h, if_pos (by simp [h]), capacity_rewind, capacity_setCapacity]
  · rw [if_neg h, if_neg (by simpa using h), capacity_rewind]

theorem isDynamic_reset : b.reset.isDynamic = b.isDynamic := by
  unfold reset
  split_ifs <;> rfl

theorem isDynamic_setEnoughCapacityIfDynamic (capacity : ℤ) :
    (b.setEnoughCapacityIfDynamic capacity).1.isDynamic = b.isDynamic := by
  unfold setEnoughCapacityIfDynamic
  split_ifs <;> rfl

/-- Only a dynamic buffer grows, and only to what is asked for. -/
theorem capacity_setEnoughCapacityIfDynamic (capacity : ℤ) :
    ((b.setEnoughCapacityIfDynamic capacity).1.capacity : ℤ) =
      if b.isDynamic = true then max (b.capacity : ℤ) capacity else b.capacity := by
  unfold setEnoughCapacityIfDynamic
  by_cases hcapacity : capacity ≤ b.capacity
  · rw [if_pos hcapacity, max_eq_left hcapacity, ite_self]
  · rw [if_neg hcapacity]
    by_cases hdynamic : b.isDynamic = true
    · rw [if_pos hdynamic, if_neg (by simp [hdynamic]), capacity_setCapacity]
      omega
    · rw [if_neg hdynamic, if_pos (by simp [hdynamic])]

/-- The capacity after `ReceiveInternalBuffer` made room. -/
theorem capacity_receive (capacity : ℤ) :
    ((b.reset.setEnoughCapacityIfDynamic capacity).1.capacity : ℤ) =
      if b.isDynamic = true then max (b.capacity : ℤ) capacity
      else if b.capacity = 0 then 1000 else b.capacity := by
  rw [capacity_setEnoughCapacityIfDynamic, isDynamic_reset, capacity_reset]
  by_cases hdynamic : b.isDynamic = true
  · simp [hdynamic]
  · have hfixed : b.isDynamic = false := Bool.not_eq_true _ ▸ hdynamic
    rw [if_neg hdynamic, if_neg hdynamic]
    by_cases hempty : b.capacity = 0
    · rw [if_pos hempty, if_pos ⟨hfixed, hempty⟩]
      rfl
    · rw [if_neg hempty, if_neg fun h ↦ hempty h.2]

/-- What `SetEnoughCapacityIfDynamic` returns. -/
theorem setEnoughCapacityIfDynamic_returns_iff (capacity : ℤ) :
    (b.setEnoughCapacityIfDynamic capacity).2 = true ↔
      capacity ≤ (b.setEnoughCapacityIfDynamic capacity).1.capacity := by
  unfold setEnoughCapacityIfDynamic
  by_cases hcapacity : capacity ≤ b.capacity
  · rw [if_pos hcapacity]
    exact iff_of_true rfl hcapacity
  · rw [if_neg hcapacity]
    by_cases hdynamic : b.isDynamic = true
    · rw [if_neg (by simp [hdynamic])]
      refine iff_of_true rfl ?_
      rw [capacity_setCapacity]
      omega
    · rw [if_pos (by simp [hdynamic])]
      exact iff_of_false Bool.false_ne_true hcapacity

theorem eq_of_setEnoughCapacityIfDynamic_false {capacity : ℤ}
    (h : (b.setEnoughCapacityIfDynamic capacity).2 = false) :
    (b.setEnoughCapacityIfDynamic capacity).1 = b := by
  unfold setEnoughCapacityIfDynamic at h ⊢
  split_ifs at h ⊢
  rfl

end PlacedBuffer

/-! ### Calls -/

/-- A call on a buffer. -/
inductive BufferCall
  | setCapacity (capacity : ℤ)
  | setDynamicBuffer (isDynamic : Bool)
  | reset
  | setOffset (offset : ℤ)
  | setEnoughCapacityIfDynamic (capacity : ℤ)
  deriving DecidableEq

/-- A buffer, and the argument of the last `SetDynamicBuffer`; a new buffer is not dynamic. -/
structure TrackedBuffer where
  buffer : PlacedBuffer := PlacedBuffer.empty
  lastDynamic : Bool := false

/-- A call that was made. -/
structure BufferEvent where
  call : BufferCall
  before : TrackedBuffer
  after : TrackedBuffer
  /-- What the call returned, if it returns something. -/
  returned : Option Bool

namespace TrackedBuffer

variable (t : TrackedBuffer)

/-- A call whose argument passes the checks of `GrowableIOBuffer`, and what it returns. -/
def perform : BufferCall → Option (TrackedBuffer × Option Bool)
  | .setCapacity capacity =>
    if 0 ≤ capacity then some ({ t with buffer := t.buffer.setCapacity capacity.toNat }, none)
    else none
  | .setDynamicBuffer isDynamic => some (⟨t.buffer.setDynamicBuffer isDynamic, isDynamic⟩, none)
  | .reset => some ({ t with buffer := t.buffer.reset }, none)
  | .setOffset offset =>
    if h : offset.toNat ≤ t.buffer.toChannelBuffer.capacity then
      if 0 ≤ offset then
        some ({ t with buffer := ⟨t.buffer.toChannelBuffer, offset.toNat, h⟩ }, none)
      else none
    else none
  | .setEnoughCapacityIfDynamic capacity =>
    let result := t.buffer.setEnoughCapacityIfDynamic capacity
    some ({ t with buffer := result.1 }, some result.2)

def step (call : BufferCall) : Option (TrackedBuffer × List BufferEvent) :=
  (t.perform call).map fun result ↦ (result.1, [⟨call, t, result.1, result.2⟩])

end TrackedBuffer

/-- A buffer from its construction on. -/
def channelBuffer : TransitionSystem TrackedBuffer BufferCall BufferEvent where
  Initial t := t = {}
  step := TrackedBuffer.step

/-- What may change a capacity. -/
def BufferEvent.MayChange (e : BufferEvent) : Prop :=
  match e.call with
  | .setCapacity _ => True
  | .reset => e.before.buffer.isDynamic = false ∧ e.before.buffer.capacity = 0
  | .setEnoughCapacityIfDynamic _ => e.before.lastDynamic = true
  | .setDynamicBuffer _ | .setOffset _ => False

/-- The capacity changes only where it may, and `SetEnoughCapacityIfDynamic` tells whether there is
room, changing nothing where there is none. -/
structure BufferEvent.Fixed (e : BufferEvent) : Prop where
  capacity_eq : e.after.buffer.capacity ≠ e.before.buffer.capacity → e.MayChange
  returned_iff : ∀ capacity, e.call = .setEnoughCapacityIfDynamic capacity →
    (e.returned = some true ↔ capacity ≤ e.after.buffer.capacity) ∧
    (e.returned = some false ↔ e.after.buffer.capacity < capacity)
  unchanged_of_false : e.returned = some false → e.after = e.before

/-- No more than what the buffer has is asked for after `SetDynamicBuffer(false)`. -/
def BufferEvent.Within (e : BufferEvent) : Prop :=
  ∀ capacity, e.call = .setEnoughCapacityIfDynamic capacity → e.before.buffer.isDynamic = true →
    e.before.lastDynamic = false → capacity ≤ e.before.buffer.capacity

/-- Assumes: a call that returns nothing. -/
theorem BufferEvent.fixed_iff_within_of_ne {e : BufferEvent}
    (hcall : ∀ capacity, e.call ≠ .setEnoughCapacityIfDynamic capacity) (hvoid : e.returned = none)
    (hchange : e.after.buffer.capacity ≠ e.before.buffer.capacity → e.MayChange) :
    e.Fixed ↔ e.Within := by
  refine iff_of_true ⟨hchange, fun capacity h ↦ absurd h (hcall capacity), fun h ↦ ?_⟩
    fun capacity h ↦ absurd h (hcall capacity)
  rw [hvoid] at h
  cases h

namespace TrackedBuffer

variable {t t' : TrackedBuffer} {call : BufferCall} {returned : Option Bool}

theorem fixed_setEnoughCapacityIfDynamic_iff {capacity : ℤ}
    (hstep : t.perform (.setEnoughCapacityIfDynamic capacity) = some (t', returned)) :
    BufferEvent.Fixed ⟨.setEnoughCapacityIfDynamic capacity, t, t', returned⟩ ↔
      BufferEvent.Within ⟨.setEnoughCapacityIfDynamic capacity, t, t', returned⟩ := by
  cases hstep
  have hcapacity := t.buffer.capacity_setEnoughCapacityIfDynamic capacity
  have hreturns := t.buffer.setEnoughCapacityIfDynamic_returns_iff capacity
  constructor
  · rintro hfixed _ ⟨⟩ hdynamic hlast
    by_contra hlarge
    rw [if_pos hdynamic] at hcapacity
    have hchanged : (t.buffer.setEnoughCapacityIfDynamic capacity).1.capacity ≠
        t.buffer.capacity := by
      simp only at hlarge
      omega
    have hmay : t.lastDynamic = true := hfixed.capacity_eq hchanged
    rw [hlast] at hmay
    cases hmay
  · intro hwithin
    refine ⟨fun hchanged ↦ ?_, ?_, fun hfalse ↦ ?_⟩
    · by_contra hlast
      have hdynamic : t.buffer.isDynamic = true := by
        by_contra hfixed
        rw [if_neg hfixed] at hcapacity
        exact hchanged (Int.ofNat_inj.mp hcapacity)
      have hle := hwithin capacity rfl hdynamic (Bool.not_eq_true _ ▸ hlast)
      rw [if_pos hdynamic, max_eq_left hle] at hcapacity
      exact hchanged (Int.ofNat_inj.mp hcapacity)
    · rintro _ ⟨⟩
      simp only [Option.some.injEq]
      rw [← hreturns, ← not_le, ← hreturns, Bool.not_eq_true]
      exact ⟨Iff.rfl, Iff.rfl⟩
    · have hsame := t.buffer.eq_of_setEnoughCapacityIfDynamic_false (Option.some.inj hfalse)
      simp only [hsame]

/-- The step lemma. -/
theorem fixed_iff (hstep : t.perform call = some (t', returned)) :
    BufferEvent.Fixed ⟨call, t, t', returned⟩ ↔ BufferEvent.Within ⟨call, t, t', returned⟩ := by
  cases call with
  | setCapacity capacity =>
    simp only [perform] at hstep
    split_ifs at hstep
    cases hstep
    exact BufferEvent.fixed_iff_within_of_ne (fun _ ↦ BufferCall.noConfusion) rfl fun _ ↦ trivial
  | setDynamicBuffer isDynamic =>
    cases hstep
    exact BufferEvent.fixed_iff_within_of_ne (fun _ ↦ BufferCall.noConfusion) rfl
      fun hchanged ↦ absurd rfl hchanged
  | reset =>
    cases hstep
    refine BufferEvent.fixed_iff_within_of_ne (fun _ ↦ BufferCall.noConfusion) rfl
      fun hchanged ↦ ?_
    by_contra hallocated
    exact hchanged (t.buffer.capacity_reset.trans (if_neg hallocated))
  | setOffset offset =>
    simp only [perform] at hstep
    split_ifs at hstep
    cases hstep
    exact BufferEvent.fixed_iff_within_of_ne (fun _ ↦ BufferCall.noConfusion) rfl
      fun hchanged ↦ absurd rfl hchanged
  | setEnoughCapacityIfDynamic capacity => exact fixed_setEnoughCapacityIfDynamic_iff hstep

/-- The run lemma. -/
theorem fixed_iff_within {start : TrackedBuffer} {history : List BufferEvent}
    (run : Run (channelBuffer.startingAt start) unguarded t history) :
    ∀ e ∈ history, (e.Fixed ↔ e.Within) := by
  refine (run.safe (I := fun _ ↦ True) (fun _ _ ↦ trivial) ?_).2
  intro t call t' events _ _ _ hstep
  obtain ⟨result, hresult, heq⟩ := Option.map_eq_some_iff.mp hstep
  cases heq
  exact ⟨trivial, List.forall_mem_singleton.mpr (fixed_iff hresult)⟩

end TrackedBuffer

end Felicia
