import Felicia.Core.Messages
import Felicia.Support.Loops

/-!
# Shared memory

`SharedMemory::ReadAsync` of `felicia/core/channel/shared_memory/shared_memory.cc`. Another process
may write at any time, so what each iteration of the loop reads is an arbitrary value of a stream:
the version that `ReadBegin` returns, the bytes that the copy sees, and what `ReadRetry` answers.
`isRead_of_readAsync` says what holds of the buffer and of `last_version_` when the callback is run,
and that this takes at most eleven iterations.
-/

set_option autoImplicit false
set_option relaxedAutoImplicit false

namespace Felicia

open Support

/-- `kMaximumContentionCount`. -/
def kMaximumContentionCount : ℤ := 10

/-- What one iteration reads of the shared buffer. -/
structure SharedRead (size : ℕ) where
  /-- `ReadBegin()`, an `Atomic32`. -/
  version : BitVec 32
  /-- What is at `data()` during the copy. -/
  bytes : { bytes : List UInt8 // bytes.length = size }
  /-- `ReadRetry(version)`. -/
  readRetry : Bool

/-- The variables of the loop, and the buffer that is read to. -/
structure SharedReadLoop where
  iterations : ℕ := 0
  contentionCount : ℤ := -1
  version : BitVec 32 := 0
  buffer : List UInt8

/-- What `ReadAsync` leaves. -/
structure SharedReadResult where
  status : Status
  lastVersion : BitVec 32
  loop : SharedReadLoop

/-- `memcpy`, to the start of a buffer. -/
def memcpy (buffer bytes : List UInt8) : List UInt8 := bytes ++ buffer.drop bytes.length

namespace SharedMemory

variable {size : ℕ} (lastVersion : BitVec 32) (reads : ℕ → SharedRead size)

/-- The body of the loop, until it breaks. -/
def readOnce (loop : SharedReadLoop) : SharedReadLoop :=
  let read := reads loop.iterations
  { iterations := loop.iterations + 1
    contentionCount := loop.contentionCount + 1
    version := read.version
    buffer := if lastVersion = read.version then loop.buffer else memcpy loop.buffer read.bytes }

/-- One iteration. `ReadRetry` is not asked when the count is at its maximum. -/
def readRound (loop : SharedReadLoop) : LoopRound SharedReadLoop SharedReadLoop :=
  let next := readOnce lastVersion reads loop
  if next.contentionCount = kMaximumContentionCount then .done next
  else if (reads loop.iterations).readRetry || lastVersion = next.version then .again next
  else .done next

/-- What is done after the loop. -/
def finishRead (loop : SharedReadLoop) : SharedReadResult :=
  if loop.contentionCount = kMaximumContentionCount then
    { status := ⟨.unavailable, "Reached to maximum contention count."⟩, lastVersion, loop }
  else { status := .OK, lastVersion := loop.version, loop }

/-- `ReadAsync`, for at most some rounds of the loop. -/
def readAsync (rounds : ℕ) (buffer : List UInt8) : LoopEnd SharedReadResult :=
  match runLoop (readRound lastVersion reads) rounds { buffer } with
  | .failed => .failed
  | .unfinished => .unfinished
  | .finished loop => .finished (finishRead lastVersion loop)

/-! ### The loop -/

/-- What holds while the loop goes on. Only the first bytes of the buffer are written to. -/
structure Reading (size : ℕ) (buffer : List UInt8) (loop : SharedReadLoop) : Prop where
  iterations : (loop.iterations : ℤ) = loop.contentionCount + 1
  contentionCount : loop.contentionCount < kMaximumContentionCount
  rest : loop.buffer.drop size = buffer.drop size

/-- What holds at the end of the loop: the count is at its maximum, or the last iteration copied a
version that is new and did not change meanwhile. -/
structure Ended (lastVersion : BitVec 32) (reads : ℕ → SharedRead size) (buffer : List UInt8)
    (loop : SharedReadLoop) : Prop where
  iterations_pos : 0 < loop.iterations
  iterations_le : loop.iterations ≤ 11
  version : loop.version = (reads (loop.iterations - 1)).version
  copied : loop.contentionCount ≠ kMaximumContentionCount →
    lastVersion ≠ loop.version ∧ (reads (loop.iterations - 1)).readRetry = false ∧
      loop.buffer = (reads (loop.iterations - 1)).bytes ++ buffer.drop size

variable {lastVersion reads} {buffer : List UInt8} {loop : SharedReadLoop}

theorem Reading.memcpy_eq (h : Reading size buffer loop) (bytes : List UInt8)
    (hlength : bytes.length = size) : memcpy loop.buffer bytes = bytes ++ buffer.drop size := by
  rw [memcpy, hlength, h.rest]

theorem Reading.rest_readOnce (h : Reading size buffer loop) :
    (readOnce lastVersion reads loop).buffer.drop size = buffer.drop size := by
  unfold readOnce
  dsimp only
  split_ifs
  · exact h.rest
  · rw [h.memcpy_eq _ (reads loop.iterations).bytes.property]
    exact List.drop_left' (reads loop.iterations).bytes.property

/-- A round goes on with one more contention, or ends the loop. -/
theorem Reading.round_meets (h : Reading size buffer loop) :
    (readRound lastVersion reads loop).Meets False
      (fun next ↦ Reading size buffer next ∧ next.contentionCount = loop.contentionCount + 1)
      (Ended lastVersion reads buffer) := by
  have hiterations := h.iterations
  have hcount := h.contentionCount
  have hnext : (readOnce lastVersion reads loop).iterations = loop.iterations + 1 := rfl
  have hcount' : (readOnce lastVersion reads loop).contentionCount =
      loop.contentionCount + 1 := rfl
  have hversion : (readOnce lastVersion reads loop).version =
      (reads loop.iterations).version := rfl
  unfold kMaximumContentionCount at hcount
  unfold readRound
  dsimp only
  split_ifs with hmaximum hagain
  · exact ⟨by omega, by omega, hversion, fun hne ↦ absurd hmaximum hne⟩
  · unfold kMaximumContentionCount at hmaximum
    exact ⟨⟨by omega, by unfold kMaximumContentionCount; omega, h.rest_readOnce⟩, hcount'⟩
  · rw [Bool.or_eq_true, not_or, decide_eq_true_eq, Bool.not_eq_true] at hagain
    refine ⟨by omega, by omega, hversion, fun _ ↦ ⟨hagain.2, hagain.1, ?_⟩⟩
    rw [hversion] at hagain
    rw [readOnce, if_neg hagain.2]
    exact h.memcpy_eq _ (reads loop.iterations).bytes.property

/-! ### Reading -/

/-- What the callback may rely on: where the status is OK, the last iteration read a new version
that had not changed after the copy, which is all that the buffer holds in front of what it held
before; and otherwise the version that is kept is the same. -/
structure IsRead (lastVersion : BitVec 32) (reads : ℕ → SharedRead size) (buffer : List UInt8)
    (result : SharedReadResult) : Prop where
  iterations_pos : 0 < result.loop.iterations
  iterations_le : result.loop.iterations ≤ 11
  ok : result.status.isOk = true →
    (reads (result.loop.iterations - 1)).version ≠ lastVersion ∧
      (reads (result.loop.iterations - 1)).readRetry = false ∧
      result.loop.buffer = (reads (result.loop.iterations - 1)).bytes ++ buffer.drop size ∧
      result.lastVersion = (reads (result.loop.iterations - 1)).version
  unavailable : result.status.isOk = false →
    result.status = ⟨.unavailable, "Reached to maximum contention count."⟩ ∧
      result.lastVersion = lastVersion

theorem Ended.isRead (h : Ended lastVersion reads buffer loop) :
    IsRead lastVersion reads buffer (finishRead lastVersion loop) := by
  unfold finishRead
  split_ifs with hmaximum
  · exact ⟨h.iterations_pos, h.iterations_le, nofun, fun _ ↦ ⟨rfl, rfl⟩⟩
  · obtain ⟨hversion, hretry, hbuffer⟩ := h.copied hmaximum
    refine ⟨h.iterations_pos, h.iterations_le, fun _ ↦ ⟨?_, hretry, hbuffer, h.version⟩, nofun⟩
    rw [← h.version]
    exact hversion.symm

/-- Whatever is read, the loop ends within eleven iterations. -/
theorem isRead_of_readAsync (lastVersion : BitVec 32) (reads : ℕ → SharedRead size)
    (buffer : List UInt8) (more : ℕ) :
    ∃ result, readAsync lastVersion reads (11 + more) buffer = .finished result ∧
      IsRead lastVersion reads buffer result := by
  have hmeets : (runLoop (readRound lastVersion reads) (11 + more) { buffer }).Meets False
      (Ended lastVersion reads buffer) := by
    refine runLoop_meets (P := Reading size buffer)
      (fun loop ↦ (kMaximumContentionCount - loop.contentionCount - 1).toNat) ?_
      ⟨rfl, show (-1 : ℤ) < 10 by decide, rfl⟩ ?_
    · intro loop h
      refine h.round_meets.mono (fun next hnext ↦ ⟨hnext.1, ?_⟩) fun _ hended ↦ hended
      have hlt := hnext.1.contentionCount
      have heq := hnext.2
      unfold kMaximumContentionCount at *
      omega
    · show (10 - -1 - 1 : ℤ).toNat < 11 + more
      omega
  obtain ⟨loop, hloop, hended⟩ := hmeets.finished
  exact ⟨_, by rw [readAsync, hloop], hended.isRead⟩

end SharedMemory

end Felicia
