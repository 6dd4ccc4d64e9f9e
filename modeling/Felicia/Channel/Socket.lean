import Felicia.Channel.IoBuffer

/-!
# Reading and writing a stream socket

`Socket::WriteRepeating` and `Socket::ReadRepeating` of `felicia/core/channel/socket/socket.cc`, as
`TCPClientSocket` and `UnixDomainClientSocket` drive them. Each call of the loop ends at once or has
to wait, and then `OnWrite` or `OnRead` runs with its end. What the socket does is a list of
outcomes, one for each call; the list may be longer than what the loop consumes.

`writeLoop_eq` and `readLoop_eq` say that the loops move bytes like `transfer` does, from the front
of the buffer onto the wire and from the stream into consecutive positions. The loop goes on after a
call that moved a part at once; `OnWrite` and `OnRead` do not, and report success for a part that
was moved later, and for nothing moved at the end of the stream.
-/

set_option autoImplicit false
set_option relaxedAutoImplicit false

namespace Felicia

open Support

/-- `errors::NetworkError`. -/
def networkError (message : String) : Status := ⟨.networkError, message⟩

/-- `Socket::CallbackWithStatus`: the status that the callback is run with. The texts of the errors
are the network library's. -/
def callbackWithStatus (errorToString : ℤ → String) (result : ℤ) : Status :=
  if 0 ≤ result then .OK else networkError (errorToString result)

theorem callbackWithStatus_eq_OK (errorToString : ℤ → String) (result : ℤ) :
    callbackWithStatus errorToString result = .OK ↔ 0 ≤ result := by
  unfold callbackWithStatus
  split_ifs with h
  · simp [h]
  · simp [h, networkError, Status.OK]

/-! ### Writing -/

/-- The buffer, what went onto the wire, and what `on_write_callback` was run with. -/
structure WriteState where
  buffer : DrainableIOBuffer
  wire : List UInt8
  result : Option ℤ := none

/-- The loop of `Socket::WriteRepeating`. -/
def writeLoop (buffer : DrainableIOBuffer) (wire : List UInt8) :
    List (Outcome NetError) → WriteState
  | [] => { buffer, wire }
  | outcome :: rest =>
    if 0 < buffer.bytesRemaining then
      match outcome with
      | .now completion =>
        let rv := result buffer.bytesRemaining completion
        let wire := wire ++ buffer.data.take (completion.count buffer.bytesRemaining)
        let buffer := if 0 < rv then
          buffer.didConsume (completion.count buffer.bytesRemaining)
            (buffer.count_le_bytesRemaining completion)
          else buffer
        if buffer.bytesRemaining = 0 ∨ rv ≤ 0 then { buffer, wire, result := some rv }
        else writeLoop buffer wire rest
      -- `ERR_IO_PENDING`: the socket keeps the buffer and runs `OnWrite` when it is done.
      | .pending none => { buffer, wire }
      | .pending (some completion) =>
        { buffer, wire := wire ++ buffer.data.take (completion.count buffer.bytesRemaining)
          result := some (result buffer.bytesRemaining completion) }
    else { buffer, wire }

/-- `Socket::WriteRepeating` on a buffer that holds at least `size` bytes. -/
def writeRepeating (buffer : List UInt8) (size : ℕ) (h : size ≤ buffer.length)
    (outcomes : List (Outcome NetError)) : WriteState :=
  writeLoop (.make buffer size h) [] outcomes

/-- `WriteAsync`: what the callback is run with, through `OnWrite`. -/
def WriteState.status (errorToString : ℤ → String) (state : WriteState) : Option Status :=
  state.result.map (callbackWithStatus errorToString)

/-- Assumes: something to write. The loop moves what a transfer moves, from the front of what is
left. -/
theorem writeLoop_eq (buffer : DrainableIOBuffer) (hpos : 0 < buffer.bytesRemaining)
    (wire : List UInt8) (outcomes : List (Outcome NetError)) :
    (writeLoop buffer wire outcomes).wire =
        wire ++ buffer.data.take (transfer buffer.bytesRemaining outcomes).moved ∧
      (writeLoop buffer wire outcomes).result.map (fun r ↦ decide (0 ≤ r)) =
        (transfer buffer.bytesRemaining outcomes).succeeded? := by
  induction outcomes generalizing buffer wire with
  | nil => simp [writeLoop, transfer, Transfer.succeeded?]
  | cons outcome rest ih =>
    cases outcome with
    | pending later =>
      cases later with
      | none => simp [writeLoop, hpos, transfer, Transfer.succeeded?]
      | some completion =>
        rw [writeLoop, if_pos hpos]
        refine ⟨rfl, ?_⟩
        simp [transfer, Transfer.succeeded?, decide_result_nonneg]
    | now completion =>
      have hle := buffer.count_le_bytesRemaining completion
      rw [writeLoop, if_pos hpos, transfer]
      dsimp only
      rcases result_cases hpos completion with
        ⟨hzero, hrv⟩ | ⟨hall, hrv⟩ | ⟨hpart, hzero, hrv⟩
      · rw [if_neg (not_lt.mpr hrv), if_pos (Or.inr hrv), if_pos (Or.inr hzero)]
        exact ⟨rfl, by simp [Transfer.succeeded?, decide_result_nonneg]⟩
      · rw [if_pos hrv, if_pos (Or.inl (by simp [hall])), if_pos (Or.inl hall)]
        exact ⟨rfl, by simp [Transfer.succeeded?, decide_result_nonneg]⟩
      · have hmore : 0 < (buffer.didConsume (completion.count buffer.bytesRemaining)
            hle).bytesRemaining := by
          rw [DrainableIOBuffer.bytesRemaining_didConsume]
          omega
        rw [if_pos hrv, if_neg (by omega), if_neg (by omega)]
        obtain ⟨hwire, hresult⟩ := ih _ hmore
          (wire ++ buffer.data.take (completion.count buffer.bytesRemaining))
        rw [DrainableIOBuffer.bytesRemaining_didConsume] at hwire hresult
        refine ⟨?_, hresult⟩
        rw [hwire, DrainableIOBuffer.data_didConsume, List.append_assoc, Transfer.after_moved,
          List.take_add]

/-- Assumes: something to write. -/
theorem writeRepeating_eq {buffer : List UInt8} {size : ℕ} (hsize : 0 < size)
    (h : size ≤ buffer.length) (outcomes : List (Outcome NetError)) :
    (writeRepeating buffer size h outcomes).wire = buffer.take (transfer size outcomes).moved ∧
      (writeRepeating buffer size h outcomes).result.map (fun r ↦ decide (0 ≤ r)) =
        (transfer size outcomes).succeeded? :=
  writeLoop_eq (.make buffer size h) hsize [] outcomes

/-- Assumes: a buffer that holds `size` bytes. They went onto the wire exactly if as many were
moved. -/
theorem take_moved_eq_iff {buffer : List UInt8} {size : ℕ} (h : size ≤ buffer.length)
    {outcomes : List (Outcome NetError)} :
    buffer.take (transfer size outcomes).moved = buffer.take size ↔
      (transfer size outcomes).moved = size := by
  have hle := transfer_moved_le size outcomes
  refine ⟨fun heq ↦ ?_, fun heq ↦ by rw [heq]⟩
  have hlength := congrArg List.length heq
  rw [List.length_take, List.length_take] at hlength
  omega

/-! ### Reading -/

/-- Bytes of what the peer sends, from a position on. -/
def streamBytes (stream : ℕ → UInt8) (position n : ℕ) : List UInt8 :=
  (List.range' position n).map stream

@[simp] theorem length_streamBytes (stream : ℕ → UInt8) (position n : ℕ) :
    (streamBytes stream position n).length = n := by
  simp [streamBytes]

theorem streamBytes_add (stream : ℕ → UInt8) (position m n : ℕ) :
    streamBytes stream position (m + n) =
      streamBytes stream position m ++ streamBytes stream (position + m) n := by
  simp [streamBytes, ← List.map_append]

/-- A buffer with room for what is left to read. -/
structure Reading where
  buffer : GrowableIOBuffer
  toRead : ℕ
  fits : toRead ≤ buffer.remainingCapacity

namespace Reading

variable (r : Reading)

/-- The socket stores bytes at `data_`. -/
def fill (bytes : List UInt8) (h : bytes.length ≤ r.toRead) : Reading where
  buffer := r.buffer.fill bytes (h.trans r.fits)
  toRead := r.toRead
  fits := by
    rw [GrowableIOBuffer.remainingCapacity_fill]
    exact r.fits

theorem offset_add_le {n : ℕ} (h : n ≤ r.toRead) : r.buffer.offset + n ≤ r.buffer.capacity := by
  have hfits := h.trans r.fits
  have := r.buffer.offset_le
  simp only [GrowableIOBuffer.remainingCapacity, GrowableIOBuffer.capacity] at *
  omega

theorem fits_setOffset {n : ℕ} (h : n ≤ r.toRead) :
    r.toRead - n ≤
      (r.buffer.setOffset (r.buffer.offset + n) (r.offset_add_le h)).remainingCapacity := by
  have hfits := r.fits
  simp only [GrowableIOBuffer.remainingCapacity, GrowableIOBuffer.capacity,
    GrowableIOBuffer.setOffset] at *
  omega

/-- `buffer->set_offset(buffer->offset() + rv); to_read -= rv`. -/
def advance (n : ℕ) (h : n ≤ r.toRead) : Reading where
  buffer := r.buffer.setOffset (r.buffer.offset + n) (r.offset_add_le h)
  toRead := r.toRead - n
  fits := r.fits_setOffset h

end Reading

/-- The buffer, how far the stream was read, and what `on_read_callback` was run with. -/
structure ReadState where
  reading : Reading
  position : ℕ
  result : Option ℤ := none

/-- The loop of `Socket::ReadRepeating`. -/
def readLoop (stream : ℕ → UInt8) (reading : Reading) (position : ℕ) :
    List (Outcome NetError) → ReadState
  | [] => { reading, position }
  | outcome :: rest =>
    if 0 < reading.toRead then
      match outcome with
      | .now completion =>
        let rv := result reading.toRead completion
        let n := completion.count reading.toRead
        let filled := reading.fill (streamBytes stream position n)
          (by simpa using completion.count_le reading.toRead)
        let reading := if 0 < rv then filled.advance n (completion.count_le reading.toRead)
          else filled
        if reading.toRead = 0 ∨ rv ≤ 0 then
          { reading, position := position + n, result := some rv }
        else readLoop stream reading (position + n) rest
      -- `ERR_IO_PENDING`: the socket keeps the buffer and runs `OnRead` when it is done.
      | .pending none => { reading, position }
      | .pending (some completion) =>
        let n := completion.count reading.toRead
        { reading := reading.fill (streamBytes stream position n)
            (by simpa using completion.count_le reading.toRead)
          position := position + n, result := some (result reading.toRead completion) }
    else { reading, position }

/-- `Socket::ReadRepeating` on a buffer with room for `size` bytes. -/
def readRepeating (stream : ℕ → UInt8) (buffer : GrowableIOBuffer) (size : ℕ)
    (h : size ≤ buffer.remainingCapacity) (outcomes : List (Outcome NetError)) : ReadState :=
  readLoop stream ⟨buffer, size, h⟩ 0 outcomes

/-- `ReadAsync`: what the callback is run with, through `OnRead`. -/
def ReadState.status (errorToString : ℤ → String) (state : ReadState) : Option Status :=
  state.result.map (callbackWithStatus errorToString)

/-- Assumes: something to read. The loop moves what a transfer moves, into consecutive positions. -/
theorem readLoop_eq (stream : ℕ → UInt8) (reading : Reading) (hpos : 0 < reading.toRead)
    (position : ℕ) (outcomes : List (Outcome NetError)) :
    (readLoop stream reading position outcomes).reading.buffer.realData =
        GrowableIOBuffer.stored reading.buffer.realData reading.buffer.offset
          (streamBytes stream position (transfer reading.toRead outcomes).moved) ∧
      (readLoop stream reading position outcomes).position =
        position + (transfer reading.toRead outcomes).moved ∧
      (readLoop stream reading position outcomes).result.map (fun r ↦ decide (0 ≤ r)) =
        (transfer reading.toRead outcomes).succeeded? := by
  induction outcomes generalizing reading position with
  | nil => simp [readLoop, transfer, Transfer.succeeded?, streamBytes, GrowableIOBuffer.stored]
  | cons outcome rest ih =>
    cases outcome with
    | pending later =>
      cases later with
      | none =>
        simp [readLoop, hpos, transfer, Transfer.succeeded?, streamBytes, GrowableIOBuffer.stored]
      | some completion =>
        rw [readLoop, if_pos hpos]
        refine ⟨rfl, rfl, ?_⟩
        simp [transfer, Transfer.succeeded?, decide_result_nonneg]
    | now completion =>
      have hle := completion.count_le reading.toRead
      rw [readLoop, if_pos hpos, transfer]
      dsimp only
      rcases result_cases hpos completion with
        ⟨hzero, hrv⟩ | ⟨hall, hrv⟩ | ⟨hpart, hzero, hrv⟩
      · rw [if_neg (not_lt.mpr hrv), if_pos (Or.inr hrv), if_pos (Or.inr hzero)]
        exact ⟨rfl, rfl, by simp [Transfer.succeeded?, decide_result_nonneg]⟩
      · rw [if_pos hrv, if_pos (Or.inl (by simp [Reading.advance, Reading.fill, hall])),
          if_pos (Or.inl hall)]
        exact ⟨rfl, rfl, by simp [Transfer.succeeded?, decide_result_nonneg]⟩
      · have hmore : 0 < reading.toRead - completion.count reading.toRead := by omega
        rw [if_pos hrv, if_neg, if_neg (by omega)]
        · obtain ⟨hdata, hposition, hresult⟩ := ih
            ((reading.fill (streamBytes stream position (completion.count reading.toRead))
              (by simpa using hle)).advance (completion.count reading.toRead) hle) hmore
            (position + completion.count reading.toRead)
          refine ⟨?_, ?_, hresult⟩
          · -- What the later calls store follows what this one stored.
            have hstored := GrowableIOBuffer.stored_append
              (streamBytes stream position (completion.count reading.toRead))
              (streamBytes stream (position + completion.count reading.toRead)
                (transfer (reading.toRead - completion.count reading.toRead) rest).moved)
              (by simpa [GrowableIOBuffer.capacity] using reading.offset_add_le hle)
            rw [length_streamBytes] at hstored
            rw [Transfer.after_moved, streamBytes_add, ← hstored]
            exact hdata
          · rw [hposition, Transfer.after_moved, Nat.add_assoc]
            rfl
        · simp only [Reading.advance, Reading.fill]
          omega

/-! ### Success and what was moved -/

theorem map_callbackWithStatus_eq_OK (errorToString : ℤ → String) (result : Option ℤ) :
    result.map (callbackWithStatus errorToString) = some .OK ↔
      result.map (fun r ↦ decide (0 ≤ r)) = some true := by
  cases result <;> simp [callbackWithStatus_eq_OK]

/-- When the callback of a write reports success, exactly the first `size` bytes of the buffer went
onto the wire. -/
def WritesExactly (errorToString : ℤ → String) (buffer : List UInt8) (size : ℕ)
    (h : size ≤ buffer.length) (outcomes : List (Outcome NetError)) : Prop :=
  (writeRepeating buffer size h outcomes).status errorToString = some .OK →
    (writeRepeating buffer size h outcomes).wire = buffer.take size

/-- When the callback of a read reports success, exactly `size` bytes were taken from the stream and
stored from the offset of the buffer on. -/
def ReadsExactly (errorToString : ℤ → String) (stream : ℕ → UInt8) (buffer : GrowableIOBuffer)
    (size : ℕ) (h : size ≤ buffer.remainingCapacity) (outcomes : List (Outcome NetError)) : Prop :=
  (readRepeating stream buffer size h outcomes).status errorToString = some .OK →
    (readRepeating stream buffer size h outcomes).position = size ∧
      (readRepeating stream buffer size h outcomes).reading.buffer.realData =
        GrowableIOBuffer.stored buffer.realData buffer.offset (streamBytes stream 0 size)

/-- Reads and writes that report success are exact precisely when no call moves nothing and the call
that has to wait, if any, fails or moves all that was left. -/
theorem exact_iff_whole (errorToString : ℤ → String) (size : ℕ) (hsize : 0 < size)
    (outcomes : List (Outcome NetError)) :
    (∀ (buffer : List UInt8) (h : size ≤ buffer.length),
      WritesExactly errorToString buffer size h outcomes ↔ Whole size outcomes) ∧
    ∀ (stream : ℕ → UInt8) (buffer : GrowableIOBuffer) (h : size ≤ buffer.remainingCapacity),
      ReadsExactly errorToString stream buffer size h outcomes ↔ Whole size outcomes := by
  refine ⟨fun buffer h ↦ ?_, fun stream buffer h ↦ ?_⟩
  · obtain ⟨hwire, hresult⟩ := writeRepeating_eq hsize h outcomes
    rw [WritesExactly, WriteState.status, map_callbackWithStatus_eq_OK, hresult, hwire,
      take_moved_eq_iff h, whole_iff hsize]
  · obtain ⟨hdata, hposition, hresult⟩ := readLoop_eq stream ⟨buffer, size, h⟩ hsize 0 outcomes
    rw [ReadsExactly, ReadState.status, map_callbackWithStatus_eq_OK, readRepeating, hresult,
      hdata, hposition, ← whole_iff hsize, Nat.zero_add]
    refine imp_congr_right fun _ ↦ ⟨And.left, fun heq ↦ ⟨heq, ?_⟩⟩
    rw [heq]

/-- One byte at once, the other three later. -/
theorem exact_iff_whole_of_mixed :
    WritesExactly (fun _ ↦ "") [1, 2, 3, 4] 4 (by decide)
      [.now (.moved 1), .pending (some (.moved 3))] :=
  ((exact_iff_whole (fun _ ↦ "") 4 (by decide) _).1 [1, 2, 3, 4] (by decide)).mpr
    ⟨by decide, fun _ ↦ by decide⟩

/-- A write has to wait, and one byte of four is written later. -/
theorem pending_write_not_exact :
    ¬ ∀ (buffer : List UInt8) (size : ℕ) (h : size ≤ buffer.length)
      (outcomes : List (Outcome NetError)), 0 < size →
        WritesExactly (fun _ ↦ "") buffer size h outcomes := by
  intro h
  have hexact := h [1, 2, 3, 4] 4 (by decide) [.pending (some (.moved 1))] (by decide) rfl
  have hwire : (writeRepeating [1, 2, 3, 4] 4 (by decide) [.pending (some (.moved 1))]).wire =
      [1] := rfl
  rw [hwire] at hexact
  exact absurd hexact (by decide)

end Felicia
