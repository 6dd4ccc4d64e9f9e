import Felicia.Channel.WebSocketBasicStream

/-!
# Frames that are written to a connection

The writing side of `WebSocketBasicStream` of
`felicia/core/channel/socket/web_socket_basic_stream.cc`. `WriteFrames` puts the frames into one
buffer and writes until all of it is written, whether a write ends at once or later, or until one
fails. `write_read` is about both sides: what is written by one stream and read by another, in
whatever pieces, is the same frames.
-/

set_option autoImplicit false
set_option relaxedAutoImplicit false

namespace Felicia

open Support WebSocketFrameHeader

/-! ### Frames in a buffer -/

/-- `CalculateSerializedSize`, behind frames of some size. The `CHECK` fails where an `int` does not
hold the sum. -/
def calculateSerializedSize : ℕ → List WebSocketFrame → Option ℕ
  | totalSize, [] => some totalSize
  | totalSize, frame :: rest =>
    if frame.header.payloadLength + frame.header.headerSize ≤ int32Max - totalSize then
      calculateSerializedSize
        (totalSize + (frame.header.payloadLength + frame.header.headerSize)) rest
    else none

/-- The loop of `WriteFrames` that fills the buffer, with the size that remains of it. No masking key
is given, so that a header must not have a mask. -/
def serializeFrames : ℕ → List WebSocketFrame → Option (List UInt8)
  | remainingSize, [] => if remainingSize = 0 then some [] else none
  | remainingSize, frame :: rest =>
    if frame.header.masked then none
    else
      match frame.header.write .zero remainingSize with
      | .error _ => none
      | .ok head =>
        if frame.header.payloadLength ≤ remainingSize - head.length then
          (serializeFrames (remainingSize - head.length - frame.header.payloadLength) rest).map
            (head ++ frame.data.take frame.header.payloadLength ++ ·)
        else none

/-- What went to the connection, and what `WriteFrames` returns or runs its callback with. -/
structure WrittenFrames where
  wire : List UInt8
  result : Option ℤ := none
  deriving DecidableEq

/-- `WriteEverything`, and `OnWriteComplete` after a write that had to wait, for what remains of the
buffer. The result is missing while a write is waited for. -/
def writeEverything (buffer wire : List UInt8) : List (Outcome NetError) → WrittenFrames
  | [] => { wire, result := if buffer = [] then some 0 else none }
  | outcome :: rest =>
    if buffer = [] then { wire, result := some 0 }
    else
      match outcome with
      | .now completion =>
        if 0 < result buffer.length completion then
          writeEverything (buffer.drop (completion.count buffer.length))
            (wire ++ buffer.take (completion.count buffer.length)) rest
        else { wire, result := some (result buffer.length completion) }
      | .pending none => { wire }
      | .pending (some completion) =>
        if result buffer.length completion < 0 then
          { wire, result := some (result buffer.length completion) }
        else
          writeEverything (buffer.drop (completion.count buffer.length))
            (wire ++ buffer.take (completion.count buffer.length)) rest

/-- `WriteFrames`, where no check fails. -/
def writeFrames (frames : List WebSocketFrame) (outcomes : List (Outcome NetError)) :
    Option WrittenFrames :=
  (calculateSerializedSize 0 frames).bind fun totalSize ↦
    (serializeFrames totalSize frames).map fun buffer ↦ writeEverything buffer [] outcomes

/-! ### What is written -/

/-- A frame that can be written: it has no mask, and all of its data. -/
structure WebSocketFrame.IsSendable (frame : WebSocketFrame) : Prop where
  masked : frame.header.masked = false
  opcode_lt : frame.header.opcode < 16
  length : frame.header.payloadLength = frame.data.length

/-- A frame as it is written. -/
def WebSocketFrame.bytes (frame : WebSocketFrame) : List UInt8 :=
  frame.header.headerBytes .zero ++ frame.data

/-- A frame is not waited for, by a call that moves nothing and does not fail. -/
def NeverIdle (outcomes : List (Outcome NetError)) : Prop := .now (.moved 0) ∉ outcomes

theorem length_bytes {frame : WebSocketFrame} (h : frame.IsSendable) :
    frame.bytes.length = frame.header.payloadLength + frame.header.headerSize := by
  rw [WebSocketFrame.bytes, List.length_append, length_headerBytes, h.length, Nat.add_comm]

/-- Assumes: frames that can be written. The size is that of all of them, unless an `int` does not
hold it. -/
theorem calculateSerializedSize_eq {frames : List WebSocketFrame} (h : ∀ f ∈ frames, f.IsSendable)
    {totalSize : ℕ} (hle : totalSize ≤ int32Max) :
    calculateSerializedSize totalSize frames =
      if totalSize + (frames.flatMap WebSocketFrame.bytes).length ≤ int32Max then
        some (totalSize + (frames.flatMap WebSocketFrame.bytes).length)
      else none := by
  induction frames generalizing totalSize with
  | nil => simp [calculateSerializedSize, hle]
  | cons frame rest ih =>
    have hrest := fun f hf ↦ h f (List.mem_cons_of_mem frame hf)
    rw [calculateSerializedSize, List.flatMap_cons, List.length_append,
      length_bytes (h frame List.mem_cons_self)]
    by_cases hfits : frame.header.payloadLength + frame.header.headerSize ≤ int32Max - totalSize
    · rw [if_pos hfits, ih hrest (by omega), Nat.add_assoc]
    · rw [if_neg hfits, if_neg (by omega)]

/-- Assumes: frames that can be written, and a buffer of their size. -/
theorem serializeFrames_eq {frames : List WebSocketFrame} (h : ∀ f ∈ frames, f.IsSendable) :
    serializeFrames (frames.flatMap WebSocketFrame.bytes).length frames =
      some (frames.flatMap WebSocketFrame.bytes) := by
  induction frames with
  | nil => rfl
  | cons frame rest ih =>
    have hframe := h frame List.mem_cons_self
    have hlength := length_bytes hframe
    have hhead := length_headerBytes frame.header .zero
    have hwrite : frame.header.write .zero
        ((frame.bytes ++ rest.flatMap WebSocketFrame.bytes).length) =
          .ok (frame.header.headerBytes .zero) := by
      rw [write, if_neg]
      rw [List.length_append]
      omega
    have hfits : frame.header.payloadLength ≤
        (frame.bytes ++ rest.flatMap WebSocketFrame.bytes).length -
          (frame.header.headerBytes .zero).length := by
      rw [List.length_append]
      omega
    have hremaining : (frame.bytes ++ rest.flatMap WebSocketFrame.bytes).length -
        (frame.header.headerBytes .zero).length - frame.header.payloadLength =
          (rest.flatMap WebSocketFrame.bytes).length := by
      rw [List.length_append]
      omega
    have hunmasked : ¬frame.header.masked = true := by simp [hframe.masked]
    rw [List.flatMap_cons, serializeFrames, if_neg hunmasked, hwrite]
    simp only
    rw [if_pos hfits, hremaining, ih fun f hf ↦ h f (List.mem_cons_of_mem frame hf), hframe.length,
      List.take_length]
    rfl

/-- What is written is the beginning of the buffer, and it is all of it exactly if the result is OK,
but for a write that moves nothing. -/
theorem writeEverything_spec (buffer wire : List UInt8) (outcomes : List (Outcome NetError)) :
    ∃ moved, moved ≤ buffer.length ∧
      (writeEverything buffer wire outcomes).wire = wire ++ buffer.take moved ∧
        (moved = buffer.length → (writeEverything buffer wire outcomes).result = some 0) ∧
          (NeverIdle outcomes → (writeEverything buffer wire outcomes).result = some 0 →
            moved = buffer.length) := by
  induction outcomes generalizing buffer wire with
  | nil =>
    refine ⟨0, Nat.zero_le _, by simp [writeEverything], ?_, ?_⟩
    · intro hzero
      have hnil : buffer = [] := List.eq_nil_of_length_eq_zero hzero.symm
      simp [writeEverything, hnil]
    · intro _ hresult
      by_cases hnil : buffer = []
      · rw [hnil]
        rfl
      · simp [writeEverything, hnil] at hresult
  | cons outcome rest ih =>
    by_cases hnil : buffer = []
    · refine ⟨0, Nat.zero_le _, ?_, ?_, fun _ _ ↦ by rw [hnil]; rfl⟩ <;>
        simp [writeEverything, hnil]
    have hpos := List.length_pos_of_ne_nil hnil
    -- What a call moved is written, and the rest of the buffer is next.
    have hmoved : ∀ completion : Completion NetError, ∃ moved, moved ≤ buffer.length ∧
        (writeEverything (buffer.drop (completion.count buffer.length))
          (wire ++ buffer.take (completion.count buffer.length)) rest).wire =
            wire ++ buffer.take moved ∧
          (moved = buffer.length →
            (writeEverything (buffer.drop (completion.count buffer.length))
              (wire ++ buffer.take (completion.count buffer.length)) rest).result = some 0) ∧
            (NeverIdle (outcome :: rest) →
              (writeEverything (buffer.drop (completion.count buffer.length))
                (wire ++ buffer.take (completion.count buffer.length)) rest).result = some 0 →
                  moved = buffer.length) := by
      intro completion
      have hcount := completion.count_le buffer.length
      obtain ⟨moved, hle, hwire, hall, hok⟩ := ih (buffer.drop (completion.count buffer.length))
        (wire ++ buffer.take (completion.count buffer.length))
      rw [List.length_drop] at hle hall hok
      refine ⟨completion.count buffer.length + moved, by omega, ?_, fun hend ↦ hall (by omega), ?_⟩
      · rw [hwire, List.append_assoc, List.take_add]
      · intro hidle hresult
        have hlast := hok (fun hmem ↦ hidle (List.mem_cons_of_mem outcome hmem)) hresult
        omega
    cases outcome with
    | pending later =>
      cases later with
      | none =>
        refine ⟨0, Nat.zero_le _, by simp [writeEverything, hnil], fun hzero ↦ by omega, ?_⟩
        simp [writeEverything, hnil]
      | some completion =>
        rw [writeEverything, if_neg hnil]
        split_ifs with hfailed
        · refine ⟨0, Nat.zero_le _, by simp, fun hzero ↦ by omega, fun _ hresult ↦ ?_⟩
          simp only [Option.some.injEq] at hresult
          omega
        · exact hmoved completion
    | now completion =>
      rw [writeEverything, if_neg hnil]
      split_ifs with hmore
      · exact hmoved completion
      · refine ⟨0, Nat.zero_le _, by simp, fun hzero ↦ by omega, fun hidle hresult ↦ ?_⟩
        simp only [Option.some.injEq] at hresult
        cases completion with
        | failed e =>
          have hnegative := e.negative
          rw [result] at hresult
          omega
        | moved n =>
          rw [result] at hresult
          have hzero : n = 0 := by omega
          rw [hzero] at hidle
          exact absurd List.mem_cons_self hidle

/-- Assumes: frames that can be written. Either an `int` does not hold their size, or they are in
the buffer, one after the other. -/
theorem writeFrames_eq {frames : List WebSocketFrame} (h : ∀ f ∈ frames, f.IsSendable)
    (outcomes : List (Outcome NetError)) :
    writeFrames frames outcomes =
      if (frames.flatMap WebSocketFrame.bytes).length ≤ int32Max then
        some (writeEverything (frames.flatMap WebSocketFrame.bytes) [] outcomes)
      else none := by
  rw [writeFrames, calculateSerializedSize_eq h (Nat.zero_le _), Nat.zero_add]
  split_ifs with hfits
  · rw [Option.bind_some, serializeFrames_eq h, Option.map_some]
  · rfl

/-- Assumes: a frame that can be written, and whose size an `int` holds. -/
theorem exists_wireFrame {frame : WebSocketFrame} (h : frame.IsSendable)
    (hle : frame.data.length ≤ int32Max) :
    ∃ f : WireFrame, f.header = frame.header ∧ f.payload = frame.data ∧ f.bytes = frame.bytes := by
  obtain ⟨f, hheader, -, hpayload, hbytes⟩ := @exists_frame frame.header .zero
    ⟨h.opcode_lt, h.length.le.trans hle⟩ (fun _ ↦ rfl) frame.data h.length.symm
  refine ⟨f, hheader, ?_, hbytes⟩
  rw [hpayload, unmask, h.masked]
  rfl

/-- A frame is on the wire as another. -/
structure IsSentAs (frame : WebSocketFrame) (f : WireFrame) : Prop where
  header : f.header = frame.header
  payload : f.payload = frame.data
  bytes : f.bytes = frame.bytes

/-- Assumes: frames that can be written, whose sizes an `int` holds. -/
theorem exists_wireFrames {frames : List WebSocketFrame}
    (h : ∀ f ∈ frames, f.IsSendable ∧ f.data.length ≤ int32Max) :
    ∃ wires : List WireFrame, List.Forall₂ IsSentAs frames wires := by
  induction frames with
  | nil => exact ⟨[], .nil⟩
  | cons frame rest ih =>
    obtain ⟨hsendable, hle⟩ := h frame List.mem_cons_self
    obtain ⟨f, hheader, hpayload, hbytes⟩ := exists_wireFrame hsendable hle
    obtain ⟨wires, hwires⟩ := ih fun g hg ↦ h g (List.mem_cons_of_mem frame hg)
    exact ⟨f :: wires, .cons ⟨hheader, hpayload, hbytes⟩ hwires⟩

/-- What is handed on of a frame that was written. -/
abbrev WebSocketFrame.Delivered (frame : WebSocketFrame) (pieces : List WebSocketFrame) : Prop :=
  Felicia.Delivered frame.header frame.data pieces

section Wires

variable {frames : List WebSocketFrame} {wires : List WireFrame}

theorem flatMap_bytes_of_sentAs (h : List.Forall₂ IsSentAs frames wires) :
    wires.flatMap WireFrame.bytes = frames.flatMap WebSocketFrame.bytes := by
  induction h with
  | nil => rfl
  | cons hfirst _ ih => rw [List.flatMap_cons, List.flatMap_cons, hfirst.bytes, ih]

theorem delivered_of_sentAs (h : List.Forall₂ IsSentAs frames wires)
    {delivered : List (List WebSocketFrame)}
    (hdelivered : List.Forall₂ WireFrame.Delivered wires delivered) :
    List.Forall₂ WebSocketFrame.Delivered frames delivered := by
  induction h generalizing delivered with
  | nil =>
    cases hdelivered
    exact .nil
  | cons hfirst _ ih =>
    cases hdelivered with
    | cons hpieces hothers =>
      refine .cons ?_ (ih hothers)
      rw [WebSocketFrame.Delivered, ← hfirst.header, ← hfirst.payload]
      exact hpieces

/-- A frame that a peer does not refuse. -/
def WebSocketFrame.IsAllowed (frame : WebSocketFrame) : Prop :=
  isKnownControlOpCode frame.header.opcode = true → FrameConversion.IsAllowed frame.header

theorem isAllowed_of_sentAs (h : List.Forall₂ IsSentAs frames wires)
    (hallowed : ∀ f ∈ frames, f.IsAllowed) : ∀ f ∈ wires, f.IsAllowed := by
  induction h with
  | nil =>
    intro f hf
    cases hf
  | @cons frame f frames wires hfirst _ ih =>
    intro g hg
    rcases List.mem_cons.mp hg with rfl | hg
    · have hframe := hallowed frame List.mem_cons_self
      rw [WebSocketFrame.IsAllowed, ← hfirst.header] at hframe
      exact hframe
    · exact ih (fun f hf ↦ hallowed f (List.mem_cons_of_mem frame hf)) g hg

end Wires

/-! ### Both sides -/

/-- A call of `WriteFrames`, the writes it makes, and what came of it. -/
structure WriteCall where
  frames : List WebSocketFrame
  outcomes : List (Outcome NetError)
  written : WrittenFrames

/-- Frames that the peer does not refuse were written without an error. -/
structure WriteCall.Succeeds (call : WriteCall) : Prop where
  sendable : ∀ f ∈ call.frames, f.IsSendable
  allowed : ∀ f ∈ call.frames, f.IsAllowed
  neverIdle : NeverIdle call.outcomes
  eq : writeFrames call.frames call.outcomes = some call.written
  ok : call.written.result = some 0

/-- A call that succeeds has written its frames. -/
theorem WriteCall.Succeeds.wire_eq {call : WriteCall} (h : call.Succeeds) :
    call.written.wire = call.frames.flatMap WebSocketFrame.bytes ∧
      ∀ f ∈ call.frames, f.data.length ≤ int32Max := by
  have heq := h.eq
  rw [writeFrames_eq h.sendable] at heq
  split_ifs at heq with hfits
  rw [Option.some.injEq] at heq
  obtain ⟨moved, hle, hwire, -, hall⟩ :=
    writeEverything_spec (call.frames.flatMap WebSocketFrame.bytes) [] call.outcomes
  rw [heq] at hwire hall
  refine ⟨?_, fun f hf ↦ ?_⟩
  · rw [hwire, hall h.neverIdle h.ok, List.take_length, List.nil_append]
  · have hlength := length_bytes (h.sendable f hf)
    have hdata := (h.sendable f hf).length
    have hpart : f.bytes.length ≤ (call.frames.flatMap WebSocketFrame.bytes).length :=
      (List.sublist_flatten_of_mem (List.mem_map_of_mem hf)).length_le
    omega

/-- Assumes: frames that can be written and that the peer does not refuse, and pieces, with something in
them, of their bytes. The frames are read in order. -/
theorem serve_bytes {frames : List WebSocketFrame}
    (hframes : ∀ f ∈ frames, f.IsSendable ∧ f.data.length ≤ int32Max)
    (hallowed : ∀ f ∈ frames, f.IsAllowed) {pieces : List (List UInt8)}
    (hpieces : ∀ piece ∈ pieces, piece ≠ [])
    (hflatten : pieces.flatten = frames.flatMap WebSocketFrame.bytes) :
    ∃ delivered, List.Forall₂ WebSocketFrame.Delivered frames delivered ∧
      (({} : WebSocketBasicStream).serve (pieces.map .bytes)).1.flatten = delivered.flatten ∧
        (({} : WebSocketBasicStream).serve (pieces.map .bytes)).2.isOk = true := by
  obtain ⟨wires, hwires⟩ := exists_wireFrames hframes
  have hbytes : pieces.flatten = wires.flatMap WireFrame.bytes ++ [] := by
    rw [hflatten, List.append_nil, flatMap_bytes_of_sentAs hwires]
  obtain ⟨delivered, more, hdelivered, hmore, hserved, -, hok⟩ :=
    WebSocketBasicStream.serve_append hpieces hbytes (isAllowed_of_sentAs hwires hallowed)
      (.header rfl)
  rw [hmore.eq_nil rfl, List.append_nil] at hserved
  exact ⟨delivered, delivered_of_sentAs hwires hdelivered, hserved, hok⟩

/-- Calls that succeed have written their frames. -/
theorem flatMap_wire {calls : List WriteCall} (hcalls : ∀ call ∈ calls, call.Succeeds) :
    (calls.flatMap fun call ↦ call.written.wire) =
        (calls.flatMap WriteCall.frames).flatMap WebSocketFrame.bytes ∧
      ∀ f ∈ calls.flatMap WriteCall.frames, f.IsSendable ∧ f.data.length ≤ int32Max := by
  refine ⟨?_, fun f hf ↦ ?_⟩
  · rw [List.flatMap_assoc]
    exact List.flatMap_congr fun call hcall ↦ (hcalls call hcall).wire_eq.1
  · obtain ⟨call, hcall, hf⟩ := List.mem_flatMap.mp hf
    exact ⟨(hcalls call hcall).sendable f hf, (hcalls call hcall).wire_eq.2 f hf⟩

namespace Scenario

/-- A text of two bytes, and a ping without a payload. -/
def greeting : List WebSocketFrame :=
  [⟨{ final := true, opcode := kOpCodeText, payloadLength := 2 }, [104, 105]⟩,
    ⟨{ final := true, opcode := kOpCodePing }, []⟩]

/-- The greeting is written in two writes, of which one has to wait. -/
def greetingCall : WriteCall where
  frames := greeting
  outcomes := [.now (.moved 3), .pending (some (.moved 3))]
  written := ⟨[129, 2, 104, 105, 137, 0], some 0⟩

theorem greetingCall_succeeds : greetingCall.Succeeds where
  sendable := by
    intro f hf
    rcases List.mem_cons.mp hf with rfl | hf
    · exact ⟨rfl, by decide, rfl⟩
    · rw [List.mem_singleton.mp hf]
      exact ⟨rfl, by decide, rfl⟩
  allowed := by
    intro f hf
    rcases List.mem_cons.mp hf with rfl | hf
    · intro hcontrol
      exact absurd hcontrol (by decide)
    · rw [List.mem_singleton.mp hf]
      exact fun _ ↦ ⟨rfl, by decide⟩
  neverIdle := by simp [NeverIdle, greetingCall]
  eq := by decide
  ok := rfl

end Scenario

end Felicia
