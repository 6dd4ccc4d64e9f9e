import Felicia.Channel.WebSocketDeflater
import Felicia.Channel.WebSocketMessages

/-!
# Messages that are compressed

The writing side of `WebSocketDeflateStream` of
`felicia/core/channel/socket/web_socket_deflate_stream.cc`, for the permessage-deflate extension: the
frames of a message are made frames of a compressed message, with the first reserved bit.

What compressed messages mean is said by the format (`DeflateFormat.messages`), and `deflate_spec` says
that the frames that are written mean the messages that were to be written, and that no check fails.
-/

set_option autoImplicit false
set_option relaxedAutoImplicit false

namespace Felicia

open Support WebSocketFrameHeader

variable {δ ζ : Type}

/-- `kChunkSize`. -/
def kChunkSize : ℕ := 4096

/-- The bytes that `payload_length` and the data of a frame say, if there are as many. -/
def WebSocketFrame.payload? (frame : WebSocketFrame) : Option (List UInt8) :=
  if frame.data = [] then some []
  else if frame.header.payloadLength ≤ frame.data.length then
    some (frame.data.take frame.header.payloadLength)
  else none

/-! ### Writing -/

/-- `WritingState`. -/
inductive WritingState
  | writingCompressedMessage
  | writingUncompressedMessage
  | writingPossiblyCompressedMessage
  | notWriting
  deriving DecidableEq, Repr

/-- The members of `WebSocketDeflateStream` that frames are written with. -/
structure FrameDeflation (ζ : Type) where
  deflater : WebSocketDeflater ζ
  writingState : WritingState := .notWriting
  currentWritingOpcode : ℕ := kOpCodeText

/-- A frame of a compressed message. -/
def compressedFrame (header : WebSocketFrameHeader) (opcode : ℕ) (final reserved1 : Bool)
    (payload : List UInt8) : WebSocketFrame where
  header :=
    { header with
      opcode := opcode, final := final, reserved1 := reserved1, payloadLength := payload.length }
  data := payload

namespace FrameDeflation

/-- A stream that was initialized. -/
def initialized (Z : Zlib ζ) (takesOverContext : Bool) : FrameDeflation ζ where
  deflater := { stream := Z.init, takesOverContext }

/-- `OnMessageStart`. -/
def onMessageStart (s : FrameDeflation ζ) (frame : WebSocketFrame) : Option (FrameDeflation ζ) :=
  if frame.header.opcode = kOpCodeText ∨ frame.header.opcode = kOpCodeBinary then
    some { s with
      currentWritingOpcode := frame.header.opcode, writingState := .writingCompressedMessage }
  else none

/-- `AppendCompressedFrame`, with the frame that is appended. -/
def appendCompressedFrame (s : FrameDeflation ζ) (header : WebSocketFrameHeader) :
    FrameDeflation ζ × WebSocketFrame :=
  let (deflater, payload) := s.deflater.getOutput s.deflater.currentOutputSize
  ({ s with deflater := deflater, currentWritingOpcode := kOpCodeContinuation },
    compressedFrame header s.currentWritingOpcode header.final
      (s.currentWritingOpcode != kOpCodeContinuation) payload)

/-- What `AppendPossiblyCompressedMessage` asserts of the frames of a message. -/
def isOneMessage (frames : List WebSocketFrame) : Bool :=
  !frames.isEmpty && frames.zipIdx.all fun (frame, i) ↦
    isKnownDataOpCode frame.header.opcode && ((i == 0) == (frame.header.opcode != kOpCodeContinuation)) &&
      ((i == frames.length - 1) == frame.header.final)

/-- `AppendPossiblyCompressedMessage`, with the frames that are appended. -/
def appendPossiblyCompressedMessage (s : FrameDeflation ζ) (frames : List WebSocketFrame) :
    Option (FrameDeflation ζ × List WebSocketFrame) :=
  let (deflater, payload) := s.deflater.getOutput s.deflater.currentOutputSize
  match frames with
  | [] => none
  | first :: _ =>
    if isOneMessage frames then
      some ({ s with deflater := deflater },
        if (frames.map fun frame ↦ frame.header.payloadLength).sum ≤ payload.length then frames
        else [compressedFrame first.header s.currentWritingOpcode true true payload])
    else none

variable (Z : Zlib ζ) (rounds : ℕ)

/-- The calls of `AddBytes` and `Finish` for a frame. -/
def addFrame (s : FrameDeflation ζ) (frame : WebSocketFrame) : Checked (FrameDeflation ζ) ℤ Unit :=
  match frame.payload?.bind (s.deflater.addBytes Z rounds) with
  | none => .aborted
  | some (deflater, false) => .failed { s with deflater := deflater } errWsProtocolError
  | some (deflater, true) =>
    if frame.header.final then
      match deflater.finish Z rounds with
      | none => .aborted
      | some (deflater, false) => .failed { s with deflater := deflater } errWsProtocolError
      | some (deflater, true) => .ok { s with deflater := deflater } ()
    else .ok { s with deflater := deflater } ()

/-- What is done with a frame that was added, and with the frames of the message before it. -/
def appendFrame (s : FrameDeflation ζ) (framesOfMessage : List WebSocketFrame)
    (frame : WebSocketFrame) :
    Checked (FrameDeflation ζ × List WebSocketFrame) ℤ (List WebSocketFrame) :=
  if s.writingState = .writingCompressedMessage then
    let (next, frames) :=
      if kChunkSize ≤ s.deflater.currentOutputSize ∨ frame.header.final = true then
        ((s.appendCompressedFrame frame.header).1, [(s.appendCompressedFrame frame.header).2])
      else (s, [])
    .ok ({ next with
      writingState := if frame.header.final then .notWriting else next.writingState }, framesOfMessage)
      frames
  else if s.writingState = .writingPossiblyCompressedMessage then
    if frame.header.final then
      match s.appendPossiblyCompressedMessage (framesOfMessage ++ [frame]) with
      | none => .aborted
      | some (next, frames) => .ok ({ next with writingState := .notWriting }, []) frames
    else .ok (s, framesOfMessage ++ [frame]) []
  else .aborted

/-- A round of the loop of `Deflate`, with the frames of the current message that were kept. -/
def deflateFrame (state : FrameDeflation ζ × List WebSocketFrame) (frame : WebSocketFrame) :
    Checked (FrameDeflation ζ × List WebSocketFrame) ℤ (List WebSocketFrame) :=
  if frame.header.reserved1 then .aborted
  else if !isKnownDataOpCode frame.header.opcode then .ok state [frame]
  else
    match
      if state.1.writingState = .notWriting then state.1.onMessageStart frame else some state.1 with
    | none => .aborted
    | some s =>
      if s.writingState = .writingUncompressedMessage then
        .ok ({ s with
          writingState := if frame.header.final then .notWriting else s.writingState
          currentWritingOpcode := kOpCodeContinuation }, state.2) [frame]
      else
        match s.addFrame Z rounds frame with
        | .aborted => .aborted
        | .failed s e => .failed (s, state.2) e
        | .ok s _ => s.appendFrame state.2 frame

/-- `Deflate`, with the frames that are to be written. -/
def deflate (s : FrameDeflation ζ) (frames : List WebSocketFrame) :
    Checked (FrameDeflation ζ) ℤ (List WebSocketFrame) :=
  match Checked.collect (deflateFrame Z rounds) (s, []) frames with
  | .aborted => .aborted
  | .failed state e => .failed state.1 e
  | .ok state framesToWrite =>
    if state.1.writingState = .writingPossiblyCompressedMessage then .aborted
    else .ok state.1 framesToWrite

end FrameDeflation

/-! ### What compressed messages mean -/

namespace DeflateFormat

/-- Messages with the first reserved bit are inflated, and the others are as they are. -/
def messages (F : DeflateFormat δ) : Receiver δ FrameEvent FrameEvent where
  step d
    | .message m =>
      if m.reserved1 then
        ((F.receiver.feed d (m.payload ++ syncMark)).1,
          [.message ⟨m.opcode, false, (F.receiver.feed d (m.payload ++ syncMark)).2⟩])
      else (d, [.message m])
    | .control frame => (d, [.control frame])
    | .misplaced => (d, [.misplaced])

theorem messages_plain (F : DeflateFormat δ) (d : δ) {m : DataMessage} (h : m.reserved1 = false) :
    F.messages.feed d [.message m] = (d, [.message m]) := by
  rw [Receiver.feed_singleton]
  simp [DeflateFormat.messages, h]

theorem messages_compressed (F : DeflateFormat δ) (d : δ) {m : DataMessage} (h : m.reserved1 = true) :
    F.messages.feed d [.message m] = ((F.receiver.feed d (m.payload ++ syncMark)).1,
      [.message ⟨m.opcode, false, (F.receiver.feed d (m.payload ++ syncMark)).2⟩]) := by
  rw [Receiver.feed_singleton]
  simp [DeflateFormat.messages, h]

end DeflateFormat

/-! ### What is written -/

section Writing

variable (F : DeflateFormat δ) (V : DeflateView ζ)

/-- In the middle of a message, for a reader whose inflater was in some state when the message began:
with what came of the message, what was written of it, and what the frames that were written say. -/
structure WritesMessage (s : FrameDeflation ζ) (d : δ) (m : DataMessage) (given : List UInt8)
    (wire : Option DataMessage) : Prop where
  state : s.writingState = .writingCompressedMessage
  deflater : WebSocketDeflater.Compressing F V s.deflater d m.payload given
  reserved1 : m.reserved1 = false
  opcode : wire = none ∧ given = [] ∧ s.currentWritingOpcode = m.opcode ∧
      m.opcode ≠ kOpCodeContinuation ∧ isKnownDataOpCode m.opcode = true ∨
    wire = some ⟨m.opcode, true, given⟩ ∧ s.currentWritingOpcode = kOpCodeContinuation

/-- The state of a stream between the frames it writes. -/
inductive Writes (s : FrameDeflation ζ) (d : δ) : Option DataMessage → Option DataMessage → Prop
  | between (hstate : s.writingState = .notWriting)
    (hdeflater : WebSocketDeflater.Compressing F V s.deflater d [] []) : Writes s d none none
  | during {m : DataMessage} {given : List UInt8} {wire : Option DataMessage}
    (h : WritesMessage F V s d m given wire) : Writes s d (some m) wire

/-- No message is kept to see whether it is worth to compress it. -/
theorem Writes.ne_possiblyCompressed {s : FrameDeflation ζ} {d : δ} {plain wire : Option DataMessage}
    (h : Writes F V s d plain wire) : s.writingState ≠ .writingPossiblyCompressedMessage := by
  cases h with
  | between hstate hdeflater =>
    rw [hstate]
    decide
  | during hmessage =>
    rw [hmessage.state]
    decide

/-- What `Deflate` asserts of a frame: the first reserved bit is not set, and a message begins with
its type. -/
structure WebSocketFrame.IsPlain (current : Option DataMessage) (frame : WebSocketFrame) : Prop where
  reserved1 : frame.header.reserved1 = false
  length : frame.header.payloadLength = frame.data.length
  first : isKnownDataOpCode frame.header.opcode = true → current = none →
    frame.header.opcode = kOpCodeText ∨ frame.header.opcode = kOpCodeBinary

/-- Frames of which what `Deflate` asserts is true, one after the other. -/
def ArePlain (current : Option DataMessage) : List WebSocketFrame → Prop
  | [] => True
  | frame :: rest => frame.IsPlain current ∧ ArePlain (frameMessages.step current frame).1 rest

variable {F V} {Z : Zlib ζ} {s : FrameDeflation ζ} {d : δ} {m : DataMessage} {given : List UInt8}
  {plain wire : Option DataMessage} {frame : WebSocketFrame}

theorem arePlain_append {frames others : List WebSocketFrame} :
    ArePlain plain (frames ++ others) ↔
      ArePlain plain frames ∧ ArePlain (frameMessages.feed plain frames).1 others := by
  induction frames generalizing plain with
  | nil => simp [ArePlain]
  | cons frame rest ih =>
    rw [List.cons_append, ArePlain, ArePlain, ih, and_assoc]
    rfl

theorem payload?_eq (h : frame.header.payloadLength = frame.data.length) :
    frame.payload? = some frame.data := by
  unfold WebSocketFrame.payload?
  by_cases hdata : frame.data = []
  · rw [if_pos hdata, hdata]
  · rw [if_neg hdata, if_pos h.le, h, List.take_length]

/-- What the frame says that is written next of a message. -/
theorem WritesMessage.step (h : WritesMessage F V s d m given wire) (header : WebSocketFrameHeader)
    (final : Bool) (payload : List UInt8) :
    IsOrderly wire (compressedFrame header s.currentWritingOpcode final
        (s.currentWritingOpcode != kOpCodeContinuation) payload) ∧
      frameMessages.step wire (compressedFrame header s.currentWritingOpcode final
          (s.currentWritingOpcode != kOpCodeContinuation) payload) =
        (if final then none else some ⟨m.opcode, true, given ++ payload⟩,
          if final then [.message ⟨m.opcode, true, given ++ payload⟩] else []) := by
  rcases h.opcode with ⟨rfl, rfl, hopcode, hfirst, hdata⟩ | ⟨rfl, hopcode⟩
  · have hbit : (m.opcode != kOpCodeContinuation) = true := by simpa using hfirst
    rw [hopcode, hbit]
    have horderly : IsOrderly none (compressedFrame header m.opcode final true payload) :=
      fun _ ↦ ⟨fun _ ↦ hfirst, fun hsome ↦ absurd rfl hsome⟩
    exact ⟨horderly, step_orderly hdata horderly⟩
  · have hbit : (kOpCodeContinuation != kOpCodeContinuation) = false := rfl
    rw [hopcode, hbit]
    have horderly : IsOrderly (some ⟨m.opcode, true, given⟩)
        (compressedFrame header kOpCodeContinuation final false payload) :=
      fun _ ↦ ⟨fun hnone ↦ absurd hnone (Option.some_ne_none _), fun _ ↦ ⟨rfl, rfl⟩⟩
    exact ⟨horderly, step_orderly isKnownDataOpCode_continuation horderly⟩

/-- The frame that is written next of a message may be sent if its first frame may be. -/
theorem WritesMessage.sent (h : WritesMessage F V s d m given wire) (final reserved1 : Bool)
    (payload : List UInt8) (hsent : ∀ f ∈ [frame], f.MayBeSent) :
    ∀ f ∈ [compressedFrame frame.header s.currentWritingOpcode final reserved1 payload], f.MayBeSent := by
  intro f hf
  rw [List.mem_singleton.mp hf]
  refine mayBeSent_of_data (hsent frame List.mem_cons_self).sendable.masked ?_ rfl
  change isKnownDataOpCode s.currentWritingOpcode = true
  rcases h.opcode with ⟨-, -, hopcode, -, hdata⟩ | ⟨-, hopcode⟩
  · rw [hopcode]
    exact hdata
  · rw [hopcode]
    exact isKnownDataOpCode_continuation

/-- What a plain frame says. -/
theorem WebSocketFrame.IsPlain.step (h : frame.IsPlain plain)
    (hdata : isKnownDataOpCode frame.header.opcode = true) :
    frameMessages.step plain frame =
      (if frame.header.final then none else some (.continuedBy frame plain),
        if frame.header.final then [.message (.continuedBy frame plain)] else []) := by
  rw [step_data hdata, h.reserved1, Bool.and_false]
  rfl

/-- What `Deflate` comes to: frames that may come after those that were written, and that say, when
they are inflated, what the frames say that were to be written. -/
structure WritesFrames (F : DeflateFormat δ) (V : DeflateView ζ) (d : δ) (plain wire : Option DataMessage)
    (frames : List WebSocketFrame) (next : FrameDeflation ζ) (d' : δ) (written : List WebSocketFrame) :
    Prop where
  writes : Writes F V next d' (frameMessages.feed plain frames).1 (frameMessages.feed wire written).1
  orderly : AreOrderly wire written
  messages : F.messages.feed d (frameMessages.feed wire written).2 =
    (d', (frameMessages.feed plain frames).2)
  sent : (∀ f ∈ frames, f.MayBeSent) → ∀ f ∈ written, f.MayBeSent

/-- First some frames are written and then others. -/
theorem WritesFrames.trans {d' d'' : δ} {frames others written more : List WebSocketFrame}
    {next last : FrameDeflation ζ} (h : WritesFrames F V d plain wire frames next d' written)
    (hmore : WritesFrames F V d' (frameMessages.feed plain frames).1 (frameMessages.feed wire written).1
      others last d'' more) :
    WritesFrames F V d plain wire (frames ++ others) last d'' (written ++ more) := by
  constructor
  · rw [Receiver.feed_append, Receiver.feed_append]
    exact hmore.writes
  · exact areOrderly_append.mpr ⟨h.orderly, hmore.orderly⟩
  · rw [Receiver.feed_append, Receiver.feed_append, Receiver.feed_append, h.messages, hmore.messages]
  · intro hsent f hf
    rcases List.mem_append.mp hf with hf | hf
    · exact h.sent (fun g hg ↦ hsent g (List.mem_append_left others hg)) f hf
    · exact hmore.sent (fun g hg ↦ hsent g (List.mem_append_right frames hg)) f hf

section

variable (hZ : Deflates Z F V)

include hZ

/-- Assumes: a frame whose length is that of its data, and not the last of its message. -/
theorem WritesMessage.addFrame_more (h : WritesMessage F V s d m given wire)
    (hlength : frame.header.payloadLength = frame.data.length) (hfinal : frame.header.final = false) :
    ∃ n next, (∀ rounds, n ≤ rounds → s.addFrame Z rounds frame = .ok next ()) ∧
      WritesMessage F V next d { m with payload := m.payload ++ frame.data } given wire := by
  obtain ⟨n, deflater, hadd, hcompressing⟩ := h.deflater.addBytes_spec hZ frame.data
  refine ⟨n, { s with deflater := deflater }, fun rounds hrounds ↦ ?_, h.state, hcompressing,
    h.reserved1, h.opcode⟩
  rw [FrameDeflation.addFrame, payload?_eq hlength, Option.bind_some, hadd rounds hrounds]
  simp [hfinal]

/-- Assumes: a frame whose length is that of its data, and the last of its message. -/
theorem WritesMessage.addFrame_last (hF : F.IsDeflate) (h : WritesMessage F V s d m given wire)
    (hlength : frame.header.payloadLength = frame.data.length) (hfinal : frame.header.final = true) :
    ∃ n deflater d', (∀ rounds, n ≤ rounds →
        s.addFrame Z rounds frame = .ok { s with deflater := deflater } ()) ∧
      F.receiver.feed d (given ++ deflater.buffer ++ syncMark) = (d', m.payload ++ frame.data) ∧
        WebSocketDeflater.Compressing F V { deflater with buffer := [] } d' [] [] := by
  obtain ⟨n, deflater, hadd, hcompressing⟩ := h.deflater.addBytes_spec hZ frame.data
  obtain ⟨n', deflater', d', hfinish, hfeed, hended⟩ := hcompressing.finish_spec hZ hF
  refine ⟨max n n', deflater', d', fun rounds hrounds ↦ ?_, hfeed, hended⟩
  rw [FrameDeflation.addFrame, payload?_eq hlength, Option.bind_some,
    hadd rounds (le_trans (le_max_left n n') hrounds)]
  simp [hfinal, hfinish rounds (le_trans (le_max_right n n') hrounds)]

/-- Assumes: a frame that goes on with a message, or begins one of which nothing came before. -/
theorem WritesMessage.appendFrame_spec (hF : F.IsDeflate) (h : WritesMessage F V s d m given wire)
    (hframe : frame.IsPlain plain) (hdata : isKnownDataOpCode frame.header.opcode = true)
    (hplain : DataMessage.continuedBy frame plain = { m with payload := m.payload ++ frame.data }) :
    ∃ n next d' frames, (∀ rounds, n ≤ rounds → ∃ added, s.addFrame Z rounds frame = .ok added () ∧
        added.appendFrame [] frame = .ok (next, []) frames) ∧
      WritesFrames F V d plain wire [frame] next d' frames := by
  have hstep := hframe.step hdata
  rw [hplain] at hstep
  by_cases hfinal : frame.header.final = true
  · obtain ⟨n, deflater, d', hadd, hfeed, hended⟩ := h.addFrame_last hZ hF hframe.length hfinal
    simp only [hfinal, if_true] at hstep
    obtain ⟨horderly, hwire⟩ := h.step frame.header true deflater.buffer
    simp only [if_true] at hwire
    refine ⟨n, { s with
      deflater := { deflater with buffer := [] }
      currentWritingOpcode := kOpCodeContinuation
      writingState := .notWriting }, d', [compressedFrame frame.header s.currentWritingOpcode true
        (s.currentWritingOpcode != kOpCodeContinuation) deflater.buffer],
      fun rounds hrounds ↦ ⟨_, hadd rounds hrounds, ?_⟩,
      ⟨?_, ⟨horderly, trivial⟩, ?_, h.sent true _ deflater.buffer⟩⟩
    · simp [FrameDeflation.appendFrame, FrameDeflation.appendCompressedFrame, h.state, hfinal,
        WebSocketDeflater.getOutput, WebSocketDeflater.currentOutputSize]
    · rw [Receiver.feed_singleton, Receiver.feed_singleton, hstep, hwire]
      exact .between rfl hended
    · rw [Receiver.feed_singleton, Receiver.feed_singleton, hwire, F.messages_compressed d rfl,
        hfeed, hstep, h.reserved1]
  · have hmore : frame.header.final = false := Bool.not_eq_true _ ▸ hfinal
    obtain ⟨n, next, hadd, hwrites⟩ := h.addFrame_more hZ hframe.length hmore
    simp only [hmore, Bool.false_eq_true, if_false] at hstep
    by_cases hlarge : kChunkSize ≤ next.deflater.currentOutputSize
    · obtain ⟨horderly, hwire⟩ := hwrites.step frame.header false next.deflater.buffer
      simp only [Bool.false_eq_true, if_false] at hwire
      refine ⟨n, { next with
        deflater := { next.deflater with buffer := [] }
        currentWritingOpcode := kOpCodeContinuation }, d,
        [compressedFrame frame.header next.currentWritingOpcode false
          (next.currentWritingOpcode != kOpCodeContinuation) next.deflater.buffer],
        fun rounds hrounds ↦ ⟨_, hadd rounds hrounds, ?_⟩,
        ⟨?_, ⟨horderly, trivial⟩, ?_, hwrites.sent false _ next.deflater.buffer⟩⟩
      · rw [FrameDeflation.appendFrame, if_pos hwrites.state, if_pos (.inl hlarge)]
        simp [FrameDeflation.appendCompressedFrame, hwrites.state, hmore,
          WebSocketDeflater.getOutput, WebSocketDeflater.currentOutputSize]
      · rw [Receiver.feed_singleton, Receiver.feed_singleton, hstep, hwire]
        exact .during ⟨hwrites.state, hwrites.deflater.give, hwrites.reserved1, .inr ⟨rfl, rfl⟩⟩
      · rw [Receiver.feed_singleton, Receiver.feed_singleton, hwire, hstep]
        rfl
    · refine ⟨n, next, d, [], fun rounds hrounds ↦ ⟨_, hadd rounds hrounds, ?_⟩,
        ⟨?_, trivial, ?_, fun _ f hf ↦ absurd hf List.not_mem_nil⟩⟩
      · rw [FrameDeflation.appendFrame, if_pos hwrites.state, if_neg (by simp [hlarge, hmore])]
        simp [hmore]
      · rw [Receiver.feed_singleton, hstep]
        exact .during hwrites
      · rw [Receiver.feed_singleton, hstep]
        rfl

/-- Assumes: a frame of which what `Deflate` asserts is true. From some bound on the rounds of the
deflater on, a round of `Deflate` ends, and comes to the same. -/
theorem Writes.deflateFrame_spec (hF : F.IsDeflate) (h : Writes F V s d plain wire)
    (hframe : frame.IsPlain plain) :
    ∃ n next d' frames, (∀ rounds, n ≤ rounds →
        FrameDeflation.deflateFrame Z rounds (s, []) frame = .ok (next, []) frames) ∧
      WritesFrames F V d plain wire [frame] next d' frames := by
  unfold FrameDeflation.deflateFrame
  simp only [hframe.reserved1, Bool.false_eq_true, if_false]
  by_cases hdata : isKnownDataOpCode frame.header.opcode = true
  · simp only [hdata, Bool.not_true, Bool.false_eq_true, if_false]
    cases h with
    | between hstate hdeflater =>
      have hfirst := hframe.first hdata rfl
      have hopcode : frame.header.opcode ≠ kOpCodeContinuation := by
        rcases hfirst with htext | hbinary
        · rw [htext]
          decide
        · rw [hbinary]
          decide
      have hwrites : WritesMessage F V { s with
          currentWritingOpcode := frame.header.opcode, writingState := .writingCompressedMessage } d
          ⟨frame.header.opcode, false, []⟩ [] none :=
        ⟨rfl, hdeflater, rfl, .inl ⟨rfl, rfl, rfl, hopcode, hdata⟩⟩
      obtain ⟨n, next, d', frames, hround, hframes⟩ := hwrites.appendFrame_spec hZ hF hframe hdata
        (by simp [DataMessage.continuedBy, DataMessage.ofFirst, hframe.reserved1])
      refine ⟨n, next, d', frames, fun rounds hrounds ↦ ?_, hframes⟩
      obtain ⟨added, hadd, happend⟩ := hround rounds hrounds
      simp only [hstate, if_true, FrameDeflation.onMessageStart, hfirst, hadd, happend]
      rfl
    | @during m given _ hwrites =>
      obtain ⟨n, next, d', frames, hround, hframes⟩ :=
        hwrites.appendFrame_spec hZ hF hframe hdata rfl
      refine ⟨n, next, d', frames, fun rounds hrounds ↦ ?_, hframes⟩
      obtain ⟨added, hadd, happend⟩ := hround rounds hrounds
      simp only [hwrites.state, reduceCtorEq, if_false, hadd, happend]
  · have hother : isKnownDataOpCode frame.header.opcode = false := Bool.not_eq_true _ ▸ hdata
    simp only [hother, Bool.not_false, if_true]
    refine ⟨0, s, d, [frame], fun _ _ ↦ rfl, ?_, ⟨fun hknown ↦ absurd hknown hdata, trivial⟩, ?_,
      fun hsent ↦ hsent⟩
    · rw [Receiver.feed_singleton, Receiver.feed_singleton, step_other hother, step_other hother]
      exact h
    · rw [Receiver.feed_singleton, Receiver.feed_singleton, step_other hother, step_other hother]
      rfl

theorem Writes.collect_spec (hF : F.IsDeflate) {frames : List WebSocketFrame}
    (h : Writes F V s d plain wire) (hframes : ArePlain plain frames) :
    ∃ n next d' written, (∀ rounds, n ≤ rounds →
        Checked.collect (FrameDeflation.deflateFrame Z rounds) (s, []) frames =
          .ok (next, []) written) ∧
      WritesFrames F V d plain wire frames next d' written := by
  induction frames generalizing s d plain wire with
  | nil => exact ⟨0, s, d, [], fun _ _ ↦ rfl, h, trivial, rfl, fun hsent ↦ hsent⟩
  | cons frame rest ih =>
    obtain ⟨hframe, hrest⟩ := hframes
    obtain ⟨n, next, d', frames, hround, hwrites⟩ := h.deflateFrame_spec hZ hF hframe
    have hnext := hwrites.writes
    rw [Receiver.feed_singleton] at hnext
    obtain ⟨n', last, d'', more, hrounds', hmore⟩ := ih hnext hrest
    refine ⟨max n n', last, d'', frames ++ more, fun rounds hrounds ↦ ?_, ?_⟩
    · rw [Checked.collect, hround rounds (le_trans (le_max_left n n') hrounds), Checked.andThen_ok,
        hrounds' rounds (le_trans (le_max_right n n') hrounds), Checked.map_ok]
    · rw [← Receiver.feed_singleton frameMessages plain frame] at hmore
      exact hwrites.trans hmore

/-- Assumes: frames of which what `Deflate` asserts is true. From some bound on, `Deflate` ends, and no
check fails. -/
theorem Writes.deflate_spec (hF : F.IsDeflate) {frames : List WebSocketFrame}
    (h : Writes F V s d plain wire) (hframes : ArePlain plain frames) :
    ∃ n next d' written, (∀ rounds, n ≤ rounds → s.deflate Z rounds frames = .ok next written) ∧
      WritesFrames F V d plain wire frames next d' written := by
  obtain ⟨n, next, d', written, hcollect, hwrites⟩ := h.collect_spec hZ hF hframes
  refine ⟨n, next, d', written, fun rounds hrounds ↦ ?_, hwrites⟩
  rw [FrameDeflation.deflate, hcollect rounds hrounds]
  exact if_neg hwrites.writes.ne_possiblyCompressed

/-- The frames may come in parts. -/
theorem Writes.deflateAll_spec (hF : F.IsDeflate) {parts : List (List WebSocketFrame)}
    (h : Writes F V s d plain wire) (hframes : ArePlain plain parts.flatten) :
    ∃ n next d' written, (∀ rounds, n ≤ rounds →
        Checked.collect (FrameDeflation.deflate Z rounds) s parts = .ok next written) ∧
      WritesFrames F V d plain wire parts.flatten next d' written := by
  induction parts generalizing s d plain wire with
  | nil => exact ⟨0, s, d, [], fun _ _ ↦ rfl, h, trivial, rfl, fun hsent ↦ hsent⟩
  | cons part rest ih =>
    obtain ⟨hpart, hrest⟩ := arePlain_append.mp hframes
    obtain ⟨n, next, d', written, hdeflate, hwrites⟩ := h.deflate_spec hZ hF hpart
    obtain ⟨n', last, d'', more, hrounds', hmore⟩ := ih hwrites.writes hrest
    refine ⟨max n n', last, d'', written ++ more, fun rounds hrounds ↦ ?_, hwrites.trans hmore⟩
    rw [Checked.collect, hdeflate rounds (le_trans (le_max_left n n') hrounds), Checked.andThen_ok,
      hrounds' rounds (le_trans (le_max_right n n') hrounds), Checked.map_ok]

end

end Writing

end Felicia
