import Felicia.Channel.WebSocketDeflateWriting
import Felicia.Channel.WebSocketInflater

/-!
# Messages that are inflated

The reading side of `WebSocketDeflateStream` of
`felicia/core/channel/socket/web_socket_deflate_stream.cc`: the frames of compressed messages are made
frames of what the messages mean, and the others are handed on as they are.

Frames are unreadable if the first reserved bit is set in one that goes on with a message, or what was
compressed is invalid. `inflate_says` says that reading fails only on such frames, and that else what the
messages mean is handed on, however they were cut into frames.
-/

set_option autoImplicit false
set_option relaxedAutoImplicit false

namespace Felicia

open Support WebSocketFrameHeader

variable {δ ξ : Type}

/-- `ReadingState`. -/
inductive ReadingState
  | readingCompressedMessage
  | readingUncompressedMessage
  | notReading
  deriving DecidableEq, Repr

/-- The members of `WebSocketDeflateStream` that frames are read with. -/
structure FrameInflation (ξ : Type) where
  inflater : WebSocketInflater ξ
  readingState : ReadingState := .notReading
  currentReadingOpcode : ℕ := kOpCodeText

/-- A frame of a message that was inflated. -/
def inflatedFrame (header : WebSocketFrameHeader) (opcode : ℕ) (final : Bool) (data : List UInt8) :
    WebSocketFrame where
  header :=
    { header with
      opcode := opcode, final := final, reserved1 := false, payloadLength := data.length }
  data := data

namespace FrameInflation

section Calls

variable (Z : Zlib ξ) (rounds : ℕ)

/-- A stream that was initialized. -/
def initialized : FrameInflation ξ where
  inflater := .initialized Z kChunkSize kChunkSize

/-- A round of the loop that makes frames of what was inflated, with those that were made. -/
def outputRound (frame : WebSocketFrame) (state : FrameInflation ξ × List WebSocketFrame) :
    LoopRound (FrameInflation ξ × List WebSocketFrame)
      (Checked (FrameInflation ξ) ℤ (List WebSocketFrame)) :=
  if kChunkSize ≤ state.1.inflater.currentOutputSize ∨ frame.header.final = true then
    match state.1.inflater.getOutput Z (min kChunkSize state.1.inflater.currentOutputSize) with
    | none => .failed
    | some (inflater, none) => .done (.failed { state.1 with inflater := inflater } errWsProtocolError)
    | some (inflater, some data) =>
      let isFinal := inflater.currentOutputSize == 0 && frame.header.final
      let next :=
        { state.1 with inflater := inflater, currentReadingOpcode := kOpCodeContinuation }
      let frames :=
        state.2 ++ [inflatedFrame frame.header state.1.currentReadingOpcode isFinal data]
      if isFinal then .done (.ok next frames) else .again (next, frames)
  else .done (.ok state.1 state.2)

/-- The calls of `AddBytes` and `Finish` for a frame. -/
def addFrame (s : FrameInflation ξ) (frame : WebSocketFrame) : Checked (FrameInflation ξ) ℤ Unit :=
  match frame.payload?.bind (s.inflater.addBytes Z) with
  | none => .aborted
  | some (inflater, false) => .failed { s with inflater := inflater } errWsProtocolError
  | some (inflater, true) =>
    if frame.header.final then
      match inflater.finish Z with
      | none => .aborted
      | some (inflater, false) => .failed { s with inflater := inflater } errWsProtocolError
      | some (inflater, true) => .ok { s with inflater := inflater } ()
    else .ok { s with inflater := inflater } ()

/-- The loop that makes frames of what was inflated. -/
def outputFrames (s : FrameInflation ξ) (frame : WebSocketFrame) :
    Checked (FrameInflation ξ) ℤ (List WebSocketFrame) :=
  match runLoop (outputRound Z frame) rounds (s, []) with
  | .finished result =>
    result.andThen fun s frames ↦
      .ok { s with readingState := if frame.header.final then .notReading else s.readingState } frames
  | _ => .aborted

/-- What a frame begins that is the first of its message. -/
def startReading (s : FrameInflation ξ) (frame : WebSocketFrame) : FrameInflation ξ :=
  if s.readingState = .notReading then
    { s with
      readingState :=
        if frame.header.reserved1 then .readingCompressedMessage else .readingUncompressedMessage
      currentReadingOpcode := frame.header.opcode }
  else s

/-- A round of the loop of `Inflate`. -/
def inflateFrame (s : FrameInflation ξ) (frame : WebSocketFrame) :
    Checked (FrameInflation ξ) ℤ (List WebSocketFrame) :=
  if !isKnownDataOpCode frame.header.opcode then .ok s [frame]
  else if s.readingState ≠ .notReading ∧ frame.header.reserved1 = true then
    .failed s errWsProtocolError
  else
    let s := s.startReading frame
    match s.readingState with
    | .readingUncompressedMessage =>
      .ok { s with
        readingState := if frame.header.final then .notReading else s.readingState
        currentReadingOpcode := kOpCodeContinuation } [frame]
    | .readingCompressedMessage =>
      (s.addFrame Z frame).andThen fun s _ ↦ s.outputFrames Z rounds frame
    | .notReading => .aborted

/-- `Inflate`, with the frames that are handed on. -/
def inflate (s : FrameInflation ξ) (frames : List WebSocketFrame) :
    Checked (FrameInflation ξ) ℤ (List WebSocketFrame) :=
  Checked.collect (inflateFrame Z rounds) s frames

/-- What `ReadFrames` comes to, called again whenever it has read some frames, for the frames that the
stream below reads: those of each of these calls, and what the last one comes to. A call goes on reading
while there are no frames (`InflateAndReadIfNecessary`). -/
def serve (s : FrameInflation ξ) :
    List (List WebSocketFrame) → List (List WebSocketFrame) × Checked (FrameInflation ξ) ℤ Unit
  | [] => ([], .ok s ())
  | frames :: rest =>
    match s.inflate Z rounds frames with
    | .aborted => ([], .aborted)
    | .failed next e => ([], .failed next e)
    | .ok next read =>
      (if read = [] then (serve next rest).1 else read :: (serve next rest).1, (serve next rest).2)

end Calls

section Serving

variable {Z : Zlib ξ} {rounds : ℕ} {s last : FrameInflation ξ} {parts : List (List WebSocketFrame)}

/-- What is read from the parts together is handed on, and never an empty list of frames. -/
theorem serve_of_ok {read : List WebSocketFrame}
    (h : Checked.collect (inflate Z rounds) s parts = .ok last read) :
    (s.serve Z rounds parts).2 = .ok last () ∧ (s.serve Z rounds parts).1.flatten = read ∧
      [] ∉ (s.serve Z rounds parts).1 := by
  induction parts generalizing s read with
  | nil =>
    cases h
    exact ⟨rfl, rfl, List.not_mem_nil⟩
  | cons frames rest ih =>
    rw [Checked.collect, Checked.andThen_eq_ok] at h
    obtain ⟨next, first, hfirst, hothers⟩ := h
    obtain ⟨more, hmore, rfl⟩ := Checked.map_eq_ok.mp hothers
    obtain ⟨hlast, hflatten, hsome⟩ := ih hmore
    simp only [serve, hfirst]
    by_cases hnone : first = []
    · simp only [hnone, if_true, List.nil_append]
      exact ⟨hlast, hflatten, hsome⟩
    · simp only [hnone, if_false, List.flatten_cons, hflatten]
      exact ⟨hlast, trivial, List.not_mem_cons_of_ne_of_not_mem (Ne.symm hnone) hsome⟩

theorem serve_of_failed {e : ℤ} (h : Checked.collect (inflate Z rounds) s parts = .failed last e) :
    (s.serve Z rounds parts).2 = .failed last e := by
  induction parts generalizing s with
  | nil => cases h
  | cons frames rest ih =>
    rw [Checked.collect] at h
    simp only [serve]
    cases hfirst : s.inflate Z rounds frames with
    | aborted =>
      rw [hfirst] at h
      cases h
    | failed next e' =>
      rw [hfirst] at h
      cases h
      rfl
    | ok next first =>
      rw [hfirst, Checked.andThen_ok] at h
      cases hrest : Checked.collect (inflate Z rounds) next rest with
      | aborted =>
        rw [hrest] at h
        cases h
      | failed last' e' =>
        rw [hrest] at h
        cases h
        exact ih hrest
      | ok last' more =>
        rw [hrest] at h
        cases h

end Serving

end FrameInflation

/-! ### What frames mean -/

section Meaning

variable (F : DeflateFormat δ)

/-- The state of an inflater in the middle of a message. -/
def openState (d : δ) : Option DataMessage → δ
  | none => d
  | some m => if m.reserved1 then (F.receiver.feed d m.payload).1 else d

/-- Frames that cannot be read, after others that said something. -/
def Unreadable (d : δ) (current : Option DataMessage) (frames : List WebSocketFrame) : Prop :=
  .misplaced ∈ (frameMessages.feed current frames).2 ∨
    F.IsInvalid (openState F (F.messages.feed d (frameMessages.feed current frames).2).1
      (frameMessages.feed current frames).1)

variable {F} {d : δ} {current : Option DataMessage} {frame : WebSocketFrame}
  {frames : List WebSocketFrame}

/-- A frame is one of a message, which is this message so far. -/
def GoesOnTo (frame : WebSocketFrame) (wire : Option DataMessage) (m : DataMessage) : Prop :=
  frameMessages.step wire frame =
    (if frame.header.final then none else some m, if frame.header.final then [.message m] else [])

theorem goesOnTo_of_data (hdata : isKnownDataOpCode frame.header.opcode = true)
    (h : current = none ∨ frame.header.reserved1 = false) :
    GoesOnTo frame current (.continuedBy frame current) := by
  rw [GoesOnTo, step_data hdata]
  rcases h with rfl | hreserved
  · rfl
  · rw [hreserved, Bool.and_false]
    rfl

theorem GoesOnTo.feed_last {m : DataMessage} (h : GoesOnTo frame current m)
    (hfinal : frame.header.final = true) :
    frameMessages.feed current [frame] = (none, [.message m]) := by
  rw [Receiver.feed_singleton, h, if_pos hfinal, if_pos hfinal]

theorem GoesOnTo.feed_more {m : DataMessage} (h : GoesOnTo frame current m)
    (hfinal : frame.header.final = false) :
    frameMessages.feed current [frame] = (some m, []) := by
  rw [Receiver.feed_singleton, h, hfinal]
  rfl

/-- The bytes that are added for a frame. -/
def WebSocketFrame.added (frame : WebSocketFrame) : List UInt8 :=
  frame.data ++ if frame.header.final then syncMark else []

/-- The state of an inflater after a frame of a compressed message. -/
theorem GoesOnTo.openState {opcode : ℕ} {payload : List UInt8}
    (h : GoesOnTo frame current ⟨opcode, true, payload ++ frame.data⟩) :
    openState F (F.messages.feed d (frameMessages.feed current [frame]).2).1
        (frameMessages.feed current [frame]).1 = (F.receiver.feed d (payload ++ frame.added)).1 := by
  by_cases hfinal : frame.header.final = true
  · rw [h.feed_last hfinal, F.messages_compressed d rfl, WebSocketFrame.added, if_pos hfinal,
      ← List.append_assoc]
    rfl
  · rw [h.feed_more (Bool.not_eq_true _ ▸ hfinal), WebSocketFrame.added, if_neg hfinal,
      List.append_nil]
    rfl

theorem reserved1_continuedBy (frame : WebSocketFrame) (m : DataMessage) :
    (DataMessage.continuedBy frame (some m)).reserved1 = m.reserved1 := rfl

/-- What is invalid stays invalid when a frame comes. -/
theorem invalid_step (hF : F.IsDeflate) (h : F.IsInvalid (openState F d current)) :
    F.IsInvalid (openState F (F.messages.feed d (frameMessages.step current frame).2).1
      (frameMessages.step current frame).1) := by
  by_cases hdata : isKnownDataOpCode frame.header.opcode = true
  · have hmore : F.IsInvalid (openState F d (some (.continuedBy frame current))) ∧
        (F.IsInvalid d ∨ (DataMessage.continuedBy frame current).reserved1 = true) := by
      cases current with
      | none =>
        refine ⟨?_, .inl h⟩
        unfold openState
        simp only
        split_ifs
        · exact hF.invalid_feed h _
        · exact h
      | some m =>
        unfold openState at h ⊢
        by_cases hcompressed : m.reserved1 = true
        · simp only [hcompressed, if_true, reserved1_continuedBy] at h ⊢
          refine ⟨?_, .inr trivial⟩
          rw [DataMessage.continuedBy, Receiver.feed_append]
          exact hF.invalid_feed h _
        · simp only [hcompressed, reserved1_continuedBy] at h ⊢
          exact ⟨h, .inl h⟩
    have hplaced : (F.messages.feed d
        (if (current.isSome && frame.header.reserved1) = true then [.misplaced] else [])).1 = d := by
      split_ifs <;> rfl
    rw [step_data hdata]
    by_cases hfinal : frame.header.final = true
    · simp only [hfinal, if_true]
      rw [Receiver.feed_append]
      rw [hplaced, openState]
      by_cases hcompressed : (DataMessage.continuedBy frame current).reserved1 = true
      · rw [F.messages_compressed d hcompressed, Receiver.feed_append]
        have hopen := hmore.1
        simp only [openState, hcompressed, if_true] at hopen
        exact hF.invalid_feed hopen _
      · rw [F.messages_plain d (Bool.not_eq_true _ ▸ hcompressed)]
        exact hmore.2.resolve_right hcompressed
    · simp only [hfinal, Bool.false_eq_true, if_false, List.append_nil]
      rw [hplaced]
      exact hmore.1
  · rw [step_other (Bool.not_eq_true _ ▸ hdata)]
    exact h

theorem invalid_feed_frames (hF : F.IsDeflate) (h : F.IsInvalid (openState F d current)) :
    F.IsInvalid (openState F (F.messages.feed d (frameMessages.feed current frames).2).1
      (frameMessages.feed current frames).1) := by
  induction frames generalizing d current with
  | nil => exact h
  | cons frame rest ih =>
    rw [Receiver.feed, Receiver.feed_append]
    exact ih (invalid_step hF h)

/-- Frames that cannot be read stay so, whatever comes after them. -/
theorem Unreadable.append (hF : F.IsDeflate) (h : Unreadable F d current frames)
    (others : List WebSocketFrame) : Unreadable F d current (frames ++ others) := by
  unfold Unreadable
  rw [Receiver.feed_append]
  rcases h with hmisplaced | hinvalid
  · exact .inl (List.mem_append_left _ hmisplaced)
  · right
    rw [Receiver.feed_append]
    exact invalid_feed_frames hF hinvalid

/-- Frames that cannot be read after others that can. -/
theorem Unreadable.after {others : List WebSocketFrame}
    (h : Unreadable F (F.messages.feed d (frameMessages.feed current frames).2).1
      (frameMessages.feed current frames).1 others) : Unreadable F d current (frames ++ others) := by
  unfold Unreadable at h ⊢
  rw [Receiver.feed_append]
  rcases h with hmisplaced | hinvalid
  · exact .inl (List.mem_append_right _ hmisplaced)
  · right
    rw [Receiver.feed_append]
    exact hinvalid

end Meaning

/-! ### The inflater -/

section Inflater

variable (F : DeflateFormat δ) (V : InflateView δ ξ)

/-- All of the messages before was taken out, and the inflater is in some state. -/
def IsIdle (inflater : WebSocketInflater ξ) (d : δ) : Prop :=
  ∃ added given, WebSocketInflater.Inflating F V kChunkSize inflater added given ∧
    F.receiver.feed F.start added = (d, given) ∧ inflater.currentOutputSize = 0

/-- In the middle of a message, of which something was added and something taken out. -/
def IsInflating (inflater : WebSocketInflater ξ) (d : δ) (payload given : List UInt8) : Prop :=
  ∃ added before, WebSocketInflater.Inflating F V kChunkSize inflater (added ++ payload)
      (before ++ given) ∧ F.receiver.feed F.start added = (d, before)

variable {F V} {Z : Zlib ξ} {inflater : WebSocketInflater ξ} {d : δ} {payload given : List UInt8}

theorem IsIdle.isInflating (h : IsIdle F V inflater d) : IsInflating F V inflater d [] [] := by
  obtain ⟨added, before, hinflating, hfeed, -⟩ := h
  exact ⟨added, before, by rwa [List.append_nil, List.append_nil], hfeed⟩

/-- What a message means so far, after the messages before. -/
theorem feed_added {added before : List UInt8} (h : F.receiver.feed F.start added = (d, before)) :
    F.receiver.feed F.start (added ++ payload) =
      ((F.receiver.feed d payload).1, before ++ (F.receiver.feed d payload).2) := by
  rw [Receiver.feed_append, h]

/-- Everything was taken out. -/
theorem IsInflating.ended (h : IsInflating F V inflater d payload given)
    (hempty : inflater.currentOutputSize = 0) :
    (F.receiver.feed d payload).2 = given ∧ IsIdle F V inflater (F.receiver.feed d payload).1 := by
  obtain ⟨added, before, hinflating, hfeed⟩ := h
  have hall := (hinflating.all (by rw [hempty]; decide)).1
  have hcontents : inflater.outputBuffer.contents = [] :=
    List.eq_nil_of_length_eq_zero (hinflating.ring.length_contents.trans hempty)
  rw [hcontents, List.append_nil, feed_added hfeed] at hall
  have hgiven := List.append_cancel_left (congrArg Prod.snd hall)
  refine ⟨hgiven, added ++ payload, before ++ given, hinflating, ?_, hempty⟩
  rw [feed_added hfeed, hgiven]

theorem IsInflating.length_le (h : IsInflating F V inflater d payload given) :
    given.length ≤ (F.receiver.feed d payload).2.length := by
  obtain ⟨added, before, hinflating, hfeed⟩ := h
  have hle := hinflating.toHolds.isBeginning.length_le
  rw [feed_added hfeed] at hle
  simp only [List.length_append] at hle
  omega

section

variable (hZ : Inflates Z F V)

include hZ

theorem IsInflating.addBytes_spec (h : IsInflating F V inflater d payload given)
    (data : List UInt8) :
    ∃ next fine, inflater.addBytes Z data = some (next, fine) ∧
      (fine = true → IsInflating F V next d (payload ++ data) given) ∧
        (fine = false → F.IsInvalid (F.receiver.feed d (payload ++ data)).1) := by
  obtain ⟨added, before, hinflating, hfeed⟩ := h
  obtain ⟨next, fine, hadd, hgood, hbad⟩ := hinflating.addBytes_spec hZ data
  refine ⟨next, fine, hadd, fun hfine ↦ ⟨added, before, ?_, hfeed⟩, fun hfine ↦ ?_⟩
  · rw [← List.append_assoc]
    exact hgood hfine
  · have hinvalid := hbad hfine
    rwa [List.append_assoc, feed_added hfeed] at hinvalid

theorem IsInflating.getOutput_spec (hF : F.IsDeflate) (h : IsInflating F V inflater d payload given)
    (size : ℕ) :
    ∃ next output, inflater.getOutput Z size = some (next, output) ∧
      (∀ bytes, output = some bytes → IsInflating F V next d payload (given ++ bytes) ∧
        (bytes = [] → next = inflater) ∧
          (0 < size → 0 < inflater.currentOutputSize → bytes ≠ [])) ∧
        (output = none → F.IsInvalid (F.receiver.feed d payload).1) := by
  obtain ⟨added, before, hinflating, hfeed⟩ := h
  obtain ⟨⟨next, output⟩, hget, houtput⟩ := hinflating.getOutput_spec hZ hF size
  refine ⟨next, output, hget, fun bytes hbytes ↦ ?_, fun hnone ↦ ?_⟩
  · obtain ⟨hnext, -, hsome, -⟩ := houtput.some bytes hbytes
    exact ⟨⟨added, before, by rw [← List.append_assoc]; exact hnext, hfeed⟩,
      houtput.begun bytes hbytes, hsome⟩
  · have hinvalid := houtput.none hnone
    rwa [feed_added hfeed] at hinvalid

end

end Inflater

/-! ### What is read -/

section Reading

variable (F : DeflateFormat δ) (V : InflateView δ ξ)

/-- Nothing of a message was handed on, or some frames that say what was inflated of it. -/
def Emits (opcode : ℕ) (given : List UInt8) (currentReadingOpcode : ℕ) (out : Option DataMessage) :
    Prop :=
  out = none ∧ given = [] ∧ currentReadingOpcode = opcode ∨
    out = some ⟨opcode, false, given⟩ ∧ currentReadingOpcode = kOpCodeContinuation

/-- The state of a stream between the frames it reads, with what the frames that came say of a message
and what those say that were handed on. -/
inductive ReadsMessages (s : FrameInflation ξ) (d : δ) : Option DataMessage → Option DataMessage → Prop
  | between (hstate : s.readingState = .notReading) (hidle : IsIdle F V s.inflater d) :
    ReadsMessages s d none none
  | uncompressed {m : DataMessage} (hstate : s.readingState = .readingUncompressedMessage)
    (hidle : IsIdle F V s.inflater d) (hreserved : m.reserved1 = false) :
    ReadsMessages s d (some m) (some m)
  | compressed {m : DataMessage} {given : List UInt8} {out : Option DataMessage}
    (hstate : s.readingState = .readingCompressedMessage)
    (hinflating : IsInflating F V s.inflater d m.payload given) (hreserved : m.reserved1 = true)
    (hdata : isKnownDataOpCode m.opcode = true)
    (hemits : Emits m.opcode given s.currentReadingOpcode out)
    (hroom : s.inflater.currentOutputSize < kChunkSize) : ReadsMessages s d (some m) out

/-- What reading frames comes to: what they mean is handed on, unless they cannot be read. -/
inductive ReadsFrames (d : δ) (wire out : Option DataMessage) (frames : List WebSocketFrame) :
    Checked (FrameInflation ξ) ℤ (List WebSocketFrame) → Prop
  | ok {next : FrameInflation ξ} {d' : δ} {read : List WebSocketFrame}
    (hreads : ReadsMessages F V next d' (frameMessages.feed wire frames).1 (frameMessages.feed out read).1)
    (hmessages : F.messages.feed d (frameMessages.feed wire frames).2 =
      (d', (frameMessages.feed out read).2))
    (hplaced : .misplaced ∉ (frameMessages.feed wire frames).2) :
    ReadsFrames d wire out frames (.ok next read)
  | failed {next : FrameInflation ξ} (h : Unreadable F d wire frames) :
    ReadsFrames d wire out frames (.failed next errWsProtocolError)

variable {F V} {Z : Zlib ξ} {s : FrameInflation ξ} {d : δ} {wire out : Option DataMessage}
  {frame : WebSocketFrame} {opcode : ℕ} {payload given : List UInt8}

/-- What a frame says that is handed on of a message that was inflated. -/
theorem Emits.step {current : ℕ} (h : Emits opcode given current out)
    (hdata : isKnownDataOpCode opcode = true) (header : WebSocketFrameHeader) (final : Bool)
    (bytes : List UInt8) :
    frameMessages.step out (inflatedFrame header current final bytes) =
      (if final then none else some ⟨opcode, false, given ++ bytes⟩,
        if final then [.message ⟨opcode, false, given ++ bytes⟩] else []) := by
  rcases h with ⟨rfl, rfl, rfl⟩ | ⟨rfl, rfl⟩
  · rw [step_data hdata]
    rfl
  · rw [step_data isKnownDataOpCode_continuation]
    rfl

/-- What the loop that makes frames keeps. -/
structure MakesFrames (F : DeflateFormat δ) (V : InflateView δ ξ) (s : FrameInflation ξ) (d : δ)
    (out : Option DataMessage) (opcode : ℕ) (payload given : List UInt8)
    (state : FrameInflation ξ × List WebSocketFrame) : Prop where
  readingState : state.1.readingState = s.readingState
  inflating : IsInflating F V state.1.inflater d payload (given ++ state.2.flatMap WebSocketFrame.data)
  emits : Emits opcode (given ++ state.2.flatMap WebSocketFrame.data) state.1.currentReadingOpcode
    (frameMessages.feed out state.2).1
  quiet : (frameMessages.feed out state.2).2 = []

/-- What the loop that makes frames comes to. -/
inductive MadeFrames (F : DeflateFormat δ) (V : InflateView δ ξ) (s : FrameInflation ξ) (d : δ)
    (out : Option DataMessage) (opcode : ℕ) (payload given : List UInt8) (final : Bool) :
    Checked (FrameInflation ξ) ℤ (List WebSocketFrame) → Prop
  | more {next : FrameInflation ξ} {frames : List WebSocketFrame} (hfinal : final = false)
    (h : MakesFrames F V s d out opcode payload given (next, frames))
    (hroom : next.inflater.currentOutputSize < kChunkSize) :
    MadeFrames F V s d out opcode payload given final (.ok next frames)
  | last {next : FrameInflation ξ} {frames : List WebSocketFrame} (hfinal : final = true)
    (hidle : IsIdle F V next.inflater (F.receiver.feed d payload).1)
    (hfeed : frameMessages.feed out frames =
      (none, [.message ⟨opcode, false, (F.receiver.feed d payload).2⟩])) :
    MadeFrames F V s d out opcode payload given final (.ok next frames)
  | failed {next : FrameInflation ξ} (h : F.IsInvalid (F.receiver.feed d payload).1) :
    MadeFrames F V s d out opcode payload given final (.failed next errWsProtocolError)

/-- First some frames are read and then others. -/
theorem ReadsFrames.after {d' : δ} {frames others read : List WebSocketFrame}
    {r : Checked (FrameInflation ξ) ℤ (List WebSocketFrame)}
    (h : ReadsFrames F V d' (frameMessages.feed wire frames).1 (frameMessages.feed out read).1 others r)
    (hmessages : F.messages.feed d (frameMessages.feed wire frames).2 =
      (d', (frameMessages.feed out read).2))
    (hplaced : .misplaced ∉ (frameMessages.feed wire frames).2) :
    ReadsFrames F V d wire out (frames ++ others) (r.map (read ++ ·)) := by
  cases h with
  | failed hunreadable =>
    refine .failed (Unreadable.after ?_)
    rw [hmessages]
    exact hunreadable
  | @ok next d'' more hreads hmessages' hplaced' =>
    refine .ok (show ReadsMessages F V next d'' _ _ from ?_) ?_ ?_
    · rw [Receiver.feed_append, Receiver.feed_append]
      exact hreads
    · rw [Receiver.feed_append, Receiver.feed_append, Receiver.feed_append, hmessages, hmessages']
    · rw [Receiver.feed_append]
      exact fun hmem ↦ (List.mem_append.mp hmem).elim hplaced hplaced'

/-- What was read so far is valid. -/
theorem ReadsMessages.valid (h : ReadsMessages F V s d wire out) : ¬F.IsInvalid (openState F d wire) := by
  have hidle : ∀ {d : δ}, IsIdle F V s.inflater d → ¬F.IsInvalid d := by
    rintro d ⟨added, given, hinflating, hfeed, hempty⟩
    have hvalid := (hinflating.all (by rw [hempty]; decide)).2
    rwa [hfeed] at hvalid
  cases h with
  | between hstate hnothing => exact hidle hnothing
  | uncompressed hstate hnothing hreserved =>
    rw [openState, hreserved]
    exact hidle hnothing
  | compressed hstate hinflating hreserved hdata hemits hroom =>
    obtain ⟨added, before, hinflating, hfeed⟩ := hinflating
    have hvalid := (hinflating.all hroom).2
    rw [feed_added hfeed] at hvalid
    rw [openState, hreserved]
    exact hvalid

/-- Frames that were read can be read. -/
theorem ReadsFrames.readable {frames read : List WebSocketFrame} {next : FrameInflation ξ}
    (h : ReadsFrames F V d wire out frames (.ok next read)) : ¬Unreadable F d wire frames := by
  cases h with
  | ok hreads hmessages hplaced =>
    rintro (hmisplaced | hinvalid)
    · exact hplaced hmisplaced
    · rw [hmessages] at hinvalid
      exact hreads.valid hinvalid

/-- Assumes: a frame of a message that is not compressed. -/
theorem IsIdle.handOn_spec {m : DataMessage} (h : IsIdle F V s.inflater d)
    (hreserved : m.reserved1 = false) (hstep : GoesOnTo frame wire m) :
    ReadsFrames F V d wire wire [frame] (.ok { s with
      readingState := if frame.header.final then .notReading else .readingUncompressedMessage
      currentReadingOpcode := kOpCodeContinuation } [frame]) := by
  by_cases hfinal : frame.header.final = true
  · have hwire := hstep.feed_last hfinal
    refine .ok (show ReadsMessages F V _ d _ _ from ?_) ?_ ?_
    · rw [hwire]
      exact .between (if_pos hfinal) h
    · rw [hwire, F.messages_plain d hreserved]
    · rw [hwire]
      simp
  · have hwire := hstep.feed_more (Bool.not_eq_true _ ▸ hfinal)
    refine .ok (show ReadsMessages F V _ d _ _ from ?_) ?_ ?_
    · rw [hwire]
      exact .uncompressed (if_neg hfinal) h hreserved
    · rw [hwire]
      rfl
    · rw [hwire]
      exact List.not_mem_nil

/-- The first reserved bit is set where it may not be. -/
theorem unreadable_of_reserved1 {m : DataMessage}
    (hdata : isKnownDataOpCode frame.header.opcode = true) (hreserved : frame.header.reserved1 = true) :
    Unreadable F d (some m) [frame] := by
  left
  rw [Receiver.feed_singleton, step_data hdata, hreserved]
  exact List.mem_cons_self

section

variable (hZ : Inflates Z F V)

include hZ

theorem outputRound_makes (hF : F.IsDeflate) (hdata : isKnownDataOpCode opcode = true)
    {state : FrameInflation ξ × List WebSocketFrame}
    (h : MakesFrames F V s d out opcode payload given state) :
    (FrameInflation.outputRound Z frame state).Meets False
      (fun next ↦ MakesFrames F V s d out opcode payload given next ∧
        (F.receiver.feed d payload).2.length - (next.2.flatMap WebSocketFrame.data).length <
          (F.receiver.feed d payload).2.length - (state.2.flatMap WebSocketFrame.data).length)
      (MadeFrames F V s d out opcode payload given frame.header.final) := by
  unfold FrameInflation.outputRound
  by_cases hmore : kChunkSize ≤ state.1.inflater.currentOutputSize ∨ frame.header.final = true
  · rw [if_pos hmore]
    obtain ⟨inflater, output, hget, hsome, hnone⟩ := h.inflating.getOutput_spec hZ hF
      (min kChunkSize state.1.inflater.currentOutputSize)
    rw [hget]
    cases output with
    | none => exact .failed (hnone rfl)
    | some bytes =>
      obtain ⟨hinflating, hbegun, hprogress⟩ := hsome bytes rfl
      have hstep := h.emits.step hdata frame.header
        (inflater.currentOutputSize == 0 && frame.header.final) bytes
      have hfeed : frameMessages.feed out (state.2 ++ [inflatedFrame frame.header
          state.1.currentReadingOpcode (inflater.currentOutputSize == 0 && frame.header.final) bytes]) =
          (if inflater.currentOutputSize == 0 && frame.header.final then none
            else some ⟨opcode, false, given ++ (state.2.flatMap WebSocketFrame.data ++ bytes)⟩,
            if inflater.currentOutputSize == 0 && frame.header.final then
              [.message ⟨opcode, false, given ++ (state.2.flatMap WebSocketFrame.data ++ bytes)⟩]
            else []) := by
        rw [Receiver.feed_append, Receiver.feed_singleton, hstep, h.quiet, List.nil_append,
          List.append_assoc]
      have hall : (state.2 ++ [inflatedFrame frame.header state.1.currentReadingOpcode
          (inflater.currentOutputSize == 0 && frame.header.final) bytes]).flatMap
            WebSocketFrame.data = state.2.flatMap WebSocketFrame.data ++ bytes := by
        simp [inflatedFrame]
      rw [List.append_assoc] at hinflating
      by_cases hlast : (inflater.currentOutputSize == 0 && frame.header.final) = true
      · simp only [hlast, if_true] at hfeed ⊢
        obtain ⟨hempty, hfinal⟩ := Bool.and_eq_true_iff.mp hlast
        obtain ⟨hgiven, hidle⟩ := hinflating.ended (beq_iff_eq.mp hempty)
        refine .last hfinal hidle ?_
        rw [hfeed, hgiven]
      · have hnot : (inflater.currentOutputSize == 0 && frame.header.final) = false :=
          Bool.not_eq_true _ ▸ hlast
        simp only [hnot, Bool.false_eq_true, if_false] at hfeed hall ⊢
        -- the loop goes on only after a frame with something in it
        have hbytes : bytes ≠ [] := by
          intro hnil
          have hsame := hbegun hnil
          by_cases hempty : state.1.inflater.currentOutputSize = 0
          · rcases hmore with hfull | hfinal
            · rw [hempty] at hfull
              exact absurd hfull (by decide)
            · rw [hsame, hempty, hfinal] at hnot
              cases hnot
          · have hchunk : 0 < kChunkSize := by decide
            exact hprogress (by omega) (by omega) hnil
        have hpos := List.length_pos_iff.mpr hbytes
        have hle := hinflating.length_le
        refine ⟨⟨h.readingState, ?_, ?_, ?_⟩, ?_⟩
        · rw [hall]
          exact hinflating
        · rw [hall, hfeed]
          exact .inr ⟨rfl, rfl⟩
        · rw [hfeed]
        · rw [hall]
          simp only [List.length_append] at hle ⊢
          omega
  · rw [if_neg hmore]
    have hfinal : frame.header.final = false := by
      by_contra hlast
      exact hmore (.inr (Bool.not_eq_false _ ▸ hlast))
    exact .more hfinal h (Nat.lt_of_not_le fun hfull ↦ hmore (.inl hfull))

/-- From some bound on its rounds on, the loop that makes frames ends, and comes to the same. -/
theorem MakesFrames.runLoop_spec (hF : F.IsDeflate) (hdata : isKnownDataOpCode opcode = true)
    (h : MakesFrames F V s d out opcode payload given (s, [])) (frame : WebSocketFrame) :
    ∃ n r, (∀ rounds, n ≤ rounds →
        runLoop (FrameInflation.outputRound Z frame) rounds (s, []) = .finished r) ∧
      MadeFrames F V s d out opcode payload given frame.header.final r := by
  obtain ⟨r, hrun, hmade⟩ := (runLoop_meets
    (fun state : FrameInflation ξ × List WebSocketFrame ↦
      (F.receiver.feed d payload).2.length - (state.2.flatMap WebSocketFrame.data).length)
    (fun _ hstate ↦ outputRound_makes hZ hF hdata hstate) h (Nat.lt_succ_self _)).finished
  exact ⟨_, r, fun rounds hrounds ↦ runLoop_mono hrun hrounds, hmade⟩

/-- Assumes: a frame whose length is that of its data. -/
theorem IsInflating.addFrame_spec (hF : F.IsDeflate) (h : IsInflating F V s.inflater d payload given)
    (hlength : frame.header.payloadLength = frame.data.length) :
    ∃ inflater, s.addFrame Z frame = .ok { s with inflater := inflater } () ∧
          IsInflating F V inflater d (payload ++ frame.added) given ∨
        s.addFrame Z frame = .failed { s with inflater := inflater } errWsProtocolError ∧
          F.IsInvalid (F.receiver.feed d (payload ++ frame.added)).1 := by
  obtain ⟨inflater, fine, hadd, hgood, hbad⟩ := h.addBytes_spec hZ frame.data
  rw [FrameInflation.addFrame, payload?_eq hlength, Option.bind_some, hadd]
  cases fine with
  | false =>
    refine ⟨inflater, .inr ⟨rfl, ?_⟩⟩
    rw [WebSocketFrame.added, ← List.append_assoc, Receiver.feed_append]
    exact hF.invalid_feed (hbad rfl) _
  | true =>
    by_cases hfinal : frame.header.final = true
    · obtain ⟨inflater', fine', hfinish, hgood', hbad'⟩ := (hgood rfl).addBytes_spec hZ syncMark
      rw [WebSocketFrame.added, if_pos hfinal, ← List.append_assoc]
      simp only [hfinal, if_true, WebSocketInflater.finish, hfinish]
      cases fine' with
      | false => exact ⟨inflater', .inr ⟨rfl, hbad' rfl⟩⟩
      | true => exact ⟨inflater', .inl ⟨rfl, hgood' rfl⟩⟩
    · rw [WebSocketFrame.added, if_neg hfinal, List.append_nil]
      simp only [hfinal]
      exact ⟨inflater, .inl ⟨rfl, hgood rfl⟩⟩

/-- Assumes: a frame that goes on with a compressed message, or begins one of which nothing came
before. -/
theorem IsInflating.inflate_spec (hF : F.IsDeflate)
    (h : IsInflating F V s.inflater d payload given)
    (hstate : s.readingState = .readingCompressedMessage) (hdata : isKnownDataOpCode opcode = true)
    (hemits : Emits opcode given s.currentReadingOpcode out)
    (hlength : frame.header.payloadLength = frame.data.length)
    (hstep : GoesOnTo frame wire ⟨opcode, true, payload ++ frame.data⟩) :
    ∃ n r, (∀ rounds, n ≤ rounds →
        (s.addFrame Z frame).andThen (fun s _ ↦ s.outputFrames Z rounds frame) = r) ∧
      ReadsFrames F V d wire out [frame] r := by
  obtain ⟨inflater, ⟨hadd, hadded⟩ | ⟨hadd, hinvalid⟩⟩ := h.addFrame_spec hZ hF hlength
  · have hmakes : MakesFrames F V { s with inflater := inflater } d out opcode
        (payload ++ frame.added) given ({ s with inflater := inflater }, []) :=
      ⟨rfl, by rwa [List.flatMap_nil, List.append_nil], by rwa [List.flatMap_nil, List.append_nil], rfl⟩
    obtain ⟨n, r, hrun, hmade⟩ := hmakes.runLoop_spec hZ hF hdata frame
    refine ⟨n, r.andThen fun s frames ↦ .ok { s with
      readingState := if frame.header.final then .notReading else s.readingState } frames,
      fun rounds hrounds ↦ ?_, ?_⟩
    · rw [hadd, Checked.andThen_ok, FrameInflation.outputFrames, hrun rounds hrounds]
    · cases hmade with
      | more hfinal hframes hroom =>
        rw [WebSocketFrame.added, hfinal] at hframes
        simp only [Bool.false_eq_true, if_false, List.append_nil] at hframes
        have hwire := hstep.feed_more hfinal
        simp only [Checked.andThen_ok, hfinal, Bool.false_eq_true, if_false]
        refine .ok (show ReadsMessages F V _ d _ _ from ?_) ?_ ?_
        · rw [hwire]
          exact .compressed (hframes.readingState.trans hstate) hframes.inflating rfl hdata
            hframes.emits hroom
        · rw [hwire, hframes.quiet]
          rfl
        · rw [hwire]
          exact List.not_mem_nil
      | last hfinal hidle hfeed =>
        have hwire := hstep.feed_last hfinal
        simp only [Checked.andThen_ok, hfinal, if_true]
        refine .ok (show ReadsMessages F V _ (F.receiver.feed d (payload ++ frame.added)).1 _ _ from ?_)
          ?_ ?_
        · rw [hwire, hfeed]
          exact .between rfl hidle
        · rw [hwire, hfeed, F.messages_compressed d rfl, WebSocketFrame.added, if_pos hfinal,
            ← List.append_assoc]
        · rw [hwire]
          simp
      | failed hinvalid => exact .failed (.inr (by rwa [hstep.openState]))
  · refine ⟨0, _, fun _ _ ↦ by rw [hadd]; rfl, .failed (.inr ?_)⟩
    rwa [hstep.openState]

/-- Assumes: a frame whose length is that of its data. From some bound on, a round of `Inflate` ends,
and comes to the same. -/
theorem ReadsMessages.inflateFrame_spec (hF : F.IsDeflate) (h : ReadsMessages F V s d wire out)
    (hlength : frame.header.payloadLength = frame.data.length) :
    ∃ n r, (∀ rounds, n ≤ rounds → s.inflateFrame Z rounds frame = r) ∧
      ReadsFrames F V d wire out [frame] r := by
  unfold FrameInflation.inflateFrame
  by_cases hdata : isKnownDataOpCode frame.header.opcode = true
  · simp only [hdata, Bool.not_true, Bool.false_eq_true, if_false]
    cases h with
    | between hstate hidle =>
      have hstep : GoesOnTo frame none (.ofFirst frame) := goesOnTo_of_data hdata (.inl rfl)
      simp only [hstate, ne_eq, not_true_eq_false, false_and, if_false, FrameInflation.startReading,
        if_true]
      by_cases hreserved : frame.header.reserved1 = true
      · rw [DataMessage.ofFirst, hreserved] at hstep
        simp only [hreserved, if_true]
        exact hidle.isInflating.inflate_spec hZ hF rfl hdata (.inl ⟨rfl, rfl, rfl⟩) hlength hstep
      · simp only [hreserved, Bool.false_eq_true, if_false]
        exact ⟨0, _, fun _ _ ↦ rfl, hidle.handOn_spec (Bool.not_eq_true _ ▸ hreserved) hstep⟩
    | @uncompressed m hstate hidle hplain =>
      simp only [hstate, ne_eq, reduceCtorEq, not_false_eq_true, true_and, FrameInflation.startReading,
        if_false]
      by_cases hreserved : frame.header.reserved1 = true
      · simp only [hreserved, if_true]
        exact ⟨0, _, fun _ _ ↦ rfl, .failed (unreadable_of_reserved1 hdata hreserved)⟩
      · simp only [hreserved, Bool.false_eq_true, if_false]
        have hstep : GoesOnTo frame (some m) (.continuedBy frame (some m)) :=
          goesOnTo_of_data hdata (.inr (Bool.not_eq_true _ ▸ hreserved))
        exact ⟨0, _, fun _ _ ↦ rfl, hidle.handOn_spec ((reserved1_continuedBy frame m).trans hplain) hstep⟩
    | @compressed m given out hstate hinflating hcompressed hopcode hemits hroom =>
      simp only [hstate, ne_eq, reduceCtorEq, not_false_eq_true, true_and, FrameInflation.startReading,
        if_false]
      by_cases hreserved : frame.header.reserved1 = true
      · simp only [hreserved, if_true]
        exact ⟨0, _, fun _ _ ↦ rfl, .failed (unreadable_of_reserved1 hdata hreserved)⟩
      · simp only [hreserved, Bool.false_eq_true, if_false]
        have hstep : GoesOnTo frame (some m) (.continuedBy frame (some m)) :=
          goesOnTo_of_data hdata (.inr (Bool.not_eq_true _ ▸ hreserved))
        rw [DataMessage.continuedBy, hcompressed] at hstep
        exact hinflating.inflate_spec hZ hF hstate hopcode hemits hlength hstep
  · have hother : isKnownDataOpCode frame.header.opcode = false := Bool.not_eq_true _ ▸ hdata
    simp only [hother, Bool.not_false, if_true]
    refine ⟨0, _, fun _ _ ↦ rfl, .ok (show ReadsMessages F V s d _ _ from ?_) ?_ ?_⟩
    · rw [Receiver.feed_singleton, Receiver.feed_singleton, step_other hother, step_other hother]
      exact h
    · rw [Receiver.feed_singleton, Receiver.feed_singleton, step_other hother, step_other hother]
      rfl
    · rw [Receiver.feed_singleton, step_other hother]
      simp

/-- Assumes: frames whose lengths are those of their data. From some bound on, `Inflate` ends, and
comes to the same. -/
theorem ReadsMessages.inflate_spec (hF : F.IsDeflate) {frames : List WebSocketFrame}
    (h : ReadsMessages F V s d wire out) (hlength : ∀ f ∈ frames, f.header.payloadLength = f.data.length) :
    ∃ n r, (∀ rounds, n ≤ rounds → s.inflate Z rounds frames = r) ∧
      ReadsFrames F V d wire out frames r := by
  unfold FrameInflation.inflate
  induction frames generalizing s d wire out with
  | nil => exact ⟨0, _, fun _ _ ↦ rfl, .ok h rfl List.not_mem_nil⟩
  | cons frame rest ih =>
    obtain ⟨n, r, hround, hfirst⟩ := h.inflateFrame_spec hZ hF (hlength frame List.mem_cons_self)
    cases hfirst with
    | @failed next hunreadable =>
      refine ⟨n, .failed next errWsProtocolError, fun rounds hrounds ↦ ?_,
        .failed (hunreadable.append hF rest)⟩
      rw [Checked.collect, hround rounds hrounds, Checked.andThen_failed]
    | @ok next d' read hreads hmessages hplaced =>
      obtain ⟨n', r', hrest, hothers⟩ := ih hreads fun f hf ↦ hlength f (List.mem_cons_of_mem frame hf)
      refine ⟨max n n', r'.map (read ++ ·), fun rounds hrounds ↦ ?_, ?_⟩
      · rw [Checked.collect, hround rounds (le_trans (le_max_left n n') hrounds), Checked.andThen_ok,
          hrest rounds (le_trans (le_max_right n n') hrounds)]
      · exact hothers.after hmessages hplaced

/-- The frames may come in parts. -/
theorem ReadsMessages.inflateAll_spec (hF : F.IsDeflate) {parts : List (List WebSocketFrame)}
    (h : ReadsMessages F V s d wire out)
    (hlength : ∀ f ∈ parts.flatten, f.header.payloadLength = f.data.length) :
    ∃ n r, (∀ rounds, n ≤ rounds →
        Checked.collect (FrameInflation.inflate Z rounds) s parts = r) ∧
      ReadsFrames F V d wire out parts.flatten r := by
  obtain ⟨n, r, hinflate, hreads⟩ := h.inflate_spec hZ hF hlength
  exact ⟨n, r, fun rounds hrounds ↦ (Checked.collect_flatten _ _ _).trans (hinflate rounds hrounds),
    hreads⟩

theorem reads_initialized (hF : F.IsDeflate) :
    ReadsMessages F V (FrameInflation.initialized Z) F.start none none := by
  have hinflating := WebSocketInflater.inflating_initialized hZ hF
    (show 0 < kChunkSize by decide) kChunkSize
  have hcontents := hinflating.ring.length_contents
  rw [WebSocketInflater.initialized, OutputBuffer.contents_make] at hcontents
  exact .between rfl ⟨[], [], hinflating, rfl, hcontents.symm⟩

end

/-- Assumes: what is documented of zlib, and frames whose lengths are those of their data, in whatever
parts they come. From some bound on the rounds of a loop on, a call of `ReadFrames` fails if and only
if the frames are unreadable, no check fails, and the frames that are handed on say what the frames that
came mean. -/
theorem FrameInflation.inflate_says {Z : Zlib ξ} {F : DeflateFormat δ} {V : InflateView δ ξ}
    (hZ : Inflates Z F V) (hF : F.IsDeflate) (parts : List (List WebSocketFrame))
    (hlength : ∀ f ∈ parts.flatten, f.header.payloadLength = f.data.length) :
    ∃ n, ∀ rounds, n ≤ rounds →
      (Unreadable F F.start none parts.flatten → ∃ next,
        ((initialized Z).serve Z rounds parts).2 = .failed next errWsProtocolError) ∧
      (¬Unreadable F F.start none parts.flatten →
        ((initialized Z).serve Z rounds parts).2.isOk = true ∧
          [] ∉ ((initialized Z).serve Z rounds parts).1 ∧
            (frameMessages.feed none ((initialized Z).serve Z rounds parts).1.flatten).2 =
              (F.messages.feed F.start (frameMessages.feed none parts.flatten).2).2) := by
  obtain ⟨n, r, hinflate, hreads⟩ := (reads_initialized hZ hF).inflateAll_spec hZ hF hlength
  refine ⟨n, fun rounds hrounds ↦ ?_⟩
  have hall := hinflate rounds hrounds
  cases hreads with
  | @failed next hunreadable =>
    exact ⟨fun _ ↦ ⟨next, serve_of_failed hall⟩, fun hreadable ↦ absurd hunreadable hreadable⟩
  | @ok next d' read hnext hmessages hplaced =>
    have hreadable := (ReadsFrames.ok hnext hmessages hplaced).readable
    obtain ⟨hlast, hflatten, hsome⟩ := serve_of_ok hall
    refine ⟨fun hunreadable ↦ absurd hunreadable hreadable, fun _ ↦ ⟨?_, hsome, ?_⟩⟩
    · rw [hlast]
      rfl
    · rw [hflatten, hmessages]

/-- A stored block of five bytes, cut into two frames behind its third byte. -/
def FrameInflation.cutFrames : List (List WebSocketFrame) :=
  [[⟨{ opcode := kOpCodeBinary, reserved1 := true, payloadLength := 8 }, [0, 5, 0, 250, 255, 1, 2, 3]⟩],
    [⟨{ final := true, opcode := kOpCodeContinuation, payloadLength := 3 }, [4, 5, 0]⟩]]

theorem FrameInflation.inflate_says_stored :
    ∃ n, ∀ rounds, n ≤ rounds →
      ((initialized storedInflate).serve storedInflate rounds cutFrames).2.isOk = true ∧
        (frameMessages.feed none
          ((initialized storedInflate).serve storedInflate rounds cutFrames).1.flatten).2 =
            [.message ⟨kOpCodeBinary, false, [1, 2, 3, 4, 5]⟩] := by
  obtain ⟨n, hinflate⟩ := inflate_says inflates_stored isDeflate_stored cutFrames (by decide)
  refine ⟨n, fun rounds hrounds ↦ ?_⟩
  suffices hreadable : ¬Unreadable storedFormat storedFormat.start none cutFrames.flatten by
    obtain ⟨hok, -, hsays⟩ := (hinflate rounds hrounds).2 hreadable
    exact ⟨hok, hsays⟩
  rintro (hmisplaced | hinvalid)
  · exact absurd hmisplaced (by decide)
  · cases hinvalid

end Reading

end Felicia
