import Felicia.Channel.WebSocketWriting

/-!
# Messages of frames

What a stream of frames says: whole messages, and between them or in the middle of one the frames
that are not part of a message. It is given by a receiver of frames (`frameMessages`), so that frames
that are cut differently can be compared. `feed_delivered` says that a reader that hands frames on in
pieces hands on the same messages.
-/

set_option autoImplicit false
set_option relaxedAutoImplicit false

namespace Felicia

open Support WebSocketFrameHeader

/-- A message, or what came of one: the type and the first reserved bit are those of its first
frame. -/
structure DataMessage where
  opcode : ℕ
  reserved1 : Bool
  payload : List UInt8
  deriving DecidableEq, Repr

/-- What is recognised when a frame comes. -/
inductive FrameEvent
  /-- The end of a message. -/
  | message (m : DataMessage)
  /-- A frame that is not part of a message. -/
  | control (frame : WebSocketFrame)
  /-- The first reserved bit is set in a frame that is not the first of its message. -/
  | misplaced
  deriving DecidableEq, Repr

namespace DataMessage

/-- A message that begins with a frame. -/
def ofFirst (frame : WebSocketFrame) : DataMessage :=
  ⟨frame.header.opcode, frame.header.reserved1, frame.data⟩

/-- A message that goes on with a frame, or begins with it. -/
def continuedBy (frame : WebSocketFrame) : Option DataMessage → DataMessage
  | none => ofFirst frame
  | some m => { m with payload := m.payload ++ frame.data }

end DataMessage

/-- The state is the message that began and did not end. -/
def frameMessages : Receiver (Option DataMessage) WebSocketFrame FrameEvent where
  step current frame :=
    if isKnownDataOpCode frame.header.opcode then
      (if frame.header.final then none else some (.continuedBy frame current),
        (if current.isSome && frame.header.reserved1 then [.misplaced] else []) ++
          if frame.header.final then [.message (.continuedBy frame current)] else [])
    else (current, [.control frame])

/-- A frame that may come: the first frame of a message has its type and may have the first reserved
bit, and the others have neither. -/
def IsOrderly (current : Option DataMessage) (frame : WebSocketFrame) : Prop :=
  isKnownDataOpCode frame.header.opcode = true →
    (current = none → frame.header.opcode ≠ kOpCodeContinuation) ∧
      (current ≠ none → frame.header.opcode = kOpCodeContinuation ∧ frame.header.reserved1 = false)

/-- Frames that may come one after the other. -/
def AreOrderly (current : Option DataMessage) : List WebSocketFrame → Prop
  | [] => True
  | frame :: rest => IsOrderly current frame ∧ AreOrderly (frameMessages.step current frame).1 rest

variable {current : Option DataMessage} {frame : WebSocketFrame} {frames : List WebSocketFrame}

theorem areOrderly_append {others : List WebSocketFrame} :
    AreOrderly current (frames ++ others) ↔
      AreOrderly current frames ∧ AreOrderly (frameMessages.feed current frames).1 others := by
  induction frames generalizing current with
  | nil => simp [AreOrderly]
  | cons frame rest ih =>
    rw [List.cons_append, AreOrderly, AreOrderly, ih, and_assoc]
    rfl

theorem step_data (hdata : isKnownDataOpCode frame.header.opcode = true) :
    frameMessages.step current frame =
      (if frame.header.final then none else some (.continuedBy frame current),
        (if current.isSome && frame.header.reserved1 then [.misplaced] else []) ++
          if frame.header.final then [.message (.continuedBy frame current)] else []) := if_pos hdata

theorem step_other (hother : isKnownDataOpCode frame.header.opcode = false) :
    frameMessages.step current frame = (current, [.control frame]) :=
  if_neg (Bool.not_eq_true _ ▸ hother)

/-- Assumes: a frame that may come. -/
theorem step_orderly (hdata : isKnownDataOpCode frame.header.opcode = true)
    (h : IsOrderly current frame) :
    frameMessages.step current frame =
      (if frame.header.final then none else some (.continuedBy frame current),
        if frame.header.final then [.message (.continuedBy frame current)] else []) := by
  rw [step_data hdata]
  cases current with
  | none => rfl
  | some m =>
    obtain ⟨-, hreserved⟩ := (h hdata).2 (Option.some_ne_none m)
    simp [hreserved]

/-! ### Pieces of frames -/

section Pieces

variable {header : WebSocketFrameHeader} {payload : List UInt8} {parts : List (List UInt8)}

theorem isKnownDataOpCode_continuation : isKnownDataOpCode kOpCodeContinuation = true := rfl

theorem isKnownControlOpCode_of_data {opcode : ℕ} (h : isKnownDataOpCode opcode = true) :
    isKnownControlOpCode opcode = false := by
  simp only [isKnownDataOpCode, Bool.or_eq_true, beq_iff_eq] at h
  rcases h with (rfl | rfl) | rfl <;> rfl

/-- A header of a frame that goes on with a message. -/
def WebSocketFrameHeader.GoesOn (header : WebSocketFrameHeader) : Prop :=
  header.opcode = kOpCodeContinuation ∧ header.reserved1 = false

theorem goesOn_continued (hdata : isKnownDataOpCode header.opcode = true) :
    header.continued.GoesOn := by
  rw [WebSocketFrameHeader.continued, if_pos hdata]
  exact ⟨rfl, rfl⟩

/-- A piece that goes on with a message. -/
theorem step_goesOn (h : header.GoesOn) (m : DataMessage) (final : Bool) (part : List UInt8) :
    IsOrderly (some m) (framePiece header final part) ∧
      frameMessages.step (some m) (framePiece header final part) =
        (if final then none else some { m with payload := m.payload ++ part },
          if final then [.message { m with payload := m.payload ++ part }] else []) := by
  have horderly : IsOrderly (some m) (framePiece header final part) :=
    fun _ ↦ ⟨fun hnone ↦ absurd hnone (Option.some_ne_none m), fun _ ↦ h⟩
  exact ⟨horderly, step_orderly (congrArg isKnownDataOpCode h.1) horderly⟩

/-- Pieces that go on with a message, up to its end or not. -/
theorem feed_deliver (h : header.GoesOn) (m : DataMessage) (hparts : parts ≠ []) :
    AreOrderly (some m) (deliver header true parts) ∧
      frameMessages.feed (some m) (deliver header true parts) =
        (if header.final then none else some { m with payload := m.payload ++ parts.flatten },
          if header.final then [.message { m with payload := m.payload ++ parts.flatten }] else []) := by
  induction parts generalizing header m with
  | nil => exact absurd rfl hparts
  | cons part rest ih =>
    obtain ⟨horderly, hstep⟩ := step_goesOn h m (rest.isEmpty && (true && header.final)) part
    rw [deliver, AreOrderly, Receiver.feed, hstep]
    by_cases hrest : rest = []
    · subst hrest
      refine ⟨⟨horderly, trivial⟩, ?_⟩
      simp [deliver]
    · have hnext : header.continued.GoesOn := goesOn_continued (congrArg isKnownDataOpCode h.1)
      have hempty : rest.isEmpty = false := by simpa using hrest
      obtain ⟨horderly', hfeed⟩ := ih hnext { m with payload := m.payload ++ part } hrest
      rw [hempty, Bool.false_and] at horderly ⊢
      simp only [Bool.false_eq_true, if_false, hfeed, continued_final, List.flatten_cons,
        List.append_assoc, List.nil_append, and_true]
      exact ⟨horderly, horderly'⟩

/-- Assumes: a frame that may come, of a type that is known. What is handed on of it, whole or in
pieces, says what the frame says. -/
theorem feed_delivered {pieces : List WebSocketFrame} (h : Felicia.Delivered header payload pieces)
    (hknown : isKnownDataOpCode header.opcode = true ∨
      isKnownControlOpCode header.opcode = true ∧ header.final = true)
    (hlength : header.payloadLength = payload.length)
    (horderly : IsOrderly current ⟨header, payload⟩) :
    AreOrderly current pieces ∧
      frameMessages.feed current pieces = frameMessages.step current ⟨header, payload⟩ := by
  cases h with
  | control hcontrol =>
    have hother : isKnownDataOpCode header.opcode = false := by
      by_contra hdata
      rw [isKnownControlOpCode_of_data (Bool.not_eq_false _ ▸ hdata)] at hcontrol
      cases hcontrol
    have hfinal : header.final = true := by
      rcases hknown with hdata | ⟨-, hfinal⟩
      · rw [hother] at hdata
        cases hdata
      · exact hfinal
    have hpiece : framePiece header true payload = ⟨header, payload⟩ := by
      rw [framePiece, ← hlength, ← hfinal]
    rw [hpiece, Receiver.feed_singleton]
    exact ⟨⟨horderly, trivial⟩, rfl⟩
  | @data hnot parts hparts =>
    have hdata : isKnownDataOpCode header.opcode = true := by
      rcases hknown with hdata | ⟨hcontrol, -⟩
      · exact hdata
      · rw [hnot] at hcontrol
        cases hcontrol
    rw [step_orderly hdata horderly]
    cases parts with
    | nil =>
      -- a frame that tells nothing
      have hsilent := hparts.silent rfl
      have hpayload : payload = [] := hparts.flatten.symm
      simp only [isUseful, Bool.or_eq_false_iff, bne_eq_false_iff_eq, Bool.true_and] at hsilent
      obtain ⟨⟨hfinal, -⟩, hopcode⟩ := hsilent
      refine ⟨trivial, ?_⟩
      cases current with
      | none => exact absurd hopcode ((horderly hdata).1 rfl)
      | some m => simp [deliver, hfinal, hpayload, DataMessage.continuedBy]
    | cons part rest =>
      have hflatten : part ++ rest.flatten = payload := hparts.flatten
      have hfirst : IsOrderly current (framePiece header (rest.isEmpty && (true && header.final)) part) :=
        horderly
      have hstep := step_orderly hdata hfirst
      rw [deliver, AreOrderly, Receiver.feed, hstep]
      by_cases hrest : rest = []
      · subst hrest
        rw [List.flatten_nil, List.append_nil] at hflatten
        refine ⟨⟨hfirst, trivial⟩, ?_⟩
        subst hflatten
        cases current <;> simp [deliver, framePiece, DataMessage.continuedBy, DataMessage.ofFirst]
      · have hempty : rest.isEmpty = false := by simpa using hrest
        have hnext := goesOn_continued hdata
        obtain ⟨horderly', hfeed⟩ :=
          feed_deliver hnext (.continuedBy (framePiece header false part) current) hrest
        simp only [hempty, framePiece, Bool.false_and, Bool.false_eq_true, if_false, continued_final,
          List.nil_append] at hfeed horderly' hfirst ⊢
        rw [hfeed, ← hflatten]
        refine ⟨⟨hfirst, horderly'⟩, ?_⟩
        cases current <;> simp [DataMessage.continuedBy, DataMessage.ofFirst]

end Pieces

/-- A frame of a type that is known, with the length that its header has. -/
structure WebSocketFrame.IsKnown (frame : WebSocketFrame) : Prop where
  opcode : isKnownDataOpCode frame.header.opcode = true ∨
    isKnownControlOpCode frame.header.opcode = true ∧ frame.header.final = true
  length : frame.header.payloadLength = frame.data.length

/-- A frame that can be written and that the peer does not refuse. -/
structure WebSocketFrame.MayBeSent (frame : WebSocketFrame) : Prop where
  sendable : frame.IsSendable
  known : isKnownDataOpCode frame.header.opcode = true ∨ isKnownControlOpCode frame.header.opcode = true
  allowed : frame.IsAllowed

theorem WebSocketFrame.MayBeSent.isKnown (h : frame.MayBeSent) : frame.IsKnown :=
  ⟨h.known.imp_right fun hcontrol ↦ ⟨hcontrol, (h.allowed hcontrol).final⟩, h.sendable.length⟩

/-- A frame of a message that has no mask. -/
theorem mayBeSent_of_data (hmasked : frame.header.masked = false)
    (hdata : isKnownDataOpCode frame.header.opcode = true)
    (hlength : frame.header.payloadLength = frame.data.length) : frame.MayBeSent where
  sendable := by
    refine ⟨hmasked, ?_, hlength⟩
    simp only [isKnownDataOpCode, Bool.or_eq_true, beq_iff_eq] at hdata
    rcases hdata with (hopcode | hopcode) | hopcode <;> rw [hopcode] <;> decide
  known := .inl hdata
  allowed hcontrol := by
    rw [isKnownControlOpCode_of_data hdata] at hcontrol
    cases hcontrol

/-- Frames that are handed on in pieces say what they say whole. -/
theorem feed_deliveredAll {pieces : List (List WebSocketFrame)}
    (h : List.Forall₂ WebSocketFrame.Delivered frames pieces) (hknown : ∀ f ∈ frames, f.IsKnown)
    (horderly : AreOrderly current frames) :
    AreOrderly current pieces.flatten ∧
      frameMessages.feed current pieces.flatten = frameMessages.feed current frames := by
  induction h generalizing current with
  | nil => exact ⟨trivial, rfl⟩
  | @cons frame piece frames pieces hfirst hrest ih =>
    obtain ⟨hcomes, hothers⟩ := horderly
    have hframe := hknown frame List.mem_cons_self
    obtain ⟨hpiece, hfeed⟩ := feed_delivered hfirst hframe.opcode hframe.length hcomes
    obtain ⟨hmore, hrests⟩ := ih (fun f hf ↦ hknown f (List.mem_cons_of_mem frame hf)) hothers
    rw [List.flatten_cons, areOrderly_append, Receiver.feed_append, hfeed, hrests]
    exact ⟨⟨hpiece, hmore⟩, rfl⟩

end Felicia
