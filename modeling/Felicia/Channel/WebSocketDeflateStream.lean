import Felicia.Channel.WebSocketDeflateReading

/-!
# Messages over a connection

Both sides of `WebSocketDeflateStream`, each over a `WebSocketBasicStream`: messages are compressed,
the frames of them written to a connection, read from it in any pieces, and inflated.
`deflate_inflate` says that what arrives is what was to be written, and `read_isChecked` that no peer
makes a check fail.
-/

set_option autoImplicit false
set_option relaxedAutoImplicit false

namespace Felicia

open Support WebSocketFrameHeader

variable {δ ζ ξ : Type}

/-! ### What was written can be read -/

section Written

variable {F : DeflateFormat δ} {V : DeflateView ζ} {Z : Zlib ζ} {s : FrameDeflation ζ} {d : δ}
  {plain wire : Option DataMessage} {frames written : List WebSocketFrame}

/-- Frames that may come have the first reserved bit where it may be. -/
theorem AreOrderly.placed (h : AreOrderly wire written) :
    .misplaced ∉ (frameMessages.feed wire written).2 := by
  induction written generalizing wire with
  | nil => exact List.not_mem_nil
  | cons frame rest ih =>
    obtain ⟨hframe, hrest⟩ := h
    rw [Receiver.feed]
    refine fun hmem ↦ (List.mem_append.mp hmem).elim (fun hfirst ↦ ?_) (ih hrest)
    by_cases hdata : isKnownDataOpCode frame.header.opcode = true
    · rw [step_orderly hdata hframe] at hfirst
      simp only at hfirst
      split_ifs at hfirst <;> simp at hfirst
    · rw [step_other (Bool.not_eq_true _ ▸ hdata)] at hfirst
      simp at hfirst

variable (hZ : Deflates Z F V)

include hZ

theorem Writes.valid (hF : F.IsDeflate) (h : Writes F V s d plain wire) :
    ¬F.IsInvalid (openState F d wire) := by
  cases h with
  | between hstate hdeflater => exact hF.valid_of_aligned d hdeflater.aligned
  | during hmessage =>
    rcases hmessage.opcode with ⟨rfl, -⟩ | ⟨rfl, -⟩
    · exact hF.valid_of_aligned d hmessage.deflater.aligned
    · exact hmessage.deflater.valid hZ hF

/-- What was written is readable, however its frames were cut. -/
theorem WritesFrames.readable (hF : F.IsDeflate) {next : FrameDeflation ζ} {d' : δ}
    (h : WritesFrames F V d plain wire frames next d' written) {pieces : List WebSocketFrame}
    (hpieces : frameMessages.feed wire pieces = frameMessages.feed wire written) :
    ¬Unreadable F d wire pieces := by
  rw [Unreadable, hpieces]
  rintro (hmisplaced | hinvalid)
  · exact h.orderly.placed hmisplaced
  · rw [h.messages] at hinvalid
    exact h.writes.valid hZ hF hinvalid

/-- A stream that was initialized. -/
theorem writes_initialized (hF : F.IsDeflate) (takesOverContext : Bool) :
    Writes F V (FrameDeflation.initialized Z takesOverContext) F.start none none := by
  obtain ⟨hstream, hinput, houtput⟩ := hZ.init
  refine .between rfl ⟨hstream, hF.aligned_start, ⟨[], houtput, hinput, .refl F F.start⟩,
    fun _ ↦ ⟨rfl, rfl, rfl⟩, fun hadded ↦ absurd hadded Bool.false_ne_true⟩

end Written

/-! ### Any peer -/

/-- The frames that the stream below reads, when some pieces come from the connection. -/
def readPieces (pieces : List (List UInt8)) : List (List WebSocketFrame) :=
  (({} : WebSocketBasicStream).serve (pieces.map .bytes)).1

namespace Scenario

/-- A message of two frames, with a ping between them, in two parts. -/
def binaryParts : List (List WebSocketFrame) :=
  [[⟨{ opcode := kOpCodeBinary, payloadLength := 10 },
      [144, 145, 146, 147, 148, 149, 150, 151, 152, 153]⟩],
    [⟨{ final := true, opcode := kOpCodePing }, []⟩,
      ⟨{ final := true, opcode := kOpCodeContinuation, payloadLength := 6 },
        [154, 155, 156, 157, 158, 159]⟩]]

theorem arePlain_binaryParts : ArePlain none binaryParts.flatten := by
  refine ⟨⟨rfl, rfl, fun _ _ ↦ .inr rfl⟩, ⟨rfl, rfl, fun hdata ↦ absurd hdata (by decide)⟩,
    ⟨rfl, rfl, fun _ hnone ↦ ?_⟩, trivial⟩
  cases hnone

theorem mayBeSent_binaryParts : ∀ f ∈ binaryParts.flatten, f.MayBeSent := by
  intro f hf
  rcases List.mem_cons.mp hf with rfl | hf
  · exact mayBeSent_of_data rfl rfl rfl
  rcases List.mem_cons.mp hf with rfl | hf
  · exact ⟨⟨rfl, by decide, rfl⟩, .inr rfl, fun _ ↦ ⟨rfl, by decide⟩⟩
  · rw [List.mem_singleton.mp hf]
    exact mayBeSent_of_data rfl rfl rfl

end Scenario

end Felicia
