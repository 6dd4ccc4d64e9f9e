import Felicia.Channel.Zlib
import Felicia.Support.Loops

/-!
# Deflating

`WebSocketDeflater` of `third_party/chromium/net/websockets/websocket_deflater.cc`. The bytes of a
message are added to a stream of zlib, which is flushed at its end, and the empty block that the
flush ends with is cut off. `Compressing` says how what was put out so far will be read, and
`finish_spec` that a whole message is read as it was.

The loop of `Deflate` has a bound on its rounds in the model; what is proved of it holds for every
bound from some number on.
-/

set_option autoImplicit false
set_option relaxedAutoImplicit false

namespace Felicia

open Support

variable {δ ζ : Type}

/-- `WebSocketDeflater`. -/
structure WebSocketDeflater (ζ : Type) where
  stream : ζ
  /-- The mode is `TAKE_OVER_CONTEXT`. -/
  takesOverContext : Bool
  buffer : List UInt8 := []
  areBytesAdded : Bool := false

/-- What `Deflate` comes to, with what is left of the input. -/
structure DeflateEnd (ζ : Type) where
  next : WebSocketDeflater ζ
  rest : List UInt8
  result : ZResult

namespace WebSocketDeflater

/-- `kFixedBufferSize`. -/
def kFixedBufferSize : ℕ := 4096

section Calls

variable (Z : Zlib ζ) (rounds : ℕ)

/-- A round of the loop of `Deflate`, with what is left of the input. -/
def deflateRound (flush : ZFlush) (state : WebSocketDeflater ζ × List UInt8) :
    LoopRound (WebSocketDeflater ζ × List UInt8) (DeflateEnd ζ) :=
  let call := Z.call state.1.stream state.2 kFixedBufferSize flush
  let next := { state.1 with stream := call.stream, buffer := state.1.buffer ++ call.output }
  if call.result = .ok then .again (next, state.2.drop call.taken)
  else .done ⟨next, state.2.drop call.taken, call.result⟩

/-- `Deflate`. -/
def deflate (s : WebSocketDeflater ζ) (nextIn : List UInt8) (flush : ZFlush) :
    Option (DeflateEnd ζ) :=
  (runLoop (deflateRound Z flush) rounds (s, nextIn)).result?

/-- `AddBytes`. -/
def addBytes (s : WebSocketDeflater ζ) (data : List UInt8) : Option (WebSocketDeflater ζ × Bool) :=
  if data = [] then some (s, true)
  else
    ({ s with areBytesAdded := true }.deflate Z rounds data .noFlush).bind fun (deflated : DeflateEnd ζ) ↦
      if deflated.result = ZResult.bufError ∧ deflated.rest ≠ [] then none
      else some (deflated.next, decide (deflated.result = ZResult.bufError))

/-- `ResetContext`. -/
def resetContext (s : WebSocketDeflater ζ) : WebSocketDeflater ζ :=
  { s with
    stream := if s.takesOverContext then s.stream else Z.reset s.stream
    areBytesAdded := false }

/-- `Finish`. -/
def finish (s : WebSocketDeflater ζ) : Option (WebSocketDeflater ζ × Bool) :=
  if !s.areBytesAdded then some ({ s with buffer := s.buffer ++ [0x00] }.resetContext Z, true)
  else
    (s.deflate Z rounds [] .syncFlush).map fun (deflated : DeflateEnd ζ) ↦
      if deflated.result ≠ ZResult.bufError then (deflated.next.resetContext Z, false)
      else if deflated.next.buffer.length < 4 then (deflated.next.resetContext Z, false)
      else
        ({ deflated.next with
            buffer := deflated.next.buffer.take (deflated.next.buffer.length - 4) }.resetContext Z,
          true)

/-- `GetOutput`: the bytes. -/
def getOutput (s : WebSocketDeflater ζ) (size : ℕ) : WebSocketDeflater ζ × List UInt8 :=
  ({ s with buffer := s.buffer.drop size }, s.buffer.take size)

/-- `CurrentOutputSize`. -/
def currentOutputSize (s : WebSocketDeflater ζ) : ℕ := s.buffer.length

end Calls

/-! ### Deflating some bytes -/

section Deflating

variable (F : DeflateFormat δ) (V : DeflateView ζ) {Z : Zlib ζ} {s : WebSocketDeflater ζ}
  {nextIn : List UInt8}

/-- What the loop of `Deflate` keeps. -/
structure DeflatingPart (s : WebSocketDeflater ζ) (nextIn : List UInt8) (flush : ZFlush)
    (state : WebSocketDeflater ζ × List UInt8) : Prop where
  isStream : V.IsStream state.1.stream
  same : state.1.takesOverContext = s.takesOverContext ∧ state.1.areBytesAdded = s.areBytesAdded
  made : ∃ taken made, nextIn = taken ++ state.2 ∧ V.input state.1.stream = V.input s.stream ++ taken ∧
    V.output state.1.stream = V.output s.stream ++ made ∧ state.1.buffer = s.buffer ++ made ∧
      (flush = .syncFlush → V.flushed state.1.stream = V.flushed s.stream ++ made)

/-- What `Deflate` has done. -/
structure Deflated (s : WebSocketDeflater ζ) (nextIn : List UInt8) (flush : ZFlush)
    (last : DeflateEnd ζ) : Prop extends
    DeflatingPart V s nextIn flush (last.next, last.rest) where
  rest : last.rest = []
  result : last.result = .bufError
  flushed : flush = .noFlush → V.flushed last.next.stream = []
  sync : flush = .syncFlush → (∃ body, V.flushed last.next.stream = body ++ syncMark) ∧
    (F.receiver.feed F.start (V.output last.next.stream)).2 = V.input last.next.stream ∧
      F.IsAligned (F.receiver.feed F.start (V.output last.next.stream)).1

variable {F V}

section

variable (hZ : Deflates Z F V)

include hZ

theorem deflateRound_meets {flush : ZFlush} {state : WebSocketDeflater ζ × List UInt8}
    (h : DeflatingPart V s nextIn flush state) :
    (deflateRound Z flush state).Meets False
      (fun next ↦ DeflatingPart V s nextIn flush next ∧
        V.left next.1.stream next.2 flush < V.left state.1.stream state.2 flush)
      (Deflated F V s nextIn flush) := by
  have hpos : 0 < kFixedBufferSize := by decide
  obtain ⟨taken, made, hnextIn, hinput, houtput, hbuffer, hflushed⟩ := h.made
  have hpart : DeflatingPart V s nextIn flush
      ({ state.1 with
          stream := (Z.call state.1.stream state.2 kFixedBufferSize flush).stream
          buffer := state.1.buffer ++ (Z.call state.1.stream state.2 kFixedBufferSize flush).output },
        state.2.drop (Z.call state.1.stream state.2 kFixedBufferSize flush).taken) := by
    refine ⟨hZ.isStream _ _ _ _ h.isStream, h.same,
      taken ++ state.2.take (Z.call state.1.stream state.2 kFixedBufferSize flush).taken,
      made ++ (Z.call state.1.stream state.2 kFixedBufferSize flush).output, ?_, ?_, ?_, ?_,
      fun hsync ↦ ?_⟩
    · rw [List.append_assoc, List.take_append_drop]
      exact hnextIn
    · simp only [hZ.input _ _ _ _ h.isStream, hinput, List.append_assoc]
    · simp only [hZ.output _ _ _ _ h.isStream, houtput, List.append_assoc]
    · simp only [hbuffer, List.append_assoc]
    · subst hsync
      simp only [hZ.flushed_syncFlush _ _ _ h.isStream, hflushed rfl, List.append_assoc]
  unfold deflateRound
  by_cases hok : (Z.call state.1.stream state.2 kFixedBufferSize flush).result = .ok
  · rw [if_pos hok]
    exact ⟨hpart, hZ.progress _ _ _ _ h.isStream hpos hok⟩
  · rw [if_neg hok]
    obtain ⟨hresult, hnone, hempty⟩ :=
      (hZ.result state.1.stream state.2 kFixedBufferSize flush h.isStream hpos).resolve_left hok
    refine ⟨hpart, ?_, hresult, fun hno ↦ ?_, fun hsync ↦ ?_⟩
    · simp only [hempty, List.drop_nil]
    · subst hno
      exact hZ.flushed_noFlush _ _ _ h.isStream
    · subst hsync
      obtain ⟨hbody, hdecoded, haligned⟩ := hZ.sync _ _ _ h.isStream hpos hresult
      rw [hempty] at hbody hnone
      simp only [hZ.output _ _ _ _ h.isStream, hZ.input _ _ _ _ h.isStream, hnone, hempty,
        List.take_nil, List.append_nil]
      exact ⟨hbody, hdecoded, haligned⟩

/-- Assumes: a stream. From some bound on, `Deflate` ends, and comes to the same. -/
theorem deflate_spec (h : V.IsStream s.stream) (nextIn : List UInt8) (flush : ZFlush) :
    ∃ n last, (∀ rounds, n ≤ rounds → s.deflate Z rounds nextIn flush = some last) ∧
      Deflated F V s nextIn flush last := by
  have hstart : DeflatingPart V s nextIn flush (s, nextIn) :=
    ⟨h, ⟨rfl, rfl⟩, [], [], rfl, by simp, by simp, by simp, fun _ ↦ by simp⟩
  obtain ⟨last, hlast, hdeflated⟩ := (runLoop_meets
    (fun state : WebSocketDeflater ζ × List UInt8 ↦ V.left state.1.stream state.2 flush)
    (fun _ hstate ↦ deflateRound_meets hZ hstate) hstart (Nat.lt_succ_self _)).finished
  refine ⟨V.left s.stream nextIn flush + 1, last, fun rounds hrounds ↦ ?_, hdeflated⟩
  rw [deflate, runLoop_mono hlast hrounds]
  rfl

end

end Deflating

/-! ### A message -/

section Messages

variable (F : DeflateFormat δ) (V : DeflateView ζ)

/-- In the middle of a message. Its receiver was in some state when it began; of what was added of it
some bytes were given, and others are in the buffer or will come. -/
structure Compressing (s : WebSocketDeflater ζ) (d : δ) (payload given : List UInt8) : Prop where
  isStream : V.IsStream s.stream
  aligned : F.IsAligned d
  stream : ∃ before, V.output s.stream = before ++ (given ++ s.buffer) ∧
    V.input s.stream = (F.receiver.feed F.start before).2 ++ payload ∧
      F.StandsFor d (F.receiver.feed F.start before).1
  unbegun : s.areBytesAdded = false → payload = [] ∧ given = [] ∧ s.buffer = []
  begun : s.areBytesAdded = true → V.flushed s.stream = []

variable {F V} {Z : Zlib ζ} {s : WebSocketDeflater ζ} {d : δ} {payload given : List UInt8}

/-- Everything that can be given is given. -/
theorem Compressing.give (h : Compressing F V s d payload given) :
    Compressing F V { s with buffer := [] } d payload (given ++ s.buffer) := by
  obtain ⟨before, houtput, hinput, hstands⟩ := h.stream
  refine ⟨h.isStream, h.aligned, ⟨before, ?_, hinput, hstands⟩, fun hnone ↦ ?_, h.begun⟩
  · rw [List.append_nil]
    exact houtput
  · obtain ⟨hpayload, hgiven, hbuffer⟩ := h.unbegun hnone
    exact ⟨hpayload, by rw [hgiven, hbuffer]; rfl, rfl⟩

section

variable (hZ : Deflates Z F V) (hF : F.IsDeflate)

include hZ

/-- What was given is valid. -/
theorem Compressing.valid (hF : F.IsDeflate) (h : Compressing F V s d payload given) :
    ¬F.IsInvalid (F.receiver.feed d given).1 := by
  obtain ⟨before, houtput, -, hstands⟩ := h.stream
  have hvalid := hZ.valid s.stream h.isStream
  rw [houtput, Receiver.feed_append] at hvalid
  exact hstands.valid given (hF.valid_of_append hvalid)

theorem Compressing.addBytes_spec (h : Compressing F V s d payload given) (data : List UInt8) :
    ∃ n next, (∀ rounds, n ≤ rounds → s.addBytes Z rounds data = some (next, true)) ∧
      Compressing F V next d (payload ++ data) given := by
  unfold addBytes
  by_cases hdata : data = []
  · simp only [hdata, if_true, List.append_nil]
    exact ⟨0, s, fun _ _ ↦ rfl, h⟩
  · simp only [if_neg hdata]
    obtain ⟨n, last, hlast, hdeflated⟩ :=
      deflate_spec hZ (s := { s with areBytesAdded := true }) h.isStream data .noFlush
    obtain ⟨before, houtput, hinput, hstands⟩ := h.stream
    obtain ⟨taken, made, hnextIn, hinput', houtput', hbuffer, -⟩ := hdeflated.made
    refine ⟨n, last.next, fun rounds hrounds ↦ ?_, hdeflated.isStream, h.aligned,
      ⟨before, ?_, ?_, hstands⟩, fun hnone ↦ ?_, fun _ ↦ hdeflated.flushed rfl⟩
    · rw [hlast rounds hrounds, Option.bind_some, if_neg fun hstuck ↦ hstuck.2 hdeflated.rest]
      simp only [hdeflated.result, decide_true]
    · simp only at houtput' hbuffer
      rw [houtput', houtput, hbuffer]
      simp only [List.append_assoc]
    · simp only [hdeflated.rest, List.append_nil] at hnextIn hinput'
      rw [hinput', hinput, ← hnextIn, List.append_assoc]
    · have hsame := hdeflated.same.2
      simp only [hnone] at hsame
      cases hsame

/-- A stream that goes on, or is begun again, for a receiver at the end of a message. -/
theorem compressing_resetContext (hF : F.IsDeflate) (hstream : V.IsStream s.stream)
    (haligned : F.IsAligned d) (hbuffer : s.buffer = [])
    (hinput : V.input s.stream = (F.receiver.feed F.start (V.output s.stream)).2)
    (hstands : F.StandsFor d (F.receiver.feed F.start (V.output s.stream)).1) :
    Compressing F V (s.resetContext Z) d [] [] := by
  refine ⟨?_, haligned, ?_, fun _ ↦ ⟨rfl, rfl, hbuffer⟩, fun hadded ↦
    absurd hadded Bool.false_ne_true⟩
  · unfold resetContext
    by_cases htakes : s.takesOverContext = true
    · simp only [htakes, if_true]
      exact hstream
    · simp only [if_neg htakes]
      exact (hZ.reset _ hstream).1
  · have hempty : (s.resetContext Z).buffer = [] := hbuffer
    rw [hempty]
    unfold resetContext
    by_cases htakes : s.takesOverContext = true
    · simp only [htakes, if_true]
      exact ⟨V.output s.stream, by simp, by simp [hinput], hstands⟩
    · simp only [if_neg htakes]
      obtain ⟨-, hnone, hnothing⟩ := hZ.reset _ hstream
      exact ⟨[], by simp [hnothing], by simp [hnone], hF.start_stands d haligned⟩

/-- The end of a message. Its receiver reads what was given of it and is now in the buffer, with the
empty block that was cut off, as the message. -/
theorem Compressing.finish_spec (hF : F.IsDeflate) (h : Compressing F V s d payload given) :
    ∃ n next d', (∀ rounds, n ≤ rounds → s.finish Z rounds = some (next, true)) ∧
      F.receiver.feed d (given ++ next.buffer ++ syncMark) = (d', payload) ∧
        Compressing F V { next with buffer := [] } d' [] [] := by
  obtain ⟨before, houtput, hinput, hstands⟩ := h.stream
  unfold finish
  by_cases hadded : s.areBytesAdded = true
  · simp only [hadded, Bool.not_true, Bool.false_eq_true, if_false]
    obtain ⟨n, last, hlast, hdeflated⟩ := deflate_spec hZ h.isStream [] .syncFlush
    obtain ⟨taken, made, hnextIn, hinput', houtput', hbuffer, hflushed⟩ := hdeflated.made
    obtain ⟨⟨body, hbody⟩, hdecoded, haligned⟩ := hdeflated.sync rfl
    have htaken := (List.append_eq_nil_iff.mp hnextIn.symm).1
    have hmade := hflushed rfl
    simp only at hbuffer hinput' houtput' hmade
    rw [hmade, h.begun hadded, List.nil_append] at hbody
    rw [htaken, List.append_nil] at hinput'
    rw [houtput, hbody] at houtput'
    rw [hbody, ← List.append_assoc] at hbuffer
    -- what was put out of the message, with the block that is cut off
    have hall : V.output last.next.stream = before ++ (given ++ (s.buffer ++ body) ++ syncMark) := by
      rw [houtput']
      simp only [List.append_assoc]
    have hvalid := hZ.valid _ hdeflated.isStream
    have hbefore : ¬F.IsInvalid (F.receiver.feed (F.receiver.feed F.start before).1
        (given ++ (s.buffer ++ body) ++ syncMark)).1 := by
      rw [hall, Receiver.feed_append] at hvalid
      exact hvalid
    have hstate : (F.receiver.feed F.start (V.output last.next.stream)).1 =
        (F.receiver.feed (F.receiver.feed F.start before).1
          (given ++ (s.buffer ++ body) ++ syncMark)).1 := by
      rw [hall, Receiver.feed_append]
    have hlength : last.next.buffer.length = (s.buffer ++ body).length + 4 := by
      rw [hbuffer, List.length_append]
      rfl
    have hcut : last.next.buffer.take (last.next.buffer.length - 4) = s.buffer ++ body := by
      rw [hlength, Nat.add_sub_cancel, hbuffer, List.take_left]
    refine ⟨n, { last.next with buffer := s.buffer ++ body }.resetContext Z, _, fun rounds hrounds ↦ ?_,
      Prod.ext rfl ?_, ?_⟩
    · rw [hlast rounds hrounds, Option.map_some, if_neg fun hnot ↦ hnot hdeflated.result,
        if_neg (by omega), hcut]
    · change (F.receiver.feed d (given ++ (s.buffer ++ body) ++ syncMark)).2 = payload
      rw [hstands.tokens _ hbefore]
      rw [hall, Receiver.feed_append, hinput', hinput] at hdecoded
      exact List.append_cancel_left hdecoded
    · refine compressing_resetContext hZ hF (s := { last.next with buffer := [] }) hdeflated.isStream ?_ rfl
        hdecoded.symm ?_
      · apply hstands.aligned _ hbefore
        rwa [← hstate]
      · have hfollows := hstands.feed _ hbefore
        rwa [← hstate] at hfollows
  · have hnone : s.areBytesAdded = false := Bool.not_eq_true _ ▸ hadded
    obtain ⟨rfl, rfl, hbuffer⟩ := h.unbegun hnone
    simp only [hnone, Bool.not_false, if_true]
    refine ⟨0, _, d, fun _ _ ↦ rfl, ?_, ?_⟩
    · change F.receiver.feed d ([] ++ (s.buffer ++ [0x00]) ++ syncMark) = (d, [])
      rw [hbuffer]
      exact hF.empty_block d h.aligned
    · rw [hbuffer, List.append_nil, List.append_nil] at houtput
      rw [List.append_nil, ← houtput] at hinput
      rw [← houtput] at hstands
      exact compressing_resetContext hZ hF (s := { s with buffer := [] }) h.isStream h.aligned rfl hinput
        hstands

end

end Messages

end WebSocketDeflater

end Felicia
