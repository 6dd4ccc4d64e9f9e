import Felicia.Channel.InflaterBuffers
import Felicia.Channel.StoredBlocks
import Felicia.Support.Checked

/-!
# Inflating

`WebSocketInflater` of `third_party/chromium/net/websockets/websocket_inflater.cc`. Bytes that are
added are inflated into a ring of a fixed size; when it is full, what remains of them is kept,
compressed, in a queue, until there is room again.

Where a `DCHECK` or `CHECK` fails, the model stops. Whatever is added and taken out, that never
happens, the bytes that are taken out are those that were compressed, in order, and when the ring is
not full nothing is left to inflate (`Inflating`).
-/

set_option autoImplicit false
set_option relaxedAutoImplicit false

namespace Felicia

open Support

variable {δ ζ : Type}

/-- `WebSocketInflater`. -/
structure WebSocketInflater (ζ : Type) where
  stream : ζ
  /-- The bytes of `stream_->next_in`, `stream_->avail_in` of them. -/
  nextIn : List UInt8 := []
  inputQueue : InputQueue
  outputBuffer : OutputBuffer

namespace WebSocketInflater

section Calls

variable (Z : Zlib ζ)

/-- An inflater after `Initialize`. -/
def initialized (inputQueueCapacity outputBufferCapacity : ℕ) : WebSocketInflater ζ where
  stream := Z.init
  inputQueue := { capacity := inputQueueCapacity }
  outputBuffer := .make outputBufferCapacity

/-- A round of the loop of `Inflate`, with the last result. -/
def inflateRound (flush : ZFlush) (state : WebSocketInflater ζ × ZResult) :
    LoopRound (WebSocketInflater ζ × ZResult) (WebSocketInflater ζ × ZResult) :=
  let s := state.1
  match s.outputBuffer.getTail with
  | none => .failed
  | some room =>
    if room = 0 then .done state
    else
      let call := Z.call s.stream s.nextIn room flush
      match s.outputBuffer.fill call.output with
      | none => .failed
      | some outputBuffer =>
        let next : WebSocketInflater ζ :=
          { s with stream := call.stream, nextIn := s.nextIn.drop call.taken, outputBuffer := outputBuffer }
        -- a block that is the last of a stream: the decompression begins again
        if call.result = .streamEnd then .again ({ next with stream := Z.reset call.stream }, .ok)
        else if call.output = [] then .done (next, call.result)
        else if call.result.isFine then .again (next, call.result)
        else .done (next, call.result)

/-- `Inflate`. -/
def inflate (s : WebSocketInflater ζ) (data : List UInt8) (flush : ZFlush) :
    Option (WebSocketInflater ζ × ZResult) :=
  (runLoop (inflateRound Z flush) (data.length + s.outputBuffer.capacity + 2)
    ({ s with nextIn := data }, .bufError)).result?

/-- `InflateWithFlush`. -/
def inflateWithFlush (s : WebSocketInflater ζ) (data : List UInt8) :
    Option (WebSocketInflater ζ × ZResult) :=
  (s.inflate Z data .noFlush).bind fun inflated ↦
    if !inflated.2.isFine || 0 < inflated.1.outputBuffer.size then some inflated
    else inflated.1.inflate Z inflated.1.nextIn .syncFlush

/-- `AddBytes`. -/
def addBytes (s : WebSocketInflater ζ) (data : List UInt8) : Option (WebSocketInflater ζ × Bool) :=
  if data = [] then some (s, true)
  else if !s.inputQueue.isEmpty then
    (s.inputQueue.push data).map fun inputQueue ↦ ({ s with inputQueue := inputQueue }, true)
  else
    (s.inflateWithFlush Z data).bind fun inflated ↦
      (inflated.1.inputQueue.push (data.drop (data.length - inflated.1.nextIn.length))).map
        fun inputQueue ↦ ({ inflated.1 with inputQueue := inputQueue }, inflated.2.isFine)

/-- `Finish`. -/
def finish (s : WebSocketInflater ζ) : Option (WebSocketInflater ζ × Bool) := s.addBytes Z syncMark

/-- A round of the loop of `InflateChokedInput`, with the last result. -/
def chokedRound (state : WebSocketInflater ζ × ZResult) :
    LoopRound (WebSocketInflater ζ × ZResult) (WebSocketInflater ζ × ZResult) :=
  if state.1.inputQueue.isEmpty then .done state
  else
    match state.1.inputQueue.top with
    | none => .failed
    | some top =>
      match state.1.inflateWithFlush Z top with
      | none => .failed
      | some (s, result) =>
        match s.inputQueue.consume (top.length - s.nextIn.length) with
        | none => .failed
        | some inputQueue =>
          if !result.isFine || !s.nextIn.isEmpty then
            .done ({ s with inputQueue := inputQueue }, result)
          else .again ({ s with inputQueue := inputQueue }, result)

/-- `InflateChokedInput`. -/
def inflateChokedInput (s : WebSocketInflater ζ) : Option (WebSocketInflater ζ × ZResult) :=
  if s.inputQueue.isEmpty then s.inflateWithFlush Z []
  else
    (runLoop (chokedRound Z) (s.inputQueue.buffers.length + 1) (s, .bufError)).result?

/-- A round of the loop of `GetOutput`, with the bytes that were copied. -/
def outputRound (size : ℕ) (state : WebSocketInflater ζ × List UInt8) :
    LoopRound (WebSocketInflater ζ × List UInt8) (WebSocketInflater ζ × Option (List UInt8)) :=
  if state.2.length < size ∧ 0 < state.1.outputBuffer.size then
    match state.1.outputBuffer.read (min state.1.outputBuffer.size (size - state.2.length)) with
    | none => .failed
    | some (bytes, outputBuffer) =>
      match { state.1 with outputBuffer := outputBuffer }.inflateChokedInput Z with
      | none => .failed
      | some (s, result) =>
        if result.isFine then .again (s, state.2 ++ bytes) else .done (s, none)
  else if state.2.length ≤ size then .done (state.1, some state.2)
  -- what `Shrink` checks
  else .failed

/-- `GetOutput`: the bytes, or null after an error. -/
def getOutput (s : WebSocketInflater ζ) (size : ℕ) :
    Option (WebSocketInflater ζ × Option (List UInt8)) :=
  (runLoop (outputRound Z size) (size + 1) (s, [])).result?

/-- `CurrentOutputSize`. -/
def currentOutputSize (s : WebSocketInflater ζ) : ℕ := s.outputBuffer.size

end Calls

/-! ### Inflating some bytes -/

section Inflating

variable (Z : Zlib ζ) (F : DeflateFormat δ) (V : InflateView δ ζ)

/-- What `Inflate` has done. -/
structure Inflated (s : WebSocketInflater ζ) (data : List UInt8) (next : WebSocketInflater ζ)
    (result : ZResult) : Prop where
  ring : next.outputBuffer.IsRing
  capacity : next.outputBuffer.capacity = s.outputBuffer.capacity
  queue : next.inputQueue = s.inputQueue
  nextIn : ∃ taken, data = taken ++ next.nextIn
  moves : result.isFine = true → ∃ taken made, data = taken ++ next.nextIn ∧
    next.outputBuffer.contents = s.outputBuffer.contents ++ made ∧
      F.receiver.Moves (V.holding s.stream) taken made (V.holding next.stream)
  /-- If there is room left, then nothing is. -/
  settled : result.isFine = true → next.outputBuffer.size < next.outputBuffer.capacity →
    next.nextIn = [] ∧ (V.holding next.stream).held = [] ∧
      ¬F.IsInvalid (V.holding next.stream).state
  fails : result.isFine = false → F.IsInvalid (F.receiver.feed (V.holding s.stream).state data).1

/-- What the loop of `Inflate` keeps. -/
structure InflatingPart (s : WebSocketInflater ζ) (data : List UInt8)
    (state : WebSocketInflater ζ × ZResult) : Prop where
  ring : state.1.outputBuffer.IsRing
  capacity : state.1.outputBuffer.capacity = s.outputBuffer.capacity
  queue : state.1.inputQueue = s.inputQueue
  fine : state.2.isFine = true
  moves : ∃ taken made, data = taken ++ state.1.nextIn ∧
    state.1.outputBuffer.contents = s.outputBuffer.contents ++ made ∧
      F.receiver.Moves (V.holding s.stream) taken made (V.holding state.1.stream)

/-- How much the loop of `Inflate` may still do. -/
def inflateMeasure (state : WebSocketInflater ζ × ZResult) : ℕ :=
  state.1.nextIn.length + (if V.hasEnded state.1.stream then 1 else 0) +
    (state.1.outputBuffer.capacity - state.1.outputBuffer.size)

variable {Z F V} {s : WebSocketInflater ζ} {data : List UInt8}

/-- The bytes are invalid if what is left of them is. -/
theorem InflatingPart.fails {state : WebSocketInflater ζ × ZResult} (h : InflatingPart F V s data state)
    (hinvalid : F.IsInvalid (F.receiver.feed (V.holding state.1.stream).state state.1.nextIn).1) :
    F.IsInvalid (F.receiver.feed (V.holding s.stream).state data).1 := by
  obtain ⟨taken, made, hdata, -, hmoves⟩ := h.moves
  rw [hdata, Receiver.feed_append, hmoves.state]
  exact hinvalid

/-- What a call of `inflate` took and made is added to what was taken and made before. -/
theorem InflatingPart.moves_call (hZ : Inflates Z F V) {state : WebSocketInflater ζ × ZResult}
    (h : InflatingPart F V s data state) (room : ℕ) (flush : ZFlush)
    (hresult : (Z.call state.1.stream state.1.nextIn room flush).result ≠ .error)
    {outputBuffer : OutputBuffer} (hcontents : outputBuffer.contents =
      state.1.outputBuffer.contents ++ (Z.call state.1.stream state.1.nextIn room flush).output) :
    ∃ taken made, data = taken ++
        state.1.nextIn.drop (Z.call state.1.stream state.1.nextIn room flush).taken ∧
      outputBuffer.contents = s.outputBuffer.contents ++ made ∧
        F.receiver.Moves (V.holding s.stream) taken made
          (V.holding (Z.call state.1.stream state.1.nextIn room flush).stream) := by
  obtain ⟨taken, made, hdata, hmade, hmoves⟩ := h.moves
  refine ⟨_, _, ?_, ?_, hmoves.trans (hZ.moves _ _ room flush hresult)⟩
  · rw [List.append_assoc, List.take_append_drop]
    exact hdata
  · rw [hcontents, hmade, List.append_assoc]

section

variable (hZ : Inflates Z F V)

include hZ

theorem inflateRound_meets (flush : ZFlush) {state : WebSocketInflater ζ × ZResult}
    (h : InflatingPart F V s data state) :
    (inflateRound Z flush state).Meets False
      (fun next ↦ InflatingPart F V s data next ∧ inflateMeasure V next < inflateMeasure V state)
      (fun last ↦ Inflated F V s data last.1 last.2) := by
  obtain ⟨room, hroom, hle, hend, hfull⟩ := h.ring.getTail_spec
  unfold inflateRound
  simp only [hroom]
  by_cases hnone : room = 0
  · obtain ⟨taken, made, hdata, hmade, hmoves⟩ := h.moves
    rw [if_pos hnone]
    refine ⟨h.ring, h.capacity, h.queue, ⟨taken, hdata⟩, fun _ ↦ h.moves, fun _ hless ↦ ?_,
      fun hbad ↦ ?_⟩
    · have hsize := hfull hnone
      omega
    · rw [h.fine] at hbad
      cases hbad
  · rw [if_neg hnone]
    have houtput := hZ.output_le state.1.stream state.1.nextIn room flush
    have htaken := hZ.taken_le state.1.stream state.1.nextIn room flush
    obtain ⟨outputBuffer, hfill, hring, hcapacity, hsize, hcontents⟩ := h.ring.fill_spec
      (show state.1.outputBuffer.size + (Z.call state.1.stream state.1.nextIn room flush).output.length ≤
        state.1.outputBuffer.capacity by omega) (by omega)
    simp only [hfill]
    have hnextIn : ∃ taken, data = taken ++
        state.1.nextIn.drop (Z.call state.1.stream state.1.nextIn room flush).taken := by
      obtain ⟨taken, made, hdata, -, -⟩ := h.moves
      exact ⟨taken ++ state.1.nextIn.take _, by
        rw [List.append_assoc, List.take_append_drop]; exact hdata⟩
    have hfails : (Z.call state.1.stream state.1.nextIn room flush).result ≠ .streamEnd →
        (Z.call state.1.stream state.1.nextIn room flush).result.isFine = false →
          F.IsInvalid (F.receiver.feed (V.holding s.stream).state data).1 := by
      intro hnot hbad
      apply h.fails
      apply hZ.fails _ _ room flush
      cases hresult : (Z.call state.1.stream state.1.nextIn room flush).result with
      | ok => rw [hresult] at hbad; cases hbad
      | streamEnd => exact absurd hresult hnot
      | bufError => rw [hresult] at hbad; cases hbad
      | error => rfl
    have hlength : (state.1.nextIn.drop
        (Z.call state.1.stream state.1.nextIn room flush).taken).length =
          state.1.nextIn.length - (Z.call state.1.stream state.1.nextIn room flush).taken :=
      List.length_drop
    by_cases hstop : (Z.call state.1.stream state.1.nextIn room flush).result = .streamEnd
    · rw [if_pos hstop]
      obtain ⟨hstart, hprogress⟩ := hZ.ends _ _ room flush hstop
      obtain ⟨hreset, hbegun⟩ := hZ.reset (Z.call state.1.stream state.1.nextIn room flush).stream
      refine ⟨⟨hring, hcapacity.trans h.capacity, h.queue, rfl, ?_⟩, ?_⟩
      · simp only [hreset, ← hstart]
        exact h.moves_call hZ room flush (by rw [hstop]; exact ZResult.noConfusion) hcontents
      · simp only [inflateMeasure, hbegun, hsize, hcapacity, hlength]
        rcases hprogress with hended | htook
        · rw [if_pos hended]
          simp only [Bool.false_eq_true, if_false]
          omega
        · simp only [Bool.false_eq_true, if_false]
          omega
    · rw [if_neg hstop]
      have hmoves : (Z.call state.1.stream state.1.nextIn room flush).result.isFine = true →
          ∃ taken made, data = taken ++
              state.1.nextIn.drop (Z.call state.1.stream state.1.nextIn room flush).taken ∧
            outputBuffer.contents = s.outputBuffer.contents ++ made ∧
              F.receiver.Moves (V.holding s.stream) taken made
                (V.holding (Z.call state.1.stream state.1.nextIn room flush).stream) := by
        intro hfine
        refine h.moves_call hZ room flush (fun herror ↦ ?_) hcontents
        rw [herror] at hfine
        cases hfine
      by_cases hstuck : (Z.call state.1.stream state.1.nextIn room flush).output = []
      · rw [if_pos hstuck]
        refine ⟨hring, hcapacity.trans h.capacity, h.queue, hnextIn, hmoves, fun hfine _ ↦ ?_,
          hfails hstop⟩
        obtain ⟨hall, hheld, hvalid⟩ := hZ.complete _ _ room flush hfine
          (by rw [hstuck]; exact Nat.pos_of_ne_zero hnone)
        exact ⟨List.drop_eq_nil_of_le hall.ge, hheld, hvalid⟩
      · rw [if_neg hstuck]
        have hpos := List.length_pos_iff.mpr hstuck
        by_cases hfine : (Z.call state.1.stream state.1.nextIn room flush).result.isFine = true
        · rw [if_pos hfine]
          refine ⟨⟨hring, hcapacity.trans h.capacity, h.queue, hfine, hmoves hfine⟩, ?_⟩
          have hended := hZ.hasEnded state.1.stream state.1.nextIn room flush
          simp only [inflateMeasure, hsize, hcapacity, hlength]
          split_ifs with hnow hbefore hbefore
          · omega
          · have htook := (hended hnow).resolve_left hbefore
            omega
          · omega
          · omega
        · rw [if_neg hfine]
          exact ⟨hring, hcapacity.trans h.capacity, h.queue, hnextIn,
            fun hgood ↦ absurd hgood hfine, fun hgood _ ↦ absurd hgood hfine, hfails hstop⟩

/-- Assumes: the positions of the ring. -/
theorem inflate_spec (h : s.outputBuffer.IsRing) (data : List UInt8) (flush : ZFlush) :
    ∃ next result, s.inflate Z data flush = some (next, result) ∧ Inflated F V s data next result := by
  have hstart : InflatingPart F V s data ({ s with nextIn := data }, .bufError) :=
    ⟨h, rfl, rfl, rfl, [], [], rfl, (List.append_nil _).symm, .refl _⟩
  have hmeasure : inflateMeasure V ({ s with nextIn := data }, .bufError) <
      data.length + s.outputBuffer.capacity + 2 := by
    simp only [inflateMeasure]
    split_ifs <;> omega
  obtain ⟨last, hlast, hinflated⟩ := (runLoop_meets (inflateMeasure V)
    (fun _ hstate ↦ inflateRound_meets hZ flush hstate) hstart hmeasure).finished
  exact ⟨last.1, last.2, by rw [inflate, hlast]; rfl, hinflated⟩

/-- Assumes: the positions of the ring. The second call, which flushes, goes on where the first
stopped. -/
theorem inflateWithFlush_spec (h : s.outputBuffer.IsRing) (data : List UInt8) :
    ∃ next result, s.inflateWithFlush Z data = some (next, result) ∧
      Inflated F V s data next result := by
  obtain ⟨first, result, hfirst, hinflated⟩ := inflate_spec hZ h data .noFlush
  unfold inflateWithFlush
  rw [hfirst, Option.bind_some]
  by_cases hstop : (!result.isFine || decide (0 < first.outputBuffer.size)) = true
  · rw [if_pos hstop]
    exact ⟨first, result, rfl, hinflated⟩
  · rw [if_neg hstop]
    have hfine : result.isFine = true := by
      by_contra hbad
      simp [hbad] at hstop
    obtain ⟨taken, made, hdata, hmade, hmoves⟩ := hinflated.moves hfine
    obtain ⟨next, result', hnext, hinflated'⟩ := inflate_spec hZ hinflated.ring first.nextIn .syncFlush
    refine ⟨next, result', hnext, hinflated'.ring, hinflated'.capacity.trans hinflated.capacity,
      hinflated'.queue.trans hinflated.queue, ?_, fun hgood ↦ ?_, hinflated'.settled, fun hbad ↦ ?_⟩
    · obtain ⟨taken', hnextIn⟩ := hinflated'.nextIn
      exact ⟨taken ++ taken', by rw [List.append_assoc, ← hnextIn, ← hdata]⟩
    · obtain ⟨taken', made', hnextIn, hmade', hmoves'⟩ := hinflated'.moves hgood
      exact ⟨taken ++ taken', made ++ made', by rw [List.append_assoc, ← hnextIn, ← hdata],
        by rw [hmade', hmade, List.append_assoc], hmoves.trans hmoves'⟩
    · have hinvalid := hinflated'.fails hbad
      rwa [hdata, Receiver.feed_append, hmoves.state]

end

end Inflating

/-! ### What an inflater keeps -/

section Kept

variable (F : DeflateFormat δ) (V : InflateView δ ζ) (capacity : ℕ)

/-- Of the bytes that were added, some wait in the queue. What the others are inflated to was given,
or is in the ring, or held by the stream. -/
structure Holds (s : WebSocketInflater ζ) (added given : List UInt8) : Prop where
  ring : s.outputBuffer.IsRing
  capacity_eq : s.outputBuffer.capacity = capacity
  queue : s.inputQueue.IsQueue
  moves : ∃ taken, added = taken ++ s.inputQueue.contents ∧
    F.receiver.Moves ⟨F.start, []⟩ taken (given ++ s.outputBuffer.contents) (V.holding s.stream)

/-- There is nothing left to inflate, unless the ring is full. -/
structure Inflating (s : WebSocketInflater ζ) (added given : List UInt8) : Prop
    extends Holds F V capacity s added given where
  settled : s.currentOutputSize < capacity → s.inputQueue.buffers = [] ∧
    (V.holding s.stream).held = [] ∧ ¬F.IsInvalid (V.holding s.stream).state

variable {F V capacity} {Z : Zlib ζ} {s : WebSocketInflater ζ} {added given : List UInt8}

/-- What was given and is in the ring is a beginning of what was added. -/
theorem Holds.isBeginning (h : Holds F V capacity s added given) :
    given ++ s.outputBuffer.contents <+: (F.receiver.feed F.start added).2 := by
  obtain ⟨taken, hadded, hmoves⟩ := h.moves
  have htokens := hmoves.tokens
  rw [List.nil_append] at htokens
  rw [hadded, Receiver.feed_append]
  exact ⟨(V.holding s.stream).held ++ _, by rw [← List.append_assoc, ← htokens]⟩

/-- Assumes: room in the ring. Everything that was added was inflated. -/
theorem Inflating.all (h : Inflating F V capacity s added given)
    (hroom : s.currentOutputSize < capacity) :
    F.receiver.feed F.start added =
        ((V.holding s.stream).state, given ++ s.outputBuffer.contents) ∧
      ¬F.IsInvalid (F.receiver.feed F.start added).1 := by
  obtain ⟨hqueue, hheld, hvalid⟩ := h.settled hroom
  obtain ⟨taken, hadded, hmoves⟩ := h.moves
  have htokens := hmoves.tokens
  rw [InputQueue.contents_of_nil hqueue, List.append_nil] at hadded
  rw [List.nil_append, hheld, List.append_nil] at htokens
  subst hadded
  have hfeed : F.receiver.feed F.start added =
      ((V.holding s.stream).state, given ++ s.outputBuffer.contents) :=
    Prod.ext hmoves.state htokens
  rw [hfeed]
  exact ⟨rfl, hvalid⟩

theorem inflating_initialized (hZ : Inflates Z F V) (hF : F.IsDeflate) {inputQueueCapacity : ℕ}
    (hqueue : 0 < inputQueueCapacity) (capacity : ℕ) :
    Inflating F V capacity (initialized Z inputQueueCapacity capacity) [] [] where
  ring := OutputBuffer.isRing_make capacity
  capacity_eq := rfl
  queue := InputQueue.isQueue_empty hqueue
  moves := ⟨[], rfl, by
    rw [initialized, OutputBuffer.contents_make, hZ.holding_init]
    exact .refl _⟩
  settled _ := by
    rw [initialized, hZ.holding_init]
    exact ⟨rfl, rfl, hF.valid_of_aligned _ hF.aligned_start⟩

section

variable (hZ : Inflates Z F V)

include hZ

/-- Bytes that are added are inflated or wait, unless they are invalid. -/
theorem Inflating.addBytes_spec (h : Inflating F V capacity s added given) (data : List UInt8) :
    ∃ next fine, s.addBytes Z data = some (next, fine) ∧
      (fine = true → Inflating F V capacity next (added ++ data) given) ∧
        (fine = false → F.IsInvalid (F.receiver.feed F.start (added ++ data)).1) := by
  obtain ⟨taken, hadded, hmoves⟩ := h.moves
  unfold addBytes
  by_cases hdata : data = []
  · rw [if_pos hdata, hdata, List.append_nil]
    exact ⟨s, true, rfl, fun _ ↦ h, fun hbad ↦ absurd hbad.symm Bool.false_ne_true⟩
  · rw [if_neg hdata]
    by_cases hempty : s.inputQueue.buffers = []
    · rw [if_neg (by simp [InputQueue.isEmpty, hempty])]
      obtain ⟨next, result, hnext, hinflated⟩ := inflateWithFlush_spec hZ h.ring data
      rw [hnext, Option.bind_some]
      rw [InputQueue.contents_of_nil hempty, List.append_nil] at hadded
      have hqueue := h.queue
      rw [← hinflated.queue] at hqueue hempty
      have hrest : data.drop (data.length - next.nextIn.length) = next.nextIn := by
        obtain ⟨taken', hdata'⟩ := hinflated.nextIn
        rw [hdata', List.length_append, Nat.add_sub_cancel, List.drop_left]
      simp only [hrest]
      obtain ⟨inputQueue, hpush, hpushed, -, hcontents⟩ := hqueue.push_spec next.nextIn
      rw [InputQueue.contents_of_nil hempty, List.nil_append] at hcontents
      rw [hpush]
      refine ⟨_, _, rfl, fun hfine ↦ ?_, fun hbad ↦ ?_⟩
      · obtain ⟨taken', made, hdata', hmade, hmoves'⟩ := hinflated.moves hfine
        refine ⟨⟨hinflated.ring, hinflated.capacity.trans h.capacity_eq, hpushed,
          taken ++ taken', ?_, ?_⟩, fun hroom ↦ ?_⟩
        · rw [hcontents, hadded, List.append_assoc, ← hdata']
        · simp only [hmade]
          rw [← List.append_assoc]
          exact hmoves.trans hmoves'
        · obtain ⟨hnextIn, hheld, hvalid⟩ := hinflated.settled hfine
            (by rw [hinflated.capacity, h.capacity_eq]; exact hroom)
          exact ⟨hpushed.contents_eq_nil_iff.mp (hcontents.trans hnextIn), hheld, hvalid⟩
      · have hinvalid := hinflated.fails hbad
        rwa [hadded, Receiver.feed_append, hmoves.state]
    · rw [if_pos (by simp [InputQueue.isEmpty, hempty])]
      obtain ⟨inputQueue, hpush, hpushed, -, hcontents⟩ := h.queue.push_spec data
      rw [hpush]
      refine ⟨_, true, rfl, fun _ ↦ ⟨⟨h.ring, h.capacity_eq, hpushed, taken, ?_, hmoves⟩,
        fun hroom ↦ absurd (h.settled hroom).1 hempty⟩,
        fun hbad ↦ absurd hbad.symm Bool.false_ne_true⟩
      simp only
      rw [hcontents, hadded, List.append_assoc]

/-- What the loop of `InflateChokedInput` keeps. -/
structure Choked (F : DeflateFormat δ) (V : InflateView δ ζ) (capacity : ℕ)
    (added given : List UInt8) (state : WebSocketInflater ζ × ZResult) : Prop where
  holds : Holds F V capacity state.1 added given
  fine : state.2.isFine = true
  settled : state.1.inputQueue.buffers = [] → state.1.currentOutputSize < capacity →
    (V.holding state.1.stream).held = [] ∧ ¬F.IsInvalid (V.holding state.1.stream).state

/-- What `InflateChokedInput` comes to. -/
def Unchoked (F : DeflateFormat δ) (V : InflateView δ ζ) (capacity : ℕ) (added given : List UInt8)
    (last : WebSocketInflater ζ × ZResult) : Prop :=
  (last.2.isFine = true → Inflating F V capacity last.1 added given) ∧
    (last.2.isFine = false → F.IsInvalid (F.receiver.feed F.start added).1)

theorem chokedRound_meets (hF : F.IsDeflate) {state : WebSocketInflater ζ × ZResult}
    (h : Choked F V capacity added given state) :
    (chokedRound Z state).Meets False
      (fun next ↦ Choked F V capacity added given next ∧
        next.1.inputQueue.buffers.length < state.1.inputQueue.buffers.length)
      (Unchoked F V capacity added given) := by
  unfold chokedRound
  by_cases hempty : state.1.inputQueue.buffers = []
  · rw [if_pos (by simp [InputQueue.isEmpty, hempty])]
    refine ⟨fun _ ↦ ⟨h.holds, fun hroom ↦ ⟨hempty, h.settled hempty hroom⟩⟩, fun hbad ↦ ?_⟩
    rw [h.fine] at hbad
    cases hbad
  · rw [if_neg (by simp [InputQueue.isEmpty, hempty])]
    obtain ⟨top, htop, -, ⟨more, hmore⟩, hconsume⟩ := h.holds.queue.consume_spec hempty
    obtain ⟨taken, hadded, hmoves⟩ := h.holds.moves
    obtain ⟨next, result, hnext, hinflated⟩ := inflateWithFlush_spec hZ h.holds.ring top
    obtain ⟨taken', htaken'⟩ := hinflated.nextIn
    have hsize : top.length - next.nextIn.length = taken'.length := by
      rw [htaken', List.length_append, Nat.add_sub_cancel]
    obtain ⟨inputQueue, hconsumed, hqueue, -, hcontents, hshorter⟩ := hconsume
      (top.length - next.nextIn.length) (Nat.sub_le _ _)
    rw [htop]
    simp only [hnext, hinflated.queue, hconsumed]
    have hleft : inputQueue.contents = next.nextIn ++ more := by
      rw [hcontents, hsize, hmore, htaken', List.append_assoc, List.drop_left]
    have hholds : result.isFine = true →
        Holds F V capacity { next with inputQueue := inputQueue } added given := by
      intro hfine
      obtain ⟨taken', made, hdata, hmade, hmoves'⟩ := hinflated.moves hfine
      refine ⟨hinflated.ring, hinflated.capacity.trans h.holds.capacity_eq, hqueue, taken ++ taken', ?_, ?_⟩
      · rw [hadded, hmore, hdata, hleft]
        simp only [List.append_assoc]
      · simp only [hmade]
        rw [← List.append_assoc]
        exact hmoves.trans hmoves'
    have hsettled : result.isFine = true → next.currentOutputSize < capacity →
        next.nextIn = [] ∧ (V.holding next.stream).held = [] ∧
          ¬F.IsInvalid (V.holding next.stream).state := fun hfine hroom ↦
      hinflated.settled hfine (by rw [hinflated.capacity, h.holds.capacity_eq]; exact hroom)
    have hfails : result.isFine = false → F.IsInvalid (F.receiver.feed F.start added).1 := by
      intro hbad
      have hinvalid := hF.invalid_feed (hinflated.fails hbad) more
      rwa [hadded, hmore, Receiver.feed_append, hmoves.state, Receiver.feed_append]
    by_cases hstop : (!result.isFine || !next.nextIn.isEmpty) = true
    · rw [if_pos hstop]
      refine ⟨fun hfine ↦ ⟨hholds hfine, fun hroom ↦ ?_⟩, hfails⟩
      have hnextIn := (hsettled hfine hroom).1
      rw [hnextIn, hfine] at hstop
      cases hstop
    · rw [if_neg hstop]
      have hgood : result.isFine = true ∧ next.nextIn = [] := by
        simpa using hstop
      refine ⟨⟨hholds hgood.1, hgood.1, fun _ hroom ↦ (hsettled hgood.1 hroom).2⟩, hshorter ?_⟩
      rw [hgood.2]
      rfl

/-- Assumes: some bytes are held, in the queue or by the stream, though there may be room in the ring.
The ring is filled, unless what was added is invalid. -/
theorem Holds.inflateChokedInput_spec (hF : F.IsDeflate) (h : Holds F V capacity s added given) :
    ∃ last, s.inflateChokedInput Z = some last ∧ Unchoked F V capacity added given last := by
  unfold inflateChokedInput
  by_cases hempty : s.inputQueue.buffers = []
  · rw [if_pos (by simp [InputQueue.isEmpty, hempty])]
    obtain ⟨taken, hadded, hmoves⟩ := h.moves
    rw [InputQueue.contents_of_nil hempty, List.append_nil] at hadded
    obtain ⟨next, result, hnext, hinflated⟩ := inflateWithFlush_spec hZ h.ring []
    refine ⟨_, hnext, fun hfine ↦ ?_, fun hbad ↦ ?_⟩
    · obtain ⟨taken', made, hdata, hmade, hmoves'⟩ := hinflated.moves hfine
      have hnone := (List.append_eq_nil_iff.mp hdata.symm).1
      have hsame : next.inputQueue.buffers = [] := by rw [hinflated.queue, hempty]
      refine ⟨⟨hinflated.ring, hinflated.capacity.trans h.capacity_eq, hinflated.queue ▸ h.queue,
        taken ++ taken', ?_, ?_⟩, fun hroom ↦ ⟨hsame, ?_⟩⟩
      · rw [InputQueue.contents_of_nil hsame, List.append_nil, hnone, List.append_nil, hadded]
      · rw [hmade, ← List.append_assoc]
        exact hmoves.trans hmoves'
      · exact (hinflated.settled hfine (by rw [hinflated.capacity, h.capacity_eq]; exact hroom)).2
    · have hinvalid := hinflated.fails hbad
      rw [hadded, hmoves.state]
      exact hinvalid
  · rw [if_neg (by simp [InputQueue.isEmpty, hempty])]
    obtain ⟨last, hlast, hunchoked⟩ := (runLoop_meets
      (fun state : WebSocketInflater ζ × ZResult ↦ state.1.inputQueue.buffers.length)
      (fun _ hstate ↦ chokedRound_meets hZ hF hstate)
      (⟨h, rfl, fun hnone ↦ absurd hnone hempty⟩ : Choked F V capacity added given (s, .bufError))
      (Nat.lt_succ_self s.inputQueue.buffers.length)).finished
    exact ⟨last, by rw [hlast]; rfl, hunchoked⟩

/-- What `GetOutput` comes to. -/
structure Output (F : DeflateFormat δ) (V : InflateView δ ζ) (capacity size : ℕ)
    (s : WebSocketInflater ζ) (added given : List UInt8)
    (last : WebSocketInflater ζ × Option (List UInt8)) : Prop where
  some : ∀ bytes, last.2 = some bytes → Inflating F V capacity last.1 added (given ++ bytes) ∧
    bytes.length ≤ size ∧ (0 < size → 0 < s.currentOutputSize → bytes ≠ []) ∧
      (bytes.length < size → last.1.currentOutputSize = 0)
  begun : ∀ bytes, last.2 = Option.some bytes → bytes = [] → last.1 = s
  none : last.2 = none → F.IsInvalid (F.receiver.feed F.start added).1

/-- What the loop of `GetOutput` keeps. -/
structure Outputting (F : DeflateFormat δ) (V : InflateView δ ζ) (capacity size : ℕ)
    (s : WebSocketInflater ζ) (added given : List UInt8)
    (state : WebSocketInflater ζ × List UInt8) : Prop where
  inflating : Inflating F V capacity state.1 added (given ++ state.2)
  copied : state.2.length ≤ size
  begun : state.2 = [] → state.1 = s

theorem outputRound_meets (hF : F.IsDeflate) {size : ℕ} {state : WebSocketInflater ζ × List UInt8}
    (h : Outputting F V capacity size s added given state) :
    (outputRound Z size state).Meets False
      (fun next ↦ Outputting F V capacity size s added given next ∧
        size - next.2.length < size - state.2.length)
      (Output F V capacity size s added given) := by
  have hcopied := h.copied
  unfold outputRound
  by_cases hmore : state.2.length < size ∧ 0 < state.1.outputBuffer.size
  · rw [if_pos hmore]
    obtain ⟨outputBuffer, hread, hring, hcapacity, -, hcontents⟩ := h.inflating.ring.read_spec
      (Nat.min_le_left state.1.outputBuffer.size (size - state.2.length))
    have hlength : (state.1.outputBuffer.contents.take
        (min state.1.outputBuffer.size (size - state.2.length))).length =
          min state.1.outputBuffer.size (size - state.2.length) := by
      rw [List.length_take, h.inflating.ring.length_contents]
      omega
    obtain ⟨taken, hadded, hmoves⟩ := h.inflating.moves
    have hholds : Holds F V capacity { state.1 with outputBuffer := outputBuffer } added
        (given ++ (state.2 ++ state.1.outputBuffer.contents.take
          (min state.1.outputBuffer.size (size - state.2.length)))) := by
      refine ⟨hring, hcapacity.trans h.inflating.capacity_eq, h.inflating.queue, taken, hadded, ?_⟩
      simp only [hcontents]
      rw [List.append_assoc, List.append_assoc, List.take_append_drop, ← List.append_assoc]
      exact hmoves
    obtain ⟨⟨next, result⟩, hnext, hgood, hbad⟩ := hholds.inflateChokedInput_spec hZ hF
    simp only [hread, hnext]
    by_cases hfine : result.isFine = true
    · rw [if_pos hfine]
      refine ⟨⟨hgood hfine, ?_, fun hnone ↦ ?_⟩, ?_⟩
      · rw [List.length_append, hlength]
        omega
      · have hnil := (List.append_eq_nil_iff.mp hnone).2
        rw [hnil] at hlength
        simp only [List.length_nil] at hlength
        omega
      · rw [List.length_append, hlength]
        omega
    · rw [if_neg hfine]
      exact ⟨fun bytes hbytes ↦ absurd hbytes.symm (Option.some_ne_none bytes),
        fun bytes hbytes ↦ absurd hbytes.symm (Option.some_ne_none bytes),
        fun _ ↦ hbad (Bool.not_eq_true _ ▸ hfine)⟩
  · rw [if_neg hmore, if_pos hcopied]
    refine ⟨fun bytes hbytes ↦ ?_, fun bytes hbytes hnone ↦ h.begun
      ((Option.some.inj hbytes).trans hnone), fun hnone ↦ absurd hnone (Option.some_ne_none _)⟩
    rw [← Option.some.inj hbytes]
    refine ⟨h.inflating, hcopied, fun hsize hfull hnone ↦ ?_, fun hless ↦ ?_⟩
    · rw [h.begun hnone, hnone] at hmore
      exact hmore ⟨hsize, hfull⟩
    · simp only [currentOutputSize]
      omega

/-- Bytes that were inflated are given, and there is room for others, unless what was added is
invalid. -/
theorem Inflating.getOutput_spec (hF : F.IsDeflate) (h : Inflating F V capacity s added given)
    (size : ℕ) :
    ∃ last, s.getOutput Z size = some last ∧ Output F V capacity size s added given last := by
  obtain ⟨last, hlast, houtput⟩ := (runLoop_meets
    (fun state : WebSocketInflater ζ × List UInt8 ↦ size - state.2.length)
    (fun _ hstate ↦ outputRound_meets hZ hF hstate)
    (⟨by rw [List.append_nil]; exact h, Nat.zero_le _, fun _ ↦ rfl⟩ :
      Outputting F V capacity size s added given (s, []))
    (show size - ([] : List UInt8).length < size + 1 by omega)).finished
  exact ⟨last, by rw [getOutput, hlast]; rfl, houtput⟩

end

end Kept

/-! ### Any calls -/

/-- A call that a user of an inflater makes. -/
inductive Call
  | addBytes (data : List UInt8)
  | finish
  | getOutput (size : ℕ)

/-- The bytes that a call adds. -/
def Call.added : Call → List UInt8
  | addBytes data => data
  | finish => syncMark
  | getOutput _ => []

section Runs

variable {Z : Zlib ζ} {F : DeflateFormat δ} {V : InflateView δ ζ} {capacity : ℕ}

/-- What a call that adds bytes comes to. -/
def ofAdded : Option (WebSocketInflater ζ × Bool) → Checked (WebSocketInflater ζ) Unit (List UInt8)
  | none => .aborted
  | some (next, fine) => if fine then .ok next [] else .failed next ()

/-- Make a call: what it gives. -/
def call (Z : Zlib ζ) (s : WebSocketInflater ζ) :
    Call → Checked (WebSocketInflater ζ) Unit (List UInt8)
  | .addBytes data => ofAdded (s.addBytes Z data)
  | .finish => ofAdded (s.finish Z)
  | .getOutput size =>
    match s.getOutput Z size with
    | none => .aborted
    | some (next, none) => .failed next ()
    | some (next, some bytes) => .ok next bytes

/-- Make one call after the other, until there is an error. -/
def run (Z : Zlib ζ) (s : WebSocketInflater ζ) (calls : List Call) :
    Checked (WebSocketInflater ζ) Unit (List UInt8) := Checked.collect (call Z) s calls

/-- What some calls come to: an inflater that has added and given, or an error that the added bytes
account for. -/
inductive Comes (F : DeflateFormat δ) (V : InflateView δ ζ) (capacity : ℕ) (added given : List UInt8) :
    Checked (WebSocketInflater ζ) Unit (List UInt8) → Prop
  | ok {next : WebSocketInflater ζ} {bytes : List UInt8}
    (h : Inflating F V capacity next added (given ++ bytes)) : Comes F V capacity added given (.ok next bytes)
  | failed {next : WebSocketInflater ζ} (h : F.IsInvalid (F.receiver.feed F.start added).1) :
    Comes F V capacity added given (.failed next ())

variable (hZ : Inflates Z F V) (hF : F.IsDeflate) {s : WebSocketInflater ζ} {added given : List UInt8}

include hZ

theorem comes_ofAdded (h : Inflating F V capacity s added given) (data : List UInt8) :
    Comes F V capacity (added ++ data) given (ofAdded (s.addBytes Z data)) := by
  obtain ⟨next, fine, hadd, hgood, hbad⟩ := h.addBytes_spec hZ data
  rw [hadd]
  cases fine with
  | true => exact .ok (by rw [List.append_nil]; exact hgood rfl)
  | false => exact .failed (hbad rfl)

include hF

theorem comes_call (h : Inflating F V capacity s added given) (c : Call) :
    Comes F V capacity (added ++ c.added) given (call Z s c) := by
  cases c with
  | addBytes data => exact comes_ofAdded hZ h data
  | finish => exact comes_ofAdded hZ h syncMark
  | getOutput size =>
    obtain ⟨⟨next, output⟩, hget, houtput⟩ := h.getOutput_spec hZ hF size
    rw [Call.added, List.append_nil, call, hget]
    cases output with
    | none => exact .failed (houtput.none rfl)
    | some bytes => exact .ok (houtput.some bytes rfl).1

theorem comes_run (h : Inflating F V capacity s added given) (calls : List Call) :
    Comes F V capacity (added ++ calls.flatMap Call.added) given (run Z s calls) := by
  induction calls generalizing s added given with
  | nil => exact .ok (by simpa using h)
  | cons c calls ih =>
    rw [List.flatMap_cons, ← List.append_assoc]
    have hcall := comes_call hZ hF h c
    unfold run Checked.collect
    cases hresult : call Z s c with
    | aborted =>
      rw [hresult] at hcall
      cases hcall
    | failed next e =>
      rw [hresult] at hcall
      cases hcall with
      | failed hinvalid =>
        refine .failed ?_
        rw [Receiver.feed_append]
        exact hF.invalid_feed hinvalid _
    | ok next bytes =>
      rw [hresult] at hcall
      cases hcall with
      | ok hnext =>
        have hrest := ih hnext
        change Comes F V capacity _ given ((run Z next calls).map (bytes ++ ·))
        cases hlast : run Z next calls with
        | aborted =>
          rw [hlast] at hrest
          cases hrest
        | failed last e =>
          rw [hlast] at hrest
          cases hrest with
          | failed hinvalid => exact .failed hinvalid
        | ok last more =>
          rw [hlast] at hrest
          cases hrest with
          | ok hinflating => exact .ok (by rw [← List.append_assoc]; exact hinflating)

end Runs

/-- Assumes: what is documented of zlib. Whatever is added to an inflater and taken out of it, in
whatever order, no check fails; there is an error only if the bytes that were added are invalid; and
what was taken out is the beginning of what the added bytes mean, and all of it, with what is in the
ring, whenever the ring is not full. -/
theorem run_spec {Z : Zlib ζ} {F : DeflateFormat δ} {V : InflateView δ ζ} (hZ : Inflates Z F V)
    (hF : F.IsDeflate) {inputQueueCapacity : ℕ} (hqueue : 0 < inputQueueCapacity) (capacity : ℕ)
    (calls : List Call) :
    (run Z (initialized Z inputQueueCapacity capacity) calls).isChecked = true ∧
      (∀ last, run Z (initialized Z inputQueueCapacity capacity) calls = .failed last () →
        F.IsInvalid (F.receiver.feed F.start (calls.flatMap Call.added)).1) ∧
      ∀ last output, run Z (initialized Z inputQueueCapacity capacity) calls = .ok last output →
        output ++ last.outputBuffer.contents <+:
            (F.receiver.feed F.start (calls.flatMap Call.added)).2 ∧
          (last.currentOutputSize < capacity →
            output ++ last.outputBuffer.contents =
                (F.receiver.feed F.start (calls.flatMap Call.added)).2 ∧
              ¬F.IsInvalid (F.receiver.feed F.start (calls.flatMap Call.added)).1) := by
  have hcomes := comes_run hZ hF (inflating_initialized hZ hF hqueue capacity) calls
  rw [List.nil_append] at hcomes
  refine ⟨?_, fun last hlast ↦ ?_, fun last output hlast ↦ ?_⟩
  · cases hresult : run Z (initialized Z inputQueueCapacity capacity) calls with
    | aborted =>
      rw [hresult] at hcomes
      cases hcomes
    | failed next e => rfl
    | ok next bytes => rfl
  · rw [hlast] at hcomes
    cases hcomes with
    | failed hinvalid => exact hinvalid
  · rw [hlast] at hcomes
    cases hcomes with
    | ok hinflating =>
      refine ⟨hinflating.toHolds.isBeginning, fun hroom ↦ ?_⟩
      obtain ⟨hfeed, hvalid⟩ := hinflating.all hroom
      exact ⟨(congrArg Prod.snd hfeed).symm, hvalid⟩

/-- A stored block of five bytes, a ring for three, and a queue of buffers of two. -/
theorem run_spec_choked :
    (run storedInflate (initialized storedInflate 2 3)
      [.addBytes [0, 5, 0, 250, 255, 1, 2, 3, 4], .addBytes [5], .getOutput 2, .getOutput 9]).isChecked =
        true :=
  (run_spec inflates_stored isDeflate_stored (by decide) 3 _).1

example : ∃ last, run storedInflate (initialized storedInflate 2 3)
    [.addBytes [0, 5, 0, 250, 255, 1, 2, 3, 4], .addBytes [5], .getOutput 2, .getOutput 9] =
      .ok last [1, 2, 3, 4, 5] := ⟨_, rfl⟩

end WebSocketInflater

end Felicia
