import Mathlib.Tactic.SplitIfs
import Felicia.Channel.Zlib

/-!
# Stored blocks

The part of DEFLATE that zlib uses for bytes it cannot compress: stored blocks, which have a header,
two lengths of which one is the complement of the other, and the bytes as they are. `storedInflate`
reads them and `storedDeflate` writes them, as zlib is documented to.
-/

set_option autoImplicit false
set_option relaxedAutoImplicit false

namespace Felicia

open Support

/-! ### The format -/

/-- Where a reader of stored blocks is. -/
inductive StoredState
  | header
  | lengths (before : List UInt8)
  | data (left : ℕ)
  | invalid
  deriving DecidableEq

/-- The state after a block header and its lengths. -/
def StoredState.ofLengths : List UInt8 → StoredState
  | [low, high, low', high'] =>
    if low' = ~~~low ∧ high' = ~~~high then
      if low.toNat + 256 * high.toNat = 0 then .header else .data (low.toNat + 256 * high.toNat)
    else .invalid
  | before => .lengths before

/-- Reads a byte. A block that is the last of a stream or is compressed is not read. -/
def StoredState.read : StoredState → UInt8 → StoredState × List UInt8
  | header, b => (if b &&& 0x7 = 0 then .lengths [] else .invalid, [])
  | lengths before, b => (.ofLengths (before ++ [b]), [])
  | data left, b => (if left ≤ 1 then .header else .data (left - 1), [b])
  | invalid, _ => (.invalid, [])

def storedFormat : DeflateFormat StoredState where
  receiver := ⟨StoredState.read⟩
  start := .header
  IsAligned d := d = .header
  IsInvalid d := d = .invalid

theorem isDeflate_stored : storedFormat.IsDeflate where
  aligned_start := rfl
  valid_of_aligned := by
    rintro d rfl
    exact StoredState.noConfusion
  invalid_step := by
    rintro d b rfl
    rfl
  empty_block := by
    rintro d rfl
    rfl
  start_stands := by
    rintro d rfl
    exact DeflateFormat.StandsFor.refl _ _

/-! ### Reading -/

/-- `inflate`, for stored blocks. -/
def storedInflate : Zlib (Holding StoredState UInt8) where
  init := ⟨.header, []⟩
  call s input room _ :=
    let share := storedFormat.receiver.limited s room input
    { stream := share.next
      result :=
        if share.next.state = .invalid then .error
        else if share.taken = 0 ∧ share.given = [] then .bufError
        else .ok
      taken := share.taken
      output := share.given }
  reset _ := ⟨.header, []⟩

def storedInflateView : InflateView StoredState (Holding StoredState UInt8) := ⟨id, fun _ ↦ false⟩

theorem inflates_stored : Inflates storedInflate storedFormat storedInflateView where
  holding_init := rfl
  taken_le s input room _ := (Receiver.limits_limited _ s room input).taken_le
  output_le s input room _ := (Receiver.limits_limited _ s room input).given_le
  moves s input room _ _ := (Receiver.limits_limited _ s room input).moves
  complete s input room flush hfine hroom := by
    obtain ⟨htaken, hheld⟩ := (Receiver.limits_limited _ s room input).complete hroom
    refine ⟨htaken, hheld, fun hinvalid ↦ ?_⟩
    have hstate : (storedFormat.receiver.limited s room input).next.state = .invalid := hinvalid
    simp only [storedInflate, if_pos hstate] at hfine
    cases hfine
  ends s input room flush hends := by
    simp only [storedInflate] at hends
    split_ifs at hends
  hasEnded _ _ _ _ h := .inl h
  fails s input room flush hfails := by
    have hinvalid : (storedFormat.receiver.limited s room input).next.state = .invalid := by
      by_contra hvalid
      simp only [storedInflate, if_neg hvalid] at hfails
      split_ifs at hfails
    have hmoves := (Receiver.limits_limited storedFormat.receiver s room input).moves
    rw [← List.take_append_drop (storedFormat.receiver.limited s room input).taken input,
      Receiver.feed_append]
    apply isDeflate_stored.invalid_feed
    exact hmoves.state.trans hinvalid
  reset _ := ⟨rfl, rfl⟩

/-! ### Writing -/

/-- A stored block. -/
def storedBlock (bytes : List UInt8) : List UInt8 :=
  0x00 :: .ofNat bytes.length :: .ofNat (bytes.length / 256) :: ~~~.ofNat bytes.length ::
    ~~~.ofNat (bytes.length / 256) :: bytes

/-- A stored block has at most 65535 bytes. -/
def storedBlocks : ℕ → List UInt8 → List UInt8
  | 0, _ => []
  | blocks + 1, bytes =>
    if bytes = [] then [] else storedBlock (bytes.take 65535) ++ storedBlocks blocks (bytes.drop 65535)

theorem feed_data (bytes : List UInt8) (hbytes : bytes ≠ []) :
    storedFormat.receiver.feed (.data bytes.length) bytes = (.header, bytes) := by
  induction bytes with
  | nil => exact absurd rfl hbytes
  | cons b rest ih =>
    by_cases hrest : rest = []
    · rw [hrest]
      rfl
    · have hlength := List.length_pos_iff.mpr hrest
      have hstep : storedFormat.receiver.step (.data (b :: rest).length) b =
          (.data rest.length, [b]) := by
        simp only [storedFormat, StoredState.read, List.length_cons]
        rw [if_neg (by omega), Nat.add_sub_cancel]
      rw [Receiver.feed, hstep, ih hrest]
      rfl

theorem feed_blockHeader (low high low' high' : UInt8) (bytes : List UInt8) :
    storedFormat.receiver.feed .header (0x00 :: low :: high :: low' :: high' :: bytes) =
      storedFormat.receiver.feed (.ofLengths [low, high, low', high']) bytes := rfl

/-- A block of any bytes that are not too many is read. -/
theorem feed_storedBlock {bytes : List UInt8} (hlength : bytes.length ≤ 65535) :
    storedFormat.receiver.feed .header (storedBlock bytes) = (.header, bytes) := by
  have hvalue : (UInt8.ofNat bytes.length).toNat + 256 * (UInt8.ofNat (bytes.length / 256)).toNat =
      bytes.length := by
    rw [UInt8.toNat_ofNat', UInt8.toNat_ofNat']
    omega
  by_cases hbytes : bytes = []
  · rw [hbytes]
    rfl
  · have hpos := List.length_pos_iff.mpr hbytes
    have hlengths : StoredState.ofLengths [.ofNat bytes.length, .ofNat (bytes.length / 256),
        ~~~.ofNat bytes.length, ~~~.ofNat (bytes.length / 256)] = .data bytes.length := by
      rw [StoredState.ofLengths, if_pos ⟨rfl, rfl⟩, hvalue, if_neg (by omega)]
    rw [storedBlock, feed_blockHeader, hlengths, feed_data bytes hbytes]

theorem feed_storedBlocks {blocks : ℕ} {bytes : List UInt8} (h : bytes.length ≤ blocks) :
    storedFormat.receiver.feed .header (storedBlocks blocks bytes) = (.header, bytes) := by
  induction blocks generalizing bytes with
  | zero =>
    rw [List.eq_nil_of_length_eq_zero (Nat.le_zero.mp h)]
    rfl
  | succ blocks ih =>
    unfold storedBlocks
    by_cases hbytes : bytes = []
    · rw [if_pos hbytes, hbytes]
      rfl
    · have hpos := List.length_pos_iff.mpr hbytes
      rw [if_neg hbytes, Receiver.feed_append, feed_storedBlock (List.length_take_le _ _),
        ih (by rw [List.length_drop]; omega)]
      exact Prod.ext rfl (List.take_append_drop 65535 bytes)

/-- A stream of `deflate`: the bytes of it that are in no block yet, the bytes of blocks that were not
put out, and whether there is nothing to flush. -/
structure StoredDeflater where
  input : List UInt8 := []
  output : List UInt8 := []
  flushed : List UInt8 := []
  waiting : List UInt8 := []
  ready : List UInt8 := []
  isFlushed : Bool := false

namespace StoredDeflater

/-- Put bytes into blocks, if there is something to flush. -/
def prepare (z : StoredDeflater) (input : List UInt8) : StoredDeflater :=
  if z.isFlushed && input.isEmpty then z
  else
    { z with
      input := z.input ++ input
      waiting := []
      ready := z.ready ++ storedBlocks (z.waiting ++ input).length (z.waiting ++ input) ++
        0x00 :: syncMark
      isFlushed := true }

/-- Put out what there is room for. -/
def put (z : StoredDeflater) (room : ℕ) : StoredDeflater :=
  { z with
    output := z.output ++ z.ready.take room
    flushed := z.flushed ++ z.ready.take room
    ready := z.ready.drop room }

/-- What was put into blocks can be read, and a flush ends with an empty block. -/
structure IsStream (z : StoredDeflater) : Prop where
  feed : ∃ made, z.input = made ++ z.waiting ∧
    storedFormat.receiver.feed .header (z.output ++ z.ready) = (.header, made)
  flushed : z.isFlushed = true → z.waiting = [] ∧ ∃ body, z.flushed ++ z.ready = body ++ syncMark

theorem IsStream.prepare {z : StoredDeflater} (h : z.IsStream) (input : List UInt8) :
    (z.prepare input).IsStream ∧ (z.prepare input).isFlushed = true := by
  unfold StoredDeflater.prepare
  by_cases hflushed : (z.isFlushed && input.isEmpty) = true
  · rw [if_pos hflushed]
    exact ⟨h, (Bool.and_eq_true_iff.mp hflushed).1⟩
  · rw [if_neg hflushed]
    obtain ⟨made, hinput, hfeed⟩ := h.feed
    refine ⟨⟨⟨made ++ (z.waiting ++ input), ?_, ?_⟩, fun _ ↦ ⟨rfl, z.flushed ++ (z.ready ++
      storedBlocks (z.waiting ++ input).length (z.waiting ++ input) ++ [0x00]), ?_⟩⟩, rfl⟩
    · simp [hinput]
    · have hempty : storedFormat.receiver.feed .header (0x00 :: syncMark) = (.header, []) :=
        isDeflate_stored.empty_block .header rfl
      simp only
      rw [← List.append_assoc, ← List.append_assoc, Receiver.feed_append, Receiver.feed_append,
        hfeed, feed_storedBlocks (Nat.le_refl _), hempty, List.append_nil]
    · simp

theorem IsStream.put {z : StoredDeflater} (h : z.IsStream) (room : ℕ) : (z.put room).IsStream := by
  obtain ⟨made, hinput, hfeed⟩ := h.feed
  refine ⟨⟨made, hinput, ?_⟩, fun hflushed ↦ ?_⟩
  · rwa [StoredDeflater.put, List.append_assoc, List.take_append_drop]
  · obtain ⟨hwaiting, body, hbody⟩ := h.flushed hflushed
    refine ⟨hwaiting, body, ?_⟩
    rwa [StoredDeflater.put, List.append_assoc, List.take_append_drop]

/-- Take bytes without a flush. -/
def take (z : StoredDeflater) (input : List UInt8) : StoredDeflater :=
  { z with
    input := z.input ++ input, waiting := z.waiting ++ input, flushed := [], isFlushed := false }

theorem IsStream.take {z : StoredDeflater} (h : z.IsStream) (input : List UInt8) :
    (z.take input).IsStream := by
  obtain ⟨made, hinput, hfeed⟩ := h.feed
  exact ⟨⟨made, by simp [StoredDeflater.take, hinput], hfeed⟩,
    fun hflushed ↦ absurd hflushed Bool.false_ne_true⟩

theorem isStream_empty : ({} : StoredDeflater).IsStream :=
  ⟨⟨[], rfl, rfl⟩, fun hflushed ↦ absurd hflushed Bool.false_ne_true⟩

/-- Nothing is ready only if there was nothing to flush. -/
theorem prepare_eq_self {z : StoredDeflater} {input : List UInt8} (h : (z.prepare input).ready = []) :
    z.prepare input = z := by
  unfold prepare at h ⊢
  split_ifs at h ⊢
  · rfl
  · simp [syncMark] at h

theorem prepare_of_flushed {z : StoredDeflater} (h : z.isFlushed = true) : z.prepare [] = z := by
  rw [prepare, if_pos (by simp [h])]

theorem prepare_flushed (z : StoredDeflater) (input : List UInt8) :
    (z.prepare input).flushed = z.flushed := by
  unfold prepare
  split_ifs <;> rfl

theorem prepare_output (z : StoredDeflater) (input : List UInt8) :
    (z.prepare input).output = z.output := by
  unfold prepare
  split_ifs <;> rfl

theorem prepare_input (z : StoredDeflater) (input : List UInt8) :
    (z.prepare input).input = z.input ++ input := by
  unfold prepare
  split_ifs with h
  · simp [List.isEmpty_iff.mp (Bool.and_eq_true_iff.mp h).2]
  · rfl

end StoredDeflater

/-- `deflate`, for bytes that cannot be compressed. -/
def storedDeflate : Zlib StoredDeflater where
  init := {}
  call z input room
    | .noFlush =>
      { stream := z.take input
        result := if input = [] then .bufError else .ok
        taken := input.length
        output := [] }
    | .syncFlush =>
      { stream := (z.prepare input).put room
        result := if input = [] ∧ (z.prepare input).ready = [] then .bufError else .ok
        taken := input.length
        output := (z.prepare input).ready.take room }
  reset _ := {}

def storedDeflateView : DeflateView StoredDeflater where
  input := StoredDeflater.input
  output := StoredDeflater.output
  flushed := StoredDeflater.flushed
  left z input
    | .noFlush => input.length
    | .syncFlush => input.length + (z.prepare input).ready.length
  IsStream := StoredDeflater.IsStream

theorem deflates_stored : Deflates storedDeflate storedFormat storedDeflateView where
  init := ⟨StoredDeflater.isStream_empty, rfl, rfl⟩
  reset _ _ := ⟨StoredDeflater.isStream_empty, rfl, rfl⟩
  isStream z input room flush h := by
    cases flush with
    | noFlush => exact h.take input
    | syncFlush => exact (h.prepare input).1.put room
  taken_le z input room flush := by
    cases flush <;> exact Nat.le_refl _
  output_le z input room flush := by
    cases flush with
    | noFlush => exact Nat.zero_le _
    | syncFlush => exact List.length_take_le _ _
  input z input room flush _ := by
    cases flush with
    | noFlush => exact congrArg (z.input ++ ·) List.take_length.symm
    | syncFlush =>
      exact (z.prepare_input input).trans (congrArg (z.input ++ ·) List.take_length.symm)
  output z input room flush _ := by
    cases flush with
    | noFlush => exact (List.append_nil _).symm
    | syncFlush => exact congrArg (· ++ (z.prepare input).ready.take room) (z.prepare_output input)
  valid z h := by
    obtain ⟨made, -, hfeed⟩ := h.feed
    refine @DeflateFormat.IsDeflate.valid_of_append _ _ _ z.output z.ready isDeflate_stored ?_
    change ¬(storedFormat.receiver.feed .header (z.output ++ z.ready)).1 = .invalid
    rw [hfeed]
    exact StoredState.noConfusion
  progress z input room flush h hroom hok := by
    cases flush with
    | noFlush =>
      by_cases hinput : input = []
      · simp only [storedDeflate, if_pos hinput] at hok
        cases hok
      · have hpos := List.length_pos_iff.mpr hinput
        simpa [storedDeflateView, storedDeflate] using hpos
    | syncFlush =>
      have hleft : storedDeflateView.left ((z.prepare input).put room) [] .syncFlush =
          (z.prepare input).ready.length - room := by
        have hflushed : ((z.prepare input).put room).isFlushed = true := (h.prepare input).2
        simp only [storedDeflateView, StoredDeflater.prepare_of_flushed hflushed]
        simp [StoredDeflater.put]
      have hready : 0 < input.length ∨ 0 < (z.prepare input).ready.length := by
        simp only [storedDeflate] at hok
        by_contra hnone
        have hinput : input = [] := List.eq_nil_of_length_eq_zero (by omega)
        have hready : (z.prepare input).ready = [] := List.eq_nil_of_length_eq_zero (by omega)
        rw [if_pos ⟨hinput, hready⟩] at hok
        cases hok
      simp only [storedDeflate, List.drop_length, hleft]
      simp only [storedDeflateView]
      omega
  result z input room flush _ _ := by
    cases flush with
    | noFlush =>
      by_cases hinput : input = []
      · exact .inr ⟨if_pos hinput, rfl, hinput⟩
      · exact .inl (if_neg hinput)
    | syncFlush =>
      by_cases hnone : input = [] ∧ (z.prepare input).ready = []
      · exact .inr ⟨if_pos hnone, by simp [storedDeflate, hnone.2], hnone.1⟩
      · exact .inl (if_neg hnone)
  flushed_noFlush _ _ _ _ := rfl
  flushed_syncFlush z input room _ :=
    congrArg (· ++ (z.prepare input).ready.take room) (z.prepare_flushed input)
  sync z input room h _ hresult := by
    have hnone : input = [] ∧ (z.prepare input).ready = [] := by
      by_contra hsome
      simp only [storedDeflate, if_neg hsome] at hresult
      cases hresult
    have hself := StoredDeflater.prepare_eq_self hnone.2
    have hready : z.ready = [] := hself ▸ hnone.2
    obtain ⟨made, hinput, hfeed⟩ := h.feed
    obtain ⟨hwaiting, body, hbody⟩ := h.flushed (hself ▸ (h.prepare input).2)
    rw [hready, List.append_nil] at hbody hfeed
    rw [hwaiting, List.append_nil] at hinput
    refine ⟨⟨body, ?_⟩, (congrArg Prod.snd hfeed).trans hinput.symm, congrArg Prod.fst hfeed⟩
    simp [storedDeflate, storedDeflateView, StoredDeflater.put, hself, hready, hbody]

end Felicia
