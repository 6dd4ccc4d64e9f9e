import Felicia.Support.Holding

/-!
# What is relied on of zlib

zlib is not part of the repository: its streams and calls are parameters, and `Inflates` and
`Deflates` say what is documented of them and relied on here.

A DEFLATE format is what bytes mean: a receiver of compressed bytes, which begins again after the
last block of a stream. `inflate` follows it with some room for what it makes, and makes as much as
it can. What `deflate` writes is a beginning of what it was given, and all of it after a flush, which
ends with an empty block.
-/

set_option autoImplicit false
set_option relaxedAutoImplicit false

namespace Felicia

open Support

variable {δ ζ : Type}

/-! ### The format -/

/-- The meaning of compressed bytes. -/
structure DeflateFormat (δ : Type) where
  receiver : Receiver δ UInt8 UInt8
  start : δ
  /-- Between two blocks, at the beginning of a byte. -/
  IsAligned : δ → Prop
  /-- After bytes that no compressor writes. -/
  IsInvalid : δ → Prop

/-- What a sync flush ends with: the lengths of an empty stored block. -/
def syncMark : List UInt8 := [0x00, 0x00, 0xff, 0xff]

namespace DeflateFormat

/-- One state stands for another: what is read without an error from the other is read alike from
it. -/
structure StandsFor (F : DeflateFormat δ) (d e : δ) : Prop where
  tokens : ∀ bytes, ¬F.IsInvalid (F.receiver.feed e bytes).1 →
    (F.receiver.feed d bytes).2 = (F.receiver.feed e bytes).2
  valid : ∀ bytes, ¬F.IsInvalid (F.receiver.feed e bytes).1 →
    ¬F.IsInvalid (F.receiver.feed d bytes).1
  aligned : ∀ bytes, ¬F.IsInvalid (F.receiver.feed e bytes).1 →
    F.IsAligned (F.receiver.feed e bytes).1 → F.IsAligned (F.receiver.feed d bytes).1

/-- What is specified of DEFLATE. -/
structure IsDeflate (F : DeflateFormat δ) : Prop where
  aligned_start : F.IsAligned F.start
  valid_of_aligned : ∀ d, F.IsAligned d → ¬F.IsInvalid d
  invalid_step : ∀ d b, F.IsInvalid d → F.IsInvalid (F.receiver.step d b).1
  /-- The bits of a block header, and then the lengths of an empty stored block. -/
  empty_block : ∀ d, F.IsAligned d → F.receiver.feed d (0x00 :: syncMark) = (d, [])
  /-- A stream that begins does not refer to what was before it. -/
  start_stands : ∀ d, F.IsAligned d → F.StandsFor d F.start

variable {F : DeflateFormat δ} {d e : δ} {bytes bytes' : List UInt8}

theorem StandsFor.refl (F : DeflateFormat δ) (d : δ) : F.StandsFor d d :=
  ⟨fun _ _ ↦ rfl, fun _ h ↦ h, fun _ _ h ↦ h⟩

theorem IsDeflate.invalid_feed (h : F.IsDeflate) (hd : F.IsInvalid d) (bytes : List UInt8) :
    F.IsInvalid (F.receiver.feed d bytes).1 := by
  induction bytes generalizing d with
  | nil => exact hd
  | cons b bytes ih => exact ih (h.invalid_step d b hd)

/-- A beginning of what is read without an error is read without one. -/
theorem IsDeflate.valid_of_append (h : F.IsDeflate)
    (hvalid : ¬F.IsInvalid (F.receiver.feed d (bytes ++ bytes')).1) :
    ¬F.IsInvalid (F.receiver.feed d bytes).1 := by
  intro hinvalid
  rw [Receiver.feed_append] at hvalid
  exact hvalid (h.invalid_feed hinvalid bytes')

/-- A state that stands for another does so after the same bytes. -/
theorem StandsFor.feed (h : F.StandsFor d e) (bytes : List UInt8)
    (hvalid : ¬F.IsInvalid (F.receiver.feed e bytes).1) :
    F.StandsFor (F.receiver.feed d bytes).1 (F.receiver.feed e bytes).1 := by
  have happend : ∀ more, ¬F.IsInvalid (F.receiver.feed (F.receiver.feed e bytes).1 more).1 →
      ¬F.IsInvalid (F.receiver.feed e (bytes ++ more)).1 := by
    intro more hmore
    rwa [Receiver.feed_append]
  constructor
  · intro more hmore
    have htokens := h.tokens (bytes ++ more) (happend more hmore)
    rw [Receiver.feed_append, Receiver.feed_append, h.tokens bytes hvalid] at htokens
    exact List.append_cancel_left htokens
  · intro more hmore
    have hwhole := h.valid (bytes ++ more) (happend more hmore)
    rwa [Receiver.feed_append] at hwhole
  · intro more hmore haligned
    have hwhole := h.aligned (bytes ++ more) (happend more hmore)
    rw [Receiver.feed_append, Receiver.feed_append] at hwhole
    exact hwhole haligned

end DeflateFormat

/-! ### Calls -/

/-- `Z_NO_FLUSH` and `Z_SYNC_FLUSH`. -/
inductive ZFlush
  | noFlush
  | syncFlush
  deriving DecidableEq, Repr

/-- `Z_OK`, `Z_STREAM_END`, `Z_BUF_ERROR`, or another error. -/
inductive ZResult
  | ok
  | streamEnd
  | bufError
  | error
  deriving DecidableEq, Repr

/-- The code goes on after `Z_OK` and `Z_BUF_ERROR`. -/
def ZResult.isFine : ZResult → Bool
  | ok => true
  | bufError => true
  | _ => false

/-- What a call of `inflate` or `deflate` comes to: how many bytes of its input were taken, and which
were put where there was room. -/
structure ZCall (ζ : Type) where
  stream : ζ
  result : ZResult
  taken : ℕ
  output : List UInt8

/-- The streams of `inflate` and `deflate`, as `inflateInit2` and `deflateInit2` leave them, and the
calls on them: with some input, some room, and how to flush. -/
structure Zlib (ζ : Type) where
  init : ζ
  call : ζ → List UInt8 → ℕ → ZFlush → ZCall ζ
  /-- `inflateReset` and `deflateReset`. -/
  reset : ζ → ζ

/-! ### Inflating -/

/-- What a stream of `inflate` has taken, as a state of the format with bytes that were made from it
and not put out. -/
structure InflateView (δ ζ : Type) where
  holding : ζ → Holding δ UInt8
  /-- The end of a stream was taken, and `inflateReset` not called after it. -/
  hasEnded : ζ → Bool

/-- What `inflate` does, as it is documented. -/
structure Inflates (Z : Zlib ζ) (F : DeflateFormat δ) (V : InflateView δ ζ) : Prop where
  holding_init : V.holding Z.init = ⟨F.start, []⟩
  taken_le : ∀ z input room flush, (Z.call z input room flush).taken ≤ input.length
  output_le : ∀ z input room flush, (Z.call z input room flush).output.length ≤ room
  moves : ∀ z input room flush, (Z.call z input room flush).result ≠ .error →
    F.receiver.Moves (V.holding z) (input.take (Z.call z input room flush).taken)
      (Z.call z input room flush).output (V.holding (Z.call z input room flush).stream)
  /-- As much as possible is made: room is left only when there is nothing more to make. -/
  complete : ∀ z input room flush, (Z.call z input room flush).result.isFine = true →
    (Z.call z input room flush).output.length < room →
      (Z.call z input room flush).taken = input.length ∧
        (V.holding (Z.call z input room flush).stream).held = [] ∧
          ¬F.IsInvalid (V.holding (Z.call z input room flush).stream).state
  /-- `Z_STREAM_END`: a stream was read to its end, and all of it was put out. -/
  ends : ∀ z input room flush, (Z.call z input room flush).result = .streamEnd →
    V.holding (Z.call z input room flush).stream = ⟨F.start, []⟩ ∧
      (V.hasEnded z = true ∨ 0 < (Z.call z input room flush).taken)
  hasEnded : ∀ z input room flush, V.hasEnded (Z.call z input room flush).stream = true →
    V.hasEnded z = true ∨ 0 < (Z.call z input room flush).taken
  /-- An error is about the input. -/
  fails : ∀ z input room flush, (Z.call z input room flush).result = .error →
    F.IsInvalid (F.receiver.feed (V.holding z).state input).1
  reset : ∀ z, V.holding (Z.reset z) = ⟨F.start, []⟩ ∧ V.hasEnded (Z.reset z) = false

/-! ### Deflating -/

/-- What a stream of `deflate` was given and has put out since it began. -/
structure DeflateView (ζ : Type) where
  input : ζ → List UInt8
  output : ζ → List UInt8
  /-- What was put out by the calls that flush, since the last one that does not. -/
  flushed : ζ → List UInt8
  /-- A bound on how many calls make some progress. -/
  left : ζ → List UInt8 → ZFlush → ℕ
  /-- The stream was initialised. -/
  IsStream : ζ → Prop

/-- What `deflate` does, as it is documented. -/
structure Deflates (Z : Zlib ζ) (F : DeflateFormat δ) (V : DeflateView ζ) : Prop where
  init : V.IsStream Z.init ∧ V.input Z.init = [] ∧ V.output Z.init = []
  reset : ∀ z, V.IsStream z →
    V.IsStream (Z.reset z) ∧ V.input (Z.reset z) = [] ∧ V.output (Z.reset z) = []
  isStream : ∀ z input room flush, V.IsStream z → V.IsStream (Z.call z input room flush).stream
  taken_le : ∀ z input room flush, (Z.call z input room flush).taken ≤ input.length
  output_le : ∀ z input room flush, (Z.call z input room flush).output.length ≤ room
  input : ∀ z input room flush, V.IsStream z → V.input (Z.call z input room flush).stream =
    V.input z ++ input.take (Z.call z input room flush).taken
  output : ∀ z input room flush, V.IsStream z → V.output (Z.call z input room flush).stream =
    V.output z ++ (Z.call z input room flush).output
  /-- What was put out is a beginning of what was given, compressed. -/
  valid : ∀ z, V.IsStream z → ¬F.IsInvalid (F.receiver.feed F.start (V.output z)).1
  /-- `Z_OK`: there was some progress. -/
  progress : ∀ z input room flush, V.IsStream z → 0 < room →
    (Z.call z input room flush).result = .ok →
      V.left (Z.call z input room flush).stream (input.drop (Z.call z input room flush).taken) flush <
        V.left z input flush
  /-- There is no error but `Z_BUF_ERROR`, when no progress is possible. -/
  result : ∀ z input room flush, V.IsStream z → 0 < room →
    (Z.call z input room flush).result = .ok ∨
      ((Z.call z input room flush).result = .bufError ∧ (Z.call z input room flush).output = [] ∧
        input = [])
  flushed_noFlush : ∀ z input room, V.IsStream z →
    V.flushed (Z.call z input room .noFlush).stream = []
  flushed_syncFlush : ∀ z input room, V.IsStream z →
    V.flushed (Z.call z input room .syncFlush).stream =
      V.flushed z ++ (Z.call z input room .syncFlush).output
  /-- When a flush has nothing more to do, all that was given can be read, and an empty block was put
  out last. -/
  sync : ∀ z input room, V.IsStream z → 0 < room →
    (Z.call z input room .syncFlush).result = .bufError →
      (∃ body, V.flushed (Z.call z input room .syncFlush).stream = body ++ syncMark) ∧
        (F.receiver.feed F.start (V.output z)).2 = V.input z ∧
          F.IsAligned (F.receiver.feed F.start (V.output z)).1

end Felicia
