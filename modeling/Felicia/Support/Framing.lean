import Mathlib.Data.List.Basic
import Mathlib.Data.List.Forall2

/-!
# Reading one item after the other

A reader takes an item from the front of a stream and changes its own state on the way, such as a
buffer that it uses again. `readMany_flatten` is the rule for a number of items: if the reader reads
the chunk of each of them, in every state of an invariant and whatever follows, and keeps the
invariant, then it reads a stream of chunks, in order and with nothing left over.
-/

set_option autoImplicit false
set_option relaxedAutoImplicit false

namespace Felicia.Support

variable {α β γ σ : Type*}

/-- Read a number of items. -/
def readMany (read : σ → List β → Option (α × σ × List β)) :
    ℕ → σ → List β → Option (List α × σ × List β)
  | 0, s, stream => some ([], s, stream)
  | n + 1, s, stream =>
    (read s stream).bind fun (item, s, stream) ↦
      (readMany read n s stream).map fun (items, s, stream) ↦ (item :: items, s, stream)

/-- Assumes: a reader that reads the chunk of each item and keeps an invariant. -/
theorem readMany_flatten {read : σ → List β → Option (α × σ × List β)} {I : σ → Prop}
    {R : γ → List β → Prop} {outcome : γ → α}
    (hread : ∀ item chunk, R item chunk → ∀ s rest, I s →
      ∃ s', I s' ∧ read s (chunk ++ rest) = some (outcome item, s', rest))
    {items : List γ} {chunks : List (List β)} (h : List.Forall₂ R items chunks) {s : σ} (hs : I s)
    (rest : List β) :
    ∃ s', I s' ∧ readMany read items.length s (chunks.flatten ++ rest) =
      some (items.map outcome, s', rest) := by
  induction h generalizing s with
  | nil => exact ⟨s, hs, rfl⟩
  | @cons item chunk items chunks hchunk _ ih =>
    obtain ⟨s₁, hs₁, hfirst⟩ := hread item chunk hchunk s (chunks.flatten ++ rest) hs
    obtain ⟨s₂, hs₂, hothers⟩ := ih hs₁
    refine ⟨s₂, hs₂, ?_⟩
    simp [readMany, hfirst, hothers]

end Felicia.Support
