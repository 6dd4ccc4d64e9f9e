import Mathlib.Data.List.Basic
import Mathlib.Data.List.Induction

/-!
# Receivers

A receiver takes one item at a time, and what it takes turns it to its next state and lets it
recognise some tokens. Code that takes whole pieces and follows a receiver has the same state and
recognises the same tokens however a stream was cut into pieces (`Follows.takeAll`).

A code of messages that a receiver reads in an idle state, and after which it is idle again, is read
whole (`Reads.feed_flatMap`). If whatever leads a receiver back to its idle state for the first time
is the code of a message, then all it may take is the codes of some messages and the beginning of
another (`exists_cut`).
-/

set_option autoImplicit false
set_option relaxedAutoImplicit false

namespace Felicia.Support

variable {σ β τ ι κ α : Type*}

/-- A receiver: its next state when it takes an item, and the tokens it recognises by it. -/
structure Receiver (σ β τ : Type*) where
  step : σ → β → σ × List τ

namespace Receiver

variable (R : Receiver σ β τ)

/-- Take one item after the other. -/
def feed (s : σ) : List β → σ × List τ
  | [] => (s, [])
  | b :: rest => ((feed (R.step s b).1 rest).1, (R.step s b).2 ++ (feed (R.step s b).1 rest).2)

@[simp] theorem feed_nil (s : σ) : R.feed s [] = (s, []) := rfl

@[simp] theorem feed_singleton (s : σ) (b : β) : R.feed s [b] = R.step s b := by
  simp [feed]

theorem feed_append (s : σ) (bs bs' : List β) :
    R.feed s (bs ++ bs') =
      ((R.feed (R.feed s bs).1 bs').1, (R.feed s bs).2 ++ (R.feed (R.feed s bs).1 bs').2) := by
  induction bs generalizing s with
  | nil => simp
  | cons b rest ih => simp [feed, ih]

/-- Assumes: a state that no item leads out of or is recognised in. -/
theorem feed_of_stuck {s : σ} (h : ∀ b, R.step s b = (s, [])) (bs : List β) : R.feed s bs = (s, []) := by
  induction bs with
  | nil => rfl
  | cons b rest ih => simp [feed, h, ih]

/-! ### Pieces -/

/-- Take one piece after the other, by code of some state of its own. -/
def takeAll (take : ι → List β → ι × List κ) (i : ι) : List (List β) → ι × List κ
  | [] => (i, [])
  | piece :: rest =>
    ((takeAll take (take i piece).1 rest).1, (take i piece).2 ++ (takeAll take (take i piece).1 rest).2)

/-- Assumes: an invariant, and what is recognised from its states. -/
theorem forall_mem_takeAll {take : ι → List β → ι × List κ} {I : ι → Prop} {P : κ → Prop}
    (h : ∀ i piece, I i → I (take i piece).1 ∧ ∀ c ∈ (take i piece).2, P c) {i : ι} (hi : I i)
    (pieces : List (List β)) : ∀ c ∈ (takeAll take i pieces).2, P c := by
  induction pieces generalizing i with
  | nil =>
    intro c hc
    cases hc
  | cons piece rest ih =>
    intro c hc
    rcases List.mem_append.mp hc with hfirst | hrest
    · exact (h i piece hi).2 c hfirst
    · exact ih (h i piece hi).1 c hrest

/-- The code follows the receiver from the states of an invariant, which it keeps. What it recognises
stands for tokens. -/
def Follows (take : ι → List β → ι × List κ) (I : ι → Prop) (state : ι → σ)
    (tokens : κ → List τ) : Prop :=
  ∀ i piece, I i → I (take i piece).1 ∧
    R.feed (state i) piece = (state (take i piece).1, (take i piece).2.flatMap tokens)

variable {R}

/-- Assumes: an invariant that holds at the start. The code has followed the receiver after any
pieces. -/
theorem Follows.takeAll {take : ι → List β → ι × List κ} {I : ι → Prop} {state : ι → σ}
    {tokens : κ → List τ} (h : R.Follows take I state tokens) {i : ι} (hi : I i)
    (pieces : List (List β)) :
    I (takeAll take i pieces).1 ∧
      R.feed (state i) pieces.flatten =
        (state (Receiver.takeAll take i pieces).1,
          (Receiver.takeAll take i pieces).2.flatMap tokens) := by
  induction pieces generalizing i with
  | nil => exact ⟨hi, rfl⟩
  | cons piece rest ih =>
    obtain ⟨hkept, hpiece⟩ := h i piece hi
    obtain ⟨hlast, hrest⟩ := ih hkept
    refine ⟨hlast, ?_⟩
    rw [List.flatten_cons, feed_append, hpiece, hrest]
    simp [Receiver.takeAll]

/-! ### Messages -/

/-- A receiver that is idle reads the code of a message, and is idle again. -/
def Reads (R : Receiver σ β τ) (idle : σ) (code : α → List β) (tokens : α → List τ) : Prop :=
  ∀ a, R.feed idle (code a) = (idle, tokens a)

theorem Reads.feed_flatMap {idle : σ} {code : α → List β} {tokens : α → List τ}
    (h : R.Reads idle code tokens) (as : List α) :
    R.feed idle (as.flatMap code) = (idle, as.flatMap tokens) := by
  induction as with
  | nil => rfl
  | cons a rest ih => rw [List.flatMap_cons, feed_append, h a, ih, List.flatMap_cons]

/-- The items lead a receiver back to a state, and none of their beginnings does. -/
structure Returns (R : Receiver σ β τ) (idle : σ) (bs : List β) : Prop where
  ne_nil : bs ≠ []
  first : ∀ before after, bs = before ++ after → before ≠ [] → after ≠ [] →
    (R.feed idle before).1 ≠ idle
  back : (R.feed idle bs).1 = idle

/-- The items lead a receiver away from a state that it does not come back to. -/
def Leaves (R : Receiver σ β τ) (idle : σ) (bs : List β) : Prop :=
  ∀ before after, bs = before ++ after → before ≠ [] → (R.feed idle before).1 ≠ idle

theorem eq_append_dropLast {bs before after : List β} {b : β} (h : bs ++ [b] = before ++ after)
    (hafter : after ≠ []) : bs = before ++ after.dropLast := by
  rw [← List.dropLast_append_of_ne_nil hafter, ← h, List.dropLast_concat]

theorem returns_or_leaves (R : Receiver σ β τ) (idle : σ) (bs : List β) :
    (∃ first rest, bs = first ++ rest ∧ R.Returns idle first) ∨ R.Leaves idle bs := by
  induction bs using List.reverseRecOn with
  | nil =>
    right
    intro before after hsplit hbefore
    exact absurd (List.append_eq_nil_iff.mp hsplit.symm).1 hbefore
  | append_singleton bs b ih =>
    rcases ih with ⟨first, rest, hsplit, hfirst⟩ | hleaves
    · exact .inl ⟨first, rest ++ [b], by rw [hsplit, List.append_assoc], hfirst⟩
    · by_cases hidle : (R.feed idle (bs ++ [b])).1 = idle
      · refine .inl ⟨bs ++ [b], [], (List.append_nil _).symm, by simp, ?_, hidle⟩
        intro before after hsplit hbefore hafter
        exact hleaves before after.dropLast (eq_append_dropLast hsplit hafter) hbefore
      · right
        intro before after hsplit hbefore
        by_cases hafter : after = []
        · rw [hafter, List.append_nil] at hsplit
          rwa [← hsplit]
        · exact hleaves before after.dropLast (eq_append_dropLast hsplit hafter) hbefore

/-- Assumes: what leads back to the idle state for the first time is the code of a message. Items of
any kind are the codes of some messages and others that do not lead back. -/
theorem exists_cut {idle : σ} {code : α → List β}
    (hcode : ∀ bs, R.Returns idle bs → ∃ a, bs = code a) (bs : List β) :
    ∃ (as : List α) (rest : List β), bs = as.flatMap code ++ rest ∧ R.Leaves idle rest := by
  induction hlength : bs.length using Nat.strongRecOn generalizing bs with
  | ind n ih =>
    rcases returns_or_leaves R idle bs with ⟨first, rest, rfl, hfirst⟩ | hleaves
    · obtain ⟨a, rfl⟩ := hcode first hfirst
      have hpos := List.length_pos_of_ne_nil hfirst.ne_nil
      rw [List.length_append] at hlength
      obtain ⟨as, last, hrest, hleaves⟩ := ih rest.length (by omega) rest rfl
      exact ⟨a :: as, last, by rw [hrest, List.flatMap_cons, List.append_assoc], hleaves⟩
    · exact ⟨[], bs, rfl, hleaves⟩

end Receiver

end Felicia.Support
