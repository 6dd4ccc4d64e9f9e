import Mathlib.Data.List.Basic

/-!
# Operations that are issued again

A handler runs when an operation ends, and at its end issues the operation again or does not. An
operation that ends at once runs the handler again before the call returns, so one task can run the
handler many times. What the operations of a task come to at once is a list, longer than needed
perhaps; the first operation beyond it has to wait, and is then armed.

`reissue_safe` is the rule for what holds at the end of a task, `reissue_stops` the one for a task
in which some operation is not issued again.
-/

set_option autoImplicit false
set_option relaxedAutoImplicit false

namespace Felicia.Support

/-- What a handler leaves behind, and whether it issues the operation again. -/
structure Handled (σ ω : Type*) where
  state : σ
  observed : List ω := []
  again : Bool

variable {σ α ω : Type*} {arm : σ → σ} {handle : σ → α → Handled σ ω}

/-- The rest of a task, after a handler. -/
def reissue (arm : σ → σ) (handle : σ → α → Handled σ ω) (handled : Handled σ ω) :
    List α → σ × List ω
  | [] => (if handled.again then arm handled.state else handled.state, handled.observed)
  | a :: as =>
    if handled.again then
      let rest := reissue arm handle (handle handled.state a) as
      (rest.1, handled.observed ++ rest.2)
    else (handled.state, handled.observed)

theorem reissue_of_not_again {handled : Handled σ ω} (h : handled.again = false) (as : List α) :
    reissue arm handle handled as = (handled.state, handled.observed) := by
  cases as <;> simp [reissue, h]

/-- Assumes: what holds when the operation is issued gives what is to hold when it has to wait, and
a handler keeps the one if it issues the operation again and establishes the other if not. -/
theorem reissue_safe {I J : σ → List ω → Prop} (harm : ∀ s history, I s history → J (arm s) history)
    {as : List α}
    (hhandle : ∀ a ∈ as, ∀ s history, I s history →
      if (handle s a).again then I (handle s a).state (history ++ (handle s a).observed)
      else J (handle s a).state (history ++ (handle s a).observed))
    {handled : Handled σ ω} {history : List ω}
    (h : if handled.again then I handled.state (history ++ handled.observed)
      else J handled.state (history ++ handled.observed)) :
    J (reissue arm handle handled as).1 (history ++ (reissue arm handle handled as).2) := by
  induction as generalizing handled history with
  | nil =>
    rw [reissue]
    split_ifs at h ⊢
    · exact harm _ _ h
    · exact h
  | cons a as ih =>
    rw [List.forall_mem_cons] at hhandle
    rw [reissue]
    split_ifs at h ⊢
    · have hrest := ih hhandle.2 (hhandle.1 handled.state _ h)
      rwa [List.append_assoc] at hrest
    · exact h

/-- Assumes: a property that every handler keeps, and an outcome after which the operation is not
issued again. The property holds at the end: nothing is armed. -/
theorem reissue_stops {I : σ → Prop} (hhandle : ∀ s a, I s → I (handle s a).state)
    {as : List α} {handled : Handled σ ω} (h : I handled.state)
    (hstop : handled.again = false ∨ ∃ a ∈ as, ∀ s, (handle s a).again = false) :
    I (reissue arm handle handled as).1 := by
  induction as generalizing handled with
  | nil =>
    have hagain : handled.again = false := hstop.resolve_right (by simp)
    rw [reissue, hagain]
    exact h
  | cons a as ih =>
    rw [reissue]
    split_ifs with hagain
    · refine ih (hhandle _ a h) ?_
      obtain ⟨b, hb, hlast⟩ := hstop.resolve_left (by simp [hagain])
      rcases List.mem_cons.mp hb with rfl | hrest
      · exact .inl (hlast _)
      · exact .inr ⟨b, hrest, hlast⟩
    · exact h

end Felicia.Support
