import Mathlib.Data.List.Basic

/-!
# Transition systems that emit observations

A state, an input and a partial step that yields the next state and what was observed on the way; a
step that has no result is undefined. A run is a chain of defined steps from an initial state, each
taken where a guard on the state and the input holds. Its history is the list of its observations,
oldest first.

`Run.invariant` is the induction rule: a relation between states and histories that holds at the
start and is kept by every guarded step holds at the end of every run; `Run.safe` is its form for
a set of states together with a set of observations. `exec` runs a list of inputs under a decidable
guard, and `Run.of_exec` turns a successful execution into a run.
-/

set_option autoImplicit false
set_option relaxedAutoImplicit false

namespace Felicia.Support

/-- States, inputs and observations, with a partial step. -/
structure TransitionSystem (σ α ω : Type*) where
  Initial : σ → Prop
  step : σ → α → Option (σ × List ω)

namespace TransitionSystem

variable {σ α ω : Type*} {T : TransitionSystem σ α ω}

/-- The state and the history at the end of a chain of guarded steps. -/
inductive Run (T : TransitionSystem σ α ω) (guard : σ → α → Prop) : σ → List ω → Prop
  | start {s : σ} (hinitial : T.Initial s) : Run T guard s []
  | next {s s' : σ} {a : α} {history observed : List ω} (run : Run T guard s history)
      (hguard : guard s a) (hstep : T.step s a = some (s', observed)) :
      Run T guard s' (history ++ observed)

/-- No condition on the steps of a run. -/
def unguarded (_ : σ) (_ : α) : Prop := True

instance (s : σ) (a : α) : Decidable (unguarded s a) := isTrue trivial

/-- A state at the end of some run. -/
def Reachable (T : TransitionSystem σ α ω) (guard : σ → α → Prop) (s : σ) : Prop :=
  ∃ history, Run T guard s history

theorem Reachable.next {guard : σ → α → Prop} {s s' : σ} {a : α} {observed : List ω}
    (h : Reachable T guard s) (hguard : guard s a) (hstep : T.step s a = some (s', observed)) :
    Reachable T guard s' := by
  obtain ⟨history, run⟩ := h
  exact ⟨history ++ observed, run.next hguard hstep⟩

/-- The same steps, started in a given state: its runs are what can follow that state. -/
def startingAt (T : TransitionSystem σ α ω) (s : σ) : TransitionSystem σ α ω where
  Initial t := t = s
  step := T.step

/-- Assumes: a relation that holds at the start and is kept by every guarded step of a run. -/
theorem Run.invariant {guard : σ → α → Prop} {I : σ → List ω → Prop}
    (hstart : ∀ s, T.Initial s → I s [])
    (hnext : ∀ s a s' history observed, Run T guard s history → I s history → guard s a →
      T.step s a = some (s', observed) → I s' (history ++ observed))
    {s : σ} {history : List ω} (run : Run T guard s history) : I s history := by
  induction run with
  | start hinitial => exact hstart _ hinitial
  | next run hguard hstep ih => exact hnext _ _ _ _ _ run ih hguard hstep

/-- Assumes: a set of states that holds the initial ones and is kept by every guarded step. -/
theorem Reachable.invariant {guard : σ → α → Prop} {I : σ → Prop}
    (hstart : ∀ s, T.Initial s → I s)
    (hnext : ∀ s a s' observed, I s → guard s a → T.step s a = some (s', observed) → I s')
    {s : σ} (h : Reachable T guard s) : I s := by
  obtain ⟨history, run⟩ := h
  have hinv : (fun (t : σ) (_ : List ω) ↦ I t) s history :=
    run.invariant hstart fun s a s' _ observed _ ↦ hnext s a s' observed
  exact hinv

/-- Assumes: a set of states that holds the initial ones and is kept by every guarded step of a run,
and observations that are allowed whenever such a step makes them. -/
theorem Run.safe {guard : σ → α → Prop} {I : σ → Prop} {allowed : ω → Prop}
    (hstart : ∀ s, T.Initial s → I s)
    (hnext : ∀ s a s' observed, Reachable T guard s → I s → guard s a →
      T.step s a = some (s', observed) → I s' ∧ ∀ o ∈ observed, allowed o)
    {s : σ} {history : List ω} (run : Run T guard s history) :
    I s ∧ ∀ o ∈ history, allowed o := by
  refine run.invariant (I := fun s history ↦ I s ∧ ∀ o ∈ history, allowed o) ?_ ?_
  · exact fun s hinitial ↦ ⟨hstart s hinitial, List.forall_mem_nil _⟩
  · intro s a s' history observed run hinv hguard hstep
    obtain ⟨hkept, hallowed⟩ := hnext s a s' observed ⟨history, run⟩ hinv.1 hguard hstep
    exact ⟨hkept, List.forall_mem_append.mpr ⟨hinv.2, hallowed⟩⟩

/-- Run a list of inputs, stopping where the guard fails or a step is undefined. -/
def exec (T : TransitionSystem σ α ω) (guard : σ → α → Prop) [∀ s a, Decidable (guard s a)]
    (s : σ) (history : List ω) : List α → Option (σ × List ω)
  | [] => some (s, history)
  | a :: as =>
    if guard s a then
      match T.step s a with
      | none => none
      | some (s', observed) => exec T guard s' (history ++ observed) as
    else none

/-- The execution of two lists, one after the other. -/
theorem exec_append {guard : σ → α → Prop} [∀ s a, Decidable (guard s a)] (s : σ)
    (history : List ω) (as bs : List α) : T.exec guard s history (as ++ bs) =
      (T.exec guard s history as).bind fun result ↦ T.exec guard result.1 result.2 bs := by
  induction as generalizing s history with
  | nil => rfl
  | cons a as ih =>
    rw [List.cons_append, exec, exec]
    by_cases hguard : guard s a
    · rw [if_pos hguard, if_pos hguard]
      cases hstep : T.step s a with
      | none => rfl
      | some result => exact ih _ _
    · rw [if_neg hguard, if_neg hguard]
      rfl

/-- Assumes: an execution that goes through. It continues the run it started from. -/
theorem Run.of_exec {guard : σ → α → Prop} [∀ s a, Decidable (guard s a)] {s s' : σ}
    {history history' : List ω} {as : List α} (run : Run T guard s history)
    (h : T.exec guard s history as = some (s', history')) : Run T guard s' history' := by
  induction as generalizing s history with
  | nil =>
    cases h
    exact run
  | cons a as ih =>
    rw [exec] at h
    split_ifs at h with hguard
    cases hstep : T.step s a with
    | none => simp [hstep] at h
    | some result =>
      rw [hstep] at h
      exact ih (run.next hguard hstep) h

end TransitionSystem

end Felicia.Support
