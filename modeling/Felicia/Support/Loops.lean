import Mathlib.Data.List.Basic

/-!
# Loops

A loop whose rounds yield the next state, or end it, or fail, run for at most some rounds.
`runLoop_meets` is its rule: an invariant that every round keeps, and a measure that falls whenever
the loop goes on, give what holds at its end, and that it ends within as many rounds as the measure
of its start allows. `Visits.invariant` is about the states on the way.
-/

set_option autoImplicit false
set_option relaxedAutoImplicit false

namespace Felicia.Support

/-- What a round of a loop comes to. -/
inductive LoopRound (σ ρ : Type*)
  | failed
  | again (s : σ)
  | done (r : ρ)

/-- What a loop comes to. -/
inductive LoopEnd (ρ : Type*)
  | failed
  /-- More rounds were needed than were allowed. -/
  | unfinished
  | finished (r : ρ)

variable {σ ρ : Type*}

/-- A round fails only where it may, and else leads to states or results that are allowed. -/
def LoopRound.Meets (fails : Prop) (P : σ → Prop) (Q : ρ → Prop) : LoopRound σ ρ → Prop
  | failed => fails
  | again s => P s
  | done r => Q r

/-- A loop ends, fails only where it may, and else has a result that is allowed. -/
def LoopEnd.Meets (fails : Prop) (Q : ρ → Prop) : LoopEnd ρ → Prop
  | failed => fails
  | unfinished => False
  | finished r => Q r

theorem LoopRound.Meets.mono {fails : Prop} {P P' : σ → Prop} {Q Q' : ρ → Prop}
    {round : LoopRound σ ρ} (h : round.Meets fails P Q) (hagain : ∀ s, P s → P' s)
    (hdone : ∀ r, Q r → Q' r) : round.Meets fails P' Q' := by
  cases round with
  | failed => exact h
  | again s => exact hagain s h
  | done r => exact hdone r h

/-- The result, if there is one. -/
def LoopEnd.result? : LoopEnd ρ → Option ρ
  | finished r => some r
  | _ => none

theorem LoopEnd.result?_eq_some_iff {ending : LoopEnd ρ} {r : ρ} :
    ending.result? = some r ↔ ending = .finished r := by
  cases ending <;> simp [result?]

/-- What follows a loop, if it ends. -/
def LoopEnd.bind {τ : Type*} (ending : LoopEnd ρ) (next : ρ → LoopEnd τ) : LoopEnd τ :=
  match ending with
  | failed => .failed
  | unfinished => .unfinished
  | finished r => next r

@[simp] theorem LoopEnd.bind_finished {τ : Type*} (r : ρ) (next : ρ → LoopEnd τ) :
    (LoopEnd.finished r).bind next = next r := rfl

theorem LoopEnd.bind_eq_finished_iff {τ : Type*} {ending : LoopEnd ρ} {next : ρ → LoopEnd τ}
    {result : τ} : ending.bind next = .finished result ↔
      ∃ r, ending = .finished r ∧ next r = .finished result := by
  cases ending <;> simp [bind]

/-- A loop that does not fail has a result. -/
theorem LoopEnd.Meets.finished {Q : ρ → Prop} {ending : LoopEnd ρ} (h : ending.Meets False Q) :
    ∃ r, ending = .finished r ∧ Q r := by
  cases ending with
  | failed => exact h.elim
  | unfinished => exact h.elim
  | finished r => exact ⟨r, rfl, h⟩

/-- At most some rounds of a loop. -/
def runLoop (round : σ → LoopRound σ ρ) : ℕ → σ → LoopEnd ρ
  | 0, _ => .unfinished
  | rounds + 1, s =>
    match round s with
    | .failed => .failed
    | .again next => runLoop round rounds next
    | .done r => .finished r

/-- Assumes: an invariant of the states, a measure of them that falls in every round that does not
end the loop, and more rounds than the measure of the first state. -/
theorem runLoop_meets {round : σ → LoopRound σ ρ} {fails : Prop} {P : σ → Prop} {Q : ρ → Prop}
    (measure : σ → ℕ)
    (hround : ∀ s, P s → (round s).Meets fails (fun next ↦ P next ∧ measure next < measure s) Q)
    {rounds : ℕ} {s : σ} (h : P s) (hrounds : measure s < rounds) :
    (runLoop round rounds s).Meets fails Q := by
  induction rounds generalizing s with
  | zero => omega
  | succ rounds ih =>
    have hmeets := hround s h
    unfold runLoop
    cases hresult : round s with
    | failed =>
      rw [hresult] at hmeets
      exact hmeets
    | again next =>
      rw [hresult] at hmeets
      exact ih hmeets.1 (by have hlt := hmeets.2; omega)
    | done r =>
      rw [hresult] at hmeets
      exact hmeets

/-- More rounds make no difference to a loop that has ended. -/
theorem runLoop_mono {round : σ → LoopRound σ ρ} {rounds more : ℕ} {s : σ} {r : ρ}
    (h : runLoop round rounds s = .finished r) (hle : rounds ≤ more) :
    runLoop round more s = .finished r := by
  induction rounds generalizing s more with
  | zero => cases h
  | succ rounds ih =>
    obtain ⟨more, rfl⟩ : ∃ m, more = m + 1 := ⟨more - 1, by omega⟩
    unfold runLoop at h ⊢
    cases hresult : round s with
    | failed =>
      rw [hresult] at h
      cases h
    | again next =>
      rw [hresult] at h
      exact ih h (by omega)
    | done result =>
      rw [hresult] at h
      exact h

/-- Assumes: an invariant of the states. What holds at the end of a loop, if it ends. -/
theorem runLoop_keeps {round : σ → LoopRound σ ρ} {P : σ → Prop} {Q : ρ → Prop}
    (hround : ∀ s, P s → (round s).Meets True P Q) {rounds : ℕ} {s : σ} (h : P s) {r : ρ}
    (hrun : runLoop round rounds s = .finished r) : Q r := by
  induction rounds generalizing s with
  | zero => cases hrun
  | succ rounds ih =>
    have hmeets := hround s h
    unfold runLoop at hrun
    cases hresult : round s with
    | failed =>
      rw [hresult] at hrun
      cases hrun
    | again next =>
      rw [hresult] at hmeets hrun
      exact ih hmeets hrun
    | done result =>
      rw [hresult] at hmeets hrun
      cases hrun
      exact hmeets

/-- The states in which the rounds of a loop begin. -/
inductive Visits (round : σ → LoopRound σ ρ) (start : σ) : σ → Prop
  | start : Visits round start start
  | again {s next : σ} (visits : Visits round start s) (hround : round s = .again next) :
      Visits round start next

/-- Assumes: an invariant of the states. It holds whenever a round begins. -/
theorem Visits.invariant {round : σ → LoopRound σ ρ} {P : σ → Prop}
    (hround : ∀ s next, P s → round s = .again next → P next) {start s : σ} (h : P start)
    (visits : Visits round start s) : P s := by
  induction visits with
  | start => exact h
  | again _ hnext ih => exact hround _ _ ih hnext

end Felicia.Support
