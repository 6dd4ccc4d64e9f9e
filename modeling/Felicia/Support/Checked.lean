import Mathlib.Data.List.Basic

/-!
# Calls with checks

A call that changes a state may return a value or an error, or run into a check that fails, after
which nothing is known. `collect` makes such calls for one item after the other, and puts together
what they return.
-/

set_option autoImplicit false
set_option relaxedAutoImplicit false

namespace Felicia.Support

variable {σ ε α γ ι : Type*}

/-- What a call comes to. -/
inductive Checked (σ ε α : Type*)
  /-- A check failed. -/
  | aborted
  | failed (s : σ) (e : ε)
  | ok (s : σ) (a : α)
  deriving DecidableEq

namespace Checked

/-- Go on with what was returned. -/
def andThen (c : Checked σ ε α) (next : σ → α → Checked σ ε γ) : Checked σ ε γ :=
  match c with
  | aborted => .aborted
  | failed s e => .failed s e
  | ok s a => next s a

/-- Change what is returned. -/
def map (f : α → γ) (c : Checked σ ε α) : Checked σ ε γ :=
  match c with
  | aborted => .aborted
  | failed s e => .failed s e
  | ok s a => .ok s (f a)

@[simp] theorem andThen_ok (s : σ) (a : α) (next : σ → α → Checked σ ε γ) :
    (ok s a).andThen next = next s a := rfl

@[simp] theorem andThen_failed (s : σ) (e : ε) (next : σ → α → Checked σ ε γ) :
    (failed s e).andThen next = .failed s e := rfl

@[simp] theorem andThen_aborted (next : σ → α → Checked σ ε γ) :
    aborted.andThen next = .aborted := rfl

@[simp] theorem map_ok (f : α → γ) (s : σ) (a : α) : (ok s a : Checked σ ε α).map f = .ok s (f a) := rfl

@[simp] theorem map_failed (f : α → γ) (s : σ) (e : ε) : (failed s e).map f = .failed s e := rfl

@[simp] theorem map_aborted (f : α → γ) : (aborted : Checked σ ε α).map f = .aborted := rfl

/-- The call returned a value. -/
def isOk : Checked σ ε α → Bool
  | ok _ _ => true
  | _ => false

/-- No check failed. -/
def isChecked : Checked σ ε α → Bool
  | aborted => false
  | _ => true

@[simp] theorem isOk_map (f : α → γ) (c : Checked σ ε α) : (c.map f).isOk = c.isOk := by
  cases c <;> rfl

@[simp] theorem isChecked_map (f : α → γ) (c : Checked σ ε α) :
    (c.map f).isChecked = c.isChecked := by
  cases c <;> rfl

theorem andThen_eq_ok {c : Checked σ ε α} {next : σ → α → Checked σ ε γ} {s : σ} {b : γ} :
    c.andThen next = .ok s b ↔ ∃ s' a, c = .ok s' a ∧ next s' a = .ok s b := by
  cases c <;> simp

theorem map_eq_ok {c : Checked σ ε α} {f : α → γ} {s : σ} {b : γ} :
    c.map f = .ok s b ↔ ∃ a, c = .ok s a ∧ f a = b := by
  cases c <;> simp [map]

/-! ### One item after the other -/

/-- Make a call for each item, and put together what is returned. -/
def collect (call : σ → ι → Checked σ ε (List γ)) (s : σ) : List ι → Checked σ ε (List γ)
  | [] => .ok s []
  | i :: rest => (call s i).andThen fun next cs ↦ (collect call next rest).map (cs ++ ·)

theorem collect_append (call : σ → ι → Checked σ ε (List γ)) (s : σ) (is is' : List ι) :
    collect call s (is ++ is') =
      (collect call s is).andThen fun next cs ↦ (collect call next is').map (cs ++ ·) := by
  induction is generalizing s with
  | nil => cases h : collect call s is' <;> simp [collect, h]
  | cons i is ih =>
    rw [List.cons_append, collect, collect]
    cases hfirst : call s i with
    | aborted => rfl
    | failed s e => rfl
    | ok s cs =>
      simp only [andThen_ok, ih]
      cases hmiddle : collect call s is with
      | aborted => rfl
      | failed s e => rfl
      | ok s cs' =>
        simp only [andThen_ok, map_ok]
        cases hlast : collect call s is' <;> simp

/-- What holds of everything that a call returns holds of what is put together. -/
theorem forall_mem_collect {call : σ → ι → Checked σ ε (List γ)} {P : γ → Prop}
    (hcall : ∀ s i s' cs, call s i = .ok s' cs → ∀ c ∈ cs, P c) {s s' : σ} {is : List ι}
    {cs : List γ} (h : collect call s is = .ok s' cs) : ∀ c ∈ cs, P c := by
  induction is generalizing s cs with
  | nil =>
    cases h
    exact fun c hc ↦ absurd hc List.not_mem_nil
  | cons i is ih =>
    rw [collect, andThen_eq_ok] at h
    obtain ⟨next, first, hfirst, hothers⟩ := h
    obtain ⟨more, hmore, rfl⟩ := map_eq_ok.mp hothers
    exact fun c hc ↦ (List.mem_append.mp hc).elim (hcall s i next first hfirst c) (ih hmore c)

/-- The items may come in parts. -/
theorem collect_flatten (call : σ → ι → Checked σ ε (List γ)) (s : σ) (parts : List (List ι)) :
    collect (collect call) s parts = collect call s parts.flatten := by
  induction parts generalizing s with
  | nil => rfl
  | cons part rest ih =>
    rw [collect, List.flatten_cons, collect_append]
    simp only [ih]

end Checked

end Felicia.Support
