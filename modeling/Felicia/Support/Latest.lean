import Mathlib.Data.List.Basic

/-!
# The latest value since a start

A listener follows a history of observations. Some of them start its attention anew, and some carry
a value for it; `latest` is the last value since the last start. What the listener should know is a
set of stored values, together with the values that say nothing is stored any more. `Agrees` relates
the two, and `Agrees.latestFrom` is the rule for extending the history: when every new value agrees
with what is stored now, so does the latest one, provided the listener agreed before or some new
value reached it.
-/

set_option autoImplicit false
set_option relaxedAutoImplicit false

namespace Felicia.Support

variable {ω α : Type*} {starts : ω → Bool} {value : ω → Option α}

/-- Go on from the last value known before. -/
def latestFrom (starts : ω → Bool) (value : ω → Option α) (last : Option α) (observed : List ω) :
    Option α :=
  observed.foldl (fun last o ↦ if starts o then none else (value o).or last) last

/-- The last value since the last start. -/
def latest (starts : ω → Bool) (value : ω → Option α) (history : List ω) : Option α :=
  latestFrom starts value none history

theorem latest_append (history observed : List ω) : latest starts value (history ++ observed) =
    latestFrom starts value (latest starts value history) observed :=
  List.foldl_append

/-- A start forgets what was known. -/
theorem latestFrom_cons_start {o : ω} (h : starts o = true) (last : Option α)
    (observed : List ω) :
    latestFrom starts value last (o :: observed) = latestFrom starts value none observed := by
  rw [latestFrom, List.foldl_cons, if_pos h]
  rfl

/-- What a listener was told last agrees with what is stored: it is stored, or nothing is and it
says so, or nothing is and it was told nothing. -/
def Agrees (stored withdrawn : α → Prop) : Option α → Prop
  | some x => stored x ∨ (∀ y, ¬ stored y) ∧ withdrawn x
  | none => ∀ y, ¬ stored y

/-- Assumes: observations without a start whose values agree with what is stored. -/
theorem Agrees.latestFrom {stored withdrawn : α → Prop} {observed : List ω}
    (hstart : ∀ o ∈ observed, starts o = false)
    (hvalue : ∀ o ∈ observed, ∀ x ∈ value o, Agrees stored withdrawn (some x))
    {last : Option α}
    (h : Agrees stored withdrawn last ∨ ∃ o ∈ observed, (value o).isSome = true) :
    Agrees stored withdrawn (latestFrom starts value last observed) := by
  induction observed generalizing last with
  | nil => exact h.resolve_right (by simp)
  | cons o observed ih =>
    rw [List.forall_mem_cons] at hstart hvalue
    rw [Support.latestFrom, List.foldl_cons, hstart.1]
    refine ih hstart.2 hvalue.2 ?_
    cases hv : value o with
    | some x => exact Or.inl (hvalue.1 x hv)
    | none =>
      refine h.imp_right ?_
      rintro ⟨o', ho', hsome⟩
      rcases List.mem_cons.mp ho' with rfl | htail
      · rw [hv] at hsome
        cases hsome
      · exact ⟨o', htail, hsome⟩

/-- Assumes: the same values are stored. -/
theorem Agrees.congr {stored stored' withdrawn : α → Prop} (h : ∀ x, stored' x ↔ stored x)
    {last : Option α} (hlast : Agrees stored withdrawn last) : Agrees stored' withdrawn last := by
  have heq : stored' = stored := funext fun x ↦ propext (h x)
  rwa [heq]

/-- Assumes: what is stored is unique. It is what the listener was told last. -/
theorem Agrees.eq_some {stored withdrawn : α → Prop} {last : Option α}
    (h : Agrees stored withdrawn last) (hunique : ∀ x y, stored x → stored y → x = y) {x : α}
    (hx : stored x) : last = some x := by
  cases last with
  | none => exact absurd hx (h x)
  | some y =>
    rcases h with hy | hy
    · rw [hunique y x hy hx]
    · exact absurd hx (hy.1 x)

/-- Assumes: nothing is stored. Whatever the listener was told last says so. -/
theorem Agrees.withdrawn_of_mem {stored withdrawn : α → Prop} {last : Option α}
    (h : Agrees stored withdrawn last) (hnone : ∀ x, ¬ stored x) {x : α} (hx : x ∈ last) :
    withdrawn x := by
  rw [Option.mem_def.mp hx] at h
  exact (h.resolve_left (hnone x)).2

end Felicia.Support
