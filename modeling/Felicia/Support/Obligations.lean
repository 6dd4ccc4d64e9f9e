import Mathlib.Algebra.Order.Group.Multiset

/-!
# Obligations

Some observations of a system take on an obligation, others settle one, and a state holds the
obligations that are open. `Ledger.Balanced` says that nothing is lost and nothing settled twice:
what was settled and what is held are together what was taken on, as often as it was taken on.

`Balanced.append_iff` is the step rule: a balanced ledger stays balanced exactly when the step
itself is, that is, when what it settles and what is held afterwards are what was held before and
what it takes on.
-/

set_option autoImplicit false
set_option relaxedAutoImplicit false

namespace Felicia.Support

/-- How obligations appear in the observations and the states of a system. -/
structure Ledger (σ ω κ : Type*) where
  /-- The obligation that an observation takes on. -/
  issued : ω → Option κ
  /-- The obligation that an observation settles. -/
  settled : ω → Option κ
  /-- The obligations that are open. -/
  held : σ → Multiset κ

namespace Ledger

variable {σ ω κ : Type*} (L : Ledger σ ω κ) {s s' : σ} {history events : List ω}

/-- What a list of observations takes on. -/
def issues (events : List ω) : Multiset κ := events.filterMap L.issued

/-- What a list of observations settles. -/
def settles (events : List ω) : Multiset κ := events.filterMap L.settled

/-- Every obligation that was taken on was settled or is held. -/
def Balanced (s : σ) (history : List ω) : Prop :=
  L.settles history + L.held s = L.issues history

instance [DecidableEq κ] (s : σ) (history : List ω) : Decidable (L.Balanced s history) :=
  inferInstanceAs (Decidable (_ = _))

/-- A step settles, or goes on to hold, what was held before it and what it takes on. -/
def Keeps (s : σ) (result : σ × List ω) : Prop :=
  L.settles result.2 + L.held result.1 = L.held s + L.issues result.2

variable {L}

theorem issues_append : L.issues (history ++ events) = L.issues history + L.issues events := by
  rw [issues, List.filterMap_append, ← Multiset.coe_add]
  rfl

theorem settles_append :
    L.settles (history ++ events) = L.settles history + L.settles events := by
  rw [settles, List.filterMap_append, ← Multiset.coe_add]
  rfl

/-- Assumes: a ledger that is balanced before the step. -/
theorem Balanced.append_iff (h : L.Balanced s history) :
    L.Balanced s' (history ++ events) ↔ L.Keeps s (s', events) := by
  rw [Balanced, settles_append, issues_append, ← h, Keeps, add_assoc, add_assoc,
    add_right_inj]

/-- Assumes: a first part of the step that is balanced. -/
theorem Keeps.append_iff (h : L.Keeps s (s', history)) {t : σ} :
    L.Keeps s (t, history ++ events) ↔ L.Keeps s' (t, events) := by
  simp only [Keeps] at h ⊢
  rw [settles_append, issues_append, ← add_assoc, ← h, add_assoc, add_assoc, add_right_inj]

/-- Assumes: a state that holds nothing. -/
theorem Balanced.settles_eq (h : L.Balanced s history) (hheld : L.held s = 0) :
    L.settles history = L.issues history := by
  rw [← h, hheld, add_zero]

/-- Assumes: observations that take nothing on and settle nothing. -/
theorem issues_eq_zero (hevents : ∀ e ∈ events, L.issued e = none) : L.issues events = 0 := by
  rw [issues, List.filterMap_eq_nil_iff.mpr hevents]
  rfl

theorem settles_eq_zero (hevents : ∀ e ∈ events, L.settled e = none) : L.settles events = 0 := by
  rw [settles, List.filterMap_eq_nil_iff.mpr hevents]
  rfl

/-- Assumes: observations that take nothing on and settle nothing. -/
theorem keeps_of_quiet (hissued : ∀ e ∈ events, L.issued e = none)
    (hsettled : ∀ e ∈ events, L.settled e = none) (h : L.held s' = L.held s) :
    L.Keeps s (s', events) := by
  rw [Keeps, settles_eq_zero hsettled, issues_eq_zero hissued, h, zero_add, add_zero]

/-- Nothing is taken on, settled or dropped. -/
theorem keeps_nil (h : L.held s' = L.held s) : L.Keeps s (s', []) := by
  exact keeps_of_quiet (List.forall_mem_nil _) (List.forall_mem_nil _) h

end Ledger

end Felicia.Support
