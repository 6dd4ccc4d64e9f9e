import Mathlib.Data.List.Perm.Basic
import Mathlib.Order.Lattice
import Mathlib.Order.RelClasses

/-!
# The first of the least elements of a list

A strict weak order may leave different elements incomparable, so that a list can have several least
ones. A scan that goes on with an element only when it is less than the one kept so far ends with
the first of them (`isFirstLeast_scan`), which is the same for every order of the list up to what
the order does not tell apart (`incomparable_of_perm`).
-/

set_option autoImplicit false
set_option relaxedAutoImplicit false

namespace Felicia.Support

variable {α β : Type*} {lt : α → α → Prop} {as bs seen : List α} {a b : α}

/-- What is compared by its rank in a linear order is in a strict weak order. -/
theorem isStrictWeakOrder_of_rank [LinearOrder β] (rank : α → β)
    (h : ∀ a b, lt a b ↔ rank a < rank b) : IsStrictWeakOrder α lt where
  irrefl a hlt := lt_irrefl (rank a) ((h a a).mp hlt)
  trans a b c hab hbc := (h a c).mpr (((h a b).mp hab).trans ((h b c).mp hbc))
  incomp_trans a b c hab hbc := by
    have hnot (x y : α) : ¬lt x y ↔ rank y ≤ rank x := (h x y).not.trans not_lt
    rw [hnot, hnot] at hab hbc ⊢
    exact ⟨hbc.1.trans hab.1, hab.2.trans hbc.2⟩

/-- An element of a list with none less than it, and with one that is less than each before it. -/
def IsFirstLeast (lt : α → α → Prop) (as : List α) (a : α) : Prop :=
  (∀ b ∈ as, ¬lt b a) ∧
    ∃ before after, as = before ++ a :: after ∧ ∀ b ∈ before, ∃ c ∈ as, lt c b

/-- Neither is less than the other. -/
def Incomparable (lt : α → α → Prop) (a b : α) : Prop := ¬lt a b ∧ ¬lt b a

theorem IsFirstLeast.mem (h : IsFirstLeast lt as a) : a ∈ as := by
  obtain ⟨-, before, after, rfl, -⟩ := h
  exact List.mem_append_right before List.mem_cons_self

theorem incomparable_of_perm (h : IsFirstLeast lt as a) (h' : IsFirstLeast lt bs b)
    (hperm : as.Perm bs) : Incomparable lt a b :=
  ⟨h'.1 a (hperm.mem_iff.mp h.mem), h.1 b (hperm.mem_iff.mpr h'.mem)⟩

/-- The first least element stays the first when one is put behind that is not less. -/
theorem IsFirstLeast.concat_of_not_lt (h : IsFirstLeast lt seen a) (hnot : ¬lt b a) :
    IsFirstLeast lt (seen ++ [b]) a := by
  obtain ⟨hleast, before, after, rfl, hbefore⟩ := h
  refine ⟨fun c hc ↦ ?_, before, after ++ [b], by simp, fun c hc ↦ ?_⟩
  · obtain hc | hc := List.mem_append.mp hc
    · exact hleast c hc
    · rwa [List.mem_singleton.mp hc]
  · obtain ⟨d, hd, hlt⟩ := hbefore c hc
    exact ⟨d, List.mem_append_left [b] hd, hlt⟩

variable [IsStrictWeakOrder α lt]

/-- What is less than something is less than all that is not above it. -/
theorem lt_of_lt_of_not_lt {c : α} (hlt : lt a b) (hnot : ¬lt c b) : lt a c := by
  by_contra hac
  by_cases hca : lt c a
  · exact hnot (trans_of lt hca hlt)
  · have hbc : ¬lt b c := fun hbc ↦ hac (trans_of lt hlt hbc)
    exact (IsStrictWeakOrder.incomp_trans a c b ⟨hac, hca⟩ ⟨hnot, hbc⟩).1 hlt

theorem isFirstLeast_singleton (a : α) : IsFirstLeast lt [a] a := by
  refine ⟨fun b hb ↦ ?_, [], [], rfl, List.forall_mem_nil _⟩
  rw [List.mem_singleton.mp hb]
  exact irrefl_of lt a

/-- An element that is less than the first least one is the first when it is put behind. -/
theorem IsFirstLeast.concat_of_lt (h : IsFirstLeast lt seen a) (hlt : lt b a) :
    IsFirstLeast lt (seen ++ [b]) b := by
  refine ⟨fun c hc ↦ ?_, seen, [], rfl, fun c hc ↦ ?_⟩
  · obtain hc | hc := List.mem_append.mp hc
    · exact fun hcb ↦ h.1 c hc (trans_of lt hcb hlt)
    · rw [List.mem_singleton.mp hc]
      exact irrefl_of lt b
  · exact ⟨b, List.mem_append_right seen List.mem_cons_self, lt_of_lt_of_not_lt hlt (h.1 c hc)⟩

variable {less : α → α → Bool}

/-- A scan that keeps the element of its start until one is less. -/
def scan (less : α → α → Bool) (best : α) (as : List α) : α :=
  as.foldl (fun best a ↦ if less a best then a else best) best

theorem isFirstLeast_scan_append (hless : ∀ a b, less a b ↔ lt a b) (h : IsFirstLeast lt seen a) :
    IsFirstLeast lt (seen ++ as) (scan less a as) := by
  induction as generalizing seen a with
  | nil => rwa [List.append_nil]
  | cons b rest ih =>
    have hstep : IsFirstLeast lt (seen ++ [b]) (if less b a then b else a) := by
      by_cases hb : less b a
      · rw [if_pos hb]
        exact h.concat_of_lt ((hless b a).mp hb)
      · rw [if_neg hb]
        exact h.concat_of_not_lt (mt (hless b a).mpr hb)
    rw [← List.singleton_append, ← List.append_assoc]
    exact ih hstep

/-- Assumes: a decision of a strict weak order. A scan from the first element of a list, which may
go over that element again, ends with the first least one. -/
theorem isFirstLeast_scan (hless : ∀ a b, less a b ↔ lt a b) :
    IsFirstLeast lt (a :: as) (scan less a (a :: as)) := by
  have hself : ¬less a a := fun h ↦ irrefl_of lt a ((hless a a).mp h)
  rw [scan, List.foldl_cons, if_neg hself]
  exact isFirstLeast_scan_append hless (isFirstLeast_singleton a)

end Felicia.Support
