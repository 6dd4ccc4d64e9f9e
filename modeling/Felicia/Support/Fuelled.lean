import Mathlib.Data.List.Forall2
import Mathlib.Order.Lattice

/-!
# Recursion with a bound on its depth

A recursion that may not end is given a bound on its depth. What it computes within a bound it also
computes within a larger one, so it is a relation that grows with the bound (`Grows`), and the bound
is not part of what it computes. `Grows.forall₂` says that finitely many results within some bounds
are all had within one.

`mapM_eq_ok_iff` and `exists_forall₂` go from a list of computations that may fail to the list of
their results and back. `join_flatten_mapIdx` is for lists that are written with a separator after
each element but the last.
-/

set_option autoImplicit false
set_option relaxedAutoImplicit false

namespace Felicia.Support

variable {α β ε : Type*}

/-! ### Lists of results -/

/-- A list of computations goes through exactly when each of them does. -/
theorem mapM_eq_ok_iff {f : α → Except ε β} {as : List α} {bs : List β} :
    as.mapM f = .ok bs ↔ List.Forall₂ (fun a b ↦ f a = .ok b) as bs := by
  induction as generalizing bs with
  | nil =>
    rw [List.mapM_nil, List.forall₂_nil_left_iff]
    exact ⟨fun h ↦ (Except.ok.inj h).symm, fun h ↦ h ▸ rfl⟩
  | cons a as ih =>
    rw [List.mapM_cons, List.forall₂_cons_left_iff]
    cases hf : f a with
    | error e =>
      refine iff_of_false (fun h ↦ ?_) ?_
      · cases h
      · rintro ⟨b, bs', h, -, -⟩
        cases h
    | ok b =>
      cases hrest : as.mapM f with
      | error e =>
        refine iff_of_false (fun h ↦ ?_) ?_
        · cases h
        · rintro ⟨b', bs', -, h, -⟩
          rw [← ih, hrest] at h
          cases h
      | ok bs' =>
        change Except.ok (b :: bs') = Except.ok bs ↔ _
        constructor
        · intro h
          exact ⟨b, bs', rfl, ih.mp hrest, (Except.ok.inj h).symm⟩
        · rintro ⟨b', bs'', hhead, htail, rfl⟩
          rw [← ih, hrest] at htail
          rw [Except.ok.inj hhead, Except.ok.inj htail]

/-- Assumes: something that belongs to each element. -/
theorem exists_forall₂ {R : α → β → Prop} {as : List α} (h : ∀ a ∈ as, ∃ b, R a b) :
    ∃ bs, List.Forall₂ R as bs := by
  induction as with
  | nil => exact ⟨[], List.Forall₂.nil⟩
  | cons a as ih =>
    obtain ⟨b, hb⟩ := h a (List.mem_cons_self ..)
    obtain ⟨bs, hbs⟩ := ih fun a' ha' ↦ h a' (List.mem_cons_of_mem a ha')
    exact ⟨b :: bs, List.Forall₂.cons hb hbs⟩

theorem exists_of_forall₂ {R : α → β → Prop} {as : List α} {bs : List β}
    (h : List.Forall₂ R as bs) : ∀ a ∈ as, ∃ b, R a b := by
  induction h with
  | nil => exact List.forall_mem_nil _
  | cons hhead _ ih => exact List.forall_mem_cons.mpr ⟨⟨_, hhead⟩, ih⟩

/-- Results that are only seen through a function. -/
theorem forall₂_map_iff {γ : Type*} {R : α → γ → Prop} {g : γ → β} {as : List α} {bs : List β} :
    (∃ cs, List.Forall₂ R as cs ∧ cs.map g = bs) ↔
      List.Forall₂ (fun a b ↦ ∃ c, R a c ∧ g c = b) as bs := by
  constructor
  · rintro ⟨cs, hcs, rfl⟩
    exact List.forall₂_map_right_iff.mpr (hcs.imp fun _ c hc ↦ ⟨c, hc, rfl⟩)
  · intro h
    induction h with
    | nil => exact ⟨[], List.Forall₂.nil, rfl⟩
    | cons hhead _ ih =>
      obtain ⟨c, hc, rfl⟩ := hhead
      obtain ⟨cs, hcs, rfl⟩ := ih
      exact ⟨c :: cs, List.Forall₂.cons hc hcs, rfl⟩

/-- What holds by place holds by element. -/
theorem forall₂_range_iff {R : ℕ → β → Prop} {S : α → β → Prop} {as : List α} {bs : List β}
    (h : ∀ i a, as[i]? = some a → ∀ b, R i b ↔ S a b) :
    List.Forall₂ R (List.range as.length) bs ↔ List.Forall₂ S as bs := by
  rw [List.forall₂_iff_get, List.forall₂_iff_get]
  refine and_congr (by rw [List.length_range]) (forall_congr' fun i ↦ ?_)
  constructor
  · intro hR hi hi'
    have hplace := hR (by rwa [List.length_range]) hi'
    simp only [List.get_eq_getElem, List.getElem_range] at hplace
    exact (h i _ (List.getElem?_eq_getElem hi) _).mp hplace
  · intro hS hi hi'
    rw [List.length_range] at hi
    simp only [List.get_eq_getElem, List.getElem_range]
    exact (h i _ (List.getElem?_eq_getElem hi) _).mpr (hS hi hi')

/-! ### Bounds -/

/-- What holds within a bound holds within the next. -/
def Grows (R : ℕ → α → β → Prop) : Prop := ∀ n a b, R n a b → R (n + 1) a b

/-- It holds within some bound. -/
def Within (R : ℕ → α → β → Prop) (a : α) (b : β) : Prop := ∃ n, R n a b

namespace Grows

variable {R : ℕ → α → β → Prop} (hgrows : Grows R)

include hgrows

theorem of_le {n m : ℕ} (hle : n ≤ m) {a : α} {b : β} (h : R n a b) : R m a b := by
  induction hle with
  | refl => exact h
  | step _ ih => exact hgrows _ a b ih

/-- Finitely many results are had within one bound. -/
theorem forall₂ {as : List α} {bs : List β} (h : List.Forall₂ (Within R) as bs) :
    ∃ n, List.Forall₂ (R n) as bs := by
  induction h with
  | nil => exact ⟨0, List.Forall₂.nil⟩
  | cons hhead _ ih =>
    obtain ⟨n, hn⟩ := hhead
    obtain ⟨m, hm⟩ := ih
    refine ⟨max n m, List.Forall₂.cons (hgrows.of_le (le_max_left n m) hn) ?_⟩
    exact hm.imp fun a b ↦ hgrows.of_le (le_max_right n m)

end Grows

/-! ### Separators -/

theorem join_flatten (lists : List (List String)) :
    String.join lists.flatten = String.join (lists.map String.join) := by
  induction lists with
  | nil => rfl
  | cons entities lists ih =>
    rw [List.flatten_cons, String.join_append, List.map_cons, String.join_cons, ih]

/-- A separator after each list but the last. -/
theorem join_flatten_mapIdx (separator : String) (lists : List (List String)) :
    String.join (lists.mapIdx fun i entities ↦
      if i ≠ lists.length - 1 then entities ++ [separator] else entities).flatten =
      separator.intercalate (lists.map String.join) := by
  induction lists with
  | nil => rfl
  | cons entities lists ih =>
    rw [List.mapIdx_cons, List.flatten_cons, String.join_append, List.map_cons, List.length_cons,
      Nat.add_sub_cancel]
    by_cases hlast : lists = []
    · subst hlast
      simp
    · have hpos : 0 < lists.length := List.length_pos_iff.mpr hlast
      have hshift : (fun (i : ℕ) (entities : List String) ↦
          if i + 1 ≠ lists.length then entities ++ [separator] else entities) =
          fun i entities ↦ if i ≠ lists.length - 1 then entities ++ [separator] else entities := by
        funext i entities
        have hiff : i + 1 ≠ lists.length ↔ i ≠ lists.length - 1 := by omega
        simp only [hiff]
      rw [hshift, ih, if_pos hpos.ne, String.join_append,
        String.intercalate_cons_of_ne_nil (by simpa using hlast)]
      simp

end Felicia.Support
