import Mathlib.Data.List.Basic
import Mathlib.Data.List.Flatten
import Mathlib.Data.List.Nodup
import Mathlib.Data.List.TakeWhile

/-!
# Lists of parties

A system of several parties keeps them in a list. `exists_split_set` opens such a list around the
party that a step replaces, and `getElem?_set_of_some` looks a party up after that; `zip_set` and
`eq_of_mem_zip` are for parties that have names.
`takeWhile_ne_eq_filter_iff` says when cutting a list off at an element only takes that element out.
`find?_toList_eq_filter_iff` and `flatMap_perm_iff_of_sublist` say when a search that stops early
returns all there is. `EachAfter` is for lists of observations, each of which needs a reason among
those before it.
-/

set_option autoImplicit false
set_option relaxedAutoImplicit false

namespace Felicia.Support

variable {α β : Type*}

/-- The list around an element that is replaced. -/
theorem exists_split_set {as : List α} {i : ℕ} {old : α} (h : as[i]? = some old) (new : α) :
    ∃ before after, as = before ++ old :: after ∧ as.set i new = before ++ new :: after := by
  obtain ⟨hi, hget⟩ := List.getElem?_eq_some_iff.mp h
  refine ⟨as.take i, as.drop (i + 1), ?_, ?_⟩
  · rw [← hget, List.getElem_cons_drop, List.take_append_drop]
  · rw [List.set_eq_take_append_cons_drop, if_pos hi]

theorem getElem?_set_of_some {as : List α} {i : ℕ} {old : α} (h : as[i]? = some old) (new : α)
    (j : ℕ) : (as.set i new)[j]? = if j = i then some new else as[j]? := by
  obtain ⟨hi, -⟩ := List.getElem?_eq_some_iff.mp h
  rw [List.getElem?_set]
  by_cases hij : i = j
  · rw [if_pos hij, if_pos hij.symm, if_pos hi]
  · rw [if_neg hij, if_neg (Ne.symm hij)]

theorem forall_getElem?_nil {p : ℕ → α → Prop} :
    ∀ i a, ([] : List α)[i]? = some a → p i a := by
  intro i a h
  cases h

/-- A statement about each place of a list, apart for the first. -/
theorem forall_getElem?_cons {p : ℕ → α → Prop} {first : α} {rest : List α} :
    (∀ i a, (first :: rest)[i]? = some a → p i a) ↔
      p 0 first ∧ ∀ i a, rest[i]? = some a → p (i + 1) a := by
  constructor
  · exact fun h ↦ ⟨h 0 first rfl, fun i a hi ↦ h (i + 1) a hi⟩
  · rintro ⟨hfirst, hrest⟩ i a hi
    cases i with
    | zero => rwa [← Option.some.inj hi]
    | succ i => exact hrest i a hi

theorem zip_set {as : List α} {bs : List β} {i : ℕ} {a : α} (h : as[i]? = some a) (b : β) :
    as.zip (bs.set i b) = (as.zip bs).set i (a, b) := by
  induction as generalizing bs i with
  | nil => simp at h
  | cons x as ih =>
    cases bs with
    | nil => simp
    | cons y bs =>
      cases i with
      | zero => simp_all
      | succ i => simpa using ih (by simpa using h)

/-- Assumes: names that tell their bearers apart. -/
theorem eq_of_mem_zip {as : List α} {bs : List β} (hlength : as.length = bs.length)
    (hnodup : as.Nodup) {x y : α × β} (hx : x ∈ as.zip bs) (hy : y ∈ as.zip bs) (h : x.1 = y.1) :
    x = y := by
  have hmap : ((as.zip bs).map Prod.fst).Nodup := by
    rwa [List.map_fst_zip (by omega)]
  exact List.inj_on_of_nodup_map hmap hx hy h

/-- Assumes: an element that occurs once. -/
theorem takeWhile_ne_eq_filter_iff [DecidableEq α] {as : List α} {a : α} (hnodup : as.Nodup)
    (hmem : a ∈ as) :
    as.takeWhile (· != a) = as.filter (· != a) ↔ as.getLast? = some a := by
  induction as with
  | nil => simp at hmem
  | cons b as ih =>
    rw [List.nodup_cons] at hnodup
    by_cases hb : b = a
    · subst hb
      have hself : as.filter (· != b) = as := by
        rw [List.filter_eq_self]
        intro x hx
        have hne : x ≠ b := fun heq ↦ hnodup.1 (heq ▸ hx)
        simpa using hne
      rw [List.takeWhile_cons_of_neg (by simp), List.filter_cons_of_neg (by simp), hself]
      cases as with
      | nil => simp
      | cons x as =>
        rw [List.getLast?_cons_cons]
        refine iff_of_false (by simp) fun hlast ↦ ?_
        exact hnodup.1 (List.mem_of_getLast? hlast)
    · have hrest : a ∈ as := (List.mem_cons.mp hmem).resolve_left (Ne.symm hb)
      rw [List.takeWhile_cons_of_pos (by simpa using hb),
        List.filter_cons_of_pos (by simpa using hb), List.cons_inj_right, ih hnodup.2 hrest]
      cases as with
      | nil => simp at hrest
      | cons x as => rw [List.getLast?_cons_cons]

theorem find?_toList_eq_filter_iff (p : α → Bool) (as : List α) :
    (as.find? p).toList = as.filter p ↔ as.countP p ≤ 1 := by
  induction as with
  | nil => simp
  | cons a as ih =>
    by_cases ha : p a = true
    · rw [List.find?_cons_of_pos ha, List.filter_cons_of_pos ha, List.countP_cons_of_pos ha]
      simp [eq_comm (a := ([] : List α)), List.countP_eq_zero]
    · rw [List.find?_cons_of_neg ha, List.filter_cons_of_neg ha, List.countP_cons_of_neg ha]
      exact ih

theorem find?_toList_sublist_filter (p : α → Bool) (as : List α) :
    (as.find? p).toList.Sublist (as.filter p) := by
  rw [← List.head?_filter]
  cases as.filter p with
  | nil => exact List.Sublist.refl _
  | cons b bs => exact List.singleton_sublist.mpr (List.mem_cons_self ..)

/-- Assumes: each element contributes part of what it could. The contributions are complete
exactly when each of them is. -/
theorem flatMap_perm_iff_of_sublist {f g : α → List β} (as : List α)
    (h : ∀ a, (f a).Sublist (g a)) :
    (as.flatMap f).Perm (as.flatMap g) ↔ ∀ a ∈ as, f a = g a := by
  constructor
  · intro hperm
    induction as with
    | nil => exact List.forall_mem_nil _
    | cons a as ih =>
      rw [List.flatMap_cons, List.flatMap_cons] at hperm
      have hrest := (List.Sublist.flatMap_right as fun a _ ↦ h a).length_le
      have hlength := hperm.length_eq
      rw [List.length_append, List.length_append] at hlength
      have hfirst : f a = g a := (h a).eq_of_length_le (by omega)
      rw [hfirst] at hperm
      exact List.forall_mem_cons.mpr ⟨hfirst, ih ((List.perm_append_left_iff _).mp hperm)⟩
  · intro heq
    rw [List.flatMap_congr heq]

/-- Every element is as `p` asks, given what comes before it. -/
def EachAfter (p : List α → α → Prop) (as : List α) : Prop :=
  ∀ before a after, as = before ++ a :: after → p before a

variable {p : List α → α → Prop} {as bs : List α} {a : α}

@[simp] theorem eachAfter_nil : EachAfter p [] := by
  intro before a after h
  simp at h

@[simp] theorem eachAfter_cons :
    EachAfter p (a :: as) ↔ p [] a ∧ EachAfter (fun before ↦ p (a :: before)) as := by
  constructor
  · intro h
    refine ⟨h [] a as rfl, fun before b after hsplit ↦ ?_⟩
    exact h (a :: before) b after (by rw [hsplit, List.cons_append])
  · rintro ⟨hfirst, hrest⟩ before b after hsplit
    cases before with
    | nil =>
      cases hsplit
      exact hfirst
    | cons x before =>
      cases hsplit
      exact hrest before b after rfl

theorem eachAfter_append :
    EachAfter p (as ++ bs) ↔ EachAfter p as ∧ EachAfter (fun before ↦ p (as ++ before)) bs := by
  induction as generalizing p with
  | nil => simp
  | cons a as ih => simp [ih, and_assoc]

/-! ### Cutting -/

section Cut

variable {before before' rest rest' : List α} {c c' : α}

/-- A list with a certain element has a first one. -/
theorem mem_or_cut [DecidableEq α] (c : α) (as : List α) :
    c ∉ as ∨ ∃ before rest, as = before ++ c :: rest ∧ c ∉ before := by
  by_cases h : c ∈ as
  · exact .inr (List.eq_append_cons_of_mem h)
  · exact .inl h

theorem takeWhile_cut [DecidableEq α] (h : c ∉ before) (rest : List α) :
    (before ++ c :: rest).takeWhile (· ≠ c) = before := by
  rw [List.takeWhile_append_of_pos fun d hd ↦ by simpa using ne_of_mem_of_not_mem hd h]
  simp

theorem drop_dropWhile_cut [DecidableEq α] (h : c ∉ before) (rest : List α) :
    ((before ++ c :: rest).dropWhile (· ≠ c)).drop 1 = rest := by
  rw [List.dropWhile_append_of_pos fun d hd ↦ by simpa using ne_of_mem_of_not_mem hd h]
  simp

theorem takeWhile_of_not_mem [DecidableEq α] (h : c ∉ as) : as.takeWhile (· ≠ c) = as :=
  List.takeWhile_eq_self_iff.mpr fun d hd ↦ by simpa using ne_of_mem_of_not_mem hd h

theorem any_or_cut (p : α → Bool) (as : List α) :
    (∀ c ∈ as, p c = false) ∨
      ∃ before c rest, as = before ++ c :: rest ∧ p c = true ∧ ∀ d ∈ before, p d = false := by
  cases hfind : as.find? p with
  | none => exact .inl (by simpa using List.find?_eq_none.mp hfind)
  | some c =>
    obtain ⟨hc, before, rest, has, hbefore⟩ := List.find?_eq_some_iff_append.mp hfind
    exact .inr ⟨before, c, rest, has, hc, by simpa using hbefore⟩

/-- A list is cut at the first element of a kind in one way. -/
theorem cut_unique {p : α → Bool} (h : before ++ c :: rest = before' ++ c' :: rest')
    (hc : p c = true) (hc' : p c' = true) (hbefore : ∀ d ∈ before, p d = false)
    (hbefore' : ∀ d ∈ before', p d = false) : before = before' ∧ c = c' ∧ rest = rest' := by
  have htake (before rest : List α) (c : α) (hc : p c = true)
      (hbefore : ∀ d ∈ before, p d = false) :
      (before ++ c :: rest).takeWhile (!p ·) = before := by
    rw [List.takeWhile_append_of_pos fun d hd ↦ by simp [hbefore d hd]]
    simp [hc]
  have heq := congrArg (List.takeWhile (!p ·)) h
  rw [htake _ _ _ hc hbefore, htake _ _ _ hc' hbefore'] at heq
  subst heq
  simpa using h

end Cut

end Felicia.Support
