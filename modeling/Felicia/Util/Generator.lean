import Felicia.Support.FlatMap

/-!
# Generators of unique values

`felicia/core/util/uuid/generator.h`. A generator draws values until it finds one that is not in its
pool and gives up after `kMaximumTrial` draws; a value comes back to it when its holder is
destroyed. The successive results of `Traits::Generate()` are a function of the trial, so that every
outcome of the random source is covered.

`pool_.erase(pool_.find(t))` is undefined when `t` is absent, so `remove` is partial.
`generate_cases` is the inversion of `generate`: it hands out the invalid value and leaves the pool
as it was, or it hands out a drawn value that was not in the pool and adds it. `returnAll_of_perm`
is the rule for dropping several holders at once: when the pool holds exactly the values of the
dropped and of the remaining holders, every return succeeds and the pool holds exactly those of the
remaining ones.
-/

set_option autoImplicit false
set_option relaxedAutoImplicit false

namespace Felicia

open Support

/-- `Generator<T, Traits>`. -/
structure Generator (T : Type*) [LinearOrder T] where
  pool : FlatMap T Bool := .empty
  deriving DecidableEq

namespace Generator

variable {T : Type*} [LinearOrder T]

/-- `Generator::kMaximumTrial`. -/
def kMaximumTrial : ℕ := 1000

/-- `Generator::In`. -/
def isIn (g : Generator T) (value : T) : Bool := g.pool.contains value

/-- `Generator::Add`. -/
def add (g : Generator T) (value : T) : Generator T := ⟨g.pool.insertOrAssign value true⟩

/-- `Generator::Remove`. It is undefined for a value that is not in the pool. -/
def remove (g : Generator T) (value : T) : Option (Generator T) :=
  if g.isIn value then some ⟨g.pool.erase value⟩ else none

/-- `Generator::Return`. -/
def giveBack (g : Generator T) (value : T) : Option (Generator T) := g.remove value

/-- The loop of `Generator::Generate`: `left` more trials are allowed after the current one. It
yields the last drawn value and the number of trials made. -/
def drawLoop (g : Generator T) (draws : ℕ → T) : ℕ → ℕ → T × ℕ
  | 0, trial => (draws trial, trial + 1)
  | left + 1, trial =>
    if g.isIn (draws trial) then drawLoop g draws left (trial + 1) else (draws trial, trial + 1)

/-- `Generator::Generate`. A loop that used all its trials yields the invalid value, whatever the
last draw was. -/
def generate (g : Generator T) (invalidValue : T) (draws : ℕ → T) : T × Generator T :=
  let drawn := g.drawLoop draws (kMaximumTrial - 1) 0
  if drawn.2 = kMaximumTrial then (invalidValue, g) else (drawn.1, g.add drawn.1)

/-- The values in the pool. -/
def values (g : Generator T) : List T := g.pool.keys

theorem isIn_iff (g : Generator T) {value : T} : g.isIn value = true ↔ value ∈ g.values :=
  g.pool.contains_iff

theorem values_nodup (g : Generator T) : g.values.Nodup := g.pool.keys_nodup

/-- Assumes: a value that is not in the pool. -/
theorem values_add_perm {g : Generator T} {value : T} (h : g.isIn value = false) :
    (g.add value).values.Perm (value :: g.values) := by
  refine FlatMap.keys_insert_perm (fun hmem ↦ ?_) true
  rw [g.isIn_iff.mpr hmem] at h
  cases h

theorem drawLoop_spec (g : Generator T) (draws : ℕ → T) (left trial : ℕ) :
    (∃ k, (g.drawLoop draws left trial).1 = draws k) ∧
      ((g.drawLoop draws left trial).2 = trial + left + 1 ∨
        g.isIn (g.drawLoop draws left trial).1 = false) := by
  induction left generalizing trial with
  | zero => exact ⟨⟨trial, rfl⟩, Or.inl rfl⟩
  | succ left ih =>
    unfold drawLoop
    split_ifs with hin
    · obtain ⟨hdraw, hend⟩ := ih (trial + 1)
      refine ⟨hdraw, hend.imp_left fun h ↦ ?_⟩
      omega
    · exact ⟨⟨trial, rfl⟩, Or.inr (by simpa using hin)⟩

/-- `Generate` either fails and leaves the pool unchanged, or hands out a drawn value that was not
in the pool and adds it. -/
theorem generate_cases (g : Generator T) (invalidValue : T) (draws : ℕ → T) :
    g.generate invalidValue draws = (invalidValue, g) ∨
      ∃ k, g.isIn (draws k) = false ∧
        g.generate invalidValue draws = (draws k, g.add (draws k)) := by
  obtain ⟨⟨k, hk⟩, hend⟩ := g.drawLoop_spec draws (kMaximumTrial - 1) 0
  simp only [generate]
  split_ifs with hmax
  · exact Or.inl rfl
  · have hfresh := hend.resolve_left hmax
    rw [hk] at hfresh ⊢
    exact Or.inr ⟨k, hfresh, rfl⟩

/-- The values of several holders come back one after the other. -/
def returnAll (g : Generator T) : List T → Option (Generator T)
  | [] => some g
  | value :: rest => (g.giveBack value).bind fun g' ↦ g'.returnAll rest

/-- Assumes: the pool holds exactly the returned and the kept values. Every return finds its value,
and the pool is left with the kept ones. -/
theorem returnAll_of_perm {g : Generator T} {returned kept : List T}
    (h : (returned ++ kept).Perm g.values) :
    ∃ g', g.returnAll returned = some g' ∧ kept.Perm g'.values := by
  induction returned generalizing g with
  | nil => exact ⟨g, rfl, h⟩
  | cons value rest ih =>
    have hmem : value ∈ g.values := h.subset (List.mem_cons_self ..)
    obtain ⟨b, hb⟩ := g.pool.mem_keys_iff.mp hmem
    have hkeys : g.values.Perm (value :: (g.pool.erase value).keys) := FlatMap.keys_erase_perm hb
    obtain ⟨g', hall, hkept⟩ := ih (g := ⟨g.pool.erase value⟩) ((h.trans hkeys).cons_inv)
    refine ⟨g', ?_, hkept⟩
    rw [returnAll, giveBack, remove, if_pos (g.isIn_iff.mpr hmem)]
    exact hall

/-- Assumes: returns that all succeed. The pool then lost exactly the returned values. -/
theorem perm_of_returnAll {g g' : Generator T} {returned : List T}
    (h : g.returnAll returned = some g') : g.values.Perm (returned ++ g'.values) := by
  induction returned generalizing g with
  | nil =>
    cases h
    exact List.Perm.refl _
  | cons value rest ih =>
    rw [returnAll, giveBack, remove] at h
    split_ifs at h with hin
    · obtain ⟨b, hb⟩ := g.pool.mem_keys_iff.mp (g.isIn_iff.mp hin)
      exact (FlatMap.keys_erase_perm hb).trans ((ih h).cons value)
    · cases h

/-- Assumes: before and after a step the pool holds exactly the values of the holders, and a holder
that is new took a value that was free. A value leaves the pool exactly when its holder is gone. -/
theorem released_iff {H : Type*} {key : H → T} {g g' : Generator T} {holders holders' : List H}
    (h : (holders.map key).Perm g.values) (h' : (holders'.map key).Perm g'.values)
    (hnew : ∀ x ∈ holders', x ∈ holders ∨ g.isIn (key x) = false) (value : T) :
    (g.isIn value = true ∧ g'.isIn value = false) ↔
      ∃ x ∈ holders, key x = value ∧ x ∉ holders' := by
  have hin (x : H) (hx : x ∈ holders) : g.isIn (key x) = true :=
    g.isIn_iff.mpr (h.subset (List.mem_map_of_mem hx))
  rw [isIn_iff, ← h.mem_iff, Bool.eq_false_iff, ne_eq, isIn_iff, ← h'.mem_iff]
  constructor
  · rintro ⟨hold, hgone⟩
    obtain ⟨x, hx, rfl⟩ := List.mem_map.mp hold
    exact ⟨x, hx, rfl, fun hx' ↦ hgone (List.mem_map_of_mem hx')⟩
  · rintro ⟨x, hx, rfl, hgone⟩
    refine ⟨List.mem_map_of_mem hx, fun hmem ↦ hgone ?_⟩
    obtain ⟨y, hy, hkey⟩ := List.mem_map.mp hmem
    -- The holder after the step held the value before, so it is the same one.
    rcases hnew y hy with hold | hfree
    · have hnodup := h.nodup_iff.mpr g.values_nodup
      rwa [← List.inj_on_of_nodup_map hnodup hold hx hkey]
    · rw [hkey, hin x hx] at hfree
      cases hfree

end Generator

end Felicia
