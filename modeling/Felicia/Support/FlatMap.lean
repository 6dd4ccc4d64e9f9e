import Mathlib.Data.List.Sort
import Mathlib.Data.List.Nodup
import Mathlib.Data.List.Perm.Basic

/-!
# Sorted association vectors

A map stored as one vector of key and value pairs, strictly increasing in the key. The order is a
field of the structure, so a vector with a repeated key cannot be built. Lookup, insertion that
replaces, removal and in-place modification of one value are computable, and iteration is the list
of entries in key order.

Each operation has two lemmas: how it changes lookups (`find_insertOrAssign`, `find_erase`,
`find_modify`), and how it changes the list of values or keys as a multiset (`values_insert_perm`,
`values_erase_perm`, `keys_insert_perm`, `keys_erase_perm`, `modify_split`). The first kind serves
reasoning about one key, the second reasoning about all the values held at once.
-/

set_option autoImplicit false
set_option relaxedAutoImplicit false

namespace Felicia.Support

/-- A vector of key and value pairs in strictly increasing key order. -/
@[ext] structure FlatMap (K V : Type*) [LinearOrder K] where
  entries : List (K × V)
  sorted : entries.Pairwise fun a b ↦ a.1 < b.1
  deriving DecidableEq

namespace FlatMap

variable {K V : Type*} [LinearOrder K]

/-! ### Operations -/

/-- The map with no entries. -/
def empty : FlatMap K V := ⟨[], List.Pairwise.nil⟩

instance : Inhabited (FlatMap K V) := ⟨empty⟩

/-- The value stored under a key. -/
def find (m : FlatMap K V) (k : K) : Option V := m.entries.lookup k

/-- Whether a key is present. -/
def contains (m : FlatMap K V) (k : K) : Bool := (m.find k).isSome

/-- The keys in iteration order. -/
def keys (m : FlatMap K V) : List K := m.entries.map Prod.fst

/-- The values in iteration order. -/
def values (m : FlatMap K V) : List V := m.entries.map Prod.snd

/-- Insertion into a sorted vector of entries, replacing an entry with the same key. -/
def insertEntry (k : K) (v : V) : List (K × V) → List (K × V)
  | [] => [(k, v)]
  | e :: es =>
    if k < e.1 then (k, v) :: e :: es
    else if e.1 < k then e :: insertEntry k v es
    else (k, v) :: es

theorem mem_of_mem_insertEntry {k : K} {v : V} {es : List (K × V)} {e : K × V}
    (h : e ∈ insertEntry k v es) : e = (k, v) ∨ e ∈ es := by
  induction es with
  | nil => exact Or.inl (List.mem_singleton.mp h)
  | cons a es ih =>
    simp only [insertEntry] at h
    split_ifs at h <;> grind

theorem sorted_insertEntry (k : K) (v : V) {es : List (K × V)}
    (h : es.Pairwise fun a b ↦ a.1 < b.1) :
    (insertEntry k v es).Pairwise fun a b ↦ a.1 < b.1 := by
  induction es with
  | nil => exact List.pairwise_singleton _ _
  | cons a es ih =>
    obtain ⟨hhead, htail⟩ := List.pairwise_cons.mp h
    simp only [insertEntry]
    split_ifs with hlt hgt
    · refine List.pairwise_cons.mpr ⟨fun b hb ↦ ?_, h⟩
      rcases List.mem_cons.mp hb with rfl | hb
      · exact hlt
      · exact hlt.trans (hhead b hb)
    · refine List.pairwise_cons.mpr ⟨fun b hb ↦ ?_, ih htail⟩
      rcases mem_of_mem_insertEntry hb with rfl | hb
      · exact hgt
      · exact hhead b hb
    · have hkey : k = a.1 := le_antisymm (not_lt.mp hgt) (not_lt.mp hlt)
      exact List.pairwise_cons.mpr ⟨fun b hb ↦ hkey ▸ hhead b hb, htail⟩

/-- Store a value under a key, replacing the value already there. -/
def insertOrAssign (m : FlatMap K V) (k : K) (v : V) : FlatMap K V :=
  ⟨insertEntry k v m.entries, sorted_insertEntry k v m.sorted⟩

/-- Remove the entry of a key. -/
def erase (m : FlatMap K V) (k : K) : FlatMap K V :=
  ⟨m.entries.filter fun e ↦ e.1 ≠ k, m.sorted.filter _⟩

/-- Apply a function to the value of a key, leaving every other entry as it is. -/
def modify (m : FlatMap K V) (k : K) (f : V → V) : FlatMap K V :=
  ⟨m.entries.map fun e ↦ if e.1 = k then (e.1, f e.2) else e, by
    refine m.sorted.map _ fun a b hab ↦ ?_
    split_ifs <;> exact hab⟩

/-! ### Lookup -/

theorem keys_nodup (m : FlatMap K V) : m.keys.Nodup :=
  List.pairwise_map.mpr (m.sorted.imp fun h ↦ ne_of_lt h)

theorem lookup_eq_some_iff {es : List (K × V)} (h : es.Pairwise fun a b ↦ a.1 < b.1) {k : K}
    {v : V} : es.lookup k = some v ↔ (k, v) ∈ es := by
  induction es with
  | nil => simp
  | cons a es ih =>
    obtain ⟨j, u⟩ := a
    obtain ⟨hhead, htail⟩ := List.pairwise_cons.mp h
    by_cases hk : k = j
    · subst hk
      have hnot : (k, v) ∉ es := fun hmem ↦ lt_irrefl k (hhead _ hmem)
      simp [hnot, eq_comm]
    · have hne : (k == j) = false := by simpa using hk
      simp [List.lookup_cons, hne, ih htail, hk]

/-- An entry is stored exactly when its key looks up to its value. -/
theorem mem_entries_iff (m : FlatMap K V) {k : K} {v : V} :
    (k, v) ∈ m.entries ↔ m.find k = some v :=
  (lookup_eq_some_iff m.sorted).symm

theorem find_eq_none_iff (m : FlatMap K V) {k : K} : m.find k = none ↔ k ∉ m.keys := by
  constructor
  · intro hnone hmem
    obtain ⟨e, he, rfl⟩ := List.mem_map.mp hmem
    have hsome : m.find e.1 = some e.2 := (mem_entries_iff m).mp he
    rw [hnone] at hsome
    cases hsome
  · intro hnot
    cases hfind : m.find k with
    | none => rfl
    | some v => exact absurd (List.mem_map.mpr ⟨_, (mem_entries_iff m).mpr hfind, rfl⟩) hnot

theorem mem_keys_iff (m : FlatMap K V) {k : K} : k ∈ m.keys ↔ ∃ v, m.find k = some v := by
  rw [← not_iff_not, ← find_eq_none_iff, Option.eq_none_iff_forall_ne_some]
  simp

theorem contains_iff (m : FlatMap K V) {k : K} : m.contains k = true ↔ k ∈ m.keys := by
  rw [contains, Option.isSome_iff_exists, mem_keys_iff]

theorem mem_values_iff (m : FlatMap K V) {v : V} : v ∈ m.values ↔ ∃ k, m.find k = some v := by
  constructor
  · intro hmem
    obtain ⟨e, he, rfl⟩ := List.mem_map.mp hmem
    exact ⟨e.1, (mem_entries_iff m).mp he⟩
  · rintro ⟨k, hk⟩
    exact List.mem_map.mpr ⟨(k, v), (mem_entries_iff m).mpr hk, rfl⟩

@[simp] theorem find_empty (k : K) : (empty : FlatMap K V).find k = none := rfl

@[simp] theorem keys_empty : (empty : FlatMap K V).keys = [] := rfl

@[simp] theorem values_empty : (empty : FlatMap K V).values = [] := rfl

theorem mem_insertEntry {k : K} {v : V} {es : List (K × V)}
    (h : es.Pairwise fun a b ↦ a.1 < b.1) {e : K × V} :
    e ∈ insertEntry k v es ↔ e = (k, v) ∨ (e ∈ es ∧ e.1 ≠ k) := by
  induction es with
  | nil => simp [insertEntry]
  | cons a es ih =>
    obtain ⟨hhead, htail⟩ := List.pairwise_cons.mp h
    simp only [insertEntry]
    split_ifs with hlt hgt
    · have hne : ∀ b ∈ a :: es, b.1 ≠ k := by
        intro b hb
        rcases List.mem_cons.mp hb with rfl | hb
        · exact ne_of_gt hlt
        · exact ne_of_gt (hlt.trans (hhead b hb))
      rw [List.mem_cons]
      exact or_congr_right ⟨fun hb ↦ ⟨hb, hne e hb⟩, fun hb ↦ hb.1⟩
    · rw [List.mem_cons, ih htail, List.mem_cons]
      have hne : a.1 ≠ k := ne_of_lt hgt
      constructor
      · rintro (rfl | rfl | ⟨hb, hk⟩)
        · exact Or.inr ⟨Or.inl rfl, hne⟩
        · exact Or.inl rfl
        · exact Or.inr ⟨Or.inr hb, hk⟩
      · rintro (rfl | ⟨rfl | hb, hk⟩)
        · exact Or.inr (Or.inl rfl)
        · exact Or.inl rfl
        · exact Or.inr (Or.inr ⟨hb, hk⟩)
    · have hkey : k = a.1 := le_antisymm (not_lt.mp hgt) (not_lt.mp hlt)
      subst hkey
      rw [List.mem_cons, List.mem_cons]
      constructor
      · rintro (rfl | hb)
        · exact Or.inl rfl
        · exact Or.inr ⟨Or.inr hb, ne_of_gt (hhead e hb)⟩
      · rintro (rfl | ⟨rfl | hb, hk⟩)
        · exact Or.inl rfl
        · exact absurd rfl hk
        · exact Or.inr hb

theorem find_insertOrAssign (m : FlatMap K V) (k j : K) (v : V) :
    (m.insertOrAssign k v).find j = if j = k then some v else m.find j := by
  refine Option.ext fun w ↦ ?_
  rw [← mem_entries_iff, insertOrAssign, mem_insertEntry m.sorted, mem_entries_iff]
  by_cases hj : j = k
  · subst hj
    simp [eq_comm]
  · simp [hj]

theorem find_erase (m : FlatMap K V) (k j : K) :
    (m.erase k).find j = if j = k then none else m.find j := by
  refine Option.ext fun w ↦ ?_
  rw [← mem_entries_iff, erase, List.mem_filter, mem_entries_iff]
  by_cases hj : j = k <;> simp [hj]

/-- Assumes: a key that is absent. -/
theorem erase_of_find_eq_none {m : FlatMap K V} {k : K} (h : m.find k = none) : m.erase k = m := by
  refine FlatMap.ext (List.filter_eq_self.mpr fun e he ↦ ?_)
  have hne : e.1 ≠ k := by
    rintro rfl
    rw [(mem_entries_iff m).mp he] at h
    cases h
  simpa using hne

theorem find_modify (m : FlatMap K V) (k j : K) (f : V → V) :
    (m.modify k f).find j = if j = k then (m.find j).map f else m.find j := by
  refine Option.ext fun w ↦ ?_
  rw [← mem_entries_iff, modify, List.mem_map]
  by_cases hj : j = k
  · subst hj
    rw [if_pos rfl, Option.map_eq_some_iff]
    constructor
    · rintro ⟨e, he, heq⟩
      split_ifs at heq with hk
      · obtain ⟨rfl, rfl⟩ := Prod.mk.inj heq
        exact ⟨e.2, (mem_entries_iff m).mp he, rfl⟩
      · exact absurd (congrArg Prod.fst heq) hk
    · rintro ⟨u, hu, rfl⟩
      exact ⟨(j, u), (mem_entries_iff m).mpr hu, by simp⟩
  · rw [if_neg hj, ← mem_entries_iff]
    constructor
    · rintro ⟨e, he, heq⟩
      split_ifs at heq with hk
      · exact absurd (hk ▸ (congrArg Prod.fst heq).symm) hj
      · exact heq ▸ he
    · intro he
      exact ⟨(j, w), he, by simp [hj]⟩

/-! ### All keys and all values at once -/

theorem insertEntry_perm_cons {k : K} {v : V} {es : List (K × V)} (h : k ∉ es.map Prod.fst) :
    (insertEntry k v es).Perm ((k, v) :: es) := by
  induction es with
  | nil => exact List.Perm.refl _
  | cons a es ih =>
    simp only [List.map_cons, List.mem_cons, not_or] at h
    simp only [insertEntry]
    split_ifs with hlt hgt
    · exact List.Perm.refl _
    · exact ((ih h.2).cons a).trans (List.Perm.swap _ _ _)
    · exact absurd (le_antisymm (not_lt.mp hgt) (not_lt.mp hlt)) h.1

/-- Assumes: a key that is absent. Inserting it adds its value to the values. -/
theorem values_insert_perm {m : FlatMap K V} {k : K} (h : k ∉ m.keys) (v : V) :
    (m.insertOrAssign k v).values.Perm (v :: m.values) :=
  (insertEntry_perm_cons h).map Prod.snd

/-- Assumes: a key that is absent. Inserting it adds it to the keys. -/
theorem keys_insert_perm {m : FlatMap K V} {k : K} (h : k ∉ m.keys) (v : V) :
    (m.insertOrAssign k v).keys.Perm (k :: m.keys) :=
  (insertEntry_perm_cons h).map Prod.fst

theorem entries_erase_perm {m : FlatMap K V} {k : K} {v : V} (h : m.find k = some v) :
    m.entries.Perm ((k, v) :: (m.erase k).entries) := by
  have hnodup : m.entries.Nodup := m.keys_nodup.of_map _
  have herase : (m.erase k).entries.Nodup := hnodup.filter _
  have hnot : (k, v) ∉ (m.erase k).entries := by simp [erase]
  refine (List.perm_ext_iff_of_nodup hnodup (List.nodup_cons.mpr ⟨hnot, herase⟩)).mpr fun e ↦ ?_
  rw [List.mem_cons, erase, List.mem_filter]
  by_cases hk : e.1 = k
  · subst hk
    rw [mem_entries_iff, h]
    simp [Prod.ext_iff, eq_comm]
  · have hne : e ≠ (k, v) := fun heq ↦ hk (by rw [heq])
    simp [hk, hne]

/-- Assumes: a key that is present. Erasing it takes its value out of the values. -/
theorem values_erase_perm {m : FlatMap K V} {k : K} {v : V} (h : m.find k = some v) :
    m.values.Perm (v :: (m.erase k).values) :=
  (entries_erase_perm h).map Prod.snd

/-- Assumes: a key that is present. Erasing it takes it out of the keys. -/
theorem keys_erase_perm {m : FlatMap K V} {k : K} {v : V} (h : m.find k = some v) :
    m.keys.Perm (k :: (m.erase k).keys) :=
  (entries_erase_perm h).map Prod.fst

/-- Assumes: a key that is present. The entries split around it, and a modification replaces its
value alone. -/
theorem modify_split {m : FlatMap K V} {k : K} {v : V} (h : m.find k = some v) :
    ∃ before after, m.values = before ++ v :: after ∧
      ∀ f : V → V, (m.modify k f).values = before ++ f v :: after := by
  obtain ⟨before, after, hsplit⟩ := List.append_of_mem (m.mem_entries_iff.mpr h)
  have hsorted := m.sorted
  rw [hsplit, List.pairwise_append, List.pairwise_cons] at hsorted
  obtain ⟨-, ⟨hafter, -⟩, hbefore⟩ := hsorted
  refine ⟨before.map Prod.snd, after.map Prod.snd, by simp [values, hsplit], fun f ↦ ?_⟩
  have hb : before.map (fun e ↦ if e.1 = k then (e.1, f e.2) else e) = before := by
    refine (List.map_congr_left fun e he ↦ ?_).trans (List.map_id _)
    exact if_neg (ne_of_lt (hbefore e he (k, v) (List.mem_cons_self ..)))
  have ha : after.map (fun e ↦ if e.1 = k then (e.1, f e.2) else e) = after := by
    refine (List.map_congr_left fun e he ↦ ?_).trans (List.map_id _)
    exact if_neg (ne_of_gt (hafter e he))
  simp [values, modify, hsplit, hb, ha]

end FlatMap

end Felicia.Support
