import Felicia.Support.Loops

/-!
# Forward iteration

A loop that takes an iterator to a last one and visits what it refers to on the way. Moving an
iterator on and visiting may fail. `Leads` lists what is visited between two iterators, and
`Leads.iterate_eq` says that the loop visits just that, once for each step, and neither fails nor
goes on beyond the last iterator.
-/

set_option autoImplicit false
set_option relaxedAutoImplicit false

namespace Felicia.Support

variable {ι κ γ : Type*}

/-- What a loop needs of its iterators. -/
structure ForwardIterator (ι γ : Type*) where
  equal : ι → ι → Bool
  increment : ι → Option ι
  dereference : ι → Option γ

namespace ForwardIterator

variable (I : ForwardIterator ι γ)

/-- `for (; it != last; ++it)`, with what was visited. -/
def round (last : ι) (s : ι × List γ) : LoopRound (ι × List γ) (List γ) :=
  if I.equal s.1 last then .done s.2
  else match I.dereference s.1, I.increment s.1 with
    | some visited, some next => .again (next, s.2 ++ [visited])
    | _, _ => .failed

def iterate (first last : ι) (rounds : ℕ) : LoopEnd (List γ) :=
  runLoop (I.round last) rounds (first, [])

/-- What is visited from an iterator on to the last one. -/
inductive Leads (last : ι) : ι → List γ → Prop
  | here {it : ι} (heq : I.equal it last = true) : Leads last it []
  | step {it next : ι} {visited : γ} {rest : List γ} (hne : I.equal it last = false)
      (hvisited : I.dereference it = some visited) (hnext : I.increment it = some next)
      (hrest : Leads last next rest) : Leads last it (visited :: rest)

variable {I} {last it : ι} {visits : List γ}

theorem Leads.runLoop_eq (h : I.Leads last it visits) (seen : List γ) (rounds : ℕ) :
    runLoop (I.round last) rounds (it, seen) =
      if rounds ≤ visits.length then .unfinished else .finished (seen ++ visits) := by
  induction h generalizing seen rounds with
  | here heq =>
    cases rounds with
    | zero => rfl
    | succ rounds =>
      rw [runLoop, round, if_pos heq, if_neg (by simp), List.append_nil]
  | @step it next visited rest hne hvisited hnext hrest ih =>
    cases rounds with
    | zero => rfl
    | succ rounds =>
      rw [runLoop, round, if_neg (by simp [hne]), hvisited, hnext]
      simp only [ih, List.length_cons, Nat.add_le_add_iff_right, List.append_assoc,
        List.singleton_append]

/-- A loop from one iterator to another visits what lies between them, in as many rounds and one in
which it ends. -/
theorem Leads.iterate_eq (h : I.Leads last it visits) (rounds : ℕ) :
    I.iterate it last rounds =
      if rounds ≤ visits.length then .unfinished else .finished visits :=
  h.runLoop_eq [] rounds

/-- Nothing is visited exactly when the iterators are equal. -/
theorem Leads.equal_iff (h : I.Leads last it visits) : I.equal it last = true ↔ visits = [] := by
  cases h with
  | here heq => exact iff_of_true heq rfl
  | step hne => simp [hne]

/-- Assumes: iterators of two kinds that are compared, moved on and visited alike. -/
theorem Leads.map {J : ForwardIterator κ γ} (f : ι → κ)
    (hequal : ∀ a b, J.equal (f a) (f b) = I.equal a b)
    (hdereference : ∀ a, J.dereference (f a) = I.dereference a)
    (hincrement : ∀ a, J.increment (f a) = (I.increment a).map f)
    (h : I.Leads last it visits) : J.Leads (f last) (f it) visits := by
  induction h with
  | here heq => exact .here (by rw [hequal, heq])
  | step hne hvisited hnext _ ih =>
    refine .step (by rw [hequal, hne]) (by rw [hdereference, hvisited]) ?_ ih
    rw [hincrement, hnext]
    rfl

end ForwardIterator

end Felicia.Support
