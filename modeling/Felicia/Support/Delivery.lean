import Mathlib.Data.List.Induction
import Felicia.Support.Latest
import Felicia.Support.Transition

/-!
# Messages that are delivered later

Some observations of a transition system are messages. `delivering` puts them on their way when they
are issued, each with its number in the history, and delivers them one by one, in any order; what
its runs observe is what was delivered. `InOrder` is the guard under which a message does not
overtake an earlier one that is related to it.

`filter_inOrder` is the run lemma: within a class of related messages, those delivered followed by
those on their way are those issued. Hence once nothing is on its way, a listener who looks at the
last value that was issued since its last start and delivered to it (`latestDelivered`) sees
`latest` of the history (`latestDelivered_eq_latest`).
-/

set_option autoImplicit false
set_option relaxedAutoImplicit false

namespace Felicia.Support

variable {σ α β ω : Type*} {starts : ω → Bool} {value : ω → Option β}

/-! ### The number of the last start -/

/-- The number of the first observation after the last start. -/
def since (starts : ω → Bool) (history : List ω) : ℕ :=
  ((history.zipIdx.filter (starts ·.1)).getLast?).elim 0 (·.2 + 1)

/-- The last value of the numbered observations from some number on. -/
def lastValue (value : ω → Option β) (start : ℕ) (observed : List (ω × ℕ)) : Option β :=
  ((observed.filter (start ≤ ·.2)).filterMap (value ·.1)).getLast?

theorem since_append_singleton (history : List ω) (o : ω) : since starts (history ++ [o]) =
    if starts o then history.length + 1 else since starts history := by
  by_cases h : starts o = true
  · simp [since, List.zipIdx_append, h]
  · simp [since, List.zipIdx_append, h]

theorem since_le_length (history : List ω) : since starts history ≤ history.length := by
  induction history using List.reverseRecOn with
  | nil => exact Nat.le_refl 0
  | append_singleton history o ih =>
    rw [since_append_singleton, List.length_append, List.length_singleton]
    split_ifs
    · exact Nat.le_refl _
    · omega

/-- The latest value since the last start, by numbers. -/
theorem latest_eq_lastValue (history : List ω) :
    latest starts value history = lastValue value (since starts history) history.zipIdx := by
  induction history using List.reverseRecOn with
  | nil => rfl
  | append_singleton history o ih =>
    have hstep : latest starts value (history ++ [o]) =
        if starts o then none else (value o).or (latest starts value history) := by
      rw [latest_append]
      rfl
    rw [hstep, since_append_singleton, lastValue, List.zipIdx_append, List.filter_append,
      List.filterMap_append, Nat.zero_add]
    split_ifs with hstart
    · -- Nothing is numbered after the start.
      have hnone : history.zipIdx.filter (fun m ↦ decide (history.length + 1 ≤ m.2)) = [] := by
        rw [List.filter_eq_nil_iff]
        intro m hm
        have := List.snd_lt_of_mem_zipIdx hm
        simp only [decide_eq_true_eq]
        omega
      rw [hnone]
      simp
    · have hle : since starts history ≤ history.length := since_le_length history
      rw [ih, lastValue]
      cases hvalue : value o <;> simp [hle, hvalue]

/-- Assumes: the same messages with a value. -/
theorem lastValue_congr {observed observed' : List (ω × ℕ)}
    (h : observed.filter (fun m ↦ (value m.1).isSome) =
      observed'.filter (fun m ↦ (value m.1).isSome)) (start : ℕ) :
    lastValue value start observed = lastValue value start observed' := by
  have hvalued (l : List (ω × ℕ)) : (l.filter (start ≤ ·.2)).filterMap (value ·.1) =
      ((l.filter (fun m ↦ (value m.1).isSome)).filter (start ≤ ·.2)).filterMap (value ·.1) := by
    induction l with
    | nil => rfl
    | cons m l ih =>
      cases hm : value m.1 <;> by_cases hle : start ≤ m.2 <;> simp [hm, hle, ih]
  rw [lastValue, hvalued, h, ← hvalued, lastValue]

/-! ### Messages on their way -/

/-- A state with everything issued so far and the numbered messages on their way. -/
structure Network (σ ω : Type*) where
  state : σ
  issued : List ω := []
  inFlight : List (ω × ℕ) := []

/-- A step of the system, or the delivery of the message at some place among those on their way. -/
inductive NetworkAction (α : Type*)
  | act (a : α)
  | deliver (i : ℕ)

namespace TransitionSystem

/-- The system together with the messages on their way. It observes what is delivered. -/
def delivering (T : TransitionSystem σ α ω) (isMessage : ω → Bool) :
    TransitionSystem (Network σ ω) (NetworkAction α) (ω × ℕ) where
  Initial n := T.Initial n.state ∧ n.issued = [] ∧ n.inFlight = []
  step n
    | .act a => (T.step n.state a).map fun (state, observed) ↦
        ({ state, issued := n.issued ++ observed, inFlight := n.inFlight ++
            (observed.zipIdx n.issued.length).filter (isMessage ·.1) }, [])
    | .deliver i => n.inFlight[i]?.map fun m ↦ ({ n with inFlight := n.inFlight.eraseIdx i }, [m])

/-- A message overtakes no earlier one that is related to it. -/
def InOrder (related : ω → ω → Bool) (n : Network σ ω) : NetworkAction α → Prop
  | .act _ => True
  | .deliver i => ∀ m ∈ n.inFlight[i]?, ∀ m' ∈ n.inFlight.take i, related m.1 m'.1 = false

instance (related : ω → ω → Bool) (n : Network σ ω) :
    (a : NetworkAction α) → Decidable (InOrder related n a)
  | .act _ => isTrue trivial
  | .deliver i => inferInstanceAs (Decidable
      (∀ m ∈ n.inFlight[i]?, ∀ m' ∈ n.inFlight.take i, related m.1 m'.1 = false))

variable {T : TransitionSystem σ α ω} {isMessage : ω → Bool}
  {guard : Network σ ω → NetworkAction α → Prop} {n : Network σ ω} {delivered : List (ω × ℕ)}

/-- Assumes: steps of the system that meet a guard of its own. Without the deliveries, a run is a
run of the system. -/
theorem Run.of_delivering {guard' : σ → α → Prop}
    (hguard : ∀ n a, guard n (.act a) → guard' n.state a)
    (run : Run (T.delivering isMessage) guard n delivered) : Run T guard' n.state n.issued := by
  refine run.invariant (I := fun n _ ↦ Run T guard' n.state n.issued) ?_ ?_
  · rintro n ⟨hinitial, hissued, -⟩
    rw [hissued]
    exact .start hinitial
  · intro n a n' delivered observed _ ih ha hstep
    cases a with
    | act a =>
      obtain ⟨⟨s', issued⟩, hs, heq⟩ := Option.map_eq_some_iff.mp hstep
      cases heq
      exact ih.next (hguard n a ha) hs
    | deliver i =>
      obtain ⟨m, -, heq⟩ := Option.map_eq_some_iff.mp hstep
      cases heq
      exact ih

/-- Assumes: a class of messages that are related to each other, and delivery in order. The messages
of the class that were delivered, and then those on their way, are those issued. -/
theorem Run.filter_inOrder {related : ω → ω → Bool} {p : ω → Bool}
    (hmessage : ∀ o, p o = true → isMessage o = true)
    (hrelated : ∀ o o', p o = true → p o' = true → related o o' = true)
    (hguard : ∀ n a, guard n a → InOrder related n a)
    (run : Run (T.delivering isMessage) guard n delivered) :
    delivered.filter (p ·.1) ++ n.inFlight.filter (p ·.1) = n.issued.zipIdx.filter (p ·.1) := by
  refine run.invariant (I := fun n delivered ↦ delivered.filter (p ·.1) ++
    n.inFlight.filter (p ·.1) = n.issued.zipIdx.filter (p ·.1)) ?_ ?_
  · rintro n ⟨-, hissued, hinFlight⟩
    rw [hissued, hinFlight]
    rfl
  · intro n a n' delivered observed _ ih ha hstep
    cases a with
    | act a =>
      obtain ⟨⟨s', issued⟩, -, heq⟩ := Option.map_eq_some_iff.mp hstep
      cases heq
      have hfilter : ((issued.zipIdx n.issued.length).filter (isMessage ·.1)).filter (p ·.1) =
          (issued.zipIdx n.issued.length).filter (p ·.1) := by
        rw [List.filter_filter]
        refine List.filter_congr fun m _ ↦ ?_
        cases hp : p m.1 with
        | false => rfl
        | true => exact hmessage m.1 hp
      rw [List.append_nil, List.filter_append, hfilter, ← List.append_assoc, ih,
        List.zipIdx_append, List.filter_append, Nat.zero_add]
    | deliver i =>
      obtain ⟨m, hm, heq⟩ := Option.map_eq_some_iff.mp hstep
      cases heq
      obtain ⟨hi, hget⟩ := List.getElem?_eq_some_iff.mp hm
      have hsplit : n.inFlight = n.inFlight.take i ++ m :: n.inFlight.drop (i + 1) := by
        rw [← hget, List.getElem_cons_drop, List.take_append_drop]
      rw [← ih, List.eraseIdx_eq_take_drop_succ]
      nth_rewrite 3 [hsplit]
      cases hp : p m.1 with
      | false => simp [hp]
      | true =>
        -- No earlier message of the class is on its way.
        have hnone : (n.inFlight.take i).filter (p ·.1) = [] := by
          rw [List.filter_eq_nil_iff]
          intro m' hm' hp'
          have hnot := hguard n _ ha m hm m' hm'
          rw [hrelated m.1 m'.1 hp hp'] at hnot
          cases hnot
        simp [hp, hnone]

/-- The last value delivered to a listener among those issued since its last start. -/
def latestDelivered (starts : ω → Bool) (value : ω → Option β) (n : Network σ ω)
    (delivered : List (ω × ℕ)) : Option β :=
  lastValue value (since starts n.issued) delivered

/-- Assumes: values carried by messages that are related to each other, delivered in order, and
nothing on its way. -/
theorem Run.latestDelivered_eq_latest {related : ω → ω → Bool}
    (hmessage : ∀ o, (value o).isSome = true → isMessage o = true)
    (hrelated : ∀ o o', (value o).isSome = true → (value o').isSome = true →
      related o o' = true)
    (hguard : ∀ n a, guard n a → InOrder related n a)
    (run : Run (T.delivering isMessage) guard n delivered) (hquiet : n.inFlight = []) :
    latestDelivered starts value n delivered = latest starts value n.issued := by
  have hall := run.filter_inOrder hmessage hrelated hguard
  rw [hquiet, List.filter_nil, List.append_nil] at hall
  rw [latest_eq_lastValue, latestDelivered]
  exact lastValue_congr hall _

end TransitionSystem

end Felicia.Support
