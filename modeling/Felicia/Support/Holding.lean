import Felicia.Support.Receiver

/-!
# Receivers that hold tokens back

Code that follows a receiver may have no room for all the tokens it recognises, and hold some back
until there is. `Moves` says what such code took and gave between two of its states: what it holds
and what it recognises is what it gives and then holds. Moves follow one another (`Moves.trans`).

`limited` is such code for any receiver: it takes no more items than it has room for the tokens of.
-/

set_option autoImplicit false
set_option relaxedAutoImplicit false

namespace Felicia.Support

variable {σ β τ : Type*}

/-- The state of a receiver, and the tokens it recognised that were not given yet. -/
structure Holding (σ τ : Type*) where
  state : σ
  held : List τ := []

namespace Receiver

variable {R : Receiver σ β τ} {s s' s'' : Holding σ τ} {taken taken' : List β} {given given' : List τ}

/-- Items were taken and tokens given, in order, between two states. -/
structure Moves (R : Receiver σ β τ) (s : Holding σ τ) (taken : List β) (given : List τ)
    (s' : Holding σ τ) : Prop where
  state : (R.feed s.state taken).1 = s'.state
  tokens : s.held ++ (R.feed s.state taken).2 = given ++ s'.held

theorem Moves.refl (s : Holding σ τ) : R.Moves s [] [] s := ⟨rfl, List.append_nil _⟩

theorem Moves.trans (h : R.Moves s taken given s') (h' : R.Moves s' taken' given' s'') :
    R.Moves s (taken ++ taken') (given ++ given') s'' := by
  constructor
  · rw [feed_append, h.state]
    exact h'.state
  · rw [feed_append, h.state, ← List.append_assoc, h.tokens, List.append_assoc, h'.tokens,
      List.append_assoc]

/-- Tokens that are held may be counted as given. -/
theorem Moves.give {held : List τ} (h : R.Moves s taken given ⟨s'.state, held ++ s'.held⟩) :
    R.Moves s taken (given ++ held) s' :=
  ⟨h.state, by rw [h.tokens, List.append_assoc]⟩

/-! ### Taking no more than there is room for -/

/-- What some code came to that takes items and gives tokens. -/
structure Share (σ τ : Type*) where
  next : Holding σ τ
  taken : ℕ
  given : List τ

/-- Take items while there is room for tokens. -/
def limited (R : Receiver σ β τ) (s : Holding σ τ) (room : ℕ) : List β → Share σ τ
  | [] => ⟨⟨s.state, s.held.drop room⟩, 0, s.held.take room⟩
  | b :: rest =>
    if s.held.length < room then
      let share := R.limited ⟨(R.step s.state b).1, (R.step s.state b).2⟩ (room - s.held.length) rest
      { share with taken := share.taken + 1, given := s.held ++ share.given }
    else ⟨⟨s.state, s.held.drop room⟩, 0, s.held.take room⟩

/-- What `limited` does. -/
structure Limits (R : Receiver σ β τ) (s : Holding σ τ) (room : ℕ) (items : List β)
    (share : Share σ τ) : Prop where
  taken_le : share.taken ≤ items.length
  given_le : share.given.length ≤ room
  moves : R.Moves s (items.take share.taken) share.given share.next
  /-- If room is left then everything was taken and given. -/
  complete : share.given.length < room → share.taken = items.length ∧ share.next.held = []

theorem limits_held (s : Holding σ τ) {room : ℕ} {items : List β}
    (h : s.held.length < room → items = []) :
    R.Limits s room items ⟨⟨s.state, s.held.drop room⟩, 0, s.held.take room⟩ where
  taken_le := Nat.zero_le _
  given_le := List.length_take_le _ _
  moves := ⟨rfl, by simp⟩
  complete hroom := by
    rw [List.length_take] at hroom
    have hheld : s.held.length < room := by omega
    exact ⟨by rw [h hheld]; rfl, List.drop_eq_nil_of_le (Nat.le_of_lt hheld)⟩

theorem limits_limited (R : Receiver σ β τ) (s : Holding σ τ) (room : ℕ) (items : List β) :
    R.Limits s room items (R.limited s room items) := by
  induction items generalizing s room with
  | nil => exact limits_held s fun _ ↦ rfl
  | cons b rest ih =>
    unfold limited
    by_cases hroom : s.held.length < room
    · rw [if_pos hroom]
      have hrest := ih ⟨(R.step s.state b).1, (R.step s.state b).2⟩ (room - s.held.length)
      have hgiven := hrest.given_le
      refine ⟨Nat.succ_le_succ hrest.taken_le, ?_, ⟨?_, ?_⟩, fun hleft ↦ ?_⟩
      · simp only [List.length_append]
        omega
      · rw [List.take_succ_cons, feed]
        exact hrest.moves.state
      · rw [List.take_succ_cons, feed, List.append_assoc]
        exact congrArg (s.held ++ ·) hrest.moves.tokens
      · simp only [List.length_append] at hleft
        obtain ⟨htaken, hheld⟩ := hrest.complete (by omega)
        exact ⟨congrArg (· + 1) htaken, hheld⟩
    · rw [if_neg hroom]
      exact limits_held s fun h ↦ absurd h hroom

end Receiver

end Felicia.Support
