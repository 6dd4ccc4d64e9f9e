import Mathlib.Data.List.Basic

/-!
# Moving bytes by repeated calls

A call is asked to move some number of bytes. It moves part of them or fails, at once or later, and
never moves more than it was asked for. `transfer` repeats the calls for what is left, as long as
they move something at once, and gives up at the first that does not: the end of the first call that
has to wait is the end of the whole.

`Whole` is the condition on the calls under which an end without a failure means that everything was
moved, and `whole_iff` says that it is exact.
-/

set_option autoImplicit false
set_option relaxedAutoImplicit false

namespace Felicia.Support

variable {ε : Type*}

/-- How a call ends: it moved bytes, as many as it was asked for or fewer, or it failed. -/
inductive Completion (ε : Type*)
  | moved (n : ℕ)
  | failed (e : ε)
  deriving DecidableEq

/-- What a call comes to: it ends at once, or it has to wait and may end later. -/
inductive Outcome (ε : Type*)
  | now (completion : Completion ε)
  | pending (later : Option (Completion ε))
  deriving DecidableEq

namespace Completion

/-- The number of bytes that were moved. -/
def count (asked : ℕ) : Completion ε → ℕ
  | moved n => min n asked
  | failed _ => 0

/-- The call did not fail. -/
def isMoved : Completion ε → Bool
  | moved _ => true
  | failed _ => false

theorem count_le (asked : ℕ) (completion : Completion ε) : completion.count asked ≤ asked := by
  cases completion with
  | moved n => exact Nat.min_le_right n asked
  | failed e => exact Nat.zero_le asked

end Completion

/-- What repeated calls came to: the bytes that were moved, and the end of the last call, which is
missing while it is not known. -/
structure Transfer (ε : Type*) where
  moved : ℕ
  last : Option (Completion ε)
  deriving DecidableEq

namespace Transfer

/-- Count bytes that were moved before. -/
def after (n : ℕ) (t : Transfer ε) : Transfer ε := { t with moved := n + t.moved }

@[simp] theorem after_moved (n : ℕ) (t : Transfer ε) : (t.after n).moved = n + t.moved := rfl

/-- Whether the last call ended without a failure, once it ended. -/
def succeeded? (t : Transfer ε) : Option Bool := t.last.map (·.isMoved)

@[simp] theorem after_succeeded? (n : ℕ) (t : Transfer ε) :
    (t.after n).succeeded? = t.succeeded? := rfl

end Transfer

/-- Repeat calls until everything is moved, a call moves nothing, fails or has to wait. -/
def transfer : ℕ → List (Outcome ε) → Transfer ε
  | _, [] => ⟨0, none⟩
  | asked, .now completion :: rest =>
    let n := completion.count asked
    if n = asked ∨ n = 0 then ⟨n, some completion⟩ else (transfer (asked - n) rest).after n
  | _, .pending none :: _ => ⟨0, none⟩
  | asked, .pending (some completion) :: _ => ⟨completion.count asked, some completion⟩

theorem transfer_moved_le (asked : ℕ) (calls : List (Outcome ε)) :
    (transfer asked calls).moved ≤ asked := by
  induction calls generalizing asked with
  | nil => exact Nat.zero_le asked
  | cons call rest ih =>
    cases call with
    | now completion =>
      have hle := completion.count_le asked
      have hrest := ih (asked - completion.count asked)
      rw [transfer]
      split_ifs
      · exact hle
      · rw [Transfer.after_moved]
        omega
    | pending later =>
      cases later with
      | none => exact Nat.zero_le asked
      | some completion => exact completion.count_le asked

/-- No call moves nothing, and the one that has to wait, if it ends without a failure, moves all
that was left. -/
def Whole : ℕ → List (Outcome ε) → Prop
  | _, [] => True
  | asked, .now (.moved n) :: rest => 0 < n ∧ (n < asked → Whole (asked - n) rest)
  | _, .now (.failed _) :: _ => True
  | asked, .pending (some (.moved n)) :: _ => asked ≤ n
  | _, .pending (some (.failed _)) :: _ => True
  | _, .pending none :: _ => True

instance : (asked : ℕ) → (calls : List (Outcome ε)) → Decidable (Whole asked calls)
  | _, [] => isTrue trivial
  | asked, .now (.moved n) :: rest =>
    have := instDecidableWhole (asked - n) rest
    inferInstanceAs (Decidable (0 < n ∧ (n < asked → Whole (asked - n) rest)))
  | _, .now (.failed _) :: _ => isTrue trivial
  | asked, .pending (some (.moved n)) :: _ => inferInstanceAs (Decidable (asked ≤ n))
  | _, .pending (some (.failed _)) :: _ => isTrue trivial
  | _, .pending none :: _ => isTrue trivial

/-- The calls end with a failure. -/
def Fails : ℕ → List (Outcome ε) → Prop
  | _, [] => False
  | asked, .now (.moved n) :: rest => 0 < n ∧ n < asked ∧ Fails (asked - n) rest
  | _, .now (.failed _) :: _ => True
  | _, .pending (some (.failed _)) :: _ => True
  | _, .pending _ :: _ => False

/-- Assumes: something is to be moved. Success means that everything was moved, exactly for calls
of which none stops short. -/
theorem whole_iff {asked : ℕ} (hasked : 0 < asked) (calls : List (Outcome ε)) :
    ((transfer asked calls).succeeded? = some true → (transfer asked calls).moved = asked) ↔
      Whole asked calls := by
  induction calls generalizing asked with
  | nil => simp [transfer, Whole, Transfer.succeeded?]
  | cons call rest ih =>
    cases call with
    | now completion =>
      cases completion with
      | failed e =>
        simp [transfer, Whole, Transfer.succeeded?, Completion.count, Completion.isMoved]
      | moved n =>
        rw [transfer, Whole]
        by_cases hlt : n < asked
        · rcases Nat.eq_zero_or_pos n with rfl | hpos
          · simp [Completion.count, Transfer.succeeded?, Completion.isMoved, Nat.ne_of_lt hasked]
          · have hcount : Completion.count asked (Completion.moved n : Completion ε) = n :=
              Nat.min_eq_left (Nat.le_of_lt hlt)
            have hstop : ¬ (n = asked ∨ n = 0) := by omega
            have hmoved (m : ℕ) : n + m = asked ↔ m = asked - n := by omega
            simp only [hcount, if_neg hstop, Transfer.after_moved, Transfer.after_succeeded?,
              hmoved, hpos, hlt, true_and, true_imp_iff, ← ih (show 0 < asked - n by omega)]
        · have hcount : Completion.count asked (Completion.moved n : Completion ε) = asked :=
            Nat.min_eq_right (Nat.not_lt.mp hlt)
          simp only [hcount, true_or, ↓reduceIte, hlt, false_imp_iff, and_true, implies_true,
            true_iff]
          omega
    | pending later =>
      cases later with
      | none => simp [transfer, Whole, Transfer.succeeded?]
      | some completion =>
        cases completion with
        | failed e => simp [transfer, Whole, Transfer.succeeded?, Completion.isMoved]
        | moved n =>
          simp only [transfer, Whole, Transfer.succeeded?, Completion.count, Option.map_some,
            Completion.isMoved, true_imp_iff]
          omega

/-- Assumes: something is to be moved. -/
theorem fails_iff {asked : ℕ} (hasked : 0 < asked) (calls : List (Outcome ε)) :
    (transfer asked calls).succeeded? = some false ↔ Fails asked calls := by
  induction calls generalizing asked with
  | nil => simp [transfer, Fails, Transfer.succeeded?]
  | cons call rest ih =>
    cases call with
    | now completion =>
      cases completion with
      | failed e =>
        simp [transfer, Fails, Completion.count, Transfer.succeeded?, Completion.isMoved]
      | moved n =>
        rw [transfer, Fails]
        by_cases hmid : 0 < n ∧ n < asked
        · have hcount : Completion.count asked (Completion.moved n : Completion ε) = n :=
            Nat.min_eq_left (Nat.le_of_lt hmid.2)
          have hstop : ¬ (n = asked ∨ n = 0) := by omega
          simp only [hcount, if_neg hstop, Transfer.after_succeeded?, hmid, true_and,
            ih (show 0 < asked - n by omega)]
        · have hcount : Completion.count asked (Completion.moved n : Completion ε) = asked ∨
              Completion.count asked (Completion.moved n : Completion ε) = 0 := by
            simp only [Completion.count]
            omega
          rw [if_pos hcount, ← and_assoc]
          simp [hmid, Transfer.succeeded?, Completion.isMoved]
    | pending later =>
      cases later with
      | none => simp [transfer, Fails, Transfer.succeeded?]
      | some completion =>
        cases completion <;> simp [transfer, Fails, Transfer.succeeded?, Completion.isMoved]

end Felicia.Support
