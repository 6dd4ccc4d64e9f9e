import Felicia.Channel.WebSocketRequest
import Mathlib.Algebra.Group.Int.Defs

/-!
# StringToInt

`base::StringToInt` of `base/strings/string_number_conversions.cc`, for an `int`. It stores a value
also where it returns false: what it read up to the first character that is wrong, or the bound that
a further digit would pass. `stringToInt_eq_iff` says that it returns true for the numbers that an
`int` can hold, in decimal, with an optional sign and nothing else.
-/

set_option autoImplicit false
set_option relaxedAutoImplicit false

namespace Felicia

namespace StringToInt

/-- `CharToDigit<10>`. -/
def charToDigit (c : Char) : Option ℕ :=
  if '0' ≤ c ∧ c ≤ '9' then some (c.toNat - '0'.toNat) else none

/-- `std::numeric_limits<int>::max()`. -/
def intMax : ℤ := 2 ^ 31 - 1

/-- `std::numeric_limits<int>::min()`. -/
def intMin : ℤ := -2 ^ 31

/-- `CheckBounds` of `Positive` or `Negative`, without what it stores. -/
def checkBounds (isNegative : Bool) (output : ℤ) (newDigit : ℕ) : Bool :=
  if isNegative then
    !(output < intMin.tdiv 10 || output = intMin.tdiv 10 && (newDigit : ℤ) > 0 - intMin.tmod 10)
  else !(output > intMax.tdiv 10 || output = intMax.tdiv 10 && (newDigit : ℤ) > intMax.tmod 10)

/-- `Increment` of `Positive` or `Negative`. -/
def increment (isNegative : Bool) (newDigit : ℕ) (output : ℤ) : ℤ :=
  if isNegative then output - newDigit else output + newDigit

/-- The loop of `Base::Invoke`, with what it returns and stores. -/
def convertDigits (isNegative isFirst : Bool) (output : ℤ) : List Char → Bool × ℤ
  | [] => (true, output)
  | c :: rest =>
    match charToDigit c with
    | none => (false, output)
    | some newDigit =>
      if isFirst then
        convertDigits isNegative false (increment isNegative newDigit output) rest
      else if checkBounds isNegative output newDigit then
        convertDigits isNegative false (increment isNegative newDigit (output * 10)) rest
      else (false, if isNegative then intMin else intMax)

/-- `Base::Invoke` of `Positive` or `Negative`. -/
def convert (isNegative : Bool) (text : List Char) : Bool × ℤ :=
  if text = [] then (false, 0) else convertDigits isNegative true 0 text

end StringToInt

open StringToInt

/-- `base::StringToInt`, with what it returns and stores. -/
def stringToInt (text : List Char) : Bool × ℤ :=
  let begin := text.dropWhile isWhitespaceASCII
  let converted :=
    if begin.head? = some '-' then convert true begin.tail
    else if begin.head? = some '+' then convert false begin.tail
    else convert false begin
  (decide (begin = text) && converted.1, converted.2)

/-! ### Numbers -/

namespace StringToInt

def IsDigit (c : Char) : Prop := '0' ≤ c ∧ c ≤ '9'

/-- The value of some digits behind others. -/
def valueFrom (value : ℕ) (digits : List Char) : ℕ :=
  digits.foldl (fun value c ↦ 10 * value + (c.toNat - '0'.toNat)) value

/-- A number in decimal, with an optional sign. -/
def Denotes (text : List Char) (number : ℤ) : Prop :=
  ∃ digits, digits ≠ [] ∧ (∀ c ∈ digits, IsDigit c) ∧
    ((text = digits ∨ text = '+' :: digits) ∧ number = valueFrom 0 digits ∨
      text = '-' :: digits ∧ number = -valueFrom 0 digits)

/-- A value with a sign. -/
def signed (isNegative : Bool) (value : ℕ) : ℤ := if isNegative then -value else value

/-- The largest value with a sign. -/
def limit (isNegative : Bool) : ℕ := if isNegative then 2 ^ 31 else 2 ^ 31 - 1

variable {isNegative : Bool} {value : ℕ} {text digits rest : List Char} {number : ℤ}

theorem le_valueFrom (value : ℕ) (digits : List Char) : value ≤ valueFrom value digits := by
  induction digits generalizing value with
  | nil => exact le_rfl
  | cons c digits ih =>
    have hle := ih (10 * value + (c.toNat - '0'.toNat))
    rw [valueFrom, List.foldl_cons]
    exact le_trans (by omega) hle

theorem IsDigit.le_nine {c : Char} (h : IsDigit c) : c.toNat - '0'.toNat ≤ 9 := by
  have hle : c.toNat ≤ '9'.toNat := h.2
  have hnine : '9'.toNat = '0'.toNat + 9 := by decide
  omega

theorem charToDigit_of_isDigit {c : Char} (h : IsDigit c) :
    charToDigit c = some (c.toNat - '0'.toNat) := if_pos h

theorem charToDigit_of_not_isDigit {c : Char} (h : ¬ IsDigit c) : charToDigit c = none := if_neg h

/-- A further digit is accepted exactly when the value stays within the limit. -/
theorem checkBounds_iff (isNegative : Bool) (value : ℕ) {newDigit : ℕ} (hdigit : newDigit ≤ 9) :
    checkBounds isNegative (signed isNegative value) newDigit = true ↔
      10 * value + newDigit ≤ limit isNegative := by
  have hmax : intMax.tdiv 10 = 214748364 := by decide
  have hmaxMod : intMax.tmod 10 = 7 := by decide
  have hmin : intMin.tdiv 10 = -214748364 := by decide
  have hminMod : intMin.tmod 10 = -8 := by decide
  unfold checkBounds signed limit
  rw [hmax, hmaxMod, hmin, hminMod]
  cases isNegative <;> simp <;> omega

theorem increment_signed (isNegative : Bool) (value newDigit : ℕ) :
    increment isNegative newDigit (signed isNegative value * 10) =
      signed isNegative (10 * value + newDigit) := by
  unfold increment signed
  split_ifs <;> push_cast <;> omega

/-- The loop, behind the first digit. -/
theorem convertDigits_eq_iff (hvalue : value ≤ limit isNegative) :
    convertDigits isNegative false (signed isNegative value) text = (true, number) ↔
      (∀ c ∈ text, IsDigit c) ∧ valueFrom value text ≤ limit isNegative ∧
        number = signed isNegative (valueFrom value text) := by
  induction text generalizing value with
  | nil =>
    simp only [convertDigits, Prod.mk.injEq, true_and, List.not_mem_nil, false_implies,
      implies_true]
    exact ⟨fun heq ↦ ⟨hvalue, heq.symm⟩, fun h ↦ h.2.symm⟩
  | cons c rest ih =>
    by_cases hdigit : IsDigit c
    · have hstep : valueFrom value (c :: rest) =
          valueFrom (10 * value + (c.toNat - '0'.toNat)) rest := rfl
      rw [convertDigits, charToDigit_of_isDigit hdigit, hstep]
      simp only [Bool.false_eq_true, if_false, checkBounds_iff _ _ hdigit.le_nine,
        increment_signed, List.forall_mem_cons, hdigit, true_and]
      by_cases hfits : 10 * value + (c.toNat - '0'.toNat) ≤ limit isNegative
      · rw [if_pos hfits]
        exact ih hfits
      · have hle := le_valueFrom (10 * value + (c.toNat - '0'.toNat)) rest
        rw [if_neg hfits]
        refine iff_of_false (fun heq ↦ nomatch congrArg Prod.fst heq) ?_
        rintro ⟨-, hlimit, -⟩
        omega
    · rw [convertDigits, charToDigit_of_not_isDigit hdigit]
      refine iff_of_false (fun heq ↦ nomatch congrArg Prod.fst heq) ?_
      exact fun h ↦ hdigit (h.1 c List.mem_cons_self)

/-- The first digit is not checked, but fits. -/
theorem convert_eq_iff (isNegative : Bool) (text : List Char) (number : ℤ) :
    convert isNegative text = (true, number) ↔
      text ≠ [] ∧ (∀ c ∈ text, IsDigit c) ∧ valueFrom 0 text ≤ limit isNegative ∧
        number = signed isNegative (valueFrom 0 text) := by
  cases text with
  | nil => simp [convert]
  | cons c rest =>
    have hfirst : convert isNegative (c :: rest) =
        convertDigits isNegative false (signed isNegative 0) (c :: rest) := by
      have hzero : signed isNegative 0 = 0 := by cases isNegative <;> rfl
      rw [convert, if_neg (List.cons_ne_nil _ _), hzero, convertDigits, convertDigits]
      by_cases hdigit : IsDigit c
      · have hle := hdigit.le_nine
        rw [charToDigit_of_isDigit hdigit]
        generalize c.toNat - '0'.toNat = newDigit at hle
        have hlimit : 10 * 0 + newDigit ≤ limit isNegative := by
          cases isNegative <;> simp [limit] <;> omega
        have hfits := (checkBounds_iff isNegative 0 hle).mpr hlimit
        rw [hzero] at hfits
        simp [hfits]
      · rw [charToDigit_of_not_isDigit hdigit]
    rw [hfirst, convertDigits_eq_iff (Nat.zero_le _), and_iff_right (List.cons_ne_nil _ _)]

end StringToInt

open StringToInt

theorem not_isDigit_of_isWhitespaceASCII {c : Char} (h : isWhitespaceASCII c = true) :
    ¬ IsDigit c ∧ c ≠ '+' ∧ c ≠ '-' := by
  simp only [isWhitespaceASCII, Bool.or_eq_true, decide_eq_true_eq] at h
  obtain ((((rfl | rfl) | rfl) | rfl) | rfl) | rfl := h <;>
    exact ⟨by unfold IsDigit; decide, by decide, by decide⟩

/-- A number begins with a sign or a digit. -/
theorem denotes_cons_iff {c : Char} {rest : List Char} {number : ℤ} :
    Denotes (c :: rest) number ↔
      if c = '-' then rest ≠ [] ∧ (∀ d ∈ rest, IsDigit d) ∧ number = -valueFrom 0 rest
      else if c = '+' then rest ≠ [] ∧ (∀ d ∈ rest, IsDigit d) ∧ number = valueFrom 0 rest
      else (∀ d ∈ c :: rest, IsDigit d) ∧ number = valueFrom 0 (c :: rest) := by
  have hsign (digits : List Char) (h : ∀ d ∈ digits, IsDigit d) (heq : c :: rest = digits) :
      c ≠ '-' ∧ c ≠ '+' := by
    have hdigit := h c (heq ▸ List.mem_cons_self)
    constructor
    · rintro rfl
      exact absurd hdigit (by unfold IsDigit; decide)
    · rintro rfl
      exact absurd hdigit (by unfold IsDigit; decide)
  constructor
  · rintro ⟨digits, hne, hdigits, ⟨heq | heq, hnumber⟩ | ⟨heq, hnumber⟩⟩
    · obtain ⟨hminus, hplus⟩ := hsign digits hdigits heq
      rw [if_neg hminus, if_neg hplus, heq]
      exact ⟨hdigits, hnumber⟩
    · obtain ⟨rfl, rfl⟩ := List.cons.inj heq
      rw [if_neg (by decide), if_pos rfl]
      exact ⟨hne, hdigits, hnumber⟩
    · obtain ⟨rfl, rfl⟩ := List.cons.inj heq
      rw [if_pos rfl]
      exact ⟨hne, hdigits, hnumber⟩
  · intro h
    split_ifs at h with hminus hplus
    · exact ⟨rest, h.1, h.2.1, .inr ⟨by rw [hminus], h.2.2⟩⟩
    · exact ⟨rest, h.1, h.2.1, .inl ⟨.inr (by rw [hplus]), h.2.2⟩⟩
    · exact ⟨c :: rest, List.cons_ne_nil _ _, h.1, .inl ⟨.inl rfl, h.2⟩⟩

theorem stringToInt_cons_eq_iff {c : Char} {rest : List Char} {number : ℤ} :
    stringToInt (c :: rest) = (true, number) ↔ isWhitespaceASCII c = false ∧
      (if c = '-' then convert true rest
        else if c = '+' then convert false rest
        else convert false (c :: rest)) = (true, number) := by
  unfold stringToInt
  cases hspace : isWhitespaceASCII c with
  | true =>
    have hlength := (List.dropWhile_sublist isWhitespaceASCII (l := rest)).length_le
    have hne : rest.dropWhile isWhitespaceASCII ≠ c :: rest := fun heq ↦ by
      rw [heq, List.length_cons] at hlength
      omega
    simp [hspace, hne]
  | false =>
    have hdrop : (c :: rest).dropWhile isWhitespaceASCII = c :: rest := by
      rw [List.dropWhile_cons_of_neg (by simp [hspace])]
    simp only [hdrop, List.head?_cons, Option.some.injEq, List.tail_cons, decide_true,
      Bool.true_and, true_and]

/-- What is converted is a number of an `int`. -/
theorem stringToInt_eq_iff (text : List Char) (number : ℤ) :
    stringToInt text = (true, number) ↔
      Denotes text number ∧ intMin ≤ number ∧ number ≤ intMax := by
  have hmin : intMin = -2147483648 := by decide
  have hmax : intMax = 2147483647 := by decide
  cases text with
  | nil =>
    refine iff_of_false (fun heq ↦ nomatch congrArg Prod.fst heq) ?_
    rintro ⟨⟨digits, hne, -, ⟨heq | heq, -⟩ | ⟨heq, -⟩⟩, -⟩
    · exact hne heq.symm
    · cases heq
    · cases heq
  | cons c rest =>
    rw [stringToInt_cons_eq_iff, denotes_cons_iff, hmin, hmax]
    cases hspace : isWhitespaceASCII c with
    | true =>
      obtain ⟨hdigit, hplus, hminus⟩ := not_isDigit_of_isWhitespaceASCII hspace
      rw [if_neg hminus, if_neg hplus, if_neg hminus, if_neg hplus]
      simp [hdigit]
    | false =>
      rw [and_iff_right rfl]
      split_ifs with hminus hplus
      · rw [convert_eq_iff]
        simp only [signed, limit, if_true]
        constructor
        · rintro ⟨hne, hdigits, hle, hnumber⟩
          exact ⟨⟨hne, hdigits, hnumber⟩, by omega, by omega⟩
        · rintro ⟨⟨hne, hdigits, hnumber⟩, hlower, -⟩
          exact ⟨hne, hdigits, by omega, hnumber⟩
      · rw [convert_eq_iff]
        simp only [signed, limit, Bool.false_eq_true, if_false]
        constructor
        · rintro ⟨hne, hdigits, hle, hnumber⟩
          exact ⟨⟨hne, hdigits, hnumber⟩, by omega, by omega⟩
        · rintro ⟨⟨hne, hdigits, hnumber⟩, -, hupper⟩
          exact ⟨hne, hdigits, by omega, hnumber⟩
      · rw [convert_eq_iff]
        simp only [signed, limit, Bool.false_eq_true, if_false]
        constructor
        · rintro ⟨-, hdigits, hle, hnumber⟩
          exact ⟨⟨hdigits, hnumber⟩, by omega, by omega⟩
        · rintro ⟨⟨hdigits, hnumber⟩, -, hupper⟩
          exact ⟨List.cons_ne_nil _ _, hdigits, by omega, hnumber⟩

end Felicia
