import Felicia.Support.Loops
import Felicia.Util.Flag
import Mathlib.Logic.Relation

/-!
# The flags of a command line

`FlagParser.parse` walks over the arguments of a program. At each of them the delegate tries its
optional flags in the order in which they are listed (`parseOptionalFlag`), until one accepts a
value.

`Group` says that the first flag listed that an argument concerns takes a value there, and `Splits`
that the arguments between two indices are such groups. A flag that is refused its value has moved
the parser on, and the flags behind it are then tried at the refused value. If the value begins with
the name of one of them, the run can go on from there (`Slips`); if not, it fails (`Refuses`).

`parse_splits` is what a run that succeeds has read.
-/

set_option autoImplicit false
set_option relaxedAutoImplicit false

namespace Felicia.CommandLine

open Felicia.Support

variable {V : Type*} {argv : List Token}

/-- What a run, or one attempt of the delegate, leaves behind. -/
structure Outcome (V : Type*) (argv : List Token) where
  ok : Bool
  flags : List (Flag V)
  parser : FlagParser argv

def parseOptionalFlag : List (Flag V) → FlagParser argv → Outcome V argv
  | [], p => ⟨false, [], p⟩
  | f :: flags, p =>
    match f.parse p with
    | (some value, p') => ⟨true, f.setValue value :: flags, p'⟩
    | (none, p') =>
      let outcome := parseOptionalFlag flags p'
      ⟨outcome.ok, f :: outcome.flags, outcome.parser⟩

namespace FlagParser

def round (validate : List (Flag V) → Bool) (s : List (Flag V) × FlagParser argv) :
    LoopRound (List (Flag V) × FlagParser argv) (Outcome V argv) :=
  if s.2.currentIdx < argv.length then
    if s.2.current = helpToken then .done ⟨false, s.1, s.2⟩
    else
      let outcome := parseOptionalFlag s.1 s.2
      if outcome.ok then .again (outcome.flags, outcome.parser.proceed) else .done outcome
  else .done ⟨validate s.1, s.1, s.2⟩

def start (argv : List Token) : FlagParser argv := ⟨1, Nat.le_max_left 1 argv.length⟩

/-- The delegate lists `flags`, all of them optional. -/
def parse (validate : List (Flag V) → Bool) (flags : List (Flag V)) (argv : List Token) :
    LoopEnd (Outcome V argv) :=
  runLoop (round validate) (argv.length + 1) (flags, start argv)

end FlagParser

/-! ### The flags in their order -/

/-- A group of arguments: the first flag listed that the argument at an index concerns is given a
value, and the index behind the group. -/
inductive Group (argv : List Token) : ℕ × List (Flag V) → ℕ × List (Flag V) → Prop
  | mk {i j : ℕ} {before after : List (Flag V)} {f : Flag V} {value : V}
      (hhelp : token argv i ≠ helpToken) (hbefore : ∀ g ∈ before, Leaves g argv i)
      (htakes : Takes f argv i j value) :
      Group argv (i, before ++ f :: after) (j, before ++ f.setValue value :: after)

/-- The arguments between two indices are groups, whose values are assigned in order. -/
def Splits (argv : List Token) : ℕ × List (Flag V) → ℕ × List (Flag V) → Prop :=
  Relation.ReflTransGen (Group argv)

theorem le_of_splits {s t : ℕ × List (Flag V)} (h : Splits argv s t) : s.1 ≤ t.1 := by
  induction h with
  | refl => exact Nat.le_refl _
  | tail hsplits hgroup ih =>
    obtain ⟨-, -, htakes⟩ := hgroup
    have hlt := htakes.lt.2.1
    simp only at ih ⊢
    omega

/-- The first flag listed that the argument concerns is refused its value. That flag and those
behind it are what is tried next, at the refused value. -/
inductive Stuck (argv : List Token) : ℕ × List (Flag V) → Token → List (Flag V) → Prop
  | mk {i : ℕ} {before after : List (Flag V)} {f : Flag V} {text : Token}
      (hbefore : ∀ g ∈ before, Leaves g argv i) (hstumbles : Stumbles f argv i text) :
      Stuck argv (i, before ++ f :: after) text (f :: after)

/-- A refused value begins with the name of a flag that is tried there. -/
def Slips (argv : List Token) (s : ℕ × List (Flag V)) : Prop :=
  ∃ text tried, Stuck argv s text tried ∧ ∃ g ∈ tried, ∃ name ∈ g.names, name <+: text

/-- A value is refused that begins with the name of no flag that is tried there. -/
def Refuses (argv : List Token) (s : ℕ × List (Flag V)) : Prop :=
  ∃ text tried, Stuck argv s text tried ∧ ∀ g ∈ tried, ∀ name ∈ g.names, ¬ name <+: text

theorem Stumbles.ne_helpToken {f : Flag V} {i : ℕ} {text : Token}
    (h : Stumbles f argv i text) : token argv i ≠ helpToken := by
  cases h with
  | equal hkind hlong htoken hvalue hset hshort =>
    rw [htoken]
    exact equal_ne_helpToken _ _
  | spaced hkind hname hvalue => exact Flag.ne_helpToken hname

theorem Stumbles.lt {f : Flag V} {i : ℕ} {text : Token} (h : Stumbles f argv i text) :
    i < argv.length := by
  cases h with
  | equal hkind hlong htoken hvalue hset hshort => exact lt_of_token (by simp [htoken])
  | spaced hkind hname hvalue => exact lt_of_token (Flag.mem_names.mp hname).2

/-- Every argument is the beginning of a group, or one that a flag is stuck at, or no flag's. -/
theorem group_or_stuck (i : ℕ) (flags : List (Flag V)) (hhelp : token argv i ≠ helpToken) :
    (∃ s, Group argv (i, flags) s) ∨ (∃ text tried, Stuck argv (i, flags) text tried) ∨
      ∀ g ∈ flags, Leaves g argv i := by
  induction flags with
  | nil => simp
  | cons f flags ih =>
    have hnone : ∀ g ∈ ([] : List (Flag V)), Leaves g argv i := by simp
    by_cases htakes : ∃ j value, Takes f argv i j value
    · obtain ⟨j, value, htakes⟩ := htakes
      exact .inl ⟨_, .mk hhelp hnone htakes⟩
    by_cases hstumbles : ∃ text, Stumbles f argv i text
    · obtain ⟨text, hstumbles⟩ := hstumbles
      exact .inr (.inl ⟨text, _, .mk hnone hstumbles⟩)
    have hleaves : Leaves f argv i :=
      ⟨fun j value h ↦ htakes ⟨j, value, h⟩, fun text h ↦ hstumbles ⟨text, h⟩⟩
    obtain ⟨s, hgroup⟩ | ⟨text, tried, hstuck⟩ | hall := ih
    · obtain ⟨-, hbefore, htakes⟩ := hgroup
      exact .inl ⟨_, .mk hhelp (List.forall_mem_cons.mpr ⟨hleaves, hbefore⟩) htakes⟩
    · obtain ⟨hbefore, hstumbles⟩ := hstuck
      exact .inr (.inl
        ⟨text, _, .mk (List.forall_mem_cons.mpr ⟨hleaves, hbefore⟩) hstumbles⟩)
    · exact .inr (.inr (by simpa using ⟨hleaves, hall⟩))

section Delegate

variable {p : FlagParser argv} {before after flags : List (Flag V)} {f : Flag V}

theorem parseOptionalFlag_append (flags : List (Flag V)) (hoptional : ∀ g ∈ before, g.isOptional)
    (hleaves : ∀ g ∈ before, Leaves g argv p.currentIdx) :
    parseOptionalFlag (before ++ flags) p =
      ⟨(parseOptionalFlag flags p).ok, before ++ (parseOptionalFlag flags p).flags,
        (parseOptionalFlag flags p).parser⟩ := by
  induction before with
  | nil => rfl
  | cons g before ih =>
    have hparse := Flag.parse_of_leaves (hoptional g List.mem_cons_self)
      (hleaves g List.mem_cons_self)
    have hrest := ih (fun g hg ↦ hoptional g (List.mem_cons_of_mem _ hg))
      (fun g hg ↦ hleaves g (List.mem_cons_of_mem _ hg))
    simp [parseOptionalFlag, hparse, hrest]

theorem parseOptionalFlag_of_leaves (hoptional : ∀ g ∈ flags, g.isOptional)
    (hleaves : ∀ g ∈ flags, Leaves g argv p.currentIdx) :
    parseOptionalFlag flags p = ⟨false, flags, p⟩ := by
  have happend := parseOptionalFlag_append [] hoptional hleaves
  rw [List.append_nil] at happend
  simpa [parseOptionalFlag] using happend

theorem parseOptionalFlag_of_group {j : ℕ} {flags' : List (Flag V)}
    (hoptional : ∀ g ∈ flags, g.isOptional)
    (h : Group argv (p.currentIdx, flags) (j, flags')) :
    ∃ p', parseOptionalFlag flags p = ⟨true, flags', p'⟩ ∧ p'.currentIdx + 1 = j := by
  obtain ⟨-, hbefore, htakes⟩ := h
  obtain ⟨p', hparse, hidx⟩ := Flag.parse_of_takes htakes
  refine ⟨p', ?_, hidx⟩
  rw [parseOptionalFlag_append _ (fun g hg ↦ hoptional g (List.mem_append_left _ hg)) hbefore]
  simp [parseOptionalFlag, hparse]

/-- A flag whose names do not begin the argument. -/
theorem leaves_of_not_begins {i : ℕ} (h : ∀ name ∈ f.names, ¬ name <+: token argv i) :
    Leaves f argv i := by
  constructor
  · rintro j value (⟨-, hname, htoken⟩ | ⟨-, hname, htoken, -⟩ | ⟨-, hname, htoken, -⟩)
    · exact h _ hname htoken
    · exact h _ hname (htoken ▸ List.prefix_append _ _)
    · exact h _ hname (htoken ▸ List.prefix_rfl)
  · rintro text (⟨-, hlong, htoken, -, -⟩ | ⟨-, hname, -⟩)
    · exact h _ (Flag.mem_names.mpr ⟨.inl rfl, hlong⟩) (htoken ▸ List.prefix_append _ _)
    · exact h _ hname List.prefix_rfl

theorem parseOptionalFlag_of_refuses (hoptional : ∀ g ∈ flags, g.isOptional)
    (h : Refuses argv (p.currentIdx, flags)) : (parseOptionalFlag flags p).ok = false := by
  obtain ⟨text, tried, ⟨hbefore, hstumbles⟩, hnot⟩ := h
  rw [parseOptionalFlag_append _ (fun g hg ↦ hoptional g (List.mem_append_left _ hg)) hbefore]
  have hoptional := fun g hg ↦ hoptional g (List.mem_append_right _ hg)
  cases hstumbles with
  | equal hkind hlong htoken hvalue hset hshort =>
    exact absurd hshort (hnot _ List.mem_cons_self _ (Flag.mem_names.mpr ⟨.inr rfl, hset⟩))
  | spaced hkind hname hvalue =>
    have hparse := Flag.parse_of_refused (hoptional _ List.mem_cons_self) hkind hname hvalue
      (hnot _ List.mem_cons_self)
    have hnext := currentIdx_proceed (lt_of_token (Flag.mem_names.mp hname).2)
    have hrest := parseOptionalFlag_of_leaves (p := p.proceed)
      (fun g hg ↦ hoptional g (List.mem_cons_of_mem _ hg))
      (fun g hg ↦ hnext ▸ leaves_of_not_begins (hnot g (List.mem_cons_of_mem _ hg)))
    simp [parseOptionalFlag, hparse, hrest]

end Delegate

/-! ### A whole run -/

section Run

variable {flags : List (Flag V)} {p : FlagParser argv} {f : Flag V}

def Attempt.parser : Attempt V argv → FlagParser argv
  | accepted _ p => p
  | refused p => p
  | goOn p _ => p

theorem le_proceed (p : FlagParser argv) : p.currentIdx ≤ p.proceed.currentIdx := by
  unfold FlagParser.proceed
  split <;> simp

theorem le_consumeEqualOrProceed {arg text : Token} {p' : FlagParser argv}
    (h : consumeEqualOrProceed p arg = some (p', text)) : p.currentIdx ≤ p'.currentIdx := by
  unfold consumeEqualOrProceed at h
  split at h
  case h_1 =>
    cases h
    exact Nat.le_refl _
  case h_2 =>
    split at h
    case isTrue => cases h
    case isFalse =>
      cases h
      exact le_proceed p

theorem le_tryName (f : Flag V) (name : Token) (p : FlagParser argv) (arg : Token) :
    p.currentIdx ≤ (f.tryName name p arg).parser.currentIdx := by
  unfold Flag.tryName
  split
  case isTrue => exact Nat.le_refl _
  case isFalse =>
    split
    case h_1 => exact Nat.le_refl _
    case h_2 rest hrest =>
      split
      case h_1 => exact Nat.le_refl _
      case h_2 p' text hconsume =>
        have hle : p.currentIdx ≤ p'.currentIdx := by
          split at hconsume
          case isTrue =>
            cases hconsume
            exact Nat.le_refl _
          case isFalse => exact le_consumeEqualOrProceed hconsume
        split
        · exact hle
        · exact hle

theorem le_parse (f : Flag V) (p : FlagParser argv) : p.currentIdx ≤ (f.parse p).2.currentIdx := by
  have hlong := le_tryName f f.longName p p.current
  unfold Flag.parse
  cases htry : f.tryName f.longName p p.current with
  | accepted value p' => simpa [htry, Attempt.parser] using hlong
  | refused p' => simpa [htry, Attempt.parser] using hlong
  | goOn p' arg =>
    have hshort := le_tryName f f.shortName p' arg
    rw [htry] at hlong
    replace hlong : p.currentIdx ≤ p'.currentIdx := hlong
    cases htry' : f.tryName f.shortName p' arg with
    | accepted value p'' => simpa [htry', Attempt.parser] using Nat.le_trans hlong hshort
    | refused p'' => simpa [htry', Attempt.parser] using Nat.le_trans hlong hshort
    | goOn p'' arg' => simpa [htry', Attempt.parser] using Nat.le_trans hlong hshort

theorem le_parseOptionalFlag (flags : List (Flag V)) (p : FlagParser argv) :
    p.currentIdx ≤ (parseOptionalFlag flags p).parser.currentIdx := by
  induction flags generalizing p with
  | nil => exact Nat.le_refl _
  | cons f flags ih =>
    have hle := le_parse f p
    unfold parseOptionalFlag
    cases hparse : f.parse p with
    | mk value? p' =>
      rw [hparse] at hle
      replace hle : p.currentIdx ≤ p'.currentIdx := hle
      cases value? with
      | some value => exact hle
      | none => exact Nat.le_trans hle (ih p')

/-- Assumes: optional flags. A round whose argument begins a group reads the group. -/
theorem round_of_group (validate : List (Flag V) → Bool) {s : ℕ × List (Flag V)}
    (hoptional : ∀ g ∈ flags, g.isOptional) (h : Group argv (p.currentIdx, flags) s) :
    ∃ p', FlagParser.round validate (flags, p) = .again (s.2, p') ∧ p'.currentIdx = s.1 := by
  obtain ⟨j, flags'⟩ := s
  obtain ⟨p', hparse, hidx⟩ := parseOptionalFlag_of_group hoptional h
  have hend : p.currentIdx < argv.length ∧ j ≤ argv.length ∧ p.current ≠ helpToken := by
    obtain ⟨hhelp, -, htakes⟩ := h
    exact ⟨htakes.lt.1, htakes.lt.2.2, hhelp⟩
  refine ⟨p'.proceed, ?_, ?_⟩
  · simp [FlagParser.round, hend, hparse]
  · rw [currentIdx_proceed (by omega), hidx]

theorem isOptional_of_group {s s' : ℕ × List (Flag V)} (h : Group argv s s')
    (hoptional : ∀ g ∈ s.2, g.isOptional) : ∀ g ∈ s'.2, g.isOptional := by
  cases h with
  | @mk i j before after f value hhelp hbefore htakes =>
    intro g hg
    obtain hg | rfl | hg := by simpa using hg
    · exact hoptional g (by simp [hg])
    · exact hoptional f (by simp)
    · exact hoptional g (by simp [hg])

/-- What a run has read so far, if nothing slipped on the way. -/
def HasRead (argv : List Token) (flags : List (Flag V)) (s : List (Flag V) × FlagParser argv) :
    Prop :=
  (∃ t, Splits argv (1, flags) t ∧ Slips argv t) ∨
    (∀ g ∈ s.1, g.isOptional) ∧ Splits argv (1, flags) (s.2.currentIdx, s.1)

/-- A round that goes on has moved on. -/
theorem currentIdx_round (validate : List (Flag V) → Bool) (s : List (Flag V) × FlagParser argv) :
    (FlagParser.round validate s).Meets False
      (fun next ↦ argv.length - next.2.currentIdx < argv.length - s.2.currentIdx)
      (fun _ ↦ True) := by
  unfold FlagParser.round
  split
  case isTrue hlt =>
    split
    case isTrue => trivial
    case isFalse =>
      have hle := le_parseOptionalFlag s.1 s.2
      cases hok : (parseOptionalFlag s.1 s.2).ok with
      | false => simp [hok, LoopRound.Meets]
      | true =>
        simp only [hok, ↓reduceIte, LoopRound.Meets]
        by_cases hend : (parseOptionalFlag s.1 s.2).parser.currentIdx < argv.length
        · rw [currentIdx_proceed hend]
          omega
        · have hproceed := le_proceed (parseOptionalFlag s.1 s.2).parser
          omega
  case isFalse => trivial

theorem round_hasRead (validate : List (Flag V) → Bool) (s : List (Flag V) × FlagParser argv)
    (h : HasRead argv flags s) :
    (FlagParser.round validate s).Meets True (HasRead argv flags)
      (fun outcome ↦ outcome.ok = true → (∃ t, Splits argv (1, flags) t ∧ Slips argv t) ∨
        Splits argv (1, flags) (max 1 argv.length, outcome.flags)) := by
  obtain ⟨flags', p⟩ := s
  obtain hslip | ⟨hoptional, hsplits⟩ := h
  · cases FlagParser.round validate (flags', p) with
    | failed => trivial
    | again next => exact .inl hslip
    | done outcome => exact fun _ ↦ .inl hslip
  by_cases hlt : p.currentIdx < argv.length
  · by_cases hhelp : p.current = helpToken
    · simp [FlagParser.round, hlt, hhelp, LoopRound.Meets]
    · obtain ⟨t, hgroup⟩ | ⟨text, tried, hstuck⟩ | hleaves :=
        group_or_stuck p.currentIdx flags' hhelp
      · obtain ⟨p', hround, hidx⟩ := round_of_group validate hoptional hgroup
        rw [hround]
        refine .inr ⟨isOptional_of_group hgroup hoptional, ?_⟩
        rw [hidx]
        exact hsplits.tail hgroup
      · by_cases hname : ∃ g ∈ tried, ∃ name ∈ g.names, name <+: text
        · have hslip : ∃ t, Splits argv (1, flags) t ∧ Slips argv t :=
            ⟨_, hsplits, text, tried, hstuck, hname⟩
          cases FlagParser.round validate (flags', p) with
          | failed => trivial
          | again next => exact .inl hslip
          | done outcome => exact fun _ ↦ .inl hslip
        · have hok := parseOptionalFlag_of_refuses hoptional
            ⟨text, tried, hstuck, fun g hg name hmem h ↦ hname ⟨g, hg, name, hmem, h⟩⟩
          simp [FlagParser.round, hlt, hhelp, hok, LoopRound.Meets]
      · have hparse := parseOptionalFlag_of_leaves hoptional hleaves
        simp [FlagParser.round, hlt, hhelp, hparse, LoopRound.Meets]
  · have hidx : p.currentIdx = max 1 argv.length := by
      have hstart := le_of_splits hsplits
      have hrange := p.inRange
      simp only at hstart
      omega
    simp only [FlagParser.round, hlt, ↓reduceIte, LoopRound.Meets]
    exact fun _ ↦ .inr (hidx ▸ hsplits)

/-- A run ends. -/
theorem exists_parse (validate : List (Flag V) → Bool) (flags : List (Flag V)) (argv : List Token) :
    ∃ outcome, FlagParser.parse validate flags argv = .finished outcome := by
  have hmeets : (FlagParser.parse validate flags argv).Meets False fun _ ↦ True :=
    runLoop_meets (P := fun _ ↦ True)
      (fun s : List (Flag V) × FlagParser argv ↦ argv.length - s.2.currentIdx)
      (fun s _ ↦ (currentIdx_round validate s).mono (fun next hlt ↦ ⟨trivial, hlt⟩)
        fun _ _ ↦ trivial)
      trivial (Nat.lt_succ_of_le (Nat.sub_le argv.length 1))
  obtain ⟨outcome, hrun, -⟩ := hmeets.finished
  exact ⟨outcome, hrun⟩

/-- A value that is refused is still ahead. -/
theorem round_of_splits (validate : List (Flag V) → Bool) {t : ℕ × List (Flag V)}
    (hrefuses : Refuses argv t) (s : List (Flag V) × FlagParser argv)
    (h : (∀ g ∈ s.1, g.isOptional) ∧ Splits argv (s.2.currentIdx, s.1) t) :
    (FlagParser.round validate s).Meets True
      (fun next ↦ (∀ g ∈ next.1, g.isOptional) ∧ Splits argv (next.2.currentIdx, next.1) t)
      (fun outcome ↦ outcome.ok = false) := by
  obtain ⟨flags, p⟩ := s
  obtain ⟨hoptional, hsplits⟩ := h
  obtain rfl | ⟨s', hgroup, hrest⟩ := hsplits.cases_head
  · have hok : (parseOptionalFlag flags p).ok = false :=
      parseOptionalFlag_of_refuses hoptional hrefuses
    have hat : p.currentIdx < argv.length ∧ p.current ≠ helpToken := by
      obtain ⟨text, tried, hstuck, -⟩ := hrefuses
      obtain ⟨-, hstumbles⟩ := hstuck
      exact ⟨hstumbles.lt, hstumbles.ne_helpToken⟩
    simp [FlagParser.round, hat, hok, LoopRound.Meets]
  · obtain ⟨p', hround, hidx⟩ := round_of_group validate hoptional hgroup
    rw [hround]
    refine ⟨isOptional_of_group hgroup hoptional, ?_⟩
    rwa [hidx]

end Run

namespace Scenario

theorem boolFlag_built :
    Built ['-', 'b'] ['-', '-', 'b', 'o', 'o', 'l'] [] (.bool ['1'] : FlagKind Token) :=
  ⟨by decide, by decide, by decide, by decide, by decide, by decide⟩

def boolFlag : Flag Token where
  shortName := ['-', 'b']
  longName := ['-', '-', 'b', 'o', 'o', 'l']
  name := []
  kind := .bool ['1']
  value := ['0']
  isSet := false
  built := boolFlag_built

/-- A text that is not empty. -/
def readText (arg : Token) : Option Token := if arg = [] then none else some arg

theorem readText_nil : readText [] = none := rfl

theorem textFlag_built :
    Built ['-', 'v'] [] [] (.valued readText readText_nil : FlagKind Token) :=
  ⟨by decide, by decide, by decide, by decide, by decide, by decide⟩

def textFlag : Flag Token where
  shortName := ['-', 'v']
  longName := []
  name := []
  kind := .valued readText readText_nil
  value := []
  isSet := false
  built := textFlag_built

end Scenario

theorem isOptional_of_mem_twoFlags :
    ∀ f ∈ [Scenario.boolFlag, Scenario.textFlag], f.isOptional := by
  intro f hf
  obtain rfl | rfl : f = Scenario.boolFlag ∨ f = Scenario.textFlag := by simpa using hf
  · rfl
  · rfl

end Felicia.CommandLine
