import Mathlib.Data.Nat.Basic

/-!
# A flag of a command line

A flag has a long name and a short name, and tries both in this order (`Flag.parse`). A name is
matched as a beginning of the argument. What follows it is the value of a bool flag, whatever it is:
the parser's tests give `-bool` to a flag that is named `-b`. Another flag's value follows a `=`, or
is the next argument, and what is left of the argument after a refused value is what the short name
is tried at.

`Takes` says when arguments give a flag a value, `Stumbles` when they give it one that it refuses
and that changes what is tried next, and `Leaves` when neither. `Flag.parse_of_takes`,
`Flag.parse_of_refused` and `Flag.parse_of_leaves` are what a flag does then.
-/

set_option autoImplicit false
set_option relaxedAutoImplicit false

namespace Felicia.CommandLine

/-- An argument of the program, or a part of one. -/
abbrev Token := List Char

def helpToken : Token := ['-', '-', 'h', 'e', 'l', 'p']

theorem equal_ne_helpToken (name text : Token) : name ++ '=' :: text ≠ helpToken := by
  intro heq
  have hmem : '=' ∈ helpToken := heq ▸ by simp
  exact absurd hmem (by decide)

def containsOnlyAsciiAlphaOrDigitOrUnderscore (text : Token) : Bool :=
  text.all fun c ↦ c.isAlpha || c.isDigit || c == '_'

/-- What is left of a text behind a beginning of it. -/
def consumePrefix (s expected : Token) : Option Token :=
  if expected <+: s then some (s.drop expected.length) else none

theorem consumePrefix_eq_some_iff {s expected rest : Token} :
    consumePrefix s expected = some rest ↔ s = expected ++ rest := by
  unfold consumePrefix
  constructor
  · intro h
    split at h
    case isTrue hprefix =>
      obtain ⟨tail, rfl⟩ := hprefix
      simpa using h
    case isFalse => cases h
  · rintro rfl
    simp

/-- The values a flag can have, and how it reads one. Only a bool flag reads the empty text. -/
inductive FlagKind (V : Type*)
  | bool (yes : V)
  | valued (parse : Token → Option V) (empty : parse [] = none)

variable {V : Type*}

namespace FlagKind

def isBool : FlagKind V → Bool
  | bool _ => true
  | valued _ _ => false

def parseValue : FlagKind V → Token → Option V
  | bool yes, _ => some yes
  | valued parse _, arg => parse arg

end FlagKind

def isShortName (text : Token) : Bool :=
  match consumePrefix text ['-'] with
  | some rest => containsOnlyAsciiAlphaOrDigitOrUnderscore rest
  | none => false

def isLongName (text : Token) : Bool :=
  match consumePrefix text ['-', '-'] with
  | some rest => rest ≠ ['h', 'e', 'l', 'p'] && containsOnlyAsciiAlphaOrDigitOrUnderscore rest
  | none => false

/-- What the builder of a flag checks. -/
structure Built (shortName longName name : Token) (kind : FlagKind V) : Prop where
  shortName_ok : shortName = [] ∨ isShortName shortName = true
  longName_ok : longName = [] ∨ isLongName longName = true
  name_ok : containsOnlyAsciiAlphaOrDigitOrUnderscore name = true
  named : ¬ (shortName = [] ∧ longName = [] ∧ name = [])
  name_alone : name = [] ∨ longName = [] ∧ shortName = []
  name_not_bool : name = [] ∨ kind.isBool = false

structure Flag (V : Type*) where
  shortName : Token
  longName : Token
  name : Token
  kind : FlagKind V
  value : V
  isSet : Bool
  built : Built shortName longName name kind

def Flag.setValue (f : Flag V) (value : V) : Flag V :=
  { f with value := value, isSet := true }

/-- The argument at an index. The one behind the last is null, which reads as the empty text. -/
def token (argv : List Token) (i : ℕ) : Token := argv[i]?.getD []

structure FlagParser (argv : List Token) where
  currentIdx : ℕ
  /-- A run starts at the argument behind the program's name. -/
  inRange : currentIdx ≤ max 1 argv.length

variable {argv : List Token}

namespace FlagParser

def current (p : FlagParser argv) : Token := token argv p.currentIdx

theorem inRange_proceed {p : FlagParser argv} (h : p.currentIdx < argv.length) :
    p.currentIdx + 1 ≤ max 1 argv.length := Nat.le_trans h (Nat.le_max_right 1 argv.length)

def proceed (p : FlagParser argv) : FlagParser argv :=
  if h : p.currentIdx < argv.length then ⟨p.currentIdx + 1, inRange_proceed h⟩ else p

end FlagParser

/-- `none` when it returns false. -/
def consumeEqualOrProceed (p : FlagParser argv) (arg : Token) :
    Option (FlagParser argv × Token) :=
  match consumePrefix arg ['='] with
  | some rest => some (p, rest)
  | none => if arg ≠ [] then none else some (p.proceed, p.proceed.current)

/-- What trying one of its names means for a flag. -/
inductive Attempt (V : Type*) (argv : List Token)
  | accepted (value : V) (p : FlagParser argv)
  | refused (p : FlagParser argv)
  /-- The flag is tried further, on what is left of the argument. -/
  | goOn (p : FlagParser argv) (arg : Token)

namespace Flag

def tryName (f : Flag V) (name : Token) (p : FlagParser argv) (arg : Token) : Attempt V argv :=
  if name = [] then .goOn p arg
  else
    match consumePrefix arg name with
    | none => .goOn p arg
    | some rest =>
      match if f.kind.isBool then some (p, rest) else consumeEqualOrProceed p rest with
      | none => .refused p
      | some (p', text) =>
        match f.kind.parseValue text with
        | some value => .accepted value p'
        | none => .goOn p' text

/-- The value that a flag accepts, if it does, and where the parser is then. -/
def parse (f : Flag V) (p : FlagParser argv) : Option V × FlagParser argv :=
  match f.tryName f.longName p p.current with
  | .accepted value p' => (some value, p')
  | .refused p' => (none, p')
  | .goOn p' arg =>
    match f.tryName f.shortName p' arg with
    | .accepted value p'' => (some value, p'')
    | .refused p'' => (none, p'')
    | .goOn p'' arg' => (if f.name = [] then none else f.kind.parseValue arg', p'')

end Flag

/-! ### Names -/

namespace Flag

def isOptional (f : Flag V) : Prop := f.name = []

/-- The names that are set. -/
def names (f : Flag V) : List Token := [f.longName, f.shortName].filter (· ≠ [])

theorem mem_names {f : Flag V} {name : Token} :
    name ∈ f.names ↔ (name = f.longName ∨ name = f.shortName) ∧ name ≠ [] := by
  simp [names]

theorem longName_eq {f : Flag V} (h : f.longName ≠ []) :
    ∃ text, f.longName = '-' :: '-' :: text ∧ text ≠ ['h', 'e', 'l', 'p'] ∧
      containsOnlyAsciiAlphaOrDigitOrUnderscore text = true := by
  have hok := f.built.longName_ok.resolve_left h
  unfold isLongName at hok
  split at hok
  case h_1 rest hrest =>
    rw [consumePrefix_eq_some_iff] at hrest
    simp only [ne_eq, decide_not, Bool.and_eq_true, Bool.not_eq_eq_eq_not, Bool.not_true,
      decide_eq_false_iff_not] at hok
    exact ⟨rest, hrest, hok⟩
  case h_2 => cases hok

theorem shortName_eq {f : Flag V} (h : f.shortName ≠ []) :
    ∃ text, f.shortName = '-' :: text ∧ containsOnlyAsciiAlphaOrDigitOrUnderscore text = true := by
  have hok := f.built.shortName_ok.resolve_left h
  unfold isShortName at hok
  split at hok
  case h_1 rest hrest => exact ⟨rest, consumePrefix_eq_some_iff.mp hrest, hok⟩
  case h_2 => cases hok

theorem ne_of_containsOnly {text : Token} {c : Char}
    (h : containsOnlyAsciiAlphaOrDigitOrUnderscore text = true) (hc : c ∈ text) :
    c ≠ '-' ∧ c ≠ '=' := by
  have hword := List.all_eq_true.mp h c hc
  constructor
  · rintro rfl
    exact absurd hword (by decide)
  · rintro rfl
    exact absurd hword (by decide)

/-- Where a name ends at a `=` is seen from the argument. -/
theorem equal_not_mem {f : Flag V} {name : Token} (h : name ∈ f.names) : '=' ∉ name := by
  obtain ⟨rfl | rfl, hset⟩ := mem_names.mp h
  · obtain ⟨text, htext, -, hword⟩ := longName_eq hset
    rw [htext]
    simpa using fun hmem ↦ (ne_of_containsOnly hword hmem).2 rfl
  · obtain ⟨text, htext, hword⟩ := shortName_eq hset
    rw [htext]
    simpa using fun hmem ↦ (ne_of_containsOnly hword hmem).2 rfl

theorem ne_helpToken {f : Flag V} {name : Token} (h : name ∈ f.names) : name ≠ helpToken := by
  obtain ⟨rfl | rfl, hset⟩ := mem_names.mp h
  · obtain ⟨text, htext, hhelp, -⟩ := longName_eq hset
    rw [htext]
    simpa [helpToken] using hhelp
  · obtain ⟨text, htext, hword⟩ := shortName_eq hset
    rw [htext]
    rintro heq
    obtain rfl : text = ['-', 'h', 'e', 'l', 'p'] := by simpa [helpToken] using heq
    exact absurd hword (by decide)

/-- An argument that begins with the long name is not the short one's: the short one has only one
dash. -/
theorem ne_shortName {f : Flag V} (hlong : f.longName ≠ []) (hshort : f.shortName ≠ [])
    (rest text : Token) :
    f.longName ++ rest ≠ f.shortName ∧ f.longName ++ rest ≠ f.shortName ++ '=' :: text := by
  obtain ⟨long, hlong, -⟩ := longName_eq hlong
  obtain ⟨short, hshort, hword⟩ := shortName_eq hshort
  rw [hlong, hshort]
  cases short with
  | nil => simp
  | cons c short =>
    have hdash : c ≠ '-' := (ne_of_containsOnly hword List.mem_cons_self).1
    constructor
    · rintro heq
      simp only [List.cons_append, List.cons.injEq, true_and] at heq
      exact hdash heq.1.symm
    · rintro heq
      simp only [List.cons_append, List.cons.injEq, true_and] at heq
      exact hdash heq.1.symm

end Flag

/-! ### What an argument is for a flag -/

/-- The argument at an index, or it and the one behind it, give a flag a value. -/
inductive Takes (f : Flag V) (argv : List Token) (i : ℕ) : ℕ → V → Prop
  | bool {yes : V} {name : Token} (hkind : f.kind = .bool yes) (hname : name ∈ f.names)
      (htoken : name <+: token argv i) : Takes f argv i (i + 1) yes
  | equal {parse : Token → Option V} {hempty : parse [] = none} {name text : Token} {value : V}
      (hkind : f.kind = .valued parse hempty) (hname : name ∈ f.names)
      (htoken : token argv i = name ++ '=' :: text) (hvalue : parse text = some value) :
      Takes f argv i (i + 1) value
  | spaced {parse : Token → Option V} {hempty : parse [] = none} {name : Token} {value : V}
      (hkind : f.kind = .valued parse hempty) (hname : name ∈ f.names)
      (htoken : token argv i = name) (hvalue : parse (token argv (i + 1)) = some value) :
      Takes f argv i (i + 2) value

/-- A flag is refused its value, after which it does not leave the argument as it was. -/
inductive Stumbles (f : Flag V) (argv : List Token) (i : ℕ) : Token → Prop
  /-- The value is tried as the short name. -/
  | equal {parse : Token → Option V} {hempty : parse [] = none} {text : Token}
      (hkind : f.kind = .valued parse hempty) (hlong : f.longName ≠ [])
      (htoken : token argv i = f.longName ++ '=' :: text) (hvalue : parse text = none)
      (hset : f.shortName ≠ []) (hshort : f.shortName <+: text) : Stumbles f argv i text
  /-- The parser has moved on to the value. -/
  | spaced {parse : Token → Option V} {hempty : parse [] = none}
      (hkind : f.kind = .valued parse hempty) (hname : token argv i ∈ f.names)
      (hvalue : parse (token argv (i + 1)) = none) : Stumbles f argv i (token argv (i + 1))

/-- The argument does not concern a flag. -/
def Leaves (f : Flag V) (argv : List Token) (i : ℕ) : Prop :=
  (∀ j value, ¬ Takes f argv i j value) ∧ ∀ text, ¬ Stumbles f argv i text

theorem lt_of_token {i : ℕ} (h : token argv i ≠ []) : i < argv.length := by
  by_contra hge
  exact h (by simp [token, List.getElem?_eq_none (Nat.not_lt.mp hge)])

theorem Takes.lt {f : Flag V} {i j : ℕ} {value : V}
    (h : Takes f argv i j value) : i < argv.length ∧ i < j ∧ j ≤ argv.length := by
  have hne : ∀ {name}, name ∈ f.names → name ≠ [] := fun hname ↦ (Flag.mem_names.mp hname).2
  cases h with
  | bool hkind hname htoken =>
    have hi := lt_of_token fun hnil ↦ hne hname (List.prefix_nil.mp (hnil ▸ htoken))
    omega
  | equal hkind hname htoken hvalue =>
    have hi : i < argv.length := lt_of_token (by simp [htoken])
    omega
  | @spaced parse hempty name value hkind hname htoken hvalue =>
    have hi := lt_of_token (i := i + 1) fun hnil ↦ by
      rw [hnil, hempty] at hvalue
      cases hvalue
    omega

/-! ### One flag -/

theorem currentIdx_proceed {p : FlagParser argv} (h : p.currentIdx < argv.length) :
    p.proceed.currentIdx = p.currentIdx + 1 := by
  simp [FlagParser.proceed, h]

theorem current_proceed {p : FlagParser argv} (h : p.current ≠ []) :
    p.proceed.current = token argv (p.currentIdx + 1) := by
  rw [FlagParser.current, currentIdx_proceed (lt_of_token h)]

namespace Flag

variable {f : Flag V} {name arg rest text : Token} {p : FlagParser argv}

theorem tryName_of_not_begins (h : name = [] ∨ ¬ name <+: arg) :
    f.tryName name p arg = .goOn p arg := by
  unfold tryName
  obtain rfl | h := h
  · simp
  · have hnone : consumePrefix arg name = none := by simp [consumePrefix, h]
    simp [hnone]

theorem tryName_bool {yes : V} (hkind : f.kind = .bool yes) (hname : name ≠ [])
    (h : name <+: arg) : f.tryName name p arg = .accepted yes p := by
  obtain ⟨rest, rfl⟩ := h
  have hsome : consumePrefix (name ++ rest) name = some rest := consumePrefix_eq_some_iff.mpr rfl
  simp [tryName, hname, hsome, hkind, FlagKind.isBool, FlagKind.parseValue]

variable {reads : Token → Option V} {hempty : reads [] = none}

theorem tryName_equal (hkind : f.kind = .valued reads hempty) (hname : name ≠ []) :
    f.tryName name p (name ++ '=' :: text) =
      match reads text with
      | some value => .accepted value p
      | none => .goOn p text := by
  have hsome : consumePrefix (name ++ '=' :: text) name = some ('=' :: text) :=
    consumePrefix_eq_some_iff.mpr rfl
  have hequal : consumePrefix ('=' :: text) ['='] = some text :=
    consumePrefix_eq_some_iff.mpr rfl
  simp [tryName, hname, hsome, hkind, FlagKind.isBool, FlagKind.parseValue, consumeEqualOrProceed,
    hequal]

theorem tryName_exact (hkind : f.kind = .valued reads hempty) (hname : name ≠ []) :
    f.tryName name p name =
      match reads p.proceed.current with
      | some value => .accepted value p.proceed
      | none => .goOn p.proceed p.proceed.current := by
  have hsome : consumePrefix name name = some [] := consumePrefix_eq_some_iff.mpr (by simp)
  have hequal : consumePrefix [] ['='] = none := by simp [consumePrefix]
  simp [tryName, hname, hsome, hkind, FlagKind.isBool, FlagKind.parseValue, consumeEqualOrProceed,
    hequal]

theorem tryName_other {c : Char} (hkind : f.kind = .valued reads hempty) (hname : name ≠ [])
    (hc : c ≠ '=') : f.tryName name p (name ++ c :: rest) = .refused p := by
  have hsome : consumePrefix (name ++ c :: rest) name = some (c :: rest) :=
    consumePrefix_eq_some_iff.mpr rfl
  have hequal : consumePrefix (c :: rest) ['='] = none := by
    simp [consumePrefix, Ne.symm hc]
  simp [tryName, hname, hsome, hkind, FlagKind.isBool, consumeEqualOrProceed, hequal]

/-- What an argument is to a name of a flag. -/
theorem prefix_cases (name arg : Token) :
    ¬ name <+: arg ∨ arg = name ∨ (∃ text, arg = name ++ '=' :: text) ∨
      ∃ c rest, c ≠ '=' ∧ arg = name ++ c :: rest := by
  by_cases h : name <+: arg
  · obtain ⟨rest, rfl⟩ := h
    cases rest with
    | nil => simp
    | cons c rest =>
      by_cases hc : c = '='
      · exact .inr (.inr (.inl ⟨rest, by rw [hc]⟩))
      · exact .inr (.inr (.inr ⟨c, rest, hc, rfl⟩))
  · exact .inl h

/-- Assumes: an argument that is neither a name nor the name with a value that is accepted. -/
theorem tryName_cases (hkind : f.kind = .valued reads hempty) (hexact : name ≠ [] → arg ≠ name)
    (hequal : ∀ text, name ≠ [] → arg = name ++ '=' :: text → reads text = none) :
    f.tryName name p arg = .goOn p arg ∨ f.tryName name p arg = .refused p ∨
      ∃ text, name ≠ [] ∧ arg = name ++ '=' :: text ∧ f.tryName name p arg = .goOn p text := by
  by_cases hset : name = []
  · exact .inl (tryName_of_not_begins (.inl hset))
  · obtain hnot | heq | ⟨text, heq⟩ | ⟨c, rest, hc, heq⟩ := prefix_cases name arg
    · exact .inl (tryName_of_not_begins (.inr hnot))
    · exact absurd heq (hexact hset)
    · refine .inr (.inr ⟨text, hset, heq, ?_⟩)
      rw [heq, tryName_equal hkind hset, hequal text hset heq]
    · exact .inr (.inl (heq ▸ tryName_other hkind hset hc))

/-- Assumes: an argument that is given for the short name. -/
theorem longName_not_begins (hshort : f.shortName ≠ [])
    (h : arg = f.shortName ∨ ∃ text, arg = f.shortName ++ '=' :: text) :
    f.longName = [] ∨ ¬ f.longName <+: arg := by
  by_cases hlong : f.longName = []
  · exact .inl hlong
  · refine .inr ?_
    rintro ⟨rest, rfl⟩
    obtain heq | ⟨text, heq⟩ := h
    · exact (ne_shortName hlong hshort rest []).1 heq
    · exact (ne_shortName hlong hshort rest text).2 heq

theorem parse_of_takes {j : ℕ} {value : V} (h : Takes f argv p.currentIdx j value) :
    ∃ p', f.parse p = (some value, p') ∧ p'.currentIdx + 1 = j := by
  have hlt := h.lt.1
  cases h with
  | @bool yes name hkind hname htoken =>
    refine ⟨p, ?_, rfl⟩
    have hcurrent : name <+: p.current := htoken
    obtain ⟨hname, hset⟩ := mem_names.mp hname
    by_cases hlong : f.longName = [] ∨ ¬ f.longName <+: p.current
    · obtain rfl | rfl := hname
      · exact absurd hcurrent (hlong.resolve_left hset)
      · simp [parse, tryName_of_not_begins hlong, tryName_bool hkind hset hcurrent]
    · rw [not_or, not_not] at hlong
      simp [parse, tryName_bool hkind hlong.1 hlong.2]
  | @equal reads hempty name text value hkind hname htoken hvalue =>
    refine ⟨p, ?_, rfl⟩
    have hcurrent : p.current = name ++ '=' :: text := htoken
    obtain ⟨rfl | rfl, hset⟩ := mem_names.mp hname
    · simp [parse, hcurrent, tryName_equal hkind hset, hvalue]
    · have hlong := longName_not_begins hset (.inr ⟨text, hcurrent⟩)
      rw [hcurrent] at hlong
      simp [parse, hcurrent, tryName_of_not_begins hlong, tryName_equal hkind hset, hvalue]
  | @spaced reads hempty name value hkind hname htoken hvalue =>
    refine ⟨p.proceed, ?_, by rw [currentIdx_proceed hlt]⟩
    have hnext : reads p.proceed.current = some value := by
      rw [FlagParser.current, currentIdx_proceed hlt]
      exact hvalue
    have hcurrent : p.current = name := htoken
    obtain ⟨rfl | rfl, hset⟩ := mem_names.mp hname
    · simp [parse, hcurrent, tryName_exact hkind hset, hnext]
    · have hlong := longName_not_begins hset (.inl hcurrent)
      rw [hcurrent] at hlong
      simp [parse, hcurrent, tryName_of_not_begins hlong, tryName_exact hkind hset, hnext]

/-- Assumes: a flag without a positional name. -/
theorem parse_of_leaves (hoptional : f.isOptional) (h : Leaves f argv p.currentIdx) :
    f.parse p = (none, p) := by
  obtain ⟨htakes, hstumbles⟩ := h
  cases hkind : f.kind with
  | bool yes =>
    have hnot : ∀ name, name = f.longName ∨ name = f.shortName →
        name = [] ∨ ¬ name <+: p.current := by
      intro name hname
      by_cases hset : name = []
      · exact .inl hset
      · exact .inr fun hprefix ↦
          htakes _ _ (.bool hkind (mem_names.mpr ⟨hname, hset⟩) hprefix)
    have hoptional : f.name = [] := hoptional
    simp [parse, tryName_of_not_begins (hnot f.longName (.inl rfl)),
      tryName_of_not_begins (hnot f.shortName (.inr rfl)), hoptional]
  | valued reads hempty =>
    have hnone : ∀ {name text}, name ∈ f.names → p.current = name ++ '=' :: text →
        reads text = none := by
      intro name text hname hcurrent
      cases hreads : reads text with
      | none => rfl
      | some value => exact absurd (.equal hkind hname hcurrent hreads) (htakes _ value)
    have hexact : ∀ {name}, name ∈ f.names → p.current ≠ name := by
      rintro name hname rfl
      cases hreads : reads (token argv (p.currentIdx + 1)) with
      | none => exact hstumbles _ (.spaced hkind hname hreads)
      | some value => exact htakes _ value (.spaced hkind hname rfl hreads)
    have hlong := fun hset ↦ mem_names (f := f).mpr ⟨.inl rfl, hset⟩
    have hshort := fun hset ↦ mem_names (f := f).mpr ⟨.inr rfl, hset⟩
    have hoptional : f.name = [] := hoptional
    obtain htry | htry | ⟨text, hset, hcurrent, htry⟩ := tryName_cases (p := p) hkind
      (fun hset ↦ hexact (hlong hset)) (fun text hset ↦ hnone (hlong hset))
    · obtain htry' | htry' | ⟨text, -, -, htry'⟩ := tryName_cases (p := p) hkind
        (fun hset ↦ hexact (hshort hset)) (fun text hset ↦ hnone (hshort hset))
      · simp [parse, htry, htry', hoptional]
      · simp [parse, htry, htry']
      · simp [parse, htry, htry', hoptional]
    · simp [parse, htry]
    · -- what is tried as the short name is the refused value
      have hnot : f.shortName = [] ∨ ¬ f.shortName <+: text := by
        by_cases hset' : f.shortName = []
        · exact .inl hset'
        · exact .inr fun hprefix ↦
            hstumbles _ (.equal hkind hset hcurrent (hnone (hlong hset) hcurrent) hset' hprefix)
      simp [parse, htry, tryName_of_not_begins hnot, hoptional]

/-- Assumes: an argument that is a name, and a value that is refused and that none of the flag's
names begins. -/
theorem parse_of_refused (hoptional : f.isOptional) (hkind : f.kind = .valued reads hempty)
    (hname : p.current ∈ f.names) (hvalue : reads (token argv (p.currentIdx + 1)) = none)
    (hnot : ∀ name ∈ f.names, ¬ name <+: token argv (p.currentIdx + 1)) :
    f.parse p = (none, p.proceed) := by
  have hoptional : f.name = [] := hoptional
  have hnext := current_proceed (mem_names.mp hname).2
  have hrefused : reads p.proceed.current = none := by rw [hnext, hvalue]
  obtain ⟨heq | heq, hset⟩ := mem_names.mp hname
  · have hshort : f.shortName = [] ∨ ¬ f.shortName <+: p.proceed.current := by
      rw [hnext, or_iff_not_imp_left]
      exact fun hset' ↦ hnot _ (mem_names.mpr ⟨.inr rfl, hset'⟩)
    rw [heq] at hset
    simp [parse, heq, tryName_exact hkind hset, hrefused, tryName_of_not_begins hshort, hoptional]
  · rw [heq] at hset
    have hlong := longName_not_begins hset (.inl heq)
    rw [heq] at hlong
    simp [parse, heq, tryName_of_not_begins hlong, tryName_exact hkind hset, hrefused, hoptional]

end Flag

end Felicia.CommandLine
