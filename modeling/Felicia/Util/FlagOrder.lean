import Felicia.Support.Lists
import Felicia.Util.FlagParser

/-!
# Every order of the flags

A command line that is put together of groups, each written for one flag that accepts its value, is
read as it was written, and whatever the order in which the delegate lists its flags
(`parse_complete`). What it takes is that the argument of a group concerns no other flag: the names
are distinct, and the name of a bool flag begins no name of another (`leaves_of_distinct`).
-/

set_option autoImplicit false
set_option relaxedAutoImplicit false

namespace Felicia.CommandLine

open Felicia.Support

variable {V : Type*} {argv : List Token} {f g : Flag V}

/-- A group as it is written on a command line. -/
inductive Written
  | bool (name : Token)
  | equal (name text : Token)
  | spaced (name text : Token)

namespace Written

def name : Written → Token
  | bool name => name
  | equal name _ => name
  | spaced name _ => name

def tokens : Written → List Token
  | bool name => [name]
  | equal name text => [name ++ '=' :: text]
  | spaced name text => [name, text]

/-- The value that a group is for a flag of a kind, if such a flag can be given so. -/
def read : FlagKind V → Written → Option V
  | .bool yes, bool _ => some yes
  | .valued parse _, equal _ text => parse text
  | .valued parse _, spaced _ text => parse text
  | .bool _, _ => none
  | .valued _ _, _ => none

/-- The value that a group gives a flag, if it is that flag's and the flag accepts it. -/
def value? (w : Written) (f : Flag V) : Option V :=
  if w.name ∈ f.names then read f.kind w else none

theorem length_tokens_pos (w : Written) : 0 < w.tokens.length := by
  cases w <;> simp [tokens]

end Written

theorem length_le_tokens (written : List Written) :
    written.length ≤ (written.flatMap Written.tokens).length := by
  induction written with
  | nil => simp
  | cons w written ih =>
    have hpos := w.length_tokens_pos
    simp only [List.length_cons, List.flatMap_cons, List.length_append]
    omega

/-- A flag with the last value that it is given. -/
def Flag.assign (f : Flag V) (written : List Written) : Flag V :=
  match (written.filterMap fun w ↦ w.value? f).getLast? with
  | some value => f.setValue value
  | none => f

/-- The name of a bool flag begins a name of another flag. -/
def BoolBegins (f g : Flag V) : Prop :=
  f.kind.isBool = true ∧ ∃ m ∈ f.names, ∃ n ∈ g.names, m <+: n

/-! ### The argument of a group -/

/-- An argument is a name, or a name with a value. -/
def HasName (name arg : Token) : Prop := arg = name ∨ ∃ text, arg = name ++ '=' :: text

theorem takeWhile_of_hasName {name arg : Token} (hname : '=' ∉ name) (h : HasName name arg) :
    arg.takeWhile (· ≠ '=') = name := by
  obtain rfl | ⟨text, rfl⟩ := h
  · exact takeWhile_of_not_mem hname
  · exact takeWhile_cut hname text

theorem prefix_of_hasName {m n arg : Token} (hm : '=' ∉ m) (h : HasName n arg) (h' : m <+: arg) :
    m <+: n := by
  obtain rfl | ⟨text, rfl⟩ := h
  · exact h'
  · induction n generalizing m with
    | nil =>
      cases m with
      | nil => exact List.prefix_rfl
      | cons c m =>
        obtain ⟨rfl, -⟩ := List.cons_prefix_cons.mp h'
        exact absurd List.mem_cons_self hm
    | cons d n ih =>
      cases m with
      | nil => exact List.nil_prefix
      | cons c m =>
        obtain ⟨rfl, htail⟩ := List.cons_prefix_cons.mp h'
        exact List.cons_prefix_cons.mpr
          ⟨rfl, ih (fun hmem ↦ hm (List.mem_cons_of_mem _ hmem)) htail⟩

theorem ne_helpToken_of_hasName {name arg : Token} (hname : name ∈ f.names) (h : HasName name arg) :
    arg ≠ helpToken := by
  obtain rfl | ⟨text, rfl⟩ := h
  · exact Flag.ne_helpToken hname
  · exact equal_ne_helpToken name text

/-- Assumes: the argument of a group of another flag. -/
theorem leaves_of_distinct {i : ℕ} {n : Token} (hn : n ∈ f.names) (harg : HasName n (token argv i))
    (hdistinct : n ∉ g.names) (hbool : ¬ BoolBegins g f) : Leaves g argv i := by
  have hne : ∀ {m}, m ∈ g.names → ¬ HasName m (token argv i) := by
    intro m hm hname
    have hm' := takeWhile_of_hasName (Flag.equal_not_mem hm) hname
    rw [takeWhile_of_hasName (Flag.equal_not_mem hn) harg] at hm'
    exact hdistinct (hm' ▸ hm)
  constructor
  · rintro j value (⟨hkind, hname, htoken⟩ | ⟨-, hname, htoken, -⟩ | ⟨-, hname, htoken, -⟩)
    · have hprefix := prefix_of_hasName (Flag.equal_not_mem hname) harg htoken
      exact hbool ⟨by rw [hkind]; rfl, _, hname, n, hn, hprefix⟩
    · exact hne hname (.inr ⟨_, htoken⟩)
    · exact hne hname (.inl htoken)
  · rintro text (⟨-, hlong, htoken, -, -⟩ | ⟨-, hname, -⟩)
    · exact hne (Flag.mem_names.mpr ⟨.inl rfl, hlong⟩) (.inr ⟨_, htoken⟩)
    · exact hne hname (.inl rfl)

theorem takes_of_value {w : Written} {value : V} {before after : List Token}
    (h : w.value? f = some value) (hargv : argv = before ++ w.tokens ++ after) :
    w.name ∈ f.names ∧ HasName w.name (token argv before.length) ∧
      Takes f argv before.length (before.length + w.tokens.length) value := by
  subst hargv
  have hname : w.name ∈ f.names := by
    by_contra hnot
    simp [Written.value?, hnot] at h
  refine ⟨hname, ?_⟩
  rw [Written.value?, if_pos hname] at h
  cases w with
  | bool name =>
    have htoken : token (before ++ Written.tokens (.bool name) ++ after) before.length = name := by
      simp [Written.tokens, token]
    cases hkind : f.kind with
    | bool yes =>
      rw [hkind] at h
      obtain rfl : yes = value := by simpa [Written.read] using h
      exact ⟨.inl htoken, .bool hkind hname (by rw [htoken]; exact List.prefix_rfl)⟩
    | valued reads hempty => simp [hkind, Written.read] at h
  | equal name text =>
    have htoken : token (before ++ Written.tokens (.equal name text) ++ after) before.length =
        name ++ '=' :: text := by
      simp [Written.tokens, token]
    cases hkind : f.kind with
    | bool yes => simp [hkind, Written.read] at h
    | valued reads hempty =>
      rw [hkind] at h
      exact ⟨.inr ⟨text, htoken⟩, .equal hkind hname htoken h⟩
  | spaced name text =>
    have htoken : token (before ++ Written.tokens (.spaced name text) ++ after) before.length =
        name := by
      simp [Written.tokens, token]
    have hnext : token (before ++ Written.tokens (.spaced name text) ++ after)
        (before.length + 1) = text := by
      simp [Written.tokens, token]
    cases hkind : f.kind with
    | bool yes => simp [hkind, Written.read] at h
    | valued reads hempty =>
      rw [hkind] at h
      exact ⟨.inl htoken, .spaced hkind hname htoken (by rw [hnext]; exact h)⟩

/-! ### One group after the other -/

namespace Flag

@[simp] theorem names_assign (f : Flag V) (written : List Written) :
    (f.assign written).names = f.names := by
  unfold assign
  split <;> rfl

@[simp] theorem kind_assign (f : Flag V) (written : List Written) :
    (f.assign written).kind = f.kind := by
  unfold assign
  split <;> rfl

@[simp] theorem isOptional_assign (f : Flag V) (written : List Written) :
    (f.assign written).isOptional = f.isOptional := by
  unfold assign
  split <;> rfl

@[simp] theorem assign_nil (f : Flag V) : f.assign [] = f := rfl

variable {written : List Written} {w : Written}

theorem assign_concat_of_none (h : w.value? f = none) :
    f.assign (written ++ [w]) = f.assign written := by
  simp [assign, h]

theorem assign_concat_of_some {value : V} (h : w.value? f = some value) :
    f.assign (written ++ [w]) = (f.assign written).setValue value := by
  simp only [assign, List.filterMap_append, List.filterMap_cons, h, List.filterMap_nil,
    List.getLast?_append, List.getLast?_singleton, Option.some_or]
  split <;> rfl

end Flag

theorem value?_assign (w : Written) (f : Flag V) (written : List Written) :
    w.value? (f.assign written) = w.value? f := by
  simp [Written.value?]

section Order

variable {flags : List (Flag V)} {w : Written} {rest : List Written}

/-- Assumes: a group for one of the flags, whose argument concerns no other. -/
theorem group_of_written (read : List Written)
    (hdistinct : flags.Pairwise fun f g ↦ List.Disjoint f.names g.names)
    (hbool : flags.Pairwise fun f g ↦ ¬ BoolBegins f g ∧ ¬ BoolBegins g f)
    (haccepted : ∃ f ∈ flags, (w.value? f).isSome = true) {before after : List Token}
    (hargv : argv = before ++ w.tokens ++ after) :
    Group argv (before.length, flags.map (·.assign read))
      (before.length + w.tokens.length, flags.map (·.assign (read ++ [w]))) := by
  obtain ⟨f, hf, hsome⟩ := haccepted
  obtain ⟨value, hvalue⟩ := Option.isSome_iff_exists.mp hsome
  obtain ⟨first, last, rfl⟩ := List.append_of_mem hf
  rw [List.pairwise_append, List.pairwise_cons] at hdistinct hbool
  have hvalue' : w.value? (f.assign read) = some value := by rw [value?_assign, hvalue]
  obtain ⟨hname, harg, htakes⟩ := takes_of_value hvalue' hargv
  rw [Flag.names_assign] at hname
  have hfirst : ∀ g ∈ first, w.name ∉ g.names := fun g hg hmem ↦
    hdistinct.2.2 g hg f List.mem_cons_self hmem hname
  have hlast : ∀ g ∈ last, w.name ∉ g.names := fun g hg hmem ↦
    hdistinct.2.1.1 g hg hname hmem
  have hsame : ∀ gs : List (Flag V), (∀ g ∈ gs, w.name ∉ g.names) →
      gs.map (·.assign (read ++ [w])) = gs.map (·.assign read) := fun gs hgs ↦
    List.map_congr_left fun g hg ↦ Flag.assign_concat_of_none (if_neg (hgs g hg))
  rw [List.map_append, List.map_append, List.map_cons, List.map_cons, hsame first hfirst,
    hsame last hlast, Flag.assign_concat_of_some hvalue]
  refine .mk (ne_helpToken_of_hasName hname harg) (fun g hg ↦ ?_) htakes
  obtain ⟨g, hmem, rfl⟩ := List.mem_map.mp hg
  refine leaves_of_distinct hname harg (by simpa using hfirst g hmem) ?_
  simpa [BoolBegins] using (hbool.2.2 g hmem f List.mem_cons_self).1

/-- Assumes: enough rounds for what is left of the arguments. -/
theorem runLoop_of_written (read : List Written) (before : List Token) (rounds : ℕ)
    (hoptional : ∀ f ∈ flags, f.isOptional)
    (hdistinct : flags.Pairwise fun f g ↦ List.Disjoint f.names g.names)
    (hbool : flags.Pairwise fun f g ↦ ¬ BoolBegins f g ∧ ¬ BoolBegins g f)
    (haccepted : ∀ w ∈ rest, ∃ f ∈ flags, (w.value? f).isSome = true)
    (hargv : argv = before ++ rest.flatMap Written.tokens) {p : FlagParser argv}
    (hidx : p.currentIdx = before.length) (hrounds : rest.length < rounds) :
    ∃ p', runLoop (FlagParser.round fun _ ↦ true) rounds (flags.map (·.assign read), p) =
      .finished ⟨true, flags.map (·.assign (read ++ rest)), p'⟩ := by
  induction rest generalizing before read p rounds with
  | nil =>
    obtain ⟨rounds, rfl⟩ := Nat.exists_eq_add_of_lt hrounds
    refine ⟨p, ?_⟩
    have hend : ¬ p.currentIdx < argv.length := by simp [hargv, hidx]
    simp [runLoop, FlagParser.round, hend]
  | cons w rest ih =>
    obtain ⟨rounds, rfl⟩ := Nat.exists_eq_add_of_lt hrounds
    have hargv' : argv = before ++ w.tokens ++ rest.flatMap Written.tokens := by simp [hargv]
    have hgroup := group_of_written read hdistinct hbool (haccepted w List.mem_cons_self) hargv'
    rw [← hidx] at hgroup
    obtain ⟨p', hround, hidx'⟩ := round_of_group (fun _ ↦ true) (by simpa using hoptional) hgroup
    obtain ⟨p'', hrun⟩ := ih (read ++ [w]) (before ++ w.tokens) ((w :: rest).length + rounds)
      (fun v hv ↦ haccepted v (List.mem_cons_of_mem _ hv)) hargv' (p := p')
      (by simp [hidx', hidx]) (by simp; omega)
    refine ⟨p'', ?_⟩
    rw [runLoop, hround]
    simpa using hrun

end Order

/-- Assumes: optional flags with distinct names, of which those of the bool flags begin no name of
another flag, and groups each of which gives one of the flags a value that it accepts. Whatever the
order in which the delegate lists the flags, the run succeeds, and leaves each flag with the last
value that it is given. -/
theorem parse_written {flags : List (Flag V)} (hoptional : ∀ f ∈ flags, f.isOptional)
    (hdistinct : flags.Pairwise fun f g ↦ List.Disjoint f.names g.names)
    (hbool : flags.Pairwise fun f g ↦ ¬ BoolBegins f g ∧ ¬ BoolBegins g f)
    (written : List Written)
    (haccepted : ∀ w ∈ written, ∃ f ∈ flags, (w.value? f).isSome = true) (program : Token)
    {order : List (Flag V)} (horder : order.Perm flags) :
    ∃ outcome, FlagParser.parse (fun _ ↦ true) order
        (program :: written.flatMap Written.tokens) = .finished outcome ∧
      outcome.ok = true ∧ outcome.flags = order.map (·.assign written) := by
  have hlength := length_le_tokens written
  obtain ⟨p', hrun⟩ := runLoop_of_written [] [program]
    ((program :: written.flatMap Written.tokens).length + 1)
    (fun f hf ↦ hoptional f (horder.mem_iff.mp hf))
    (horder.symm.pairwise hdistinct fun h m hm hm' ↦ h hm' hm)
    (horder.symm.pairwise hbool fun h ↦ h.symm)
    (fun w hw ↦ (haccepted w hw).imp fun f hf ↦ ⟨horder.mem_iff.mpr hf.1, hf.2⟩) rfl
    (p := FlagParser.start (program :: written.flatMap Written.tokens)) rfl
    (by rw [List.length_cons]; omega)
  refine ⟨⟨true, order.map (·.assign written), p'⟩, ?_, rfl, rfl⟩
  simpa [FlagParser.parse] using hrun

namespace Scenario

theorem begunFlag_built :
    Built ['-', 'b', 'v'] [] [] (.valued readText readText_nil : FlagKind Token) :=
  ⟨by decide, by decide, by decide, by decide, by decide, by decide⟩

/-- The name of `boolFlag` begins the name of this one. -/
def begunFlag : Flag Token where
  shortName := ['-', 'b', 'v']
  longName := []
  name := []
  kind := .valued readText readText_nil
  value := []
  isSet := false
  built := begunFlag_built

end Scenario

theorem parse_written_twoFlags :
    ∃ outcome, FlagParser.parse (fun _ ↦ true) [Scenario.textFlag, Scenario.boolFlag]
        [['t'], ['-', 'b'], ['-', 'v', '=', '5']] = .finished outcome ∧ outcome.ok = true ∧
      outcome.flags = [Scenario.textFlag, Scenario.boolFlag].map
        (·.assign [.bool ['-', 'b'], .equal ['-', 'v'] ['5']]) := by
  refine parse_written isOptional_of_mem_twoFlags ?_ ?_
    [.bool ['-', 'b'], .equal ['-', 'v'] ['5']] (fun w hw ↦ ?_) ['t'] (List.Perm.swap _ _ _)
  · simp [List.Disjoint, Scenario.boolFlag, Scenario.textFlag, Flag.names]
  · simp [BoolBegins, Scenario.boolFlag, Scenario.textFlag, Flag.names, FlagKind.isBool]
  · obtain rfl | rfl : w = .bool ['-', 'b'] ∨ w = .equal ['-', 'v'] ['5'] := by simpa using hw
    · exact ⟨Scenario.boolFlag, by simp, by decide⟩
    · exact ⟨Scenario.textFlag, by simp, by decide⟩

/-- A bool flag that is listed before a flag whose name it begins. -/
theorem parse_written_wrong :
    ¬ ∀ (flags : List (Flag Token)), (∀ f ∈ flags, f.isOptional) →
      (flags.Pairwise fun f g ↦ List.Disjoint f.names g.names) → ∀ written : List Written,
        (∀ w ∈ written, ∃ f ∈ flags, (w.value? f).isSome = true) → ∀ program,
          ∃ outcome, FlagParser.parse (fun _ ↦ true) flags
            (program :: written.flatMap Written.tokens) = .finished outcome ∧
            outcome.ok = true := by
  intro hall
  obtain ⟨outcome, hrun, hok⟩ := hall [Scenario.boolFlag, Scenario.begunFlag] (fun f hf ↦ by
      obtain rfl | rfl : f = Scenario.boolFlag ∨ f = Scenario.begunFlag := by simpa using hf
      · rfl
      · rfl)
    (by simp [List.Disjoint, Scenario.boolFlag, Scenario.begunFlag, Flag.names])
    [.spaced ['-', 'b', 'v'] ['5']]
    (fun w hw ↦ ⟨Scenario.begunFlag, by simp, by rw [List.mem_singleton.mp hw]; decide⟩) ['t']
  have hfails : FlagParser.parse (fun _ ↦ true) [Scenario.boolFlag, Scenario.begunFlag]
      [['t'], ['-', 'b', 'v'], ['5']] =
        .finished ⟨false, [Scenario.boolFlag.setValue ['1'], Scenario.begunFlag],
          ⟨2, by decide⟩⟩ := rfl
  cases hfails.symm.trans hrun
  cases hok

end Felicia.CommandLine
