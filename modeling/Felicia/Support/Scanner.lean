import Felicia.Support.Receiver

/-!
# Scanners

A scanner looks at the items that have come so far. It needs more of them, or fails, or yields a
value and leaves the items behind it. A scanner is lawful if what it makes of some items does not
depend on what follows them; scanners are lawful when they are made from lawful ones.

A receiver that collects items until a lawful scanner has enough of them makes the same of them as
the scanner makes of all of them at once (`Collects`).
-/

set_option autoImplicit false
set_option relaxedAutoImplicit false

namespace Felicia.Support

variable {ε α γ β σ τ : Type*}

/-- What a scanner makes of some items. -/
inductive Scan (ε β α : Type*)
  | incomplete
  | failed (error : ε)
  | complete (value : α) (rest : List β)
  deriving DecidableEq

/-- A scanner of items. -/
structure Scanner (ε β α : Type*) where
  scan : List β → Scan ε β α

namespace Scanner

/-- Yield a value. -/
def pure (a : α) : Scanner ε β α where
  scan bs := .complete a bs

def fail (e : ε) : Scanner ε β α where
  scan _ := .failed e

/-- Yield a number of items. -/
def take (count : ℕ) : Scanner ε β (List β) where
  scan bs := if bs.length < count then .incomplete else .complete (bs.take count) (bs.drop count)

/-- Go on behind the value of a scanner. -/
def bind (s : Scanner ε β α) (next : α → Scanner ε β γ) : Scanner ε β γ where
  scan bs :=
    match s.scan bs with
    | .incomplete => .incomplete
    | .failed e => .failed e
    | .complete a rest => (next a).scan rest

/-- What the scanner makes of items does not depend on what follows them. -/
structure Lawful (s : Scanner ε β α) : Prop where
  complete : ∀ {bs a rest}, s.scan bs = .complete a rest →
    ∃ used, bs = used ++ rest ∧ ∀ more, s.scan (used ++ more) = .complete a more
  failed : ∀ {bs e}, s.scan bs = .failed e → ∀ more, s.scan (bs ++ more) = .failed e

theorem lawful_pure (a : α) : (pure a : Scanner ε β α).Lawful where
  complete h := by
    cases h
    exact ⟨[], rfl, fun more ↦ rfl⟩
  failed h := by cases h

theorem lawful_fail (e : ε) : (fail e : Scanner ε β α).Lawful where
  complete h := by cases h
  failed h := fun _ ↦ h

theorem scan_take {count : ℕ} {items : List β} (h : items.length = count) (rest : List β) :
    (take count : Scanner ε β (List β)).scan (items ++ rest) = .complete items rest := by
  have hle : ¬(items ++ rest).length < count := by
    rw [List.length_append]
    omega
  simp only [take, if_neg hle, List.take_left' h, List.drop_left' h]

theorem take_eq_complete {count : ℕ} {bs items rest : List β}
    (h : (take count : Scanner ε β (List β)).scan bs = .complete items rest) :
    items.length = count ∧ bs = items ++ rest := by
  unfold take at h
  simp only at h
  split_ifs at h with hshort
  cases h
  rw [List.length_take]
  exact ⟨by omega, (List.take_append_drop count bs).symm⟩

theorem lawful_take (count : ℕ) : (take count : Scanner ε β (List β)).Lawful where
  complete h := by
    obtain ⟨hlength, rfl⟩ := take_eq_complete h
    exact ⟨_, rfl, fun more ↦ scan_take hlength more⟩
  failed h := by
    unfold take at h
    simp only at h
    split_ifs at h

theorem scan_bind {s : Scanner ε β α} {bs rest : List β} {a : α}
    (h : s.scan bs = .complete a rest) (next : α → Scanner ε β γ) :
    (s.bind next).scan bs = (next a).scan rest := by
  simp only [bind, h]

theorem bind_eq_complete {s : Scanner ε β α} {next : α → Scanner ε β γ} {bs rest : List β} {c : γ} :
    (s.bind next).scan bs = .complete c rest ↔
      ∃ a middle, s.scan bs = .complete a middle ∧ (next a).scan middle = .complete c rest := by
  cases hs : s.scan bs <;> simp [bind, hs]

theorem bind_eq_failed {s : Scanner ε β α} {next : α → Scanner ε β γ} {bs : List β} {e : ε} :
    (s.bind next).scan bs = .failed e ↔
      s.scan bs = .failed e ∨
        ∃ a middle, s.scan bs = .complete a middle ∧ (next a).scan middle = .failed e := by
  cases hs : s.scan bs <;> simp [bind, hs]

/-- What follows a number of items fails, if anything does. -/
theorem exists_of_take_bind_failed {count : ℕ} {next : List β → Scanner ε β γ} {bs : List β} {e : ε}
    (h : ((take count).bind next).scan bs = .failed e) :
    ∃ items rest, items.length = count ∧ bs = items ++ rest ∧
      (next items).scan rest = .failed e := by
  rcases bind_eq_failed.mp h with htake | ⟨items, rest, htake, hnext⟩
  · unfold take at htake
    simp only at htake
    split_ifs at htake
  · obtain ⟨hlength, rfl⟩ := take_eq_complete htake
    exact ⟨items, rest, hlength, rfl, hnext⟩

theorem Lawful.bind {s : Scanner ε β α} {next : α → Scanner ε β γ} (hs : s.Lawful)
    (hnext : ∀ a, (next a).Lawful) : (s.bind next).Lawful where
  complete h := by
    obtain ⟨a, middle, hfirst, hsecond⟩ := bind_eq_complete.mp h
    obtain ⟨used, rfl, hused⟩ := hs.complete hfirst
    obtain ⟨used', rfl, hused'⟩ := (hnext a).complete hsecond
    refine ⟨used ++ used', (List.append_assoc _ _ _).symm, fun more ↦ ?_⟩
    rw [List.append_assoc, scan_bind (hused _), hused']
  failed h more := by
    rw [bind_eq_failed] at h ⊢
    rcases h with hfirst | ⟨a, middle, hfirst, hsecond⟩
    · exact .inl (hs.failed hfirst more)
    · obtain ⟨used, rfl, hused⟩ := hs.complete hfirst
      refine .inr ⟨a, middle ++ more, ?_, (hnext a).failed hsecond more⟩
      rw [List.append_assoc, hused]

/-- The scanner fails with errors of a kind only. -/
def FailsWith (s : Scanner ε β α) (P : ε → Prop) : Prop := ∀ bs e, s.scan bs = .failed e → P e

theorem failsWith_pure (a : α) (P : ε → Prop) : (pure a : Scanner ε β α).FailsWith P := by
  intro bs e h
  cases h

theorem failsWith_fail {e : ε} {P : ε → Prop} (he : P e) :
    (fail e : Scanner ε β α).FailsWith P := by
  intro bs e' h
  cases h
  exact he

theorem failsWith_take (count : ℕ) (P : ε → Prop) :
    (take count : Scanner ε β (List β)).FailsWith P := by
  intro bs e h
  unfold take at h
  simp only at h
  split_ifs at h

theorem FailsWith.bind {s : Scanner ε β α} {next : α → Scanner ε β γ} {P : ε → Prop}
    (hs : s.FailsWith P) (hnext : ∀ a, (next a).FailsWith P) : (s.bind next).FailsWith P := by
  intro bs e h
  rcases bind_eq_failed.mp h with hfirst | ⟨a, middle, -, hsecond⟩
  · exact hs bs e hfirst
  · exact hnext a middle e hsecond

/-- Some items are enough for the scanner, and it yields a value from no more of them. -/
structure Within (s : Scanner ε β α) (count : ℕ) : Prop where
  enough : ∀ {bs}, count ≤ bs.length → s.scan bs ≠ .incomplete
  used : ∀ {bs a rest}, s.scan bs = .complete a rest → bs.length ≤ rest.length + count

theorem within_pure (a : α) : (pure a : Scanner ε β α).Within 0 where
  enough _ h := by cases h
  used h := by
    cases h
    exact Nat.le_refl _

theorem within_fail (e : ε) (count : ℕ) : (fail e : Scanner ε β α).Within count where
  enough _ h := by cases h
  used h := by cases h

theorem within_take (count : ℕ) : (take count : Scanner ε β (List β)).Within count where
  enough hle h := by
    unfold take at h
    simp only at h
    split_ifs at h
    omega
  used h := by
    obtain ⟨hlength, rfl⟩ := take_eq_complete h
    rw [List.length_append]
    omega

theorem Within.mono {s : Scanner ε β α} {count more : ℕ} (h : s.Within count)
    (hle : count ≤ more) : s.Within more where
  enough hmore := h.enough (Nat.le_trans hle hmore)
  used hscan := Nat.le_trans (h.used hscan) (Nat.add_le_add_left hle _)

theorem Within.bind {s : Scanner ε β α} {next : α → Scanner ε β γ} {count count' : ℕ}
    (hs : s.Within count) (hnext : ∀ a, (next a).Within count') :
    (s.bind next).Within (count + count') where
  enough {bs} hle h := by
    cases hfirst : s.scan bs with
    | incomplete => exact hs.enough (by omega) hfirst
    | failed e => simp [Scanner.bind, hfirst] at h
    | complete a rest =>
      have hused := hs.used hfirst
      rw [scan_bind hfirst] at h
      exact (hnext a).enough (by omega) h
  used h := by
    obtain ⟨a, middle, hfirst, hsecond⟩ := bind_eq_complete.mp h
    have hused := hs.used hfirst
    have hused' := (hnext a).used hsecond
    omega

variable {s : Scanner ε β α}

/-- Assumes: a lawful scanner. What is not enough was not enough before. -/
theorem Lawful.incomplete (hs : s.Lawful) {bs more : List β}
    (h : s.scan (bs ++ more) = .incomplete) : s.scan bs = .incomplete := by
  cases hscan : s.scan bs with
  | incomplete => rfl
  | failed e =>
    rw [hs.failed hscan] at h
    cases h
  | complete a rest =>
    obtain ⟨used, rfl, hused⟩ := hs.complete hscan
    rw [List.append_assoc, hused] at h
    cases h

/-- Assumes: a lawful scanner that yields a value from all of the items. Fewer are not enough. -/
theorem Lawful.incomplete_of_complete (hs : s.Lawful) {bs more : List β} {a : α}
    (h : s.scan (bs ++ more) = .complete a []) (hmore : more ≠ []) : s.scan bs = .incomplete := by
  cases hscan : s.scan bs with
  | incomplete => rfl
  | failed e =>
    rw [hs.failed hscan] at h
    cases h
  | complete a' rest =>
    obtain ⟨used, rfl, hused⟩ := hs.complete hscan
    rw [List.append_assoc, hused] at h
    have hrest : rest ++ more = [] := (Scan.complete.inj h).2
    exact absurd (List.append_eq_nil_iff.mp hrest).2 hmore

/-! ### Collecting -/

/-- A receiver collects items for a scanner, and then takes up its value or has failed for good. -/
structure Collects (R : Receiver σ β τ) (s : Scanner ε β α) (collecting : List β → σ)
    (failing : ε → σ) (opens : α → σ × List τ) : Prop where
  step : ∀ bs b, R.step (collecting bs) b =
    match s.scan (bs ++ [b]) with
    | .incomplete => (collecting (bs ++ [b]), [])
    | .failed e => (failing e, [])
    | .complete a _ => opens a
  stuck : ∀ e b, R.step (failing e) b = (failing e, [])
  lawful : s.Lawful
  nil : s.scan [] = .incomplete

namespace Collects

variable {R : Receiver σ β τ} {collecting : List β → σ} {failing : ε → σ} {opens : α → σ × List τ}

theorem feed_incomplete (h : Collects R s collecting failing opens) {bs : List β}
    (hscan : s.scan bs = .incomplete) : R.feed (collecting []) bs = (collecting bs, []) := by
  induction bs using List.reverseRecOn with
  | nil => rfl
  | append_singleton bs b ih =>
    rw [Receiver.feed_append, ih (h.lawful.incomplete hscan), Receiver.feed_singleton, h.step,
      hscan]
    rfl

theorem feed_failed (h : Collects R s collecting failing opens) {bs : List β} {e : ε}
    (hscan : s.scan bs = .failed e) : R.feed (collecting []) bs = (failing e, []) := by
  induction bs using List.reverseRecOn generalizing e with
  | nil =>
    rw [h.nil] at hscan
    cases hscan
  | append_singleton bs b ih =>
    cases hbefore : s.scan bs with
    | incomplete =>
      rw [Receiver.feed_append, h.feed_incomplete hbefore, Receiver.feed_singleton, h.step, hscan]
      rfl
    | failed e' =>
      have hsame : e' = e := by
        rw [h.lawful.failed hbefore] at hscan
        cases hscan
        rfl
      rw [Receiver.feed_append, ih hbefore, hsame, Receiver.feed_singleton, h.stuck]
      rfl
    | complete a rest =>
      obtain ⟨used, rfl, hused⟩ := h.lawful.complete hbefore
      rw [List.append_assoc, hused] at hscan
      cases hscan

theorem feed_complete (h : Collects R s collecting failing opens) {bs : List β} {a : α}
    (hscan : s.scan bs = .complete a []) : R.feed (collecting []) bs = opens a := by
  induction bs using List.reverseRecOn with
  | nil =>
    rw [h.nil] at hscan
    cases hscan
  | append_singleton bs b _ =>
    rw [Receiver.feed_append,
      h.feed_incomplete (h.lawful.incomplete_of_complete hscan (List.cons_ne_nil b [])),
      Receiver.feed_singleton, h.step, hscan]
    rfl

end Collects

end Scanner

end Felicia.Support
