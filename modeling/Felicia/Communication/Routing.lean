import Felicia.Communication.RegisterState
import Felicia.Master.MasterNotificationWatcher
import Felicia.Support.Lists

/-!
# Subscribers and service clients of one process

`RequestSubscribe` and `RequestUnsubscribe` of `felicia/core/communication/subscriber.h`,
`RequestRegister` and `RequestUnregister` of `felicia/core/communication/service_client.h`, the
functions of `felicia/core/master/master_proxy.cc` that they call, and the callbacks that the
notification watcher of the process then runs. Subscribers and service clients do the same with one
map of the watcher each, so both are a `Routing`.

`MasterProxy` puts a callback into the map before the master answers, under its topic alone, and
takes it out before the master answers to the unsubscription. `Routing.Installed`, `Routing.Owned`
and `Routing.Withdrawn` say what this makes of the map, each with the steps that it needs.
-/

set_option autoImplicit false
set_option relaxedAutoImplicit false

namespace Felicia

open Support TransitionSystem

/-! ### One map of the watcher -/

/-- `register_state_` of a subscriber or of a service client, with the name it asked for last. -/
structure Registrant where
  registerState : RegisterState := .unregistered
  name : String := ""
  deriving DecidableEq

/-- A map of callbacks with those whose callbacks are put there. A callback is the number of its
owner. -/
structure Routing where
  callbackMap : FlatMap String ℕ := .empty
  registrants : List Registrant

/-- What a subscriber or a service client does, or is told by the master. -/
inductive RoutingAction
  | request (name : String)
  | onReply (status : Status)
  | undo (name : String)
  | onUndoReply (status : Status)

namespace Routing

variable (r : Routing) (i : ℕ) (registrant : Registrant)

/-- The register state of a registrant changes. -/
def setState (state : RegisterState) : Routing :=
  { r with registrants := r.registrants.set i { registrant with registerState := state } }

/-- `Subscriber::RequestSubscribe` and `ServiceClient::RequestRegister`, with
`MasterProxy::SubscribeTopicAsync` and `MasterProxy::RegisterServiceClientAsync`. -/
def request (name : String) : Routing × List Status :=
  if registrant.registerState ≠ .unregistered then
    (r, [registrant.registerState.invalidStateError])
  else
    ({ callbackMap := registerCallback r.callbackMap name i
       registrants := r.registrants.set i ⟨.registering, name⟩ }, [])

/-- `Subscriber::OnSubscribeTopicAsync` and `ServiceClient::OnRegisterServiceClientAsync`. -/
def onReply (status : Status) : Routing × List Status :=
  if registrant.registerState ≠ .registering then
    (r, [registrant.registerState.invalidStateError])
  else if !status.isOk then (r.setState i registrant .unregistered, [status])
  else (r.setState i registrant .registered, [status])

/-- `Subscriber::RequestUnsubscribe` and `ServiceClient::RequestUnregister`, with
`MasterProxy::UnsubscribeTopicAsync` and `MasterProxy::UnregisterServiceClientAsync`. -/
def undo (name : String) : Option (Routing × List Status) :=
  if registrant.registerState ≠ .registered then
    some (r, [registrant.registerState.invalidStateError])
  else (unregisterCallback r.callbackMap name).map fun callbackMap ↦
    ({ r.setState i registrant .unregistering with callbackMap }, [])

/-- `Subscriber::OnUnubscribeTopicAsync` and `ServiceClient::OnUnregisterServiceClientAsync`. -/
def onUndoReply (status : Status) : Routing × List Status :=
  if registrant.registerState ≠ .unregistering then
    (r, [registrant.registerState.invalidStateError])
  else if !status.isOk then (r.setState i registrant .registered, [status])
  else (r.setState i registrant .unregistered, [status])

/-- An action of one registrant, and what its callback is run with. -/
def step (a : RoutingAction) : Option (Routing × List Status) :=
  match r.registrants[i]? with
  | none => some (r, [])
  | some registrant =>
    match a with
    | .request name => some (r.request i registrant name)
    | .onReply status => some (r.onReply i registrant status)
    | .undo name => r.undo i registrant name
    | .onUndoReply status => some (r.onUndoReply i registrant status)

/-- What a step can come to. -/
inductive StepCase (r : Routing) (i : ℕ) : RoutingAction → Routing → Prop
  | idle (a : RoutingAction) : StepCase r i a r
  | request {registrant : Registrant} (name : String) (hi : r.registrants[i]? = some registrant)
      (hstate : registrant.registerState = .unregistered) :
      StepCase r i (.request name)
        { callbackMap := registerCallback r.callbackMap name i
          registrants := r.registrants.set i ⟨.registering, name⟩ }
  | replied {registrant : Registrant} (status : Status) (hi : r.registrants[i]? = some registrant)
      (hstate : registrant.registerState = .registering) :
      StepCase r i (.onReply status)
        (r.setState i registrant (if status.isOk then .registered else .unregistered))
  | undo {registrant : Registrant} (name : String) (hi : r.registrants[i]? = some registrant)
      (hstate : registrant.registerState = .registered)
      (hcontains : r.callbackMap.contains name = true) :
      StepCase r i (.undo name)
        { r.setState i registrant .unregistering with callbackMap := r.callbackMap.erase name }
  | undone {registrant : Registrant} (status : Status) (hi : r.registrants[i]? = some registrant)
      (hstate : registrant.registerState = .unregistering) :
      StepCase r i (.onUndoReply status)
        (r.setState i registrant (if status.isOk then .unregistered else .registered))

variable {r} {i} {r' : Routing} {a : RoutingAction} {answers : List Status}

theorem step_cases (hstep : r.step i a = some (r', answers)) : StepCase r i a r' := by
  unfold step at hstep
  cases hi : r.registrants[i]? with
  | none =>
    rw [hi] at hstep
    cases hstep
    exact .idle a
  | some registrant =>
    rw [hi] at hstep
    cases a with
    | request name =>
      have heq : r.request i registrant name = (r', answers) := Option.some.inj hstep
      unfold request at heq
      split_ifs at heq with hstate
      · cases heq
        exact .idle _
      · cases heq
        exact .request name hi (not_not.mp hstate)
    | onReply status =>
      have heq : r.onReply i registrant status = (r', answers) := Option.some.inj hstep
      unfold onReply at heq
      split_ifs at heq with hstate hok
      · cases heq
        exact .idle _
      · cases heq
        have hcase := StepCase.replied status hi (not_not.mp hstate)
        rwa [if_neg (by simpa using hok)] at hcase
      · cases heq
        have hcase := StepCase.replied status hi (not_not.mp hstate)
        rwa [if_pos (by simpa using hok)] at hcase
    | undo name =>
      change r.undo i registrant name = some (r', answers) at hstep
      unfold undo unregisterCallback at hstep
      split_ifs at hstep with hstate hcontains
      · cases hstep
        exact .idle _
      · cases hstep
        exact .undo name hi (not_not.mp hstate) hcontains
      · cases hstep
    | onUndoReply status =>
      have heq : r.onUndoReply i registrant status = (r', answers) := Option.some.inj hstep
      unfold onUndoReply at heq
      split_ifs at heq with hstate hok
      · cases heq
        exact .idle _
      · cases heq
        have hcase := StepCase.undone status hi (not_not.mp hstate)
        rwa [if_neg (by simpa using hok)] at hcase
      · cases heq
        have hcase := StepCase.undone status hi (not_not.mp hstate)
        rwa [if_pos (by simpa using hok)] at hcase

end Routing

/-! ### What the map holds -/

/-- It asked for a name and did not ask to be rid of it. -/
def Registrant.awaits (registrant : Registrant) : Bool :=
  registrant.registerState = .registering || registrant.registerState = .registered

namespace Routing

/-- A name is asked for when nobody else waits for what is said of it. -/
def unshared (r : Routing) (i : ℕ) : RoutingAction → Bool
  | .request name => r.registrants[i]?.all fun registrant ↦
      registrant.registerState ≠ .unregistered ||
        r.registrants.all fun other ↦ !(other.awaits && other.name = name)
  | _ => true

/-- The name that is given up is the one that was asked for. -/
def ownName (r : Routing) (i : ℕ) : RoutingAction → Bool
  | .undo name => r.registrants[i]?.all fun registrant ↦
      registrant.registerState ≠ .registered || registrant.name = name
  | _ => true

/-- The master does not refuse a request. -/
def accepted (r : Routing) (i : ℕ) : RoutingAction → Bool
  | .onReply status => r.registrants[i]?.all fun registrant ↦
      registrant.registerState ≠ .registering || status.isOk
  | _ => true

/-- The master does not refuse to be rid of a request. -/
def released (r : Routing) (i : ℕ) : RoutingAction → Bool
  | .onUndoReply status => r.registrants[i]?.all fun registrant ↦
      registrant.registerState ≠ .unregistering || status.isOk
  | _ => true

/-- Who waits for a name has its callback there. -/
def Installed (r : Routing) : Prop :=
  ∀ i registrant, r.registrants[i]? = some registrant → registrant.awaits = true →
    r.callbackMap.find registrant.name = some i

/-- A callback in the map is that of somebody who waits for its name. -/
def Owned (r : Routing) : Prop :=
  ∀ name i, r.callbackMap.find name = some i →
    ∃ registrant, r.registrants[i]? = some registrant ∧ registrant.awaits = true ∧
      registrant.name = name

/-- Who asked to be rid of a name has its callback there no more. -/
def Withdrawn (r : Routing) : Prop :=
  ∀ i registrant, r.registrants[i]? = some registrant →
    registrant.registerState = .unregistering → r.callbackMap.find registrant.name ≠ some i

variable {r r' : Routing} {i : ℕ} {a : RoutingAction} {answers : List Status}

theorem getElem?_setState {registrant : Registrant} (hi : r.registrants[i]? = some registrant)
    (state : RegisterState) (j : ℕ) :
    (r.setState i registrant state).registrants[j]? =
      if j = i then some { registrant with registerState := state } else r.registrants[j]? :=
  getElem?_set_of_some hi _ j

/-- Assumes: a name that is asked for when nobody waits for it. -/
theorem name_ne_of_unshared {registrant other : Registrant} {name : String}
    (hunshared : r.unshared i (.request name) = true) (hi : r.registrants[i]? = some registrant)
    (hstate : registrant.registerState = .unregistered) (hother : other ∈ r.registrants)
    (hawaits : other.awaits = true) : other.name ≠ name := by
  have hall : ∀ q ∈ r.registrants, q.awaits = false ∨ ¬ q.name = name := by
    simpa [unshared, hi, hstate] using hunshared
  exact (hall other hother).resolve_left (by simp [hawaits])

/-- Assumes: a registered one that gives up a name. It is its own. -/
theorem name_eq_of_ownName {registrant : Registrant} {name : String}
    (hown : r.ownName i (.undo name) = true) (hi : r.registrants[i]? = some registrant)
    (hstate : registrant.registerState = .registered) : registrant.name = name := by
  simpa [ownName, hi, hstate] using hown

theorem Installed.step (h : r.Installed) (hunshared : r.unshared i a = true)
    (hown : r.ownName i a = true) (hreleased : r.released i a = true)
    (hstep : r.step i a = some (r', answers)) : r'.Installed := by
  intro j other hj hawaits
  cases step_cases hstep with
  | idle => exact h j other hj hawaits
  | request name hi hstate =>
    rw [getElem?_set_of_some hi] at hj
    rw [registerCallback, FlatMap.find_insertOrAssign]
    split_ifs at hj with hij
    · cases hj
      rw [if_pos rfl, hij]
    · rw [if_neg (name_ne_of_unshared hunshared hi hstate (List.mem_of_getElem? hj) hawaits)]
      exact h j other hj hawaits
  | @replied registrant status hi hstate =>
    rw [getElem?_setState hi] at hj
    by_cases hij : j = i
    · rw [if_pos hij] at hj
      cases hj
      exact hij ▸ h i registrant hi (by simp [Registrant.awaits, hstate])
    · rw [if_neg hij] at hj
      exact h j other hj hawaits
  | @undo registrant name hi hstate hcontains =>
    rw [getElem?_setState hi] at hj
    split_ifs at hj with hij
    · cases hj
      cases hawaits
    · have hfind := h j other hj hawaits
      have hne : other.name ≠ name := by
        -- The name given up is that of another one, whose callback is the one found there.
        intro heq
        have hself := h i registrant hi (by simp [Registrant.awaits, hstate])
        rw [name_eq_of_ownName hown hi hstate, ← heq, hfind] at hself
        exact hij (Option.some.inj hself)
      rw [FlatMap.find_erase, if_neg hne]
      exact hfind
  | @undone registrant status hi hstate =>
    have hok : status.isOk = true := by simpa [released, hi, hstate] using hreleased
    rw [if_pos hok, getElem?_setState hi] at hj
    split_ifs at hj with hij
    · cases hj
      cases hawaits
    · exact h j other hj hawaits

/-- Assumes: everybody who waits is installed. Then the callback that is taken out is there. -/
theorem Installed.step_isSome (h : r.Installed) (hown : r.ownName i a = true) :
    (r.step i a).isSome = true := by
  unfold Routing.step
  cases hi : r.registrants[i]? with
  | none => rfl
  | some registrant =>
    cases a with
    | request name | onReply status | onUndoReply status => rfl
    | undo name =>
      dsimp only
      unfold undo unregisterCallback
      split_ifs with hstate hcontains
      · rfl
      · rfl
      · have hregistered := not_not.mp hstate
        have hfind := h i registrant hi (by simp [Registrant.awaits, hregistered])
        rw [name_eq_of_ownName hown hi hregistered] at hfind
        exact absurd (by rw [FlatMap.contains, hfind]; rfl) hcontains

theorem Owned.step (h : r.Owned) (hown : r.ownName i a = true) (haccepted : r.accepted i a = true)
    (hstep : r.step i a = some (r', answers)) : r'.Owned := by
  intro name j hfind
  cases step_cases hstep with
  | idle => exact h name j hfind
  | @request registrant name' hi hstate =>
    rw [registerCallback, FlatMap.find_insertOrAssign] at hfind
    split_ifs at hfind with hname
    · cases hfind
      exact ⟨_, by rw [getElem?_set_of_some hi, if_pos rfl], rfl, hname.symm⟩
    · obtain ⟨owner, hj, hawaits, howner⟩ := h name j hfind
      have hij : j ≠ i := by
        rintro rfl
        rw [hi] at hj
        cases hj
        simp [Registrant.awaits, hstate] at hawaits
      exact ⟨owner, by rw [getElem?_set_of_some hi, if_neg hij, hj], hawaits, howner⟩
  | @replied registrant status hi hstate =>
    have hok : status.isOk = true := by simpa [accepted, hi, hstate] using haccepted
    obtain ⟨owner, hj, hawaits, howner⟩ := h name j hfind
    rw [getElem?_setState hi]
    split_ifs with hij
    · subst hij
      rw [hi] at hj
      cases hj
      exact ⟨_, rfl, rfl, howner⟩
    · exact ⟨owner, hj, hawaits, howner⟩
  | @undo registrant name' hi hstate hcontains =>
    rw [FlatMap.find_erase] at hfind
    split_ifs at hfind with hname
    obtain ⟨owner, hj, hawaits, howner⟩ := h name j hfind
    have hij : j ≠ i := by
      rintro rfl
      rw [hi] at hj
      cases hj
      exact hname (howner.symm.trans (name_eq_of_ownName hown hi hstate))
    exact ⟨owner, by rw [getElem?_setState hi, if_neg hij, hj], hawaits, howner⟩
  | @undone registrant status hi hstate =>
    obtain ⟨owner, hj, hawaits, howner⟩ := h name j hfind
    have hij : j ≠ i := by
      rintro rfl
      rw [hi] at hj
      cases hj
      simp [Registrant.awaits, hstate] at hawaits
    exact ⟨owner, by rw [getElem?_setState hi, if_neg hij, hj], hawaits, howner⟩

theorem Withdrawn.step (h : r.Withdrawn) (hown : r.ownName i a = true)
    (hstep : r.step i a = some (r', answers)) : r'.Withdrawn := by
  intro j other hj hunregistering
  cases step_cases hstep with
  | idle => exact h j other hj hunregistering
  | @request registrant name hi hstate =>
    rw [getElem?_set_of_some hi] at hj
    rw [registerCallback, FlatMap.find_insertOrAssign]
    split_ifs at hj with hij
    · cases hj
      cases hunregistering
    · split_ifs
      · exact fun heq ↦ hij (Option.some.inj heq).symm
      · exact h j other hj hunregistering
  | @replied registrant status hi hstate =>
    rw [getElem?_setState hi] at hj
    by_cases hij : j = i
    · rw [if_pos hij] at hj
      cases hj
      dsimp only at hunregistering
      split_ifs at hunregistering
    · rw [if_neg hij] at hj
      exact h j other hj hunregistering
  | @undo registrant name hi hstate hcontains =>
    rw [getElem?_setState hi] at hj
    rw [FlatMap.find_erase]
    split_ifs at hj with hij
    · cases hj
      rw [if_pos (name_eq_of_ownName hown hi hstate)]
      simp
    · split_ifs
      · simp
      · exact h j other hj hunregistering
  | @undone registrant status hi hstate =>
    rw [getElem?_setState hi] at hj
    by_cases hij : j = i
    · rw [if_pos hij] at hj
      cases hj
      dsimp only at hunregistering
      split_ifs at hunregistering
    · rw [if_neg hij] at hj
      exact h j other hj hunregistering

/-- Assumes: registrants none of which asked for anything. -/
theorem installed_of_unregistered
    (h : ∀ registrant ∈ r.registrants, registrant.registerState = .unregistered) :
    r.Installed := by
  intro i registrant hi hawaits
  simp [Registrant.awaits, h registrant (List.mem_of_getElem? hi)] at hawaits

theorem withdrawn_of_unregistered
    (h : ∀ registrant ∈ r.registrants, registrant.registerState = .unregistered) :
    r.Withdrawn := by
  intro i registrant hi hstate
  rw [h registrant (List.mem_of_getElem? hi)] at hstate
  cases hstate

/-- Assumes: an unsubscription that the master refuses. The registrant is registered again, and its
callback is still not there. -/
theorem Withdrawn.refused (h : r.Withdrawn) {registrant : Registrant} {status : Status}
    (hi : r.registrants[i]? = some registrant)
    (hstate : registrant.registerState = .unregistering) (hrefused : ¬ status.isOk = true)
    (hstep : r.step i (.onUndoReply status) = some (r', answers)) :
    r'.registrants[i]? = some ⟨.registered, registrant.name⟩ ∧
      r'.callbackMap.find registrant.name ≠ some i := by
  have heq : r.setState i registrant .registered = r' := by
    have hreply : r.step i (.onUndoReply status) = some (r.onUndoReply i registrant status) := by
      simp only [Routing.step, hi]
    rw [hreply, onUndoReply, if_neg (not_not.mpr hstate), if_pos (by simpa using hrefused)] at hstep
    cases hstep
    rfl
  subst heq
  refine ⟨?_, h i registrant hi hstate⟩
  rw [getElem?_setState hi, if_pos rfl]

end Routing

end Felicia
