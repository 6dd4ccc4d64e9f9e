import Felicia.Communication.Process

/-!
# Unsubscriptions that the master refuses

A subscriber whose unsubscription fails is registered again, and so is a service client, but its
callback was taken out of the map of the watcher with the request. It gets no notification, and when
it tries again the watcher erases an entry that is not there.

`withdrawn_callbacks` says that this is what every refusal leads to, and that without one whoever is
registered has its callback in the map and can be rid of it.
-/

set_option autoImplicit false
set_option relaxedAutoImplicit false

namespace Felicia

open Support TransitionSystem

namespace Process

/-- The name that is given up is the one that was asked for. -/
def OwnNames (p : Process) : ProcessAction → Prop
  | .subscriber i a => p.topics.ownName i a = true
  | .serviceClient i a => p.services.ownName i a = true
  | _ => True

/-- A name is asked for when nobody else waits for it, the name that is given up is the one that was
asked for, and the master does not refuse to be rid of it. -/
def Released (p : Process) : ProcessAction → Prop
  | .subscriber i a =>
    p.topics.unshared i a = true ∧ p.topics.ownName i a = true ∧ p.topics.released i a = true
  | .serviceClient i a =>
    p.services.unshared i a = true ∧ p.services.ownName i a = true ∧ p.services.released i a = true
  | _ => True

instance (p : Process) : (a : ProcessAction) → Decidable (p.Released a)
  | .subscriber _ _ => inferInstanceAs (Decidable (_ ∧ _ ∧ _))
  | .serviceClient _ _ => inferInstanceAs (Decidable (_ ∧ _ ∧ _))
  | .event _ _ => isTrue trivial
  | .runPosted _ _ => isTrue trivial

instance (p : Process) : (a : ProcessAction) → Decidable (p.OwnNames a)
  | .subscriber _ _ => inferInstanceAs (Decidable (_ = true))
  | .serviceClient _ _ => inferInstanceAs (Decidable (_ = true))
  | .event _ _ => isTrue trivial
  | .runPosted _ _ => isTrue trivial

variable {deserialize : List UInt8 → Option MasterNotification} {p p' : Process}
  {a : ProcessAction} {effects : List ProcessEffect}

/-- Only the action of a subscriber or of a service client changes what the maps and the register
states are, and only its own half. -/
theorem routing_step (hstep : p.step deserialize a = some (p', effects)) :
    (p'.topics = p.topics ∨ ∃ i b answers, a = .subscriber i b ∧
      p.topics.step i b = some (p'.topics, answers)) ∧
    (p'.services = p.services ∨ ∃ i b answers, a = .serviceClient i b ∧
      p.services.step i b = some (p'.services, answers)) := by
  cases a with
  | subscriber i b =>
    obtain ⟨⟨r, answers⟩, hrouting, heq⟩ := Option.map_eq_some_iff.mp hstep
    cases heq
    exact ⟨.inr ⟨i, b, answers, rfl, hrouting⟩, .inl rfl⟩
  | serviceClient i b =>
    obtain ⟨⟨r, answers⟩, hrouting, heq⟩ := Option.map_eq_some_iff.mp hstep
    cases heq
    exact ⟨.inl rfl, .inr ⟨i, b, answers, rfl, hrouting⟩⟩
  | event event isStopping =>
    cases hstep
    obtain ⟨⟨htopics, hservices, -⟩, -⟩ := p.watcher.step_announced deserialize event
    exact ⟨.inl (by simp [topics, Process.runTasks, htopics]),
      .inl (by simp [services, Process.runTasks, hservices])⟩
  | runPosted n isStopping =>
    simp only [Process.step] at hstep
    split at hstep <;> cases hstep <;> exact ⟨.inl rfl, .inl rfl⟩

/-- Assumes: a property of a map and its registrants that the allowed actions of registrants keep.
The process keeps it for both of its maps. -/
theorem routing_invariant {guard : Process → ProcessAction → Prop} {I : Routing → Prop}
    (hstart : ∀ p, (process deserialize).Initial p → I p.topics ∧ I p.services)
    (htopics : ∀ p i b r answers, I p.topics → guard p (.subscriber i b) →
      p.topics.step i b = some (r, answers) → I r)
    (hservices : ∀ p i b r answers, I p.services → guard p (.serviceClient i b) →
      p.services.step i b = some (r, answers) → I r)
    (hreach : Reachable (process deserialize) guard p) : I p.topics ∧ I p.services := by
  refine hreach.invariant (I := fun p ↦ I p.topics ∧ I p.services) hstart ?_
  intro p a p' effects hp hguard hstep
  obtain ⟨htopic, hservice⟩ := routing_step hstep
  constructor
  · rcases htopic with heq | ⟨i, b, answers, rfl, hrouting⟩
    · rw [heq]
      exact hp.1
    · exact htopics p i b _ answers hp.1 hguard hrouting
  · rcases hservice with heq | ⟨i, b, answers, rfl, hrouting⟩
    · rw [heq]
      exact hp.2
    · exact hservices p i b _ answers hp.2 hguard hrouting

theorem step_isSome (htopics : p.topics.Installed) (hservices : p.services.Installed)
    (hown : p.OwnNames a) : (p.step deserialize a).isSome = true := by
  cases a with
  | subscriber i b =>
    rw [Process.step, Option.isSome_map]
    exact htopics.step_isSome hown
  | serviceClient i b =>
    rw [Process.step, Option.isSome_map]
    exact hservices.step_isSome hown
  | event => rfl
  | runPosted n isStopping =>
    rw [Process.step]
    split <;> rfl

/-- In every run in which a name is asked for when nobody else waits for it, the name that is given
up is the one that was asked for, and the master does not refuse to be rid of it, whoever waits for
notifications has its callback in the map, and every further step of this kind is defined: no entry
is erased that is not there. In every run in which the name given up is the one that was asked for,
each refusal of the master leaves a registered subscriber or service client whose callback is not in
the map. -/
theorem withdrawn_callbacks (deserialize : List UInt8 → Option MasterNotification) :
    (∀ p, Reachable (process deserialize) Released p →
      p.topics.Installed ∧ p.services.Installed ∧
        ∀ a, p.OwnNames a → (p.step deserialize a).isSome = true) ∧
    ∀ p, Reachable (process deserialize) OwnNames p → ∀ i status p' effects,
      ¬ status.isOk = true →
      (∀ subscriber, p.subscribers[i]? = some subscriber →
        subscriber.registerState = .unregistering →
        p.step deserialize (.subscriber i (.onUndoReply status)) = some (p', effects) →
        p'.subscribers[i]? = some ⟨.registered, subscriber.name⟩ ∧
          p'.watcher.topicInfoCallbackMap.find subscriber.name ≠ some i) ∧
      ∀ serviceClient, p.serviceClients[i]? = some serviceClient →
        serviceClient.registerState = .unregistering →
        p.step deserialize (.serviceClient i (.onUndoReply status)) = some (p', effects) →
        p'.serviceClients[i]? = some ⟨.registered, serviceClient.name⟩ ∧
          p'.watcher.serviceInfoCallbackMap.find serviceClient.name ≠ some i := by
  constructor
  · intro p hreach
    obtain ⟨htopics, hservices⟩ : p.topics.Installed ∧ p.services.Installed := by
      refine routing_invariant (I := Routing.Installed) ?_ ?_ ?_ hreach
      · exact fun p h ↦ ⟨Routing.installed_of_unregistered h.2.1,
          Routing.installed_of_unregistered h.2.2.1⟩
      · exact fun p i b r answers hp hguard ↦ hp.step hguard.1 hguard.2.1 hguard.2.2
      · exact fun p i b r answers hp hguard ↦ hp.step hguard.1 hguard.2.1 hguard.2.2
    exact ⟨htopics, hservices, fun a hown ↦ step_isSome htopics hservices hown⟩
  · intro p hreach i status p' effects hrefused
    obtain ⟨htopics, hservices⟩ : p.topics.Withdrawn ∧ p.services.Withdrawn := by
      refine routing_invariant (I := Routing.Withdrawn) ?_ ?_ ?_ hreach
      · exact fun p h ↦ ⟨Routing.withdrawn_of_unregistered h.2.1,
          Routing.withdrawn_of_unregistered h.2.2.1⟩
      · exact fun p i b r answers hp hguard ↦ hp.step hguard
      · exact fun p i b r answers hp hguard ↦ hp.step hguard
    constructor
    · intro subscriber hi hstate hstep
      obtain ⟨⟨r, answers⟩, hrouting, heq⟩ := Option.map_eq_some_iff.mp hstep
      cases heq
      exact htopics.refused hi hstate hrefused hrouting
    · intro serviceClient hi hstate hstep
      obtain ⟨⟨r, answers⟩, hrouting, heq⟩ := Option.map_eq_some_iff.mp hstep
      cases heq
      exact hservices.refused hi hstate hrefused hrouting

end Process

namespace Scenario

/-- A subscriber is registered and asks to be rid of its topic. -/
def unsubscribing : List ProcessAction :=
  subscribed 0 "topic" ++ [.subscriber 0 (.undo "topic")]

/-- The master does not answer. -/
def refused : ProcessAction :=
  .subscriber 0 (.onUndoReply (networkError "net::ERR_CONNECTION_REFUSED"))

end Scenario

namespace Process

/-- An unsubscription that is accepted and a new subscription; and one that is refused. -/
theorem withdrawn_callbacks_of_unsubscription :
    (∃ p, Reachable (process Scenario.parsesTopic) Released p ∧
      p.subscribers[0]? = some ⟨.registered, "other"⟩ ∧
      p.topics.Installed ∧ p.services.Installed ∧
        ∀ a, p.OwnNames a → (p.step Scenario.parsesTopic a).isSome = true) ∧
    ∃ p p' effects, Reachable (process Scenario.parsesTopic) OwnNames p ∧
      p.step Scenario.parsesTopic Scenario.refused = some (p', effects) ∧
      p'.subscribers[0]? = some ⟨.registered, "topic"⟩ ∧
      p'.watcher.topicInfoCallbackMap.find "topic" ≠ some 0 := by
  constructor
  · have hexec : ((process Scenario.parsesTopic).exec Released Scenario.subscribingProcess []
        (Scenario.unsubscribing ++ [.subscriber 0 (.onUndoReply .OK)] ++
          Scenario.subscribed 0 "other")).map (fun result ↦ result.1.subscribers[0]?) =
        some (some ⟨.registered, "other"⟩) := by
      decide
    obtain ⟨⟨p, history⟩, hrun, hfirst⟩ := Option.map_eq_some_iff.mp hexec
    have hreach : Reachable (process Scenario.parsesTopic) Released p :=
      ⟨history, (Run.start initial_subscribingProcess).of_exec hrun⟩
    exact ⟨p, hreach, hfirst, (withdrawn_callbacks Scenario.parsesTopic).1 p hreach⟩
  · have hexec : ((process Scenario.parsesTopic).exec OwnNames Scenario.subscribingProcess []
        Scenario.unsubscribing).map (fun result ↦ (result.1.subscribers[0]?,
          (result.1.step Scenario.parsesTopic Scenario.refused).isSome)) =
        some (some ⟨.unregistering, "topic"⟩, true) := by
      decide
    obtain ⟨⟨p, history⟩, hrun, heq⟩ := Option.map_eq_some_iff.mp hexec
    obtain ⟨hfirst, hnext⟩ := Prod.mk.inj heq
    obtain ⟨⟨p', effects⟩, hstep⟩ := Option.isSome_iff_exists.mp hnext
    have hreach : Reachable (process Scenario.parsesTopic) OwnNames p :=
      ⟨history, (Run.start initial_subscribingProcess).of_exec hrun⟩
    have hrefused := ((withdrawn_callbacks Scenario.parsesTopic).2 p hreach 0 _ p' effects
      (by decide)).1 _ hfirst rfl hstep
    exact ⟨p, p', effects, hreach, hstep, hrefused⟩

/-- The master refuses an unsubscription: the callback of the subscriber is not in the map, and when
it tries again, the entry that is erased is not there. -/
theorem refused_unsubscription_withdraws :
    (¬ ∀ deserialize p, Reachable (process deserialize) unguarded p →
      ∀ i subscriber status p' effects, ¬ status.isOk = true →
        p.subscribers[i]? = some subscriber → subscriber.registerState = .unregistering →
        p.step deserialize (.subscriber i (.onUndoReply status)) = some (p', effects) →
        p'.watcher.topicInfoCallbackMap.find subscriber.name = some i) ∧
    ¬ ∀ deserialize p, Reachable (process deserialize) unguarded p →
      ∀ a, (p.step deserialize a).isSome = true := by
  refine ⟨fun h ↦ ?_, fun h ↦ ?_⟩
  · have hexec : ((process Scenario.parsesTopic).exec unguarded Scenario.subscribingProcess []
        Scenario.unsubscribing).map (fun result ↦ (result.1.subscribers[0]?,
          (result.1.step Scenario.parsesTopic Scenario.refused).map fun next ↦
            next.1.watcher.topicInfoCallbackMap.find "topic")) =
        some (some ⟨.unregistering, "topic"⟩, some none) := by
      decide
    obtain ⟨⟨p, history⟩, hrun, heq⟩ := Option.map_eq_some_iff.mp hexec
    obtain ⟨hfirst, hnext⟩ := Prod.mk.inj heq
    obtain ⟨⟨p', effects⟩, hstep, hfind⟩ := Option.map_eq_some_iff.mp hnext
    have run := (Run.start initial_subscribingProcess).of_exec hrun
    have hinstalled := h _ p ⟨history, run⟩ 0 _ _ p' effects (by decide) hfirst rfl hstep
    dsimp only at hfind
    rw [hfind] at hinstalled
    cases hinstalled
  · have hexec : ((process Scenario.parsesTopic).exec unguarded Scenario.subscribingProcess []
        (Scenario.unsubscribing ++ [Scenario.refused])).map (fun result ↦
          (result.1.step Scenario.parsesTopic (.subscriber 0 (.undo "topic"))).isSome) =
        some false := by
      decide
    obtain ⟨⟨p, history⟩, hrun, hretry⟩ := Option.map_eq_some_iff.mp hexec
    have run := (Run.start initial_subscribingProcess).of_exec hrun
    have hdefined := h _ p ⟨history, run⟩ (.subscriber 0 (.undo "topic"))
    dsimp only at hretry
    rw [hretry] at hdefined
    cases hdefined

end Process

end Felicia
