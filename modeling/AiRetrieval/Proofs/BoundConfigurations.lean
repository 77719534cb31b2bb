import AiRetrieval.Sanity.ConfigurationVersions

/-! A reference that an activation returned stands for its content for good. -/

namespace AiRetrieval

open ConfigurationRegistry

variable {ports : ConfigurationPorts}

def acceptedFor (profileId : String) (t : Transition Activation
    (Except ActivationError ConfigurationReference) ConfigurationRegistry) :
    Option ConfigurationReference :=
  if t.input.profileId = profileId then t.reply.toOption else none

theorem configurationMachine_outcome (ports : ConfigurationPorts) (call : Activation)
    (s : ConfigurationRegistry) :
    ActivateOutcome ports call s (configurationMachine ports call s).1
      (configurationMachine ports call s).2 := activate_outcome

theorem run_extends (s : ConfigurationRegistry) (calls : List Activation) :
    s.versions.Extends ((configurationMachine ports).run s calls).versions := by
  induction calls generalizing s with
  | nil => exact Dict.Extends.refl _
  | cons call rest ih => exact (configurationMachine_outcome ports call s).extends_.trans (ih _)

/-- What is stored after an activation stays stored to the end of the run. -/
theorem history_extends {s : ConfigurationRegistry} {calls : List Activation}
    {t : Transition Activation
      (Except ActivationError ConfigurationReference) ConfigurationRegistry}
    (ht : t ∈ (configurationMachine ports).history s calls) :
    t.after.versions.Extends ((configurationMachine ports).run s calls).versions := by
  induction calls generalizing s with
  | nil => cases ht
  | cons call rest ih =>
    rw [Machine.history_cons, List.mem_cons] at ht
    rcases ht with rfl | ht
    · exact run_extends _ rest
    · exact ih ht

theorem run_active (ports : ConfigurationPorts) (s : ConfigurationRegistry)
    (calls : List Activation) (profileId : String) :
    ((configurationMachine ports).run s calls).active.get? profileId =
      ((((configurationMachine ports).history s calls).filterMap
        (acceptedFor profileId)).getLast?).or
        (s.active.get? profileId) := by
  induction calls generalizing s with
  | nil => rfl
  | cons call rest ih =>
    have hactive := (configurationMachine_outcome ports call s).active profileId
    rw [Machine.run_cons, Machine.history_cons, ih, hactive, List.filterMap_cons]
    generalize hfirst : acceptedFor profileId ((configurationMachine ports).transition s call) =
      first
    unfold acceptedFor Machine.transition at hfirst
    rw [hfirst]
    cases first with
    | none => rfl
    | some reference =>
      rw [List.getLast?_cons]
      cases (List.filterMap (acceptedFor profileId)
        ((configurationMachine ports).history
          (configurationMachine ports call s).2 rest)).getLast? with
      | none => rfl
      | some last => rfl

theorem run_recorded (calls : List Activation) :
    ((configurationMachine ports).run {} calls).Recorded ports :=
  Machine.run_invariant (fun call s hs => (configurationMachine_outcome ports call s).recorded hs)
    (fun _ _ h => by cases h) calls

theorem bind_eq {s : ConfigurationRegistry} {reference : ConfigurationReference}
    {version : StoredConfigurationVersion} (h : s.versions.get? reference = some version) :
    s.bind reference = .ok (executionConfiguration reference version.content) := by
  unfold ConfigurationRegistry.bind stored
  rw [h]
  rfl

theorem history_outcome {s : ConfigurationRegistry} {calls : List Activation}
    {t : Transition Activation
      (Except ActivationError ConfigurationReference) ConfigurationRegistry}
    (ht : t ∈ (configurationMachine ports).history s calls) :
    ActivateOutcome ports t.input t.before t.reply t.after := by
  obtain ⟨s, call, rfl⟩ := Machine.history_transition ht
  exact configurationMachine_outcome ports call s

/-- What holds after any activations, accepted or not, of a new registry. -/
structure BoundStably (ports : ConfigurationPorts) (calls : List Activation) : Prop where
  bound : ∀ t ∈ (configurationMachine ports).history {} calls, ∀ reference,
    t.reply = .ok reference → ∃ version, t.input.Holds ports reference version ∧
      t.after.bind reference = .ok (executionConfiguration reference version.content) ∧
      ((configurationMachine ports).run {} calls).bind reference =
        .ok (executionConfiguration reference version.content)
  recorded : ((configurationMachine ports).run {} calls).Recorded ports
  kept : ∀ t ∈ (configurationMachine ports).history {} calls, ∀ reference version,
    t.before.versions.get? reference = some version →
      ((configurationMachine ports).run {} calls).versions.get? reference = some version
  active : ∀ profileId, ((configurationMachine ports).run {} calls).active.get? profileId =
    (((configurationMachine ports).history {} calls).filterMap (acceptedFor profileId)).getLast?
  activeStored : ∀ profileId reference,
    ((configurationMachine ports).run {} calls).active.get? profileId = some reference →
      reference.val.profileId = profileId ∧ ∃ version,
        ((configurationMachine ports).run {} calls).versions.get? reference = some version
  refused : ∀ t ∈ (configurationMachine ports).history {} calls, ∀ error,
    t.reply = .error error → t.after = t.before

theorem bound_configurations_stable (ports : ConfigurationPorts) (calls : List Activation) :
    BoundStably ports calls := by
  have hactive (profileId : String) := run_active ports {} calls profileId
  refine ⟨?_, run_recorded calls, ?_, ?_, ?_, ?_⟩
  · intro t ht reference hreply
    obtain ⟨version, hversion, hholds⟩ := (history_outcome ht).holds hreply
    exact ⟨version, hholds, bind_eq hversion, bind_eq (history_extends ht _ _ hversion)⟩
  · intro t ht reference version hversion
    exact history_extends ht _ _ ((history_outcome ht).extends_ _ _ hversion)
  · intro profileId
    rw [hactive profileId]
    exact Option.or_none
  · intro profileId reference h
    -- the reference was returned by an activation of the profile
    rw [hactive profileId] at h
    have hlast : (((configurationMachine ports).history {} calls).filterMap
        (acceptedFor profileId)).getLast? = some reference := h ▸ Option.or_none.symm
    obtain ⟨t, ht, haccepted⟩ := List.mem_filterMap.1 (List.mem_of_getLast? hlast)
    unfold acceptedFor at haccepted
    split at haccepted
    · next hprofile =>
      cases hreply : t.reply with
      | error e =>
        rw [hreply] at haccepted
        cases haccepted
      | ok returned =>
        rw [hreply] at haccepted
        cases haccepted
        obtain ⟨version, hversion, hholds⟩ := (history_outcome ht).holds hreply
        exact ⟨hholds.profile.trans hprofile, version, history_extends ht _ _ hversion⟩
    · cases haccepted
  · intro t ht error hreply
    exact (history_outcome ht).unchanged hreply

end AiRetrieval
