import AiRetrieval.Spec.ConfigurationRegistry
import Mathlib.Data.List.Dedup

/-! What an activation can do to the registry, and what holds of every version and every active
reference in the registries that activations reach. -/

namespace AiRetrieval

namespace Activation

structure Accepted (ports : ConfigurationPorts) (call : Activation) : Prop where
  named : blank call.profileId = false
  valid : call.validator.validate ports.runtime call.content = .ok ⟨[]⟩

/-- What the accepted content is stored as, and under which reference. -/
structure Denotes (ports : ConfigurationPorts) (call : Activation) (canonical : FrozenMapping)
    (digest : String) (reference : ConfigurationReference) : Prop where
  canonicalized : canonicalizeProfile ports.runtime call.content = .ok (canonical, digest)
  reference : reference.val = ⟨call.profileId, "sha256:" ++ digest⟩

end Activation

open Program ConfigurationRegistry

variable {ports : ConfigurationPorts} {call : Activation} {s : ConfigurationRegistry}

inductive ActivateOutcome (ports : ConfigurationPorts) (call : Activation)
    (s : ConfigurationRegistry) :
    Except ActivationError ConfigurationReference → ConfigurationRegistry → Prop
  | refused (error : ActivationError) : ¬call.Accepted ports →
    ActivateOutcome ports call s (.error error) s
  | collided (canonical : FrozenMapping) (digest : String) (reference : ConfigurationReference)
      (existing : StoredConfigurationVersion) : call.Accepted ports →
      call.Denotes ports canonical digest reference →
      s.versions.get? reference = some existing →
      (FrozenValue.mapping existing.content).equal (.mapping canonical) = false →
      ActivateOutcome ports call s (.error digestCollision) s
  | undated (canonical : FrozenMapping) (digest : String) (reference : ConfigurationReference)
      (error : PyError) : call.Accepted ports →
      call.Denotes ports canonical digest reference → s.versions.get? reference = none →
      call.clock.plus ports.retentionPeriod = .error error →
      ActivateOutcome ports call s (.error (.raised error)) s
  | known (canonical : FrozenMapping) (digest : String) (reference : ConfigurationReference)
      (existing : StoredConfigurationVersion) : call.Accepted ports →
      call.Denotes ports canonical digest reference →
      s.versions.get? reference = some existing →
      (FrozenValue.mapping existing.content).equal (.mapping canonical) = true →
      ActivateOutcome ports call s (.ok reference)
        { s with active := s.active.insert call.profileId reference }
  | stored (canonical : FrozenMapping) (digest : String) (reference : ConfigurationReference)
      (retainUntil : DateTime) : call.Accepted ports →
      call.Denotes ports canonical digest reference → s.versions.get? reference = none →
      call.clock.plus ports.retentionPeriod = .ok retainUntil →
      ActivateOutcome ports call s (.ok reference)
        { versions := s.versions.insert reference
            ⟨reference, canonical, digest, call.clock, retainUntil⟩
          active := s.active.insert call.profileId reference }

theorem ConfigurationReference.passes {profileId digest : String} (h : blank profileId = false) :
    ConfigurationReference.postInit ⟨profileId, "sha256:" ++ digest⟩ = .ok () :=
  require_of ⟨h, blank_append_left digest (by decide +kernel)⟩

section Validation

namespace ConfigurationValidator

theorem gather_eq_nil {rules : List RuleFailures} :
    gather rules = .ok [] ↔ ∀ rule ∈ rules, rule = .ok [] := by
  induction rules with
  | nil => exact iff_of_true rfl fun _ h => (by cases h)
  | cons rule rest ih =>
    rw [gather, except_bind_eq_ok, List.forall_mem_cons, ← ih]
    constructor
    · rintro ⟨failures, hrule, h⟩
      obtain ⟨others, hrest, h⟩ := except_bind_eq_ok.1 h
      obtain ⟨rfl, rfl⟩ := List.append_eq_nil_iff.1 (Except.ok.inj h)
      exact ⟨hrule, hrest⟩
    · rintro ⟨hrule, hrest⟩
      exact ⟨[], hrule, except_bind_eq_ok.2 ⟨[], hrest, rfl⟩⟩

theorem sortedFailures_eq_nil {failures : List ConfigurationValidationFailure} :
    sortedFailures failures = [] ↔ failures = [] := by
  have hperm := List.perm_insertionSort (fun a b => a.notAfter b = true) failures.dedup
  constructor
  · intro h
    unfold sortedFailures at h
    rw [h] at hperm
    exact (List.dedup_eq_nil _).1 hperm.nil_eq.symm
  · rintro rfl
    rfl

theorem validate_eq_valid {validator : ConfigurationValidator} {runtime : PythonRuntime}
    {content : PyValue} :
    validator.validate runtime content = .ok ⟨[]⟩ ↔
      ∃ sections, readSections content requiredSections = .ok ([], sections) ∧
        ∀ rule ∈ rules validator runtime content sections, rule = .ok [] := by
  unfold validate
  rw [except_bind_eq_ok]
  constructor
  · rintro ⟨⟨missing, sections⟩, hread, h⟩
    obtain ⟨found, hfound, h⟩ := except_bind_eq_ok.1 h
    injection h with h
    injection h with h
    obtain ⟨rfl, rfl⟩ := List.append_eq_nil_iff.1 (sortedFailures_eq_nil.1 h)
    exact ⟨sections, hread, gather_eq_nil.1 hfound⟩
  · rintro ⟨sections, hread, hrules⟩
    exact ⟨([], sections), hread, except_bind_eq_ok.2 ⟨[], gather_eq_nil.2 hrules, rfl⟩⟩

theorem canonical_eq_nil {runtime : PythonRuntime} {content : PyValue}
    (h : canonical runtime content = .ok []) :
    ∃ frozen digest, canonicalizeProfile runtime content = .ok (frozen, digest) := by
  unfold canonical at h
  split at h
  · next result hresult => exact ⟨result.1, result.2, hresult⟩
  all_goals cases h

end ConfigurationValidator

end Validation

theorem Activation.Accepted.denotes (h : call.Accepted ports) :
    ∃ canonical digest reference, call.Denotes ports canonical digest reference := by
  obtain ⟨sections, -, hrules⟩ := ConfigurationValidator.validate_eq_valid.1 h.valid
  obtain ⟨canonical, digest, hcanonical⟩ := ConfigurationValidator.canonical_eq_nil
    (hrules (ConfigurationValidator.canonical ports.runtime call.content)
      (by simp [ConfigurationValidator.rules]))
  exact ⟨canonical, digest, ⟨_, ConfigurationReference.passes h.named⟩, hcanonical, rfl⟩

theorem checked_eq_ok {canonical : FrozenMapping} {digest : String}
    {reference : ConfigurationReference} :
    checked ports call = .ok (canonical, digest, reference) ↔
      call.Accepted ports ∧ call.Denotes ports canonical digest reference := by
  unfold checked
  cases hnamed : blank call.profileId with
  | true =>
    rw [if_pos rfl]
    refine iff_of_false ?_ ?_
    · rintro ⟨⟩
    · rintro ⟨h, -⟩
      rw [h.named] at hnamed
      cases hnamed
  | false =>
    rw [if_neg (by decide), except_bind_eq_ok]
    constructor
    · rintro ⟨report, hreport, h⟩
      rw [except_mapError_eq_ok] at hreport
      by_cases hvalid : report.valid = false
      · rw [if_pos hvalid] at h
        cases h
      · rw [if_neg hvalid, except_bind_eq_ok] at h
        obtain ⟨⟨frozen, found⟩, hfrozen, h⟩ := h
        obtain ⟨made, hmade, h⟩ := except_bind_eq_ok.1 h
        rw [except_mapError_eq_ok] at hfrozen hmade
        cases h
        obtain ⟨_ | _⟩ := report
        · exact ⟨⟨hnamed, hreport⟩, hfrozen, Checked.make_eq_ok.1 hmade⟩
        · exact absurd rfl hvalid
    · rintro ⟨haccepted, hd⟩
      refine ⟨⟨[]⟩, except_mapError_eq_ok.2 haccepted.valid, ?_⟩
      rw [if_neg (by decide), except_bind_eq_ok]
      refine ⟨(canonical, digest), except_mapError_eq_ok.2 hd.canonicalized, except_bind_eq_ok.2 ?_⟩
      exact ⟨reference, except_mapError_eq_ok.2 (Checked.make_eq_ok.2 hd.reference), rfl⟩

theorem activate_outcome : ActivateOutcome ports call s
    ((ConfigurationRegistry.activate ports call).exec s).1
    ((ConfigurationRegistry.activate ports call).exec s).2 := by
  unfold ConfigurationRegistry.activate
  rw [exec_bind, exec_liftExcept]
  cases hchecked : checked ports call with
  | error e =>
    refine .refused e fun haccepted => ?_
    obtain ⟨canonical, digest, reference, hd⟩ := haccepted.denotes
    rw [checked_eq_ok.2 ⟨haccepted, hd⟩] at hchecked
    cases hchecked
  | ok found =>
    obtain ⟨canonical, digest, reference⟩ := found
    obtain ⟨haccepted, hd⟩ := checked_eq_ok.1 hchecked
    dsimp only
    unfold store
    rw [exec_bind, exec_bind, exec_get]
    cases hversion : s.versions.get? reference with
    | some existing =>
      dsimp only
      rw [hversion]
      dsimp only
      by_cases hequal : (FrozenValue.mapping existing.content).equal (.mapping canonical) = true
      · rw [if_pos hequal]
        exact .known canonical digest reference existing haccepted hd hversion hequal
      · rw [if_neg hequal]
        exact .collided canonical digest reference existing haccepted hd hversion
          (Bool.eq_false_of_not_eq_true hequal)
    | none =>
      dsimp only
      rw [hversion]
      dsimp only
      cases hplus : call.clock.plus ports.retentionPeriod with
      | error e => exact .undated canonical digest reference e haccepted hd hversion hplus
      | ok retainUntil =>
        exact .stored canonical digest reference retainUntil haccepted hd hversion hplus

/-- A version is stored under its own reference, whose version is the digest of its content. -/
def ConfigurationRegistry.Recorded (ports : ConfigurationPorts)
    (s : ConfigurationRegistry) : Prop :=
  ∀ reference version, s.versions.get? reference = some version →
    version.reference = reference ∧
      contentDigest ports.runtime version.content = .ok version.canonicalDigest ∧
      reference.val.version = "sha256:" ++ version.canonicalDigest

/-- What is found under a reference is its content, or content that compares equal. -/
structure Activation.Holds (ports : ConfigurationPorts) (call : Activation)
    (reference : ConfigurationReference) (version : StoredConfigurationVersion) : Prop where
  profile : reference.val.profileId = call.profileId
  content : ∃ canonical digest, canonicalizeProfile ports.runtime call.content =
    .ok (canonical, digest) ∧ reference.val.version = "sha256:" ++ digest ∧
      (version.content = canonical ∨
        (FrozenValue.mapping version.content).equal (.mapping canonical) = true)

theorem canonicalizeProfile_freeze {runtime : PythonRuntime} {content : PyValue}
    {canonical : FrozenMapping} {digest : String}
    (h : canonicalizeProfile runtime content = .ok (canonical, digest)) :
    content.freeze = .ok (.mapping canonical) := by
  obtain ⟨frozen, hfrozen, h⟩ := except_bind_eq_ok.1 h
  cases frozen with
  | mapping entries =>
    obtain ⟨found, -, h⟩ := except_bind_eq_ok.1 h
    cases h
    exact hfrozen
  | none | bool | int | float | str | tuple | frozenset => cases h

theorem canonicalizeProfile_digest {runtime : PythonRuntime} {content : PyValue}
    {canonical : FrozenMapping} {digest : String}
    (h : canonicalizeProfile runtime content = .ok (canonical, digest)) :
    contentDigest runtime canonical = .ok digest := by
  obtain ⟨frozen, hfrozen, h⟩ := except_bind_eq_ok.1 h
  cases frozen with
  | mapping entries =>
    obtain ⟨found, hfound, h⟩ := except_bind_eq_ok.1 h
    cases h
    exact hfound
  | none | bool | int | float | str | tuple | frozenset => cases h

section Steps

variable {reply : Except ActivationError ConfigurationReference} {s' : ConfigurationRegistry}

theorem ActivateOutcome.unchanged (h : ActivateOutcome ports call s reply s')
    {error : ActivationError} (hreply : reply = .error error) : s' = s := by
  cases h with
  | refused | collided | undated => rfl
  | known | stored => cases hreply

theorem ActivateOutcome.extends_ (h : ActivateOutcome ports call s reply s') :
    s.versions.Extends s'.versions := by
  cases h with
  | refused | collided | undated | known => exact Dict.Extends.refl _
  | stored canonical digest reference retainUntil _ _ hfree _ => exact Dict.extends_insert _ hfree

theorem ActivateOutcome.recorded (h : ActivateOutcome ports call s reply s')
    (hs : s.Recorded ports) : s'.Recorded ports := by
  cases h with
  | refused | collided | undated | known => exact hs
  | stored canonical digest reference retainUntil _ hd _ _ =>
    intro other version hversion
    rw [Dict.get?_insert] at hversion
    split at hversion
    · next hother =>
      cases hversion
      exact ⟨hother.symm, canonicalizeProfile_digest hd.canonicalized, by rw [hother, hd.reference]⟩
    · exact hs other version hversion

theorem ActivateOutcome.active (h : ActivateOutcome ports call s reply s') (profileId : String) :
    s'.active.get? profileId =
      (if call.profileId = profileId then reply.toOption else none).or
        (s.active.get? profileId) := by
  cases h with
  | refused | collided | undated =>
    split
    · rfl
    · rfl
  | known _ _ reference | stored _ _ reference =>
    rw [Dict.get?_insert]
    by_cases hprofile : call.profileId = profileId
    · rw [if_pos hprofile, if_pos hprofile.symm]
      rfl
    · rw [if_neg hprofile, if_neg (Ne.symm hprofile)]
      rfl

/-- A reference that is returned stands for the content it was activated with. -/
theorem ActivateOutcome.holds (h : ActivateOutcome ports call s reply s')
    {reference : ConfigurationReference} (hreply : reply = .ok reference) :
    ∃ version, s'.versions.get? reference = some version ∧ call.Holds ports reference version := by
  cases h with
  | refused | collided | undated => cases hreply
  | known canonical digest known existing _ hd hexisting hequal =>
    cases hreply
    exact ⟨existing, hexisting, by rw [hd.reference], canonical, digest, hd.canonicalized,
      by rw [hd.reference], Or.inr hequal⟩
  | stored canonical digest stored retainUntil _ hd _ _ =>
    cases hreply
    refine ⟨_, by rw [Dict.get?_insert, if_pos rfl], by rw [hd.reference], canonical, digest,
      hd.canonicalized, by rw [hd.reference], Or.inl rfl⟩

end Steps

end AiRetrieval
