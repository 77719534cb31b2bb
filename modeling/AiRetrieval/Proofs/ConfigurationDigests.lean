import AiRetrieval.Proofs.BoundConfigurations
import AiRetrieval.Sanity.CanonicalReadings
import Mathlib.Data.Rat.Encodable

/-! When different configuration content gets a different version. The canonical form does not
tell a set from the tuple of its members in the order of their texts, nor two orders of the
items of a mapping that was frozen before. -/

namespace AiRetrieval

open ConfigurationRegistry CanonicalForm

variable {ports : ConfigurationPorts}

theorem contentDigest_eq_iff {runtime : PythonRuntime} (hsha : Function.Injective runtime.sha256)
    (hfloat : JsonValue.FloatTexts (fun value => value.isFinite = true) runtime.numberText)
    {content other : FrozenMapping} {digest digest' : String}
    (h : contentDigest runtime content = .ok digest)
    (h' : contentDigest runtime other = .ok digest') :
    digest = digest' ↔ Alike configurationForm runtime (.mapping content) (.mapping other) := by
  have hencoded {content : FrozenMapping} {digest : String}
      (h : contentDigest runtime content = .ok digest) :
      ∃ document bytes, configurationForm.canonicalValue runtime (.mapping content) = .ok document ∧
        (CanonicalPayload.dumps runtime document >>= encodeText) = .ok bytes ∧
        digest = runtime.sha256 bytes := by
    obtain ⟨document, hdocument, h⟩ := except_bind_eq_ok.1 h
    obtain ⟨text, htext, h⟩ := except_bind_eq_ok.1 h
    obtain ⟨bytes, hbytes, h⟩ := except_bind_eq_ok.1 h
    cases h
    exact ⟨document, bytes, hdocument, except_bind_eq_ok.2 ⟨text, htext, hbytes⟩, rfl⟩
  obtain ⟨document, bytes, hdocument, hbytes, rfl⟩ := hencoded h
  obtain ⟨document', bytes', hdocument', hbytes', rfl⟩ := hencoded h'
  rw [hsha.eq_iff, encoded_eq_iff hfloat (canonicalValue_finite hdocument)
    (canonicalValue_finite hdocument') hbytes hbytes', alike_iff hdocument hdocument']

theorem Activation.Accepted.freeze_iff {call : Activation} (h : call.Accepted ports)
    {canonical : FrozenMapping} : call.content.freeze = .ok (.mapping canonical) ↔
      ∃ digest, canonicalizeProfile ports.runtime call.content = .ok (canonical, digest) := by
  constructor
  · intro hfrozen
    obtain ⟨frozen, digest, reference, hd⟩ := h.denotes
    obtain ⟨value, hvalue, hresult⟩ := except_bind_eq_ok.1 hd.canonicalized
    rw [hfrozen] at hvalue
    cases hvalue
    obtain ⟨found, hfound, hresult⟩ := except_bind_eq_ok.1 hresult
    cases hresult
    exact ⟨digest, hd.canonicalized⟩
  · rintro ⟨digest, hcanonical⟩
    obtain ⟨value, hvalue, hresult⟩ := except_bind_eq_ok.1 hcanonical
    cases value with
    | mapping items =>
      obtain ⟨found, hfound, hresult⟩ := except_bind_eq_ok.1 hresult
      cases hresult
      exact hvalue
    | none | bool | int | float | str | tuple | frozenset => cases hresult

/-- Contents that differ have different digests. -/
def DigestedApart (ports : ConfigurationPorts) (call other : Activation) : Prop :=
  ∀ canonical digest canonical' digest',
    canonicalizeProfile ports.runtime call.content = .ok (canonical, digest) →
    canonicalizeProfile ports.runtime other.content = .ok (canonical', digest') →
    (FrozenValue.mapping canonical).equal (.mapping canonical') = false → digest ≠ digest'

def ReadApart (ports : ConfigurationPorts) (call other : Activation) : Prop :=
  ∀ canonical canonical', call.content.freeze = .ok (.mapping canonical) →
    other.content.freeze = .ok (.mapping canonical') →
    (FrozenValue.mapping canonical).equal (.mapping canonical') = false →
    ¬Alike configurationForm ports.runtime (.mapping canonical) (.mapping canonical')

theorem digestedApart_iff (hsha : Function.Injective ports.runtime.sha256)
    (hfloat : JsonValue.FloatTexts (fun value => value.isFinite = true) ports.runtime.numberText)
    {call other : Activation} (hcall : call.Accepted ports) (hother : other.Accepted ports) :
    DigestedApart ports call other ↔ ReadApart ports call other := by
  constructor
  · intro h canonical canonical' hfrozen hfrozen' hdiffers
    obtain ⟨digest, hcanonical⟩ := hcall.freeze_iff.1 hfrozen
    obtain ⟨digest', hcanonical'⟩ := hother.freeze_iff.1 hfrozen'
    rw [← contentDigest_eq_iff hsha hfloat (canonicalizeProfile_digest hcanonical)
      (canonicalizeProfile_digest hcanonical')]
    exact h canonical digest canonical' digest' hcanonical hcanonical' hdiffers
  · intro h canonical digest canonical' digest' hcanonical hcanonical' hdiffers
    rw [Ne, contentDigest_eq_iff hsha hfloat (canonicalizeProfile_digest hcanonical)
      (canonicalizeProfile_digest hcanonical')]
    exact h canonical canonical' (hcall.freeze_iff.2 ⟨digest, hcanonical⟩)
      (hother.freeze_iff.2 ⟨digest', hcanonical'⟩) hdiffers

/-- The versions stored for a profile that read like some content compare equal to it. -/
def NoneConfused (ports : ConfigurationPorts) (s : ConfigurationRegistry) (profileId : String)
    (canonical : FrozenMapping) : Prop :=
  ∀ reference version, s.versions.get? reference = some version →
    reference.val.profileId = profileId →
    Alike configurationForm ports.runtime (.mapping version.content) (.mapping canonical) →
    (FrozenValue.mapping version.content).equal (.mapping canonical) = true

theorem ActivateOutcome.collides_iff (hsha : Function.Injective ports.runtime.sha256)
    (hfloat : JsonValue.FloatTexts (fun value => value.isFinite = true) ports.runtime.numberText)
    {call : Activation} {s s' : ConfigurationRegistry}
    {reply : Except ActivationError ConfigurationReference}
    (h : ActivateOutcome ports call s reply s') (hs : s.Recorded ports)
    (haccepted : call.Accepted ports) :
    reply ≠ .error digestCollision ↔ ∀ canonical, call.content.freeze = .ok (.mapping canonical) →
      NoneConfused ports s call.profileId canonical := by
  -- what is stored under the profile and reads like the content is stored under its reference
  have hunder {canonical : FrozenMapping} {digest : String} {reference : ConfigurationReference}
      (hd : call.Denotes ports canonical digest reference) {other : ConfigurationReference}
      {version : StoredConfigurationVersion} (hversion : s.versions.get? other = some version)
      (hprofile : other.val.profileId = call.profileId) :
      Alike configurationForm ports.runtime (.mapping version.content) (.mapping canonical) ↔
        other = reference := by
    obtain ⟨-, hdigest, hnamed⟩ := hs other version hversion
    rw [← contentDigest_eq_iff hsha hfloat hdigest (canonicalizeProfile_digest hd.canonicalized)]
    constructor
    · intro hsame
      apply Checked.ext
      rw [hd.reference, ← hsame, ← hprofile, ← hnamed]
    · rintro rfl
      rw [hd.reference] at hnamed
      exact ((String.append_right_inj _).1 hnamed).symm
  have hdenotes {canonical canonical' : FrozenMapping} {digest : String}
      {reference : ConfigurationReference} (hd : call.Denotes ports canonical digest reference)
      (h : call.content.freeze = .ok (.mapping canonical')) : canonical' = canonical := by
    have hsame := h.symm.trans (haccepted.freeze_iff.2 ⟨digest, hd.canonicalized⟩)
    cases hsame
    rfl
  cases h with
  | refused error hnot => exact absurd haccepted hnot
  | collided canonical digest reference existing _ hd hversion hdiffers =>
    refine iff_of_false (fun h => h rfl) (fun h => ?_)
    have hprofile : reference.val.profileId = call.profileId := by rw [hd.reference]
    rw [h canonical (haccepted.freeze_iff.2 ⟨digest, hd.canonicalized⟩) reference existing
      hversion hprofile
      ((hunder hd hversion hprofile).2 rfl)] at hdiffers
    cases hdiffers
  | undated canonical digest reference error _ hd hfree hplus =>
    refine iff_of_true (fun h => ?_) (fun canonical' hcanonical other version hversion
      hprofile halike => ?_)
    · unfold DateTime.plus at hplus
      split at hplus
      · cases hplus
      · cases hplus
        cases h
    · rw [hdenotes hd hcanonical] at halike
      rw [(hunder hd hversion hprofile).1 halike, hfree] at hversion
      cases hversion
  | known canonical digest reference existing _ hd hversion hequal =>
    refine iff_of_true (fun h => (by cases h)) (fun canonical' hcanonical other version
      hother hprofile halike => ?_)
    rw [hdenotes hd hcanonical] at halike ⊢
    rw [(hunder hd hother hprofile).1 halike, hversion] at hother
    cases hother
    exact hequal
  | stored canonical digest reference retainUntil _ hd hfree _ =>
    refine iff_of_true (fun h => (by cases h)) (fun canonical' hcanonical other version
      hother hprofile halike => ?_)
    rw [hdenotes hd hcanonical] at halike
    rw [(hunder hd hother hprofile).1 halike, hfree] at hother
    cases hother

def NeverCollides (ports : ConfigurationPorts) (calls : List Activation) : Prop :=
  ∀ t ∈ (configurationMachine ports).history {} calls, t.input.Accepted ports →
    t.reply ≠ .error digestCollision

theorem neverCollides_iff (hsha : Function.Injective ports.runtime.sha256)
    (hfloat : JsonValue.FloatTexts (fun value => value.isFinite = true) ports.runtime.numberText)
    (calls : List Activation) : NeverCollides ports calls ↔
      ∀ t ∈ (configurationMachine ports).history {} calls, t.input.Accepted ports →
        ∀ canonical, t.input.content.freeze = .ok (.mapping canonical) →
          NoneConfused ports t.before t.input.profileId canonical := by
  have hrecorded {t : Transition Activation (Except ActivationError ConfigurationReference)
      ConfigurationRegistry} (ht : t ∈ (configurationMachine ports).history {} calls) :
      t.before.Recorded ports :=
    Machine.history_invariant (P := fun s => s.Recorded ports)
      (fun call s hs => (configurationMachine_outcome ports call s).recorded hs)
      (fun _ _ h => by cases h) ht
  refine forall₂_congr fun t ht => imp_congr_right fun haccepted => ?_
  exact (history_outcome ht).collides_iff hsha hfloat (hrecorded ht) haccepted

theorem different_contents_iff (ports : ConfigurationPorts)
    (hsha : Function.Injective ports.runtime.sha256)
    (hfloat : JsonValue.FloatTexts (fun value => value.isFinite = true) ports.runtime.numberText) :
    (∀ call other, call.Accepted ports → other.Accepted ports →
      (DigestedApart ports call other ↔ ReadApart ports call other)) ∧
    ∀ calls, NeverCollides ports calls ↔
      ∀ t ∈ (configurationMachine ports).history {} calls, t.input.Accepted ports →
        ∀ canonical, t.input.content.freeze = .ok (.mapping canonical) →
          NoneConfused ports t.before t.input.profileId canonical :=
  ⟨fun _ _ hcall hother => digestedApart_iff hsha hfloat hcall hother,
    neverCollides_iff hsha hfloat⟩

namespace Sample

def digests : PythonRuntime where
  scan _ := .stopped [] .malformed
  nesting := 900
  canonicalNesting := 450
  floatText
    | .finite negative magnitude => toString (Encodable.encode (negative, magnitude)) ++ ".0"
    | .infinite _ => "inf"
    | .nan _ => "nan"
  textOf _ := []
  sha256 bytes := String.ofList (bytes.map Char.ofUInt8)
  b64encode _ := ""
  b64decode _ := .ok []

theorem digests_injective : Function.Injective digests.sha256 := by
  intro a b h
  refine List.map_injective_iff.2 (fun x y hxy => ?_) (String.ofList_injective h)
  exact UInt8.toUInt32_inj.1 (congrArg Char.val hxy)

theorem digests_floatTexts :
    JsonValue.FloatTexts (fun value => value.isFinite = true) digests.numberText := by
  have htext (negative : Bool) (magnitude : Rat) :
      digests.numberText (.finite negative magnitude) =
        CodeText.ofString (toString (Encodable.encode (negative, magnitude))) ++
          CodeText.ofString ".0" := by
    unfold PythonRuntime.numberText CodeText.ofString
    change List.map CodePoint.ofChar (toString _ ++ ".0").toList = _
    rw [String.toList_append, List.map_append]
  have hfinite {x : PyFloat} (hx : x.isFinite = true) :
      ∃ negative magnitude, x = .finite negative magnitude := by
    cases x with
    | finite negative magnitude => exact ⟨negative, magnitude, rfl⟩
    | nan | infinite => cases hx
  refine ⟨fun x hx p hp => ?_, fun x hx => ?_, fun x y hx hy h => ?_⟩
  · obtain ⟨negative, magnitude, rfl⟩ := hfinite hx
    rw [htext, List.mem_append] at hp
    rcases hp with hp | hp
    · rw [CodeText.ofString, List.mem_map, JsonValue.toList_repr] at hp
      obtain ⟨c, hc, rfl⟩ := hp
      exact List.mem_append_left _ (JsonValue.digits_integral _ c hc)
    · have hpoint : (CodeText.ofString ".0").all (JsonValue.numeric.contains ·) = true := by
        decide +kernel
      exact List.contains_iff_mem.1 (List.all_eq_true.1 hpoint p hp)
  · obtain ⟨negative, magnitude, rfl⟩ := hfinite hx
    refine ⟨CodePoint.ofChar '.', ?_, by decide +kernel⟩
    rw [htext]
    exact List.mem_append_right _ (by decide +kernel)
  · obtain ⟨negative, magnitude, rfl⟩ := hfinite hx
    obtain ⟨negative', magnitude', rfl⟩ := hfinite hy
    rw [htext, htext, List.append_left_inj] at h
    have hdigits := congrArg String.toList (CodeText.ofString_injective h)
    rw [JsonValue.toList_repr, JsonValue.toList_repr] at hdigits
    cases Encodable.encode_injective (JsonValue.toDigits_injective hdigits)
    rfl

def profile (options : PyValue) : PyValue := .dict [
  (.str "routing", .dict [(.str "interactive", .bool true), (.str "bulk", .bool true)]),
  (.str "database", .dict [(.str "adapter_id", .str "memory"), (.str "adapter_version", .str "1"),
    (.str "read_only_credential_id", .str "reader")]),
  (.str "model", .dict [(.str "versions", .list [.str "model-1"])]),
  (.str "budget", .dict [(.str "cost_limit", .int 10), (.str "token_limit", .int 1000)]),
  (.str "deadline", .dict [(.str "duration_seconds", .int 2)]),
  (.str "cancellation", .dict [(.str "timeout_seconds", .int 0)]),
  (.str "concurrency", .dict [(.str "limit", .int 4)]),
  (.str "retry", .dict [(.str "max_attempts", .int 2)]),
  (.str "security", .dict [(.str "policy_version", .str "security-1")]),
  (.str "validation", .dict [(.str "rules_version", .str "rules-1")]),
  (.str "telemetry", .dict [(.str "enabled", .bool true)]),
  (.str "write_back", .dict [(.str "enabled", .bool false)]),
  (.str "options", options)]

def activation (options : PyValue) : Activation where
  profileId := "default"
  content := profile options
  validator := ⟨["security-1"], ["rules-1"], ["model-1"], [("memory", "1")],
    Dict.empty.insert "reader" ["select"]⟩
  clock := ⟨true, 1000⟩

def configurations : ConfigurationPorts := ⟨digests, 30⟩

theorem activation_tuple : (activation (.tuple [.int 1])).Accepted configurations :=
  ⟨by decide +kernel, by decide +kernel⟩

theorem activation_set : (activation (.frozenset [.int 1])).Accepted configurations :=
  ⟨by decide +kernel, by decide +kernel⟩

end Sample

theorem different_contents_iff_sample :
    (DigestedApart Sample.configurations (Sample.activation (.tuple [.int 1]))
      (Sample.activation (.frozenset [.int 1])) ↔
      ReadApart Sample.configurations (Sample.activation (.tuple [.int 1]))
        (Sample.activation (.frozenset [.int 1]))) ∧
    NeverCollides Sample.configurations [Sample.activation (.tuple [.int 1])] := by
  obtain ⟨hdigests, hcollides⟩ := different_contents_iff Sample.configurations
    Sample.digests_injective Sample.digests_floatTexts
  refine ⟨hdigests _ _ Sample.activation_tuple Sample.activation_set, (hcollides _).2 ?_⟩
  -- the only activation starts from the empty registry
  intro t ht _ canonical _ reference version hversion
  rw [Machine.history_cons, Machine.history_nil, List.mem_singleton] at ht
  rw [ht] at hversion
  cases hversion

namespace Sample

def digestedText (runtime : PythonRuntime) (frozen : FrozenValue) : Except PyError CodeText := do
  CanonicalPayload.dumps runtime (← configurationForm.canonicalValue runtime frozen)

theorem contentDigest_congr {runtime : PythonRuntime} {content content' : FrozenMapping}
    (h : digestedText runtime (.mapping content) = digestedText runtime (.mapping content')) :
    contentDigest runtime content = contentDigest runtime content' := by
  have hdigest (content : FrozenMapping) : contentDigest runtime content =
      digestedText runtime (.mapping content) >>= fun text =>
        return runtime.sha256 (← encodeText text) := by
    unfold contentDigest digestedText
    exact (bind_assoc ..).symm
  rw [hdigest, hdigest, h]

theorem one_text :
    (do
      let frozen ← (activation (.tuple [.int 1])).content.freeze
      digestedText digests frozen) =
    (do
      let frozen ← (activation (.frozenset [.int 1])).content.freeze
      digestedText digests frozen) ∧
    (do
      let frozen ← (activation (.tuple [.int 1])).content.freeze
      let frozen' ← (activation (.frozenset [.int 1])).content.freeze
      return frozen.equal frozen') = (.ok false : Except PyError Bool) :=
  ⟨by decide +kernel, by decide +kernel⟩

theorem dated : (activation (.tuple [.int 1])).clock.plus configurations.retentionPeriod =
    .ok ⟨true, 1030⟩ := by
  decide +kernel

theorem activations_apart {canonical canonical' : FrozenMapping} {digest digest' : String}
    {reference reference' : ConfigurationReference}
    (hd : (activation (.tuple [.int 1])).Denotes configurations canonical digest reference)
    (hd' : (activation (.frozenset [.int 1])).Denotes configurations canonical' digest'
      reference') :
    digest = digest' ∧ (FrozenValue.mapping canonical).equal (.mapping canonical') = false := by
  obtain ⟨htext, hdiffers⟩ := one_text
  rw [canonicalizeProfile_freeze hd.canonicalized, canonicalizeProfile_freeze hd'.canonicalized]
    at htext hdiffers
  refine ⟨?_, Except.ok.inj hdiffers⟩
  have hdigest := canonicalizeProfile_digest hd.canonicalized
  have hdigest' := canonicalizeProfile_digest hd'.canonicalized
  exact Except.ok.inj (hdigest.symm.trans ((contentDigest_congr htext).trans hdigest'))

end Sample

section Collision

variable {ports : ConfigurationPorts} {first second : Activation}

/-- Two contents of one profile with one digest. -/
def Activation.Collides (ports : ConfigurationPorts) (first second : Activation) : Prop :=
  ∀ canonical digest reference canonical' digest' reference',
    first.Denotes ports canonical digest reference →
    second.Denotes ports canonical' digest' reference' →
    reference' = reference ∧ (FrozenValue.mapping canonical).equal (.mapping canonical') = false

theorem Activation.Collides.rejected (h : first.Collides ports second)
    (hfirst : first.Accepted ports) (hsecond : second.Accepted ports) {retainUntil : DateTime}
    (hdated : first.clock.plus ports.retentionPeriod = .ok retainUntil) :
    (configurationMachine ports second (configurationMachine ports first {}).2).1 =
      .error digestCollision := by
  have hstored := configurationMachine_outcome ports first {}
  generalize (configurationMachine ports first {}).1 = reply at hstored
  generalize (configurationMachine ports first {}).2 = s at hstored ⊢
  cases hstored with
  | refused _ hrefused => exact absurd hfirst hrefused
  | collided _ _ _ _ _ _ hexisting | known _ _ _ _ _ _ hexisting => cases hexisting
  | undated _ _ _ _ _ _ _ hundated => cases hdated.symm.trans hundated
  | stored canonical digest reference retainUntil _ hd _ _ =>
    generalize hs : ConfigurationRegistry.mk _ _ = s
    have hversions : s.versions.get? reference =
        some ⟨reference, canonical, digest, first.clock, retainUntil⟩ := by
      rw [← hs, Dict.get?_insert, if_pos rfl]
    have hcollided := configurationMachine_outcome ports second s
    generalize (configurationMachine ports second s).1 = reply' at hcollided ⊢
    generalize (configurationMachine ports second s).2 = s' at hcollided
    cases hcollided with
    | refused _ hrefused => exact absurd hsecond hrefused
    | collided => rfl
    | undated _ _ _ _ _ hd' hfree | stored _ _ _ _ _ hd' hfree =>
      rw [(h _ _ _ _ _ _ hd hd').1, hversions] at hfree
      cases hfree
    | known _ _ _ existing _ hd' hexisting hequal =>
      obtain ⟨hreference, hdiffers⟩ := h _ _ _ _ _ _ hd hd'
      rw [hreference, hversions] at hexisting
      cases hexisting
      rw [hdiffers] at hequal
      cases hequal

theorem Activation.Collides.history (h : first.Collides ports second)
    (hfirst : first.Accepted ports) (hsecond : second.Accepted ports) {retainUntil : DateTime}
    (hdated : first.clock.plus ports.retentionPeriod = .ok retainUntil) :
    ¬NeverCollides ports [first, second] := by
  intro hnever
  refine hnever ((configurationMachine ports).transition (configurationMachine ports first {}).2
    second) ?_ hsecond (h.rejected hfirst hsecond hdated)
  rw [Machine.history_cons, Machine.history_cons, Machine.history_nil]
  exact List.mem_cons_of_mem _ (List.mem_singleton_self _)

end Collision

/-- The tuple `(1,)` and the set `{1}` have one digest, and the second of them to be activated
collides. -/
theorem set_collides_with_tuple :
    Function.Injective Sample.configurations.runtime.sha256 ∧
    (¬∀ call other : Activation, call.Accepted Sample.configurations →
      other.Accepted Sample.configurations → DigestedApart Sample.configurations call other) ∧
    ¬∀ calls, NeverCollides Sample.configurations calls := by
  refine ⟨Sample.digests_injective, fun h => ?_, fun h => ?_⟩
  · obtain ⟨canonical, digest, _, hd⟩ := Sample.activation_tuple.denotes
    obtain ⟨canonical', digest', _, hd'⟩ := Sample.activation_set.denotes
    obtain ⟨hsame, hdiffers⟩ := Sample.activations_apart hd hd'
    exact h _ _ Sample.activation_tuple Sample.activation_set _ _ _ _ hd.canonicalized
      hd'.canonicalized hdiffers hsame
  · have hcollides : (Sample.activation (.tuple [.int 1])).Collides Sample.configurations
        (Sample.activation (.frozenset [.int 1])) := by
      intro canonical digest reference canonical' digest' reference' hd hd'
      obtain ⟨hsame, hdiffers⟩ := Sample.activations_apart hd hd'
      refine ⟨Checked.ext ?_, hdiffers⟩
      rw [hd'.reference, hd.reference, hsame]
      rfl
    exact hcollides.history Sample.activation_tuple Sample.activation_set Sample.dated (h _)

end AiRetrieval
